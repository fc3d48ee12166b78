import FtpsServer.Lib.FileContents

/-!
# Blocks appended by several writers

Appends to different files commute, and an append to a file that is there commutes with
the opening of another one.  So a tree that several writers appended to is the tree with
their files opened and then the blocks, in the order in which they were written; and it
does not matter in which order the blocks of different files went out.
-/

namespace Posix

open ByteString

namespace FileTree

variable {t : FileTree} {l l' : Location}

/-! ## 1. Appends and openings commute -/

theorem append_comm (hne : l' ≠ l) (bytes bytes' : Bytes) :
    (t.append l bytes).append l' bytes' = (t.append l' bytes').append l bytes := by
  refine FileTree.ext (funext fun k => ?_) rfl rfl rfl
  simp only [append_node, if_neg hne, if_neg hne.symm]
  by_cases hk : k = l'
  · rw [if_pos hk, hk, if_neg hne, if_pos rfl]
  · rw [if_neg hk, if_neg hk]

theorem sameShape_append (t : FileTree) (l : Location) (bytes : Bytes) :
    SameShape t (t.append l bytes) := by
  simpa only [append_nil] using (SameShape.refl t).append l [] bytes

theorem append_isSome (t : FileTree) (l k : Location) (bytes : Bytes) :
    ((t.append l bytes).node k).isSome = (t.node k).isSome :=
  (sameShape_append t l bytes).isSome k

/-- A file that is there is not the one that an `open` creates. -/
theorem openAppend_append (hl : (t.node l).isSome) (bytes path : Bytes) :
    (t.append l bytes).openAppend path =
      (t.openAppend path).map fun opened => (opened.1.append l bytes, opened.2) := by
  have hshape := sameShape_append t l bytes
  rcases hshape.openAppend path with ⟨hold, hnew⟩ | ⟨u, u', k, hold, hnew, hopened⟩
  · rw [hold, hnew]
    rfl
  · rw [hold, hnew, Option.map_some]
    refine congrArg some (Prod.ext (FileTree.ext (funext fun m => ?_) ?_ ?_ ?_) rfl)
    · rcases openAppend_cases hold with ⟨rfl, hthere⟩ | ⟨hfree, hfresh, helse⟩
      · rcases openAppend_cases hnew with ⟨rfl, -⟩ | ⟨hfree', -, -⟩
        · rfl
        · rw [hshape.node_eq_none_iff.mp hfree'] at hthere
          cases hthere
      · have hfree' := hshape.node_eq_none_iff.mpr hfree
        rcases openAppend_cases hnew with ⟨-, hthere⟩ | ⟨-, hfresh', helse'⟩
        · rw [hfree'] at hthere
          cases hthere
        · have hne : k ≠ l := by
            rintro rfl
            rw [hfree] at hl
            cases hl
          by_cases hm : m = k
          · rw [hm, hfresh', append_node, if_neg hne, hfresh]
          · rw [helse' m hm, append_node, append_node, helse m hm, helse l hne.symm]
    · exact hopened.entries
    · exact hopened.cwd
    · exact hopened.symloopMax

/-! ## 2. A log of appends -/

/-- The blocks of a log, appended one after the other. -/
def appends (t : FileTree) (log : List (Location × Bytes)) : FileTree :=
  log.foldl (fun t block => t.append block.1 block.2) t

@[simp] theorem appends_nil (t : FileTree) : t.appends [] = t := rfl

theorem appends_cons (t : FileTree) (block : Location × Bytes) (log : List (Location × Bytes)) :
    t.appends (block :: log) = (t.append block.1 block.2).appends log := rfl

theorem appends_concat (t : FileTree) (log : List (Location × Bytes)) (l : Location)
    (bytes : Bytes) : t.appends (log ++ [(l, bytes)]) = (t.appends log).append l bytes := by
  rw [appends, List.foldl_append]
  rfl

/-- What a log brings to one file. -/
def bytesFor (l : Location) (log : List (Location × Bytes)) : Bytes :=
  (log.filter fun block => block.1 = l).flatMap Prod.snd

theorem bytesFor_cons (l : Location) (block : Location × Bytes) (log : List (Location × Bytes)) :
    bytesFor l (block :: log) = (if block.1 = l then block.2 else []) ++ bytesFor l log := by
  unfold bytesFor
  by_cases h : block.1 = l
  · rw [List.filter_cons_of_pos (by simpa using h), List.flatMap_cons, if_pos h]
  · rw [List.filter_cons_of_neg (by simpa using h), if_neg h, List.nil_append]

/-- **Every file gets its blocks in the order of the log**, and no others. -/
theorem appends_node (t : FileTree) (log : List (Location × Bytes)) (l : Location) :
    (t.appends log).node l = (t.append l (bytesFor l log)).node l := by
  induction log generalizing t with
  | nil => rw [appends_nil, bytesFor, List.filter_nil, List.flatMap_nil, append_nil]
  | cons block log ih =>
    rw [appends_cons, ih, bytesFor_cons]
    by_cases h : block.1 = l
    · rw [if_pos h, h, append_append]
    · rw [if_neg h, List.nil_append, append_node, append_node, append_node, if_pos rfl, if_pos rfl,
        if_neg (Ne.symm h)]

theorem openAppend_appends {log : List (Location × Bytes)}
    (h : ∀ block ∈ log, (t.node block.1).isSome) (path : Bytes) :
    (t.appends log).openAppend path =
      (t.openAppend path).map fun opened => (opened.1.appends log, opened.2) := by
  induction log generalizing t with
  | nil =>
    rw [appends_nil]
    cases t.openAppend path <;> rfl
  | cons block log ih =>
    have hblock := h block List.mem_cons_self
    have hlog : ∀ b ∈ log, ((t.append block.1 block.2).node b.1).isSome := by
      intro b hb
      rw [append_isSome]
      exact h b (List.mem_cons_of_mem _ hb)
    rw [appends_cons, ih hlog, openAppend_append hblock, Option.map_map]
    rfl

end FileTree

end Posix
