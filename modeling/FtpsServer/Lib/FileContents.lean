import FtpsServer.Lib.PathWalk

/-!
# Trees that differ in what is in the files

No call but `read` looks at the content of a file.  Two trees that have the same objects
in the same places, and may differ in the contents of regular files, resolve every path
alike, answer every query alike and allow the same changes; and they are still alike
after any change that is made to both.
-/

namespace Posix

open ByteString

namespace FileTree

/-- The same tree but for the contents of regular files. -/
structure SameShape (t t' : FileTree) : Prop where
  node : ∀ l, t'.node l = t.node l ∨ ∃ mode content content',
    t.node l = some (.regular mode content) ∧ t'.node l = some (.regular mode content')
  entries : t'.entries = t.entries
  cwd : t'.cwd = t.cwd
  symloopMax : t'.symloopMax = t.symloopMax

namespace SameShape

variable {t t' : FileTree} {nofollow : Bool}

theorem refl (t : FileTree) : SameShape t t := ⟨fun _ => Or.inl rfl, rfl, rfl, rfl⟩

theorem setContent (t : FileTree) (l : Location) (content : Bytes) :
    SameShape t (t.setContent l content) := by
  refine ⟨?_, rfl, rfl, rfl⟩
  intro k
  rw [setContent_node]
  split
  · next heq =>
    subst heq
    split
    · next mode before hregular => exact Or.inr ⟨mode, before, content, hregular, rfl⟩
    · exact Or.inl rfl
  · exact Or.inl rfl

/-! ## 1. Queries -/

theorem isSome (h : SameShape t t') (l : Location) : (t'.node l).isSome = (t.node l).isSome := by
  rcases h.node l with heq | ⟨mode, content, content', hold, hnew⟩
  · rw [heq]
  · rw [hold, hnew]
    rfl

theorem node_eq_none_iff (h : SameShape t t') {l : Location} : t'.node l = none ↔ t.node l = none := by
  rw [← Option.isNone_iff_eq_none, ← Option.isNone_iff_eq_none, ← Option.not_isSome,
    ← Option.not_isSome, h.isSome]

theorem isDirectory (h : SameShape t t') (l : Location) : t'.isDirectory l = t.isDirectory l := by
  unfold FileTree.isDirectory
  rcases h.node l with heq | ⟨mode, content, content', hold, hnew⟩
  · rw [heq]
  · rw [hold, hnew]
    rfl

theorem searchable (h : SameShape t t') (l : Location) : t'.searchable l = t.searchable l := by
  unfold FileTree.searchable
  rcases h.node l with heq | ⟨mode, content, content', hold, hnew⟩
  · rw [heq]
  · rw [hold, hnew]

theorem writable (h : SameShape t t') (l : Location) : t'.writable l = t.writable l := by
  unfold FileTree.writable
  rcases h.node l with heq | ⟨mode, content, content', hold, hnew⟩
  · rw [heq]
  · rw [hold, hnew]

theorem link (h : SameShape t t') (l : Location) : t'.link l = t.link l := by
  unfold FileTree.link
  rcases h.node l with heq | ⟨mode, content, content', hold, hnew⟩
  · rw [heq]
  · rw [hold, hnew]

theorem isEmptyDirectory (h : SameShape t t') (l : Location) :
    t'.isEmptyDirectory l = t.isEmptyDirectory l := by
  unfold FileTree.isEmptyDirectory
  rw [h.isDirectory, h.entries]

theorem mayTake (h : SameShape t t') (l : Location) : t'.mayTake l = t.mayTake l := by
  have hmode : ∀ k, (t'.node k).map Node.mode = (t.node k).map Node.mode := by
    intro k
    rcases h.node k with heq | ⟨mode, content, content', hold, hnew⟩
    · rw [heq]
    · rw [hold, hnew]
      rfl
  rw [FileTree.mayTake, FileTree.mayTake, h.writable, hmode, hmode]

theorem sameWays (h : SameShape t t') : SameWays t t' :=
  ⟨h.cwd, h.symloopMax, h.isDirectory, h.searchable, h.link⟩

theorem locate (h : SameShape t t') (path : Bytes) : t'.locate nofollow path = t.locate nofollow path :=
  h.sameWays.locate path

theorem resolve (h : SameShape t t') (path : Bytes) : t'.resolve path = t.resolve path := by
  unfold FileTree.resolve
  rw [h.locate]
  congr 1
  funext l
  exact h.isSome l

theorem entry (h : SameShape t t') (path : Bytes) : t'.entry path = t.entry path :=
  h.sameWays.entry path

theorem realResolve (h : SameShape t t') (path : Bytes) :
    t'.realResolve path = t.realResolve path := by
  unfold FileTree.realResolve
  rw [h.sameWays.realLocate]
  congr 1
  funext l
  exact h.isSome l

theorem realpath (h : SameShape t t') (path : Bytes) : t'.realpath path = t.realpath path := by
  rw [FileTree.realpath, FileTree.realpath, h.realResolve]

/-- What `lstat` finds is of one kind in both. -/
theorem lstat (h : SameShape t t') (path : Bytes) :
    t'.lstat path = t.lstat path ∨ ∃ mode content content',
      t.lstat path = some (.regular mode content) ∧
        t'.lstat path = some (.regular mode content') := by
  unfold FileTree.lstat
  rw [h.locate]
  cases t.locate true path with
  | none => exact Or.inl rfl
  | some l => exact h.node l

theorem opendir (h : SameShape t t') (path : Bytes) : t'.opendir path = t.opendir path := by
  unfold FileTree.opendir
  rw [h.resolve]
  congr 1
  funext l
  rcases h.node l with heq | ⟨mode, content, content', hold, hnew⟩
  · rw [heq]
  · rw [hold, hnew]

theorem mayRemove (h : SameShape t t') (path : Bytes) (l : Location) :
    t'.mayRemove path l = t.mayRemove path l := by
  unfold FileTree.mayRemove
  rw [h.mayTake, h.isEmptyDirectory]
  rcases h.node l with heq | ⟨mode, content, content', hold, hnew⟩
  · rw [heq]
  · rw [hold, hnew]

theorem mayRename (h : SameShape t t') (oldPath newPath : Bytes) (old new : Location) :
    t'.mayRename oldPath newPath old new = t.mayRename oldPath newPath old new := by
  unfold FileTree.mayRename
  rw [h.mayTake, h.mayTake, h.writable, h.isEmptyDirectory]
  rcases h.node old with heq | ⟨mode, content, content', hold, hnew⟩
  · rcases h.node new with heq' | ⟨mode, content, content', hold', hnew'⟩
    · rw [heq, heq']
    · rw [heq, hold', hnew']
      rfl
  · rcases h.node new with heq' | ⟨mode, content, content', hold', hnew'⟩
    · rw [hold, hnew, heq']
      rfl
    · rw [hold, hnew, hold', hnew']
      rfl

theorem moveOk (h : SameShape t t') (old new : Location) : t'.MoveOk old new ↔ t.MoveOk old new := by
  unfold MoveOk
  rw [h.isSome, h.isDirectory]

/-! ## 2. Changes -/

theorem append (h : SameShape t t') (l : Location) (bytes bytes' : Bytes) :
    SameShape (t.append l bytes) (t'.append l bytes') := by
  refine ⟨?_, h.entries, h.cwd, h.symloopMax⟩
  intro k
  rw [append_node, append_node]
  by_cases heq : k = l
  · rw [if_pos heq, if_pos heq]
    rcases h.node l with hsame | ⟨mode, content, content', hold, hnew⟩
    · rw [hsame]
      cases hnode : t.node l with
      | none => exact Or.inl rfl
      | some node =>
        cases node with
        | regular mode content => exact Or.inr ⟨mode, _, _, rfl, rfl⟩
        | directory mode => exact Or.inl rfl
        | symlink mode target => exact Or.inl rfl
        | special mode => exact Or.inl rfl
    · rw [hold, hnew]
      exact Or.inr ⟨mode, _, _, rfl, rfl⟩
  · rw [if_neg heq, if_neg heq]
    exact h.node k

theorem insert (h : SameShape t t') {n : Name} {d : Location} {node : Node}
    (hdir : t.isDirectory d = true) (hdir' : t'.isDirectory d = true) (hname : ValidName n)
    (hfree : t.node (n :: d) = none) (hfree' : t'.node (n :: d) = none) :
    SameShape (t.insert n d node hdir hname hfree) (t'.insert n d node hdir' hname hfree') := by
  refine ⟨?_, ?_, h.cwd, h.symloopMax⟩
  · intro k
    change (if k = n :: d then some node else t'.node k) = _ ∨ ∃ mode content content',
      (if k = n :: d then some node else t.node k) = _ ∧ (if k = n :: d then some node else t'.node k) = _
    by_cases heq : k = n :: d
    · exact Or.inl (by rw [if_pos heq]; exact (if_pos heq).symm)
    · simp only [if_neg heq]
      rcases h.node k with hsame | hdiffer
      · exact Or.inl (hsame.trans (if_neg heq).symm)
      · exact Or.inr hdiffer
  · funext e
    change (if e = d then n :: t'.entries e else t'.entries e) = _
    rw [h.entries]
    rfl

theorem erase (h : SameShape t t') (n : Name) (d : Location) :
    SameShape (t.erase n d) (t'.erase n d) := by
  refine ⟨?_, ?_, h.cwd, h.symloopMax⟩
  · intro k
    by_cases hbelow : (n :: d) <:+ k
    · exact Or.inl ((if_pos hbelow).trans (if_pos hbelow).symm)
    · rcases h.node k with hsame | ⟨mode, content, content', hold, hnew⟩
      · exact Or.inl ((if_neg hbelow).trans (hsame.trans (if_neg hbelow).symm))
      · exact Or.inr ⟨mode, content, content', (if_neg hbelow).trans hold, (if_neg hbelow).trans hnew⟩
  · funext e
    change (if (n :: d) <:+ e then [dot, dotdot]
      else if e = d then (t'.entries e).filter fun m => m != n || m == dot || m == dotdot
      else t'.entries e) = _
    rw [h.entries]
    rfl

theorem move (h : SameShape t t') (old new : Location) :
    SameShape (t.move old new) (t'.move old new) := by
  unfold FileTree.move
  by_cases hok : t.MoveOk old new
  · rw [dif_pos hok, dif_pos ((h.moveOk old new).mpr hok)]
    have hkept : t'.keptEntries old = t.keptEntries old := by
      funext e
      rw [keptEntries, keptEntries, h.entries]
    refine ⟨?_, ?_, ?_, h.symloopMax⟩
    · intro k
      simp only [movedNode]
      split
      · exact h.node _
      · split
        · exact Or.inl rfl
        · exact h.node k
    · funext e
      simp only [movedEntries, h.entries, hkept]
    · simp only [h.cwd]
  · rw [dif_neg hok, dif_neg (fun hok' => hok ((h.moveOk old new).mp hok'))]
    exact h

/-- Both calls fail, or both succeed and leave trees that are alike. -/
def Both (x x' : Option FileTree) : Prop :=
  x = none ∧ x' = none ∨ ∃ u u', x = some u ∧ x' = some u' ∧ SameShape u u'

theorem remove (h : SameShape t t') (path : Bytes) : Both (t.remove path) (t'.remove path) := by
  unfold FileTree.remove
  rw [h.entry]
  cases t.entry path with
  | none => exact Or.inl ⟨rfl, rfl⟩
  | some l =>
    cases l with
    | nil => exact Or.inl ⟨rfl, rfl⟩
    | cons n d =>
      dsimp only
      rw [h.mayRemove]
      split
      · exact Or.inr ⟨_, _, rfl, rfl, h.erase n d⟩
      · exact Or.inl ⟨rfl, rfl⟩

theorem rename (h : SameShape t t') (oldPath newPath : Bytes) :
    Both (t.rename oldPath newPath) (t'.rename oldPath newPath) := by
  unfold FileTree.rename
  rw [h.entry, h.entry]
  cases t.entry oldPath with
  | none => exact Or.inl ⟨rfl, rfl⟩
  | some old =>
    cases t.entry newPath with
    | none => exact Or.inl ⟨rfl, rfl⟩
    | some new =>
      dsimp only
      rw [h.mayRename]
      split
      · exact Or.inr ⟨_, _, rfl, rfl, h.move old new⟩
      · exact Or.inl ⟨rfl, rfl⟩

/-- `open` opens the same object in both, or none. -/
theorem openAppend (h : SameShape t t') (path : Bytes) :
    t.openAppend path = none ∧ t'.openAppend path = none ∨
      ∃ u u' l, t.openAppend path = some (u, l) ∧ t'.openAppend path = some (u', l) ∧
        SameShape u u' := by
  unfold FileTree.openAppend
  rw [h.locate]
  cases t.locate false path with
  | none => exact Or.inl ⟨rfl, rfl⟩
  | some l =>
    dsimp only
    rcases h.node l with hsame | ⟨mode, content, content', hold, hnew⟩
    · rw [hsame]
      cases hnode : t.node l with
      | some node =>
        cases node with
        | directory mode => exact Or.inl ⟨rfl, rfl⟩
        | symlink mode target => exact Or.inl ⟨rfl, rfl⟩
        | regular mode content =>
          dsimp only
          split
          · exact Or.inr ⟨_, _, _, rfl, rfl, h⟩
          · exact Or.inl ⟨rfl, rfl⟩
        | special mode =>
          dsimp only
          split
          · exact Or.inr ⟨_, _, _, rfl, rfl, h⟩
          · exact Or.inl ⟨rfl, rfl⟩
      | none =>
        cases l with
        | nil => exact Or.inl ⟨rfl, rfl⟩
        | cons n d =>
          dsimp only
          simp only [h.writable, h.isDirectory, h.node_eq_none_iff]
          split
          · next hok => exact Or.inr ⟨_, _, _, rfl, rfl, h.insert _ _ _ _ _⟩
          · exact Or.inl ⟨rfl, rfl⟩
    · rw [hold, hnew]
      dsimp only
      split
      · exact Or.inr ⟨_, _, _, rfl, rfl, h⟩
      · exact Or.inl ⟨rfl, rfl⟩

end SameShape

end FileTree

end Posix
