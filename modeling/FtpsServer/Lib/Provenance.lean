import FtpsServer.Lib.PathWalk

/-!
# Where the objects of a tree come from

A *descent* from one tree to another follows every object through the calls that
changed the tree: where it is now, or that it is gone, and which of the blocks of bytes
that were sent its file has taken since.  What is there and comes from nowhere was
created on the way, as an empty regular file.  Descents compose, so that a program that
changes a tree step by step has one from its first tree to its last.
-/

namespace Posix

open ByteString

/-! ## 1. Parcels -/

/-- The object once `bytes` have been added: only a regular file takes them. -/
def Node.extended (node : Node) (bytes : Bytes) : Node :=
  match node with
  | .regular mode content => .regular mode (content ++ bytes)
  | other => other

@[simp] theorem Node.extended_nil (node : Node) : node.extended [] = node := by
  cases node <;> simp [Node.extended]

@[simp] theorem Node.extended_extended (node : Node) (front back : Bytes) :
    (node.extended front).extended back = node.extended (front ++ back) := by
  cases node <;> simp [Node.extended]

/-- A block of bytes that was sent, and the object that has it now. -/
structure Parcel where
  bytes : Bytes
  place : Option Location

/-- The bytes of the parcels that the object at `l` has, in the order they were sent. -/
def delivered (parcels : List Parcel) (l : Location) : Bytes :=
  parcels.flatMap fun parcel => if parcel.place = some l then parcel.bytes else []

@[simp] theorem delivered_nil (l : Location) : delivered [] l = [] := rfl

@[simp] theorem delivered_append (front back : List Parcel) (l : Location) :
    delivered (front ++ back) l = delivered front l ++ delivered back l := List.flatMap_append

/-- The blocks of one write: all in one place. -/
def addressed (place : Option Location) (blocks : List Bytes) : List Parcel :=
  blocks.map fun bytes => ⟨bytes, place⟩

@[simp] theorem addressed_bytes (place : Option Location) (blocks : List Bytes) :
    (addressed place blocks).map Parcel.bytes = blocks := by
  simp [addressed, Function.comp_def]

theorem delivered_addressed (place : Option Location) (blocks : List Bytes) (l : Location) :
    delivered (addressed place blocks) l = if place = some l then blocks.flatten else [] := by
  unfold delivered addressed
  rw [List.flatMap_map]
  split
  · simp [List.flatMap_def]
  · simp

/-- The parcels after their objects have been followed once more. -/
def forwarded (dest : Location → Option Location) (parcels : List Parcel) : List Parcel :=
  parcels.map fun parcel => ⟨parcel.bytes, parcel.place.bind dest⟩

@[simp] theorem forwarded_bytes (dest : Location → Option Location) (parcels : List Parcel) :
    (forwarded dest parcels).map Parcel.bytes = parcels.map Parcel.bytes := by
  simp [forwarded, Function.comp_def]

/-- An object has after a move what it had before. -/
theorem delivered_forwarded {dest : Location → Option Location} {l l' : Location}
    (hinjective : ∀ k, dest k = some l' → k = l) (hdest : dest l = some l')
    (parcels : List Parcel) : delivered (forwarded dest parcels) l' = delivered parcels l := by
  have hplace : ∀ place : Option Location, place.bind dest = some l' ↔ place = some l := by
    intro place
    cases place with
    | none => simp
    | some k =>
      constructor
      · intro h
        rw [hinjective k h]
      · intro h
        cases h
        exact hdest
  unfold delivered forwarded
  rw [List.flatMap_map]
  simp only [hplace]

theorem delivered_forwarded_of_new {dest : Location → Option Location} {l' : Location}
    (hnew : ∀ k, dest k ≠ some l') (parcels : List Parcel) :
    delivered (forwarded dest parcels) l' = [] := by
  have hplace : ∀ place : Option Location, place.bind dest ≠ some l' := by
    intro place
    cases place with
    | none => simp
    | some k => exact hnew k
  unfold delivered forwarded
  rw [List.flatMap_map]
  simp [hplace]

namespace FileTree

/-! ## 2. Descents -/

/-- From `t` to `t'` no object was changed other than by a move, or by bytes added at its
    end; none was copied, none created but as an empty regular file, and at most `removals`
    are gone. -/
structure Descent (t t' : FileTree) where
  parcels : List Parcel
  removals : Nat
  /-- Where an object of `t` is in `t'`. -/
  dest : Location → Option Location
  kept : ∀ l l', dest l = some l' → ∃ node, t.node l = some node ∧
    t'.node l' = some (node.extended (delivered parcels l'))
  injective : ∀ l k l', dest l = some l' → dest k = some l' → l = k
  new : ∀ l' node, t'.node l' = some node → (∀ l, dest l ≠ some l') →
    node = .regular createMode (delivered parcels l')
  lost : ∃ gone : List Location, gone.length ≤ removals ∧
    ∀ l, (t.node l).isSome = true → dest l = none → l ∈ gone

namespace Descent

variable {t t' t'' : FileTree}

/-- What exists, where it is. -/
def here (t : FileTree) (l : Location) : Option Location := if (t.node l).isSome then some l else none

theorem here_eq_some {l l' : Location} : here t l = some l' ↔ (t.node l).isSome = true ∧ l = l' := by
  simp [here]

theorem here_eq_none {l : Location} : here t l = none ↔ t.node l = none := by
  simp [here]

/-- No object moves: each takes its parcels, and new files come. -/
def inPlace (parcels : List Parcel)
    (hkept : ∀ l node, t.node l = some node →
      t'.node l = some (node.extended (delivered parcels l)))
    (hnew : ∀ l node, t.node l = none → t'.node l = some node →
      node = .regular createMode (delivered parcels l)) : Descent t t' where
  parcels := parcels
  removals := 0
  dest := here t
  kept l l' h := by
    rcases here_eq_some.mp h with ⟨hsome, rfl⟩
    rcases Option.isSome_iff_exists.mp hsome with ⟨node, hnode⟩
    exact ⟨node, hnode, hkept l node hnode⟩
  injective l k l' h h' := (here_eq_some.mp h).2.trans (here_eq_some.mp h').2.symm
  new l' node hnode hfree := by
    refine hnew l' node ?_ hnode
    by_contra hsome
    exact hfree l' (here_eq_some.mpr ⟨Option.isSome_iff_ne_none.mpr hsome, rfl⟩)
  lost := ⟨[], Nat.le_refl 0, fun l hsome hnone => by
    rw [here_eq_none.mp hnone] at hsome
    cases hsome⟩

def refl (t : FileTree) : Descent t t :=
  inPlace [] (fun l node h => by simpa using h) fun l node h h' => by rw [h] at h'; cases h'

/-- Bytes that were sent and went nowhere. -/
def discard (t : FileTree) (blocks : List Bytes) : Descent t t :=
  inPlace (addressed none blocks) (fun l node h => by simpa [delivered_addressed] using h)
    fun l node h h' => by rw [h] at h'; cases h'

/-- Bytes at the end of one object. -/
def append (t : FileTree) (l : Location) (blocks : List Bytes) :
    Descent t (t.append l blocks.flatten) :=
  inPlace (addressed (some l) blocks)
    (by
      intro k node h
      rw [append_node, delivered_addressed]
      by_cases heq : k = l
      · subst heq
        rw [if_pos rfl, if_pos rfl, h]
        cases node <;> rfl
      · have hne : ¬ (some l = some k) := fun h => heq (Option.some.inj h).symm
        rw [if_neg heq, if_neg hne, h, Node.extended_nil])
    (by
      intro k node h h'
      rw [append_node] at h'
      split at h'
      · next heq =>
        subst heq
        rw [h] at h'
        cases h'
      · rw [h] at h'
        cases h')

/-- A file that `open` creates. -/
def openAppend {path : Bytes} {l : Location} (h : t.openAppend path = some (t', l)) :
    Descent t t' :=
  inPlace []
    (by
      intro k node hnode
      rw [delivered_nil, Node.extended_nil]
      rcases openAppend_cases h with ⟨rfl, -⟩ | ⟨hfree, -, hothers⟩
      · exact hnode
      · have hne : k ≠ l := by
          rintro rfl
          rw [hfree] at hnode
          cases hnode
        rw [hothers k hne]
        exact hnode)
    (by
      intro k node hfree hnode
      rcases openAppend_cases h with ⟨rfl, -⟩ | ⟨-, hcreated, hothers⟩
      · rw [hfree] at hnode
        cases hnode
      · by_cases heq : k = l
        · subst heq
          rw [hcreated] at hnode
          exact (Option.some.inj hnode).symm
        · rw [hothers k heq, hfree] at hnode
          cases hnode)

/-- An object that is removed. -/
def removed {l : Location} (h : t.Removed t' l) : Descent t t' where
  parcels := []
  removals := 1
  dest k := if k = l then none else here t k
  kept k k' hdest := by
    split at hdest
    · cases hdest
    · next hne =>
      rcases here_eq_some.mp hdest with ⟨hsome, rfl⟩
      rcases Option.isSome_iff_exists.mp hsome with ⟨node, hnode⟩
      refine ⟨node, hnode, ?_⟩
      rw [h.others k hne, hnode, delivered_nil, Node.extended_nil]
  injective k m l' hk hm := by
    split at hk
    · cases hk
    · split at hm
      · cases hm
      · exact (here_eq_some.mp hk).2.trans (here_eq_some.mp hm).2.symm
  new k node hnode hfree := by
    exfalso
    by_cases heq : k = l
    · subst heq
      rw [h.gone] at hnode
      cases hnode
    · apply hfree k
      rw [if_neg heq]
      apply here_eq_some.mpr
      rw [← h.others k heq, hnode]
      exact ⟨rfl, rfl⟩
  lost := by
    refine ⟨[l], Nat.le_refl 1, ?_⟩
    intro k hsome hnone
    by_cases heq : k = l
    · exact heq ▸ List.mem_singleton_self _
    · rw [if_neg heq, here_eq_none] at hnone
      rw [hnone] at hsome
      cases hsome

/-- Where an object is after everything at `old` has been moved over what was at `new`. -/
def arrival (t : FileTree) (old new l : Location) : Option Location :=
  if new <:+ l then none else if old <:+ l then (here t l).map (relocate new old) else here t l

theorem arrival_eq_some {old new l l' : Location} :
    arrival t old new l = some l' ↔ (t.node l).isSome = true ∧ ¬ new <:+ l ∧
      ((∃ below, l = below ++ old ∧ l' = below ++ new) ∨ ¬ old <:+ l ∧ l' = l) := by
  unfold arrival
  by_cases hnew : new <:+ l
  · simp [hnew]
  · by_cases hold : old <:+ l
    · rcases hold with ⟨below, rfl⟩
      have hrelocate : relocate new old (below ++ old) = below ++ new := by simp [relocate]
      simp only [hnew, if_false, List.suffix_append, if_true, Option.map_eq_some_iff, here_eq_some,
        not_false_eq_true, true_and, not_true_eq_false, false_and, or_false]
      constructor
      · rintro ⟨_, ⟨hsome, rfl⟩, rfl⟩
        exact ⟨hsome, below, rfl, hrelocate⟩
      · rintro ⟨hsome, below', heq, rfl⟩
        rw [List.append_cancel_right heq] at hrelocate ⊢
        exact ⟨_, ⟨List.append_cancel_right heq ▸ hsome, rfl⟩, hrelocate⟩
    · have hnone : ¬ ∃ below, l = below ++ old ∧ l' = below ++ new := by
        rintro ⟨below, rfl, -⟩
        exact hold (List.suffix_append below old)
      simp only [hnew, hold, if_false, here_eq_some, not_false_eq_true, true_and, hnone, false_or]
      rw [eq_comm (a := l)]

theorem arrival_eq_none {old new l : Location} (h : arrival t old new l = none) :
    new <:+ l ∨ t.node l = none := by
  unfold arrival at h
  split at h
  · next hnew => exact Or.inl hnew
  · split at h
    · exact Or.inr (here_eq_none.mp (Option.map_eq_none_iff.mp h))
    · exact Or.inr (here_eq_none.mp h)

/-- Everything at and below `old` moves, over the one object at `new` if there is one. -/
def moved {old new : Location} (h : t.Moved t' old new) (hnot : ¬ old <:+ new)
    (hnot' : ¬ new <:+ old) (hleaf : ∀ below, below ≠ [] → t.node (below ++ new) = none) :
    Descent t t' where
  parcels := []
  removals := 1
  dest := arrival t old new
  kept l l' hdest := by
    rcases arrival_eq_some.mp hdest with ⟨hsome, hnew, hplace⟩
    rcases Option.isSome_iff_exists.mp hsome with ⟨node, hnode⟩
    refine ⟨node, hnode, ?_⟩
    rw [delivered_nil, Node.extended_nil, ← hnode]
    rcases hplace with ⟨below, rfl, rfl⟩ | ⟨hold, rfl⟩
    · exact h.arrives below
    · exact h.others _ hold hnew
  injective l k l' hl hk := by
    rcases arrival_eq_some.mp hl with ⟨-, hnewl, ⟨below, rfl, rfl⟩ | ⟨-, rfl⟩⟩
    · rcases arrival_eq_some.mp hk with ⟨-, hnewk, ⟨below', rfl, heq⟩ | ⟨-, rfl⟩⟩
      · rw [List.append_cancel_right heq]
      · exact absurd (List.suffix_append below new) hnewk
    · rcases arrival_eq_some.mp hk with ⟨-, -, ⟨below, rfl, rfl⟩ | ⟨-, rfl⟩⟩
      · exact absurd (List.suffix_append below new) hnewl
      · rfl
  new l' node hnode hfree := by
    exfalso
    by_cases hnew : new <:+ l'
    · -- what is below the new place now was below the old one
      rcases hnew with ⟨below, rfl⟩
      have hold : old <:+ below ++ old := List.suffix_append below old
      have hout : ¬ new <:+ below ++ old := by
        intro hsuffix
        rcases List.suffix_or_suffix_of_suffix hsuffix hold with hin | hin
        · exact hnot' hin
        · exact hnot hin
      rw [h.arrives] at hnode
      exact hfree (below ++ old)
        (arrival_eq_some.mpr ⟨by rw [hnode]; rfl, hout, Or.inl ⟨below, rfl, rfl⟩⟩)
    · by_cases hold : old <:+ l'
      · rcases hold with ⟨below, rfl⟩
        rw [h.leaves] at hnode
        cases hnode
      · rw [h.others l' hold hnew] at hnode
        exact hfree l' (arrival_eq_some.mpr ⟨by rw [hnode]; rfl, hnew, Or.inr ⟨hold, rfl⟩⟩)
  lost := by
    refine ⟨[new], Nat.le_refl 1, ?_⟩
    intro l hsome hnone
    rcases arrival_eq_none hnone with ⟨below, rfl⟩ | hfree
    · by_cases hnil : below = []
      · simp [hnil]
      · rw [hleaf below hnil] at hsome
        cases hsome
    · rw [hfree] at hsome
      cases hsome

/-! ## 3. Composition -/

/-- **Descents compose**: the parcels of the first go where their objects go. -/
def trans (d : Descent t t') (d' : Descent t' t'') : Descent t t'' where
  parcels := forwarded d'.dest d.parcels ++ d'.parcels
  removals := d.removals + d'.removals
  dest l := (d.dest l).bind d'.dest
  kept l l'' h := by
    rcases Option.bind_eq_some_iff.mp h with ⟨l', hl', hl''⟩
    rcases d.kept l l' hl' with ⟨node, hnode, hmid⟩
    rcases d'.kept l' l'' hl'' with ⟨mid, hmid', hend⟩
    rw [hmid] at hmid'
    cases hmid'
    refine ⟨node, hnode, ?_⟩
    rw [hend, Node.extended_extended, delivered_append,
      delivered_forwarded (fun k hk => d'.injective k l' l'' hk hl'') hl'']
  injective l k l'' hl hk := by
    rcases Option.bind_eq_some_iff.mp hl with ⟨l', hl', hl''⟩
    rcases Option.bind_eq_some_iff.mp hk with ⟨k', hk', hk''⟩
    obtain rfl := d'.injective l' k' l'' hl'' hk''
    exact d.injective l k l' hl' hk'
  new l'' node hnode hfree := by
    by_cases hcame : ∃ l', d'.dest l' = some l''
    · -- created on the first part of the way, followed on the second
      rcases hcame with ⟨l', hl'⟩
      rcases d'.kept l' l'' hl' with ⟨mid, hmid, hend⟩
      have hcreated := d.new l' mid hmid fun l hl =>
        hfree l (Option.bind_eq_some_iff.mpr ⟨l', hl, hl'⟩)
      rw [hend, hcreated] at hnode
      rw [← Option.some.inj hnode, delivered_append,
        delivered_forwarded (fun k hk => d'.injective k l' l'' hk hl') hl']
      rfl
    · have hnone : ∀ l', d'.dest l' ≠ some l'' := fun l' hl' => hcame ⟨l', hl'⟩
      rw [d'.new l'' node hnode hnone, delivered_append, delivered_forwarded_of_new hnone,
        List.nil_append]
  lost := by
    classical
    rcases d.lost with ⟨gone, hlength, hgone⟩
    rcases d'.lost with ⟨gone', hlength', hgone'⟩
    -- what is lost on the second part is looked up where it was in `t`
    let source : Location → Option Location := fun l' =>
      if h : ∃ l, d.dest l = some l' then some h.choose else none
    refine ⟨gone ++ gone'.filterMap source, ?_, ?_⟩
    · have hle := List.length_filterMap_le source gone'
      rw [List.length_append]
      omega
    · intro l hsome hnone
      rw [List.mem_append]
      cases hl' : d.dest l with
      | none => exact Or.inl (hgone l hsome hl')
      | some l' =>
        rw [hl', Option.bind_some] at hnone
        rcases d.kept l l' hl' with ⟨node, -, hmid⟩
        have hlost := hgone' l' (by rw [hmid]; rfl) hnone
        have hexists : ∃ k, d.dest k = some l' := ⟨l, hl'⟩
        have hsource : source l' = some l := by
          rw [show source l' = some hexists.choose from dif_pos hexists,
            d.injective _ l l' hexists.choose_spec hl']
        exact Or.inr (List.mem_filterMap.mpr ⟨l', hlost, hsource⟩)

@[simp] theorem trans_parcels (d : Descent t t') (d' : Descent t' t'') :
    (d.trans d').parcels = forwarded d'.dest d.parcels ++ d'.parcels := rfl

@[simp] theorem trans_removals (d : Descent t t') (d' : Descent t' t'') :
    (d.trans d').removals = d.removals + d'.removals := rfl

end Descent

/-! ## 4. Calls -/

/-- `rename` replaces at most one object: nothing lies below what it replaces. -/
theorem mayRename_leaf {t : FileTree} {oldPath newPath : Bytes} {old new : Location}
    (h : t.mayRename oldPath newPath old new = true) (hne : old ≠ new) {below : Location}
    (hbelow : below ≠ []) : t.node (below ++ new) = none := by
  have hchild : ∀ m, t.node (m :: new) = none := by
    intro m
    by_contra hchild
    have hsome := Option.isSome_iff_ne_none.mpr hchild
    have hdir := t.parent_isDirectory m new hsome
    rcases mayRename_inv hne h with ⟨source, -, -, -, hkind⟩
    cases htarget : t.node new with
    | none =>
      rw [htarget] at hdir
      cases hdir
    | some target =>
      have htargetDir : target.isDirectory = true := by
        rw [htarget] at hdir
        simpa using hdir
      have hempty := hkind target htarget
      split at hempty
      · -- the child is an entry of an empty directory
        unfold isEmptyDirectory at hempty
        rw [Bool.and_eq_true, List.all_eq_true] at hempty
        have hentry := hempty.2 m ((t.mem_entries m new).mpr (Or.inr (Or.inr hsome)))
        rcases t.validName m new hsome with ⟨-, hdot, hdotdot, -, -⟩
        simp [hdot, hdotdot] at hentry
      · simp [htargetDir] at hempty
  apply node_eq_none_below hchild (List.suffix_append below new)
  intro heq
  exact hbelow (List.self_eq_append_left.mp heq)

/-- **A `rename` that succeeds** moves objects, over at most one. -/
theorem rename_descent {t t' : FileTree} {oldPath newPath : Bytes}
    (h : t.rename oldPath newPath = some t') :
    ∃ d : Descent t t', d.parcels = [] ∧ d.removals ≤ 1 := by
  unfold rename at h
  split at h
  · next old new hold hnew =>
    split at h
    · next hmay =>
      cases h
      by_cases heq : old = new
      · have hstays : ¬ t.MoveOk old new := fun hok => hok.2.2.2.2.1 (heq ▸ List.suffix_rfl)
        rw [show t.move old new = t from dif_neg hstays]
        exact ⟨.refl t, rfl, Nat.zero_le 1⟩
      · have hok := moveOk_of_mayRename hold hnew heq hmay
        exact ⟨.moved hok.moved hok.2.2.2.2.1 hok.2.2.2.2.2
          (fun below hbelow => mayRename_leaf hmay heq hbelow), rfl, Nat.le_refl 1⟩
    · cases h
  · cases h

/-- **A `remove` that succeeds** takes one object. -/
theorem remove_descent {t t' : FileTree} {path : Bytes} (h : t.remove path = some t') :
    ∃ d : Descent t t', d.parcels = [] ∧ d.removals ≤ 1 :=
  let ⟨_, _, hremoved⟩ := remove_removed h
  ⟨.removed hremoved, rfl, Nat.le_refl 1⟩

end FileTree

end Posix
