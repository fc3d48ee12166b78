import FtpsServer.Lib.FileTree

/-!
# Where a path leads

The walk along the canonical path of an object arrives at the object exactly when
every directory above it may be searched (`reachable`).  A path that starts at the
root leads to reachable locations only, so what was found by such a path is found
again by its canonical path.  What a path leads to is no symbolic link, and a walk that
arrives still arrives when files appear or grow.
-/

namespace Posix

open ByteString

/-! ## 1. Components -/

theorem eq_slash_of_names_nil {path : Bytes} (h : names path = []) : ∀ b ∈ path, b = SLASH := by
  induction path with
  | nil => simp
  | cons first rest ih =>
    by_cases hfirst : first = SLASH
    · have hrest : names rest = [] := by
        have hnames := names_append_slash [] rest
        rwa [List.nil_append, ← hfirst, h, names_nil, List.nil_append, eq_comm] at hnames
      intro b hb
      rcases List.mem_cons.mp hb with rfl | hin
      · exact hfirst
      · exact ih hrest b hin
    · -- the part up to the next slash is a name
      have hslash : ∀ part : Bytes, SLASH ∉ part → names (first :: part) = [first :: part] := by
        intro part hpart
        apply names_of_not_mem (List.cons_ne_nil _ _)
        simp [hpart, Ne.symm hfirst]
      exfalso
      by_cases hmem : SLASH ∈ rest
      · rcases List.eq_append_cons_of_mem hmem with ⟨part, later, rfl, hpart⟩
        rw [← List.cons_append, names_append_slash, hslash part hpart] at h
        simp at h
      · rw [hslash rest hmem] at h
        simp at h

theorem components_ne_nil {path : Bytes} (h : path ≠ []) : components path ≠ [] := by
  intro hnil
  rcases List.append_eq_nil_iff.mp hnil with ⟨hnames, hlast⟩
  rcases List.eq_nil_or_concat path with hpath | ⟨front, b, rfl⟩
  · exact h hpath
  · have hb := eq_slash_of_names_nil hnames b (by simp)
    rw [hb, List.concat_eq_append] at hlast
    simp [trailing] at hlast

theorem components_append_slash (front back : Bytes) :
    components (front ++ SLASH :: back) = names front ++ components (SLASH :: back) := by
  have hslash : names (SLASH :: back) = names back := by
    have hnames := names_append_slash [] back
    rwa [List.nil_append, names_nil, List.nil_append] at hnames
  have hlast : trailing (front ++ SLASH :: back) = trailing (SLASH :: back) := by
    simp [trailing, List.getLast?_cons]
  rw [components, components, names_append_slash, hslash, hlast, List.append_assoc]

/-- The names of a path are pieces of it without a slash. -/
theorem mem_names {path : Bytes} {n : Name} (h : n ∈ names path) :
    n ≠ [] ∧ SLASH ∉ n ∧ ∀ b ∈ n, b ∈ path := by
  induction hlength : path.length using Nat.strong_induction_on generalizing path with
  | _ length ih =>
    have hpiece : ∀ part : Bytes, SLASH ∉ part → n ∈ names part → n ≠ [] ∧ n = part := by
      intro part hpart hn
      by_cases hnil : part = []
      · rw [hnil, names_nil] at hn
        exact absurd hn List.not_mem_nil
      · rw [names_of_not_mem hnil hpart, List.mem_singleton] at hn
        exact ⟨hn ▸ hnil, hn⟩
    by_cases hslash : SLASH ∈ path
    · rcases List.eq_append_cons_of_mem hslash with ⟨part, later, rfl, hpart⟩
      rw [names_append_slash, List.mem_append] at h
      rcases h with h | h
      · rcases hpiece part hpart h with ⟨hne, rfl⟩
        exact ⟨hne, hpart, fun b hb => List.mem_append_left _ hb⟩
      · have hshorter : later.length < length := by
          rw [← hlength, List.length_append, List.length_cons]
          omega
        rcases ih later.length hshorter h rfl with ⟨hne, hfree, hmem⟩
        exact ⟨hne, hfree, fun b hb => List.mem_append_right _ (List.mem_cons_of_mem _ (hmem b hb))⟩
    · rcases hpiece path hslash h with ⟨hne, rfl⟩
      exact ⟨hne, hslash, fun b hb => hb⟩

/-- A rooted path through the names of a location. -/
structure LeadsTo (path : Bytes) (l : Location) : Prop where
  rooted : rooted path = true
  nul : NUL ∉ path
  names : names path = l.reverse

theorem leadsTo_render {l : Location} (h : ∀ n ∈ l, ValidName n) : LeadsTo (render l) l := by
  rcases render_head l with ⟨rest, hhead⟩
  refine ⟨?_, nul_not_mem_render h, names_render h⟩
  rw [hhead]
  rfl

theorem LeadsTo.slash {path : Bytes} {l : Location} (h : LeadsTo path l) :
    LeadsTo (path ++ [SLASH]) l := by
  refine ⟨?_, ?_, ?_⟩
  · have hroot := h.rooted
    cases path with
    | nil => simp [Posix.rooted] at hroot
    | cons first rest => exact hroot
  · simp [h.nul]
    decide
  · rw [names_append_slash, names_nil, List.append_nil, h.names]

theorem LeadsTo.ne_nil {path : Bytes} {l : Location} (h : LeadsTo path l) : path ≠ [] := by
  rintro rfl
  exact absurd h.rooted (by decide)

namespace FileTree

/-! ## 2. Down from the root -/

variable {t : FileTree} {resolver : Resolver} {nofollow : Bool}
  {follow : Location → List Name → Option Location}

theorem isDirectory_of_searchable {l : Location} (h : t.searchable l = true) :
    t.isDirectory l = true := by
  unfold searchable at h
  unfold isDirectory
  cases hnode : t.node l with
  | none => simp [hnode] at h
  | some node => cases node <;> simp_all [Node.isDirectory]

theorem node_of_isDirectory {l : Location} (h : t.isDirectory l = true) :
    ∃ mode, t.node l = some (.directory mode) := by
  unfold isDirectory at h
  cases hnode : t.node l with
  | none => simp [hnode] at h
  | some node => cases node <;> simp_all [Node.isDirectory]

/-- An object that is there, and no symbolic link. -/
def Solid (t : FileTree) (l : Location) : Prop :=
  ∃ node, t.node l = some node ∧ ∀ mode target, node ≠ .symlink mode target

theorem solid_of_isDirectory {l : Location} (h : t.isDirectory l = true) : t.Solid l := by
  rcases node_of_isDirectory h with ⟨mode, hnode⟩
  exact ⟨_, hnode, by simp⟩

theorem Solid.isSome {l : Location} (h : t.Solid l) : (t.node l).isSome = true := by
  rcases h with ⟨node, hnode, -⟩
  rw [hnode]
  rfl

/-- What a directory lies in is a directory. -/
theorem isDirectory_tail {l : Location} (h : t.isDirectory l = true) :
    t.isDirectory l.tail = true := by
  cases l with
  | nil => exact h
  | cons n d => exact t.parent_isDirectory n d (solid_of_isDirectory h).isSome

theorem searchable_of_mayLook {cur : Location} (h : t.mayLook resolver cur = true) :
    t.searchable cur = true := by
  cases resolver with
  | kernel => exact h
  | realpath => exact (Bool.and_eq_true_iff.mp h).1

/-- From a reachable directory the kernel looks names up for `realpath` as for itself. -/
theorem mayLook_of_reachable {cur : Location} (h : t.reachable cur = true) :
    t.mayLook resolver cur = t.searchable cur := by
  cases resolver with
  | kernel => rfl
  | realpath => rw [mayLook, h, Bool.and_true]

/-- One name further down. -/
theorem walkWith_cons {n : Name} {d : Location} {rest : List Name} (h : t.Solid (n :: d)) :
    t.walkWith resolver nofollow follow d (n :: rest) =
      if t.mayLook resolver d = true ∧ (rest = [] ∨ t.isDirectory (n :: d) = true) then
        t.walkWith resolver nofollow follow (n :: d) rest
      else none := by
  rcases t.validName n d h.isSome with ⟨hne, hdot, hdotdot, -, -⟩
  rcases h with ⟨node, hnode, hlink⟩
  have hdir : t.isDirectory (n :: d) = node.isDirectory := by rw [isDirectory, hnode]; rfl
  rw [walkWith, if_neg hne, if_neg hdot, if_neg hdotdot, hnode, hdir]
  by_cases hlook : t.mayLook resolver d = true
  · rw [if_pos hlook]
    cases node with
    | symlink mode target => exact absurd rfl (hlink mode target)
    | regular mode content => simp only [hlook, true_and]
    | directory mode => simp only [hlook, true_and]
    | special mode => simp only [hlook, true_and]
  · rw [if_neg hlook, if_neg fun hand => hlook hand.1]

/-- **The walk down to an object** from the root. -/
theorem walkWith_reverse {l : Location} {rest : List Name} (h : t.Solid l) :
    t.walkWith resolver nofollow follow [] (l.reverse ++ rest) =
      if t.reachable l = true ∧ (rest = [] ∨ t.isDirectory l = true) then
        t.walkWith resolver nofollow follow l rest
      else none := by
  induction l generalizing rest with
  | nil => exact (if_pos ⟨rfl, Or.inr t.root_isDirectory⟩).symm
  | cons n d ih =>
    have hdir := t.parent_isDirectory n d h.isSome
    rw [List.reverse_cons, List.append_assoc, List.singleton_append,
      ih (solid_of_isDirectory hdir)]
    by_cases hreach : t.reachable d = true
    · rw [if_pos ⟨hreach, Or.inr hdir⟩, walkWith_cons h, mayLook_of_reachable hreach]
      simp only [reachable, hreach, Bool.and_true]
    · rw [if_neg fun hand => hreach hand.1]
      simp [reachable, hreach]

theorem walk_reverse {links : Nat} {l : Location} {rest : List Name} (h : t.Solid l) :
    t.walk resolver nofollow links [] (l.reverse ++ rest) =
      if t.reachable l = true ∧ (rest = [] ∨ t.isDirectory l = true) then
        t.walk resolver nofollow links l rest
      else none := by
  cases links with
  | zero => exact walkWith_reverse h
  | succ links => exact walkWith_reverse h

theorem walk_nil {links : Nat} {cur : Location} :
    t.walk resolver nofollow links cur [] = some cur := by
  cases links <;> rfl

/-- Behind a slash a walk stays where it is. -/
theorem walk_slash {links : Nat} {cur : Location} :
    t.walk resolver nofollow links cur [[]] = some cur := by
  cases links <;> rfl

theorem base_of_rooted {path : Bytes} (h : Posix.rooted path = true) : t.base path = [] :=
  if_pos h

/-- **What the canonical path of an object names**: the object itself, if the directories
    above it may be searched, and for a trailing slash if it is a directory. -/
theorem locateBy_of_leadsTo {path : Bytes} {l : Location} (h : LeadsTo path l)
    (hsolid : t.Solid l) :
    t.locateBy resolver nofollow path =
      if t.reachable l && (!trailing path || t.isDirectory l) then some l else none := by
  have hstart : ¬ (path = [] ∨ t.isDirectory (t.base path) = false) := by
    rw [base_of_rooted h.rooted, show t.isDirectory [] = true from t.root_isDirectory]
    simp [h.ne_nil]
  unfold locateBy
  dsimp only
  rw [cString_eq_self h.nul, if_neg hstart, base_of_rooted h.rooted, components, h.names,
    walk_reverse hsolid]
  cases trailing path with
  | false => simp [walk_nil]
  | true => simp [walk_slash]

theorem locate_of_leadsTo {path : Bytes} {l : Location} (h : LeadsTo path l) (hsolid : t.Solid l) :
    t.locate nofollow path =
      if t.reachable l && (!trailing path || t.isDirectory l) then some l else none :=
  locateBy_of_leadsTo h hsolid

/-- An object that is located is there. -/
theorem filter_of_solid {l : Location} (hsolid : t.Solid l) (way : Bool) :
    (if way then some l else none).filter (fun l => (t.node l).isSome) =
      if way then some l else none := by
  split
  · rw [Option.filter_some, if_pos hsolid.isSome]
  · rfl

theorem realResolve_of_leadsTo {path : Bytes} {l : Location} (h : LeadsTo path l)
    (hsolid : t.Solid l) :
    t.realResolve path =
      if t.reachable l && (!trailing path || t.isDirectory l) then some l else none := by
  rw [realResolve, realLocate, locateBy_of_leadsTo h hsolid, filter_of_solid hsolid]

/-- The entry that the canonical path of an object names. -/
theorem entry_of_leadsTo {path : Bytes} {n : Name} {d : Location} (h : LeadsTo path (n :: d))
    (hsolid : t.Solid (n :: d)) :
    t.entry path = if t.reachable (n :: d) then some (n :: d) else none := by
  rcases t.validName n d hsolid.isSome with ⟨-, hdot, hdotdot, -, -⟩
  have hlast : (names path).getLast? = some n := by rw [h.names]; simp
  have hwalk : t.walk .kernel true t.symloopMax [] ((n :: d).reverse ++ []) = _ :=
    walk_reverse hsolid
  unfold entry
  rw [cString_eq_self h.nul]
  simp only [hlast]
  rw [if_neg (by simp [hdot, hdotdot]), base_of_rooted h.rooted, h.names,
    ← List.append_nil (n :: d).reverse, hwalk, walk_nil]
  simp

/-- The canonical path of the root names no entry. -/
theorem entry_of_leadsTo_nil {path : Bytes} (h : LeadsTo path []) : t.entry path = none := by
  unfold entry
  rw [cString_eq_self h.nul]
  simp [h.names]

/-! ## 3. Along any path -/

/-- What the symbolic link at a location says. -/
def link (t : FileTree) (l : Location) : Option Bytes :=
  match t.node l with
  | some (.symlink _ target) => some target
  | _ => none

theorem solid_of_link {l : Location} (hsome : (t.node l).isSome = true) (h : t.link l = none) :
    t.Solid l := by
  cases hnode : t.node l with
  | none => simp [hnode] at hsome
  | some node =>
    refine ⟨node, hnode, ?_⟩
    rintro mode target rfl
    simp [link, hnode] at h

theorem Solid.link_eq_none {l : Location} (h : t.Solid l) : t.link l = none := by
  rcases h with ⟨node, hnode, hlink⟩
  rw [link, hnode]
  cases node with
  | symlink mode target => exact absurd rfl (hlink mode target)
  | regular mode content => rfl
  | directory mode => rfl
  | special mode => rfl

theorem link_eq_none_of_isDirectory {l : Location} (h : t.isDirectory l = true) :
    t.link l = none :=
  (solid_of_isDirectory h).link_eq_none

/-- One component of a walk.  It depends on the directories and on the links alone. -/
theorem walkWith_step {cur : Location} {c : Name} {cs : List Name} :
    t.walkWith resolver nofollow follow cur (c :: cs) =
      if c = [] then t.walkWith resolver nofollow follow cur cs
      else if c = dot then
        if t.mayStay resolver cur then t.walkWith resolver nofollow follow cur cs else none
      else if c = dotdot then
        if t.mayStay resolver cur then t.walkWith resolver nofollow follow cur.tail cs else none
      else if t.mayLook resolver cur then
        match t.link (c :: cur) with
        | some target =>
          if nofollow = true ∧ cs = [] then some (c :: cur)
          else if target = [] then none
          else follow (if rooted target then [] else cur) (components target ++ cs)
        | none =>
          if cs = [] ∨ t.isDirectory (c :: cur) = true then
            t.walkWith resolver nofollow follow (c :: cur) cs
          else none
      else none := by
  rw [walkWith, link, isDirectory]
  cases t.node (c :: cur) with
  | none =>
    cases cs with
    | nil => rfl
    | cons c' cs' => simp
  | some node =>
    cases node with
    | symlink mode target => rfl
    | regular mode content => rfl
    | directory mode => rfl
    | special mode => rfl

section Invariant

variable {P : Location → Prop}

/-- What the root has and every move of a walk keeps, the end of the walk has. -/
theorem walkWith_invariant (htail : ∀ cur, P cur → P cur.tail)
    (hchild : ∀ cur c, P cur → t.mayLook resolver cur = true →
      (nofollow = false → t.link (c :: cur) = none) → P (c :: cur))
    (hroot : P []) (hfollow : ∀ cur cs l, P cur → follow cur cs = some l → P l)
    {cur : Location} {cs : List Name} {l : Location} (hcur : P cur)
    (h : t.walkWith resolver nofollow follow cur cs = some l) : P l := by
  induction cs generalizing cur with
  | nil =>
    cases h
    exact hcur
  | cons c cs ih =>
    rw [walkWith_step] at h
    split at h
    · exact ih hcur h
    · split at h
      · split at h
        · exact ih hcur h
        · cases h
      · split at h
        · split at h
          · exact ih (htail cur hcur) h
          · cases h
        · split at h
          · next hlook =>
            cases hlink : t.link (c :: cur) with
            | none =>
              rw [hlink] at h
              dsimp only at h
              split at h
              · exact ih (hchild cur c hcur hlook fun _ => hlink) h
              · cases h
            | some target =>
              rw [hlink] at h
              dsimp only at h
              split at h
              · next hlast =>
                cases h
                apply hchild cur c hcur hlook
                intro hfalse
                rw [hfalse] at hlast
                exact absurd hlast.1 (by decide)
              · split at h
                · cases h
                · -- the walk goes on at the target of the link
                  apply hfollow _ _ _ _ h
                  split
                  · exact hroot
                  · exact hcur
          · cases h

theorem walk_invariant (htail : ∀ cur, P cur → P cur.tail)
    (hchild : ∀ cur c, P cur → t.mayLook resolver cur = true →
      (nofollow = false → t.link (c :: cur) = none) → P (c :: cur))
    (hroot : P []) {links : Nat} {cur : Location} {cs : List Name} {l : Location} (hcur : P cur)
    (h : t.walk resolver nofollow links cur cs = some l) : P l := by
  induction links generalizing cur cs l with
  | zero => exact walkWith_invariant htail hchild hroot (by simp) hcur h
  | succ links ih =>
    exact walkWith_invariant htail hchild hroot (fun cur cs l hcur h => ih hcur h) hcur h

end Invariant

theorem reachable_tail {l : Location} (h : t.reachable l = true) : t.reachable l.tail = true := by
  cases l with
  | nil => rfl
  | cons n d =>
    rw [reachable, Bool.and_eq_true] at h
    exact h.2

/-- A walk from a reachable location ends at one. -/
theorem walk_reachable {links : Nat} {cur : Location} {cs : List Name} {l : Location}
    (hcur : t.reachable cur = true) (h : t.walk resolver nofollow links cur cs = some l) :
    t.reachable l = true := by
  apply walk_invariant (P := fun l => t.reachable l = true) _ _ rfl hcur h
  · exact fun cur hcur => reachable_tail hcur
  · intro cur c hcur hlook _
    rw [reachable, searchable_of_mayLook hlook, hcur]
    rfl

/-- The names that `realpath` looks up are those of reachable locations. -/
theorem walk_realpath_reachable {links : Nat} {cur : Location} {cs : List Name} {l : Location}
    (hcur : t.isDirectory cur = true) (h : t.walk .realpath nofollow links cur cs = some l) :
    t.isDirectory l = true ∨ t.reachable l = true := by
  apply walk_invariant (P := fun l => t.isDirectory l = true ∨ t.reachable l = true) _ _ _ _ h
  · exact fun cur hcur => hcur.imp isDirectory_tail reachable_tail
  · intro cur c _ hlook _
    exact Or.inr hlook
  · exact Or.inr rfl
  · exact Or.inl hcur

/-- With links followed, a walk from a directory does not end at one. -/
theorem walk_link {links : Nat} {cur : Location} {cs : List Name} {l : Location}
    (hcur : t.isDirectory cur = true) (h : t.walk resolver false links cur cs = some l) :
    t.link l = none := by
  have hends : t.link l = none ∧ t.isDirectory l.tail = true := by
    apply walk_invariant (P := fun l => t.link l = none ∧ t.isDirectory l.tail = true) _ _ _ _ h
    · rintro cur ⟨-, hdir⟩
      exact ⟨link_eq_none_of_isDirectory hdir, isDirectory_tail hdir⟩
    · intro cur c _ hlook hlink
      exact ⟨hlink rfl, isDirectory_of_searchable (searchable_of_mayLook hlook)⟩
    · exact ⟨link_eq_none_of_isDirectory t.root_isDirectory, t.root_isDirectory⟩
    · exact ⟨link_eq_none_of_isDirectory hcur, isDirectory_tail hcur⟩
  exact hends.1

theorem locateBy_eq_some {path : Bytes} {l : Location} :
    t.locateBy resolver nofollow path = some l ↔
      cString path ≠ [] ∧ t.isDirectory (t.base (cString path)) = true ∧
        t.walk resolver nofollow t.symloopMax (t.base (cString path))
          (components (cString path)) = some l := by
  unfold locateBy
  dsimp only
  by_cases hnil : cString path = []
  · simp [hnil]
  · cases t.isDirectory (t.base (cString path)) <;> simp [hnil]

/-- **A path that starts at a reachable directory** leads to reachable locations. -/
theorem locateBy_reachable {path : Bytes} {l : Location}
    (hbase : t.reachable (t.base (cString path)) = true)
    (h : t.locateBy resolver nofollow path = some l) : t.reachable l = true :=
  walk_reachable hbase (locateBy_eq_some.mp h).2.2

theorem reachable_base {path : Bytes} (h : rooted path = true ∨ t.reachable t.cwd = true) :
    t.reachable (t.base (cString path)) = true := by
  rcases h with hroot | hcwd
  · cases path with
    | nil => cases hroot
    | cons first rest =>
      obtain rfl : first = SLASH := by simpa [rooted] using hroot
      rfl
  · unfold base
    split
    · rfl
    · exact hcwd

theorem locate_reachable {path : Bytes} {l : Location} (hroot : rooted path = true)
    (h : t.locate nofollow path = some l) : t.reachable l = true :=
  locateBy_reachable (reachable_base (Or.inl hroot)) h

/-- What is located with links followed, and is there, is no symbolic link. -/
theorem solid_of_locateBy {path : Bytes} {l : Location}
    (h : t.locateBy resolver false path = some l) (hsome : (t.node l).isSome = true) :
    t.Solid l := by
  rcases locateBy_eq_some.mp h with ⟨-, hdir, hwalk⟩
  exact solid_of_link hsome (walk_link hdir hwalk)

/-- What a path leads to is there, and no symbolic link. -/
theorem resolve_solid {path : Bytes} {l : Location} (h : t.resolve path = some l) :
    t.locate false path = some l ∧ t.Solid l := by
  rcases Option.filter_eq_some_iff.mp h with ⟨hlocate, hsome⟩
  exact ⟨hlocate, solid_of_locateBy hlocate hsome⟩

theorem realResolve_solid {path : Bytes} {l : Location} (h : t.realResolve path = some l) :
    t.realLocate path = some l ∧ t.Solid l := by
  rcases Option.filter_eq_some_iff.mp h with ⟨hlocate, hsome⟩
  exact ⟨hlocate, solid_of_locateBy hlocate hsome⟩

/-! ## 4. Entries -/

/-- A walk that does not follow a last link ends at the last name, in a directory that may be
    searched. -/
theorem walkWith_last {last : Name} (hne : last ≠ []) (hdot : last ≠ dot) (hdotdot : last ≠ dotdot)
    (hfollow : ∀ cur cs l, cs.getLast? = some last → follow cur cs = some l →
      ∃ d, l = last :: d ∧ t.searchable d = true)
    {cur : Location} {cs : List Name} {l : Location} (hlast : cs.getLast? = some last)
    (h : t.walkWith resolver true follow cur cs = some l) :
    ∃ d, l = last :: d ∧ t.searchable d = true := by
  induction cs generalizing cur with
  | nil => cases hlast
  | cons c cs ih =>
    rw [walkWith_step] at h
    by_cases hnil : cs = []
    · subst hnil
      obtain rfl : c = last := by simpa using hlast
      rw [if_neg hne, if_neg hdot, if_neg hdotdot] at h
      split at h
      · next hlook =>
        have hsearch := searchable_of_mayLook hlook
        cases hlink : t.link (c :: cur) with
        | none =>
          rw [hlink] at h
          dsimp only at h
          rw [if_pos (Or.inl rfl), walkWith] at h
          cases h
          exact ⟨cur, rfl, hsearch⟩
        | some target =>
          rw [hlink] at h
          dsimp only at h
          rw [if_pos ⟨rfl, rfl⟩] at h
          cases h
          exact ⟨cur, rfl, hsearch⟩
      · cases h
    · have hlater : cs.getLast? = some last := by
        rwa [List.getLast?_cons_of_ne_nil hnil] at hlast
      split at h
      · exact ih hlater h
      · split at h
        · split at h
          · exact ih hlater h
          · cases h
        · split at h
          · split at h
            · exact ih hlater h
            · cases h
          · split at h
            · split at h
              · rw [if_neg (fun hand => hnil hand.2)] at h
                split at h
                · cases h
                · apply hfollow _ _ _ _ h
                  rw [List.getLast?_append, hlater]
                  rfl
              · split at h
                · exact ih hlater h
                · cases h
            · cases h

theorem walk_last {last : Name} (hne : last ≠ []) (hdot : last ≠ dot) (hdotdot : last ≠ dotdot)
    {links : Nat} {cur : Location} {cs : List Name} {l : Location} (hlast : cs.getLast? = some last)
    (h : t.walk resolver true links cur cs = some l) :
    ∃ d, l = last :: d ∧ t.searchable d = true := by
  induction links generalizing cur cs l with
  | zero => exact walkWith_last hne hdot hdotdot (by simp) hlast h
  | succ links ih =>
    exact walkWith_last hne hdot hdotdot (fun cur cs l hlast h => ih hlast h) hlast h

/-- **The entry a path names** has a valid name, and lies in a directory that may be
    searched. -/
theorem entry_cons {path : Bytes} {l : Location} (h : t.entry path = some l) :
    ∃ n d, l = n :: d ∧ ValidName n ∧ t.searchable d = true := by
  unfold entry at h
  dsimp only at h
  cases hlast : (names (cString path)).getLast? with
  | none =>
    rw [hlast] at h
    cases h
  | some last =>
    rw [hlast] at h
    dsimp only at h
    split at h
    · cases h
    · next hname =>
      rw [not_or] at hname
      rcases mem_names (List.mem_of_getLast? hlast) with ⟨hne, hslash, hmem⟩
      rcases walk_last hne hname.1 hname.2 hlast h with ⟨d, rfl, hsearch⟩
      refine ⟨last, d, rfl, ⟨hne, hname.1, hname.2, hslash, ?_⟩, hsearch⟩
      intro hnul
      exact nul_not_mem_cString path (hmem NUL hnul)

/-- What the kernel asks for before it moves an entry over another place. -/
theorem mayRename_inv {oldPath newPath : Bytes} {old new : Location} (hne : old ≠ new)
    (h : t.mayRename oldPath newPath old new = true) :
    ∃ source, t.node old = some source ∧ ¬ old <:+ new ∧ ¬ new <:+ old ∧
      ∀ target, t.node new = some target →
        (if source.isDirectory then t.isEmptyDirectory new else !target.isDirectory) = true := by
  unfold mayRename at h
  cases hsource : t.node old with
  | none => simp [hsource] at h
  | some source =>
    simp only [hsource, Bool.and_eq_true, Bool.or_eq_true, beq_iff_eq, hne, false_or,
      Bool.not_eq_true', decide_eq_false_iff_not] at h
    rcases h with ⟨-, ⟨⟨-, hinside⟩, habove⟩, hkind⟩
    refine ⟨source, rfl, hinside, habove, ?_⟩
    intro target htarget
    rw [htarget] at hkind
    exact (Bool.and_eq_true_iff.mp hkind).2

/-- What the kernel renames is moved, unless both paths name the same entry. -/
theorem moveOk_of_mayRename {oldPath newPath : Bytes} {old new : Location}
    (hold : t.entry oldPath = some old) (hnew : t.entry newPath = some new) (hne : old ≠ new)
    (h : t.mayRename oldPath newPath old new = true) : t.MoveOk old new := by
  rcases entry_cons hold with ⟨k, c, rfl, -, -⟩
  rcases entry_cons hnew with ⟨n, d, rfl, hname, hsearch⟩
  rcases mayRename_inv hne h with ⟨source, hsource, hinside, habove, -⟩
  exact ⟨by simp, by rw [hsource]; rfl, isDirectory_of_searchable hsearch, hname, hinside, habove⟩

/-- The two trees have the same directories and links, and the same permission to search. -/
structure SameWays (t t' : FileTree) : Prop where
  cwd : t'.cwd = t.cwd
  symloopMax : t'.symloopMax = t.symloopMax
  isDirectory : ∀ l, t'.isDirectory l = t.isDirectory l
  searchable : ∀ l, t'.searchable l = t.searchable l
  link : ∀ l, t'.link l = t.link l

theorem SameWays.refl (t : FileTree) : t.SameWays t :=
  ⟨rfl, rfl, fun _ => rfl, fun _ => rfl, fun _ => rfl⟩

theorem SameWays.trans {t' t'' : FileTree} (h : t.SameWays t') (h' : t'.SameWays t'') :
    t.SameWays t'' := by
  refine ⟨h'.cwd.trans h.cwd, h'.symloopMax.trans h.symloopMax, ?_, ?_, ?_⟩
  · intro l
    rw [h'.isDirectory, h.isDirectory]
  · intro l
    rw [h'.searchable, h.searchable]
  · intro l
    rw [h'.link, h.link]

section SameWays

variable {t' : FileTree} (h : t.SameWays t')
include h

theorem SameWays.reachable (l : Location) : t'.reachable l = t.reachable l := by
  induction l with
  | nil => rfl
  | cons n d ih => rw [FileTree.reachable, FileTree.reachable, h.searchable, ih]

theorem SameWays.mayStay (cur : Location) : t'.mayStay resolver cur = t.mayStay resolver cur := by
  cases resolver with
  | kernel => exact h.searchable cur
  | realpath => rfl

theorem SameWays.mayLook (cur : Location) : t'.mayLook resolver cur = t.mayLook resolver cur := by
  cases resolver with
  | kernel => exact h.searchable cur
  | realpath => rw [FileTree.mayLook, FileTree.mayLook, h.searchable, h.reachable]

theorem SameWays.walkWith {cur : Location} {cs : List Name} :
    t'.walkWith resolver nofollow follow cur cs = t.walkWith resolver nofollow follow cur cs := by
  induction cs generalizing cur with
  | nil => rfl
  | cons c cs ih =>
    rw [walkWith_step, walkWith_step, h.mayStay, h.mayLook, h.link, h.isDirectory, ih, ih, ih]

theorem SameWays.walk {links : Nat} :
    t'.walk resolver nofollow links = t.walk resolver nofollow links := by
  induction links with
  | zero => exact funext fun cur => funext fun cs => h.walkWith
  | succ links ih =>
    refine funext fun cur => funext fun cs => ?_
    rw [FileTree.walk, FileTree.walk, ih]
    exact h.walkWith

theorem SameWays.base (path : Bytes) : t'.base path = t.base path := by
  rw [FileTree.base, FileTree.base, h.cwd]

/-- **A path leads to the same location** in trees with the same ways. -/
theorem SameWays.locateBy (path : Bytes) :
    t'.locateBy resolver nofollow path = t.locateBy resolver nofollow path := by
  unfold FileTree.locateBy
  dsimp only
  rw [h.base, h.isDirectory, h.symloopMax, h.walk]

theorem SameWays.locate (path : Bytes) : t'.locate nofollow path = t.locate nofollow path :=
  h.locateBy path

theorem SameWays.realLocate (path : Bytes) : t'.realLocate path = t.realLocate path :=
  h.locateBy path

theorem SameWays.entry (path : Bytes) : t'.entry path = t.entry path := by
  unfold FileTree.entry
  dsimp only
  rw [h.base, h.symloopMax, h.walk]

end SameWays

/-- `t'` has everything that `t` has, links and directories as they are there. -/
structure Grown (t t' : FileTree) : Prop extends t.SameWays t' where
  isSome : ∀ l, (t.node l).isSome = true → (t'.node l).isSome = true

theorem Grown.refl (t : FileTree) : t.Grown t := ⟨.refl t, fun _ => id⟩

theorem Grown.trans {t' t'' : FileTree} (h : t.Grown t') (h' : t'.Grown t'') : t.Grown t'' := by
  refine ⟨h.toSameWays.trans h'.toSameWays, ?_⟩
  intro l hsome
  exact h'.isSome l (h.isSome l hsome)

theorem Grown.resolve {t' : FileTree} (h : t.Grown t') {path : Bytes} {l : Location}
    (hresolve : t.resolve path = some l) : t'.resolve path = some l := by
  rcases Option.filter_eq_some_iff.mp hresolve with ⟨hlocate, hsome⟩
  exact Option.filter_eq_some_iff.mpr ⟨(h.locate path).trans hlocate, h.isSome l hsome⟩

theorem Grown.realResolve {t' : FileTree} (h : t.Grown t') {path : Bytes} {l : Location}
    (hresolve : t.realResolve path = some l) : t'.realResolve path = some l := by
  rcases Option.filter_eq_some_iff.mp hresolve with ⟨hlocate, hsome⟩
  exact Option.filter_eq_some_iff.mpr ⟨(h.realLocate path).trans hlocate, h.isSome l hsome⟩

end FileTree

end Posix
