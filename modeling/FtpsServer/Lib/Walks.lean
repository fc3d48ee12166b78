import FtpsServer.Lib.PathWalk

/-!
# Path resolution as a derivation

`Walks` has one rule for each move of a walk, with the number of symbolic links that may
be followed.  It is the graph of `walk`, and the form in which walks are taken apart
and put together: a walk through `cs ++ cs'` is a walk through `cs` and one through
`cs'` from where that ends, if the links of both are allowed.

The kernel and `realpath` never disagree about where a path leads, and from a reachable
directory `realpath` arrives wherever the kernel does.
-/

namespace Posix

open ByteString

/-- A component that is looked up. -/
structure Ordinary (c : Name) : Prop where
  ne_nil : c ≠ []
  ne_dot : c ≠ dot
  ne_dotdot : c ≠ dotdot

namespace FileTree

/-! ## 1. The rules -/

/-- From `cur` the components `cs` lead to `l`, with at most `links` links followed. -/
inductive Walks (t : FileTree) (resolver : Resolver) (nofollow : Bool) :
    Nat → Location → List Name → Location → Prop where
  | stop {links : Nat} {cur : Location} : Walks t resolver nofollow links cur [] cur
  | slash {links : Nat} {cur : Location} {cs : List Name} {l : Location}
      (rest : Walks t resolver nofollow links cur cs l) :
      Walks t resolver nofollow links cur ([] :: cs) l
  | dot {links : Nat} {cur : Location} {cs : List Name} {l : Location}
      (stay : t.mayStay resolver cur = true) (rest : Walks t resolver nofollow links cur cs l) :
      Walks t resolver nofollow links cur (dot :: cs) l
  | dotdot {links : Nat} {cur : Location} {cs : List Name} {l : Location}
      (stay : t.mayStay resolver cur = true)
      (rest : Walks t resolver nofollow links cur.tail cs l) :
      Walks t resolver nofollow links cur (dotdot :: cs) l
  /-- Down to what is no link; the last component need not exist. -/
  | child {links : Nat} {cur : Location} {c : Name} {cs : List Name} {l : Location}
      (look : t.mayLook resolver cur = true) (name : Ordinary c) (link : t.link (c :: cur) = none)
      (directory : cs = [] ∨ t.isDirectory (c :: cur) = true)
      (rest : Walks t resolver nofollow links (c :: cur) cs l) :
      Walks t resolver nofollow links cur (c :: cs) l
  /-- A link in last position that is not followed. -/
  | keep {links : Nat} {cur : Location} {c : Name} {target : Bytes}
      (look : t.mayLook resolver cur = true) (name : Ordinary c)
      (link : t.link (c :: cur) = some target) (kept : nofollow = true) :
      Walks t resolver nofollow links cur [c] (c :: cur)
  | follow {links : Nat} {cur : Location} {c : Name} {cs : List Name} {l : Location}
      {target : Bytes} (look : t.mayLook resolver cur = true) (name : Ordinary c)
      (link : t.link (c :: cur) = some target) (followed : ¬ (nofollow = true ∧ cs = []))
      (target_ne : target ≠ [])
      (rest : Walks t resolver nofollow links (if rooted target then [] else cur)
        (components target ++ cs) l) : Walks t resolver nofollow (links + 1) cur (c :: cs) l

variable {t : FileTree} {resolver : Resolver} {nofollow : Bool} {links : Nat}
  {cur l : Location} {cs : List Name}

/-- Where a walk goes on behind a link. -/
def followWith (t : FileTree) (resolver : Resolver) (nofollow : Bool) :
    Nat → Location → List Name → Option Location
  | 0 => fun _ _ => none
  | links + 1 => t.walk resolver nofollow links

theorem walk_eq (t : FileTree) (resolver : Resolver) (nofollow : Bool) (links : Nat) :
    t.walk resolver nofollow links =
      t.walkWith resolver nofollow (t.followWith resolver nofollow links) := by
  cases links <;> rfl

theorem Walks.walk_eq_some (h : Walks t resolver nofollow links cur cs l) :
    t.walk resolver nofollow links cur cs = some l := by
  induction h with
  | stop => rw [walk_eq, walkWith]
  | slash rest ih => rwa [walk_eq, walkWith_step, if_pos rfl, ← walk_eq]
  | dot stay rest ih =>
    rwa [walk_eq, walkWith_step, if_neg (by decide), if_pos rfl, if_pos stay, ← walk_eq]
  | dotdot stay rest ih =>
    rwa [walk_eq, walkWith_step, if_neg (by decide), if_neg (by decide), if_pos rfl, if_pos stay,
      ← walk_eq]
  | child look name link directory rest ih =>
    rw [walk_eq, walkWith_step, if_neg name.ne_nil, if_neg name.ne_dot, if_neg name.ne_dotdot,
      if_pos look, link]
    dsimp only
    rwa [if_pos directory, ← walk_eq]
  | keep look name link kept =>
    rw [walk_eq, walkWith_step, if_neg name.ne_nil, if_neg name.ne_dot, if_neg name.ne_dotdot,
      if_pos look, link]
    exact if_pos ⟨kept, rfl⟩
  | follow look name link followed target_ne rest ih =>
    rw [walk_eq, walkWith_step, if_neg name.ne_nil, if_neg name.ne_dot, if_neg name.ne_dotdot,
      if_pos look, link]
    dsimp only
    rwa [if_neg followed, if_neg target_ne]

theorem walks_of_walkWith
    (hfollow : ∀ cur cs l, t.followWith resolver nofollow links cur cs = some l →
      ∃ fewer, links = fewer + 1 ∧ Walks t resolver nofollow fewer cur cs l)
    (h : t.walkWith resolver nofollow (t.followWith resolver nofollow links) cur cs = some l) :
    Walks t resolver nofollow links cur cs l := by
  induction cs generalizing cur with
  | nil =>
    cases h
    exact .stop
  | cons c cs ih =>
    rw [walkWith_step] at h
    split at h
    · next hnil =>
      subst hnil
      exact .slash (ih h)
    · next hnil =>
      split at h
      · next hdot =>
        subst hdot
        split at h
        · next hstay => exact .dot hstay (ih h)
        · cases h
      · next hdot =>
        split at h
        · next hdotdot =>
          subst hdotdot
          split at h
          · next hstay => exact .dotdot hstay (ih h)
          · cases h
        · next hdotdot =>
          have hname : Ordinary c := ⟨hnil, hdot, hdotdot⟩
          split at h
          · next hlook =>
            cases hlink : t.link (c :: cur) with
            | none =>
              rw [hlink] at h
              dsimp only at h
              split at h
              · next hdir => exact .child hlook hname hlink hdir (ih h)
              · cases h
            | some target =>
              rw [hlink] at h
              dsimp only at h
              split at h
              · next hkept =>
                cases h
                rw [hkept.2]
                exact .keep hlook hname hlink hkept.1
              · next hfollowed =>
                split at h
                · cases h
                · next hne =>
                  rcases hfollow _ _ _ h with ⟨fewer, rfl, hrest⟩
                  exact .follow hlook hname hlink hfollowed hne hrest
          · cases h

/-- **A walk is a derivation.** -/
theorem walk_eq_some_iff :
    t.walk resolver nofollow links cur cs = some l ↔
      Walks t resolver nofollow links cur cs l := by
  refine ⟨?_, Walks.walk_eq_some⟩
  intro h
  induction links generalizing cur cs l with
  | zero =>
    apply walks_of_walkWith _ (by rwa [walk_eq] at h)
    intro cur cs l hnone
    cases hnone
  | succ links ih =>
    apply walks_of_walkWith _ (by rwa [walk_eq] at h)
    intro cur cs l hfollow
    exact ⟨links, rfl, ih hfollow⟩

/-! ## 2. Composition -/

theorem Walks.more (h : Walks t resolver nofollow links cur cs l) (extra : Nat) :
    Walks t resolver nofollow (links + extra) cur cs l := by
  induction h with
  | stop => exact .stop
  | slash rest ih => exact .slash ih
  | dot stay rest ih => exact .dot stay ih
  | dotdot stay rest ih => exact .dotdot stay ih
  | child look name link directory rest ih => exact .child look name link directory ih
  | keep look name link kept => exact .keep look name link kept
  | follow look name link followed target_ne rest ih =>
    rw [Nat.add_right_comm]
    exact .follow look name link followed target_ne ih

/-- **Walks compose** at a directory, and the links add up. -/
theorem Walks.append {links' : Nat} {cs' : List Name} {mid : Location}
    (h : Walks t resolver false links cur cs mid) (hmid : t.isDirectory mid = true)
    (h' : Walks t resolver false links' mid cs' l) :
    Walks t resolver false (links + links') cur (cs ++ cs') l := by
  induction h with
  | stop =>
    rw [Nat.add_comm]
    exact h'.more _
  | slash rest ih => exact .slash (ih hmid h')
  | dot stay rest ih => exact .dot stay (ih hmid h')
  | dotdot stay rest ih => exact .dotdot stay (ih hmid h')
  | @child links cur c cs mid look name link directory rest ih =>
    refine .child look name link (Or.inr ?_) (ih hmid h')
    rcases directory with rfl | hdir
    · -- the walk stopped here
      cases rest
      exact hmid
    · exact hdir
  | keep look name link kept => cases kept
  | follow look name link followed target_ne rest ih =>
    rw [Nat.add_right_comm]
    refine .follow look name link (by simp) target_ne ?_
    have hrest := ih hmid h'
    rwa [List.append_assoc] at hrest

/-- **Walks come apart** at any component, which is looked up in a directory. -/
theorem Walks.split {cs' : List Name} (h : Walks t resolver false links cur (cs ++ cs') l)
    (hne : cs' ≠ []) (hcur : t.isDirectory cur = true) :
    ∃ n m mid, n + m = links ∧ Walks t resolver false n cur cs mid ∧
      t.isDirectory mid = true ∧ Walks t resolver false m mid cs' l := by
  generalize hall : cs ++ cs' = all at h
  induction h generalizing cs with
  | stop => exact absurd (List.append_eq_nil_iff.mp hall).2 hne
  | @slash links cur cs₀ l rest ih =>
    cases cs with
    | nil =>
      subst hall
      exact ⟨0, links, _, Nat.zero_add links, .stop, hcur, .slash rest⟩
    | cons c cs =>
      rcases List.cons.inj hall with ⟨rfl, hrest⟩
      rcases ih hcur hrest with ⟨n, m, mid, hsum, hfirst, hmid, hsecond⟩
      exact ⟨n, m, mid, hsum, .slash hfirst, hmid, hsecond⟩
  | @dot links cur cs₀ l stay rest ih =>
    cases cs with
    | nil =>
      subst hall
      exact ⟨0, links, _, Nat.zero_add links, .stop, hcur, .dot stay rest⟩
    | cons c cs =>
      rcases List.cons.inj hall with ⟨rfl, hrest⟩
      rcases ih hcur hrest with ⟨n, m, mid, hsum, hfirst, hmid, hsecond⟩
      exact ⟨n, m, mid, hsum, .dot stay hfirst, hmid, hsecond⟩
  | @dotdot links cur cs₀ l stay rest ih =>
    cases cs with
    | nil =>
      subst hall
      exact ⟨0, links, _, Nat.zero_add links, .stop, hcur, .dotdot stay rest⟩
    | cons c cs =>
      rcases List.cons.inj hall with ⟨rfl, hrest⟩
      rcases ih (isDirectory_tail hcur) hrest with ⟨n, m, mid, hsum, hfirst, hmid, hsecond⟩
      exact ⟨n, m, mid, hsum, .dotdot stay hfirst, hmid, hsecond⟩
  | @child links cur c₀ cs₀ l look name link directory rest ih =>
    cases cs with
    | nil =>
      subst hall
      exact ⟨0, links, _, Nat.zero_add links, .stop, hcur, .child look name link directory rest⟩
    | cons c cs =>
      rcases List.cons.inj hall with ⟨rfl, hrest⟩
      have hdir : t.isDirectory (c :: cur) = true := by
        rcases directory with hnil | hdir
        · rw [hnil] at hrest
          exact absurd (List.append_eq_nil_iff.mp hrest).2 hne
        · exact hdir
      rcases ih hdir hrest with ⟨n, m, mid, hsum, hfirst, hmid, hsecond⟩
      exact ⟨n, m, mid, hsum, .child look name link (Or.inr hdir) hfirst, hmid, hsecond⟩
  | keep look name link kept => cases kept
  | @follow links cur c₀ cs₀ l target look name link followed target_ne rest ih =>
    cases cs with
    | nil =>
      subst hall
      exact ⟨0, links + 1, _, Nat.zero_add _, .stop, hcur,
        .follow look name link followed target_ne rest⟩
    | cons c cs =>
      rcases List.cons.inj hall with ⟨rfl, hrest⟩
      have hbase : t.isDirectory (if rooted target then [] else cur) = true := by
        split
        · exact t.root_isDirectory
        · exact hcur
      rcases ih hbase (by rw [List.append_assoc]; exact congrArg _ hrest) with
        ⟨n, m, mid, hsum, hfirst, hmid, hsecond⟩
      refine ⟨n + 1, m, mid, by omega, ?_, hmid, hsecond⟩
      exact .follow look name link (by simp) target_ne hfirst

/-- A walk that would not follow a last link, and ends at none, is one that would. -/
theorem Walks.following (h : Walks t resolver true links cur cs l) (hlink : t.link l = none) :
    Walks t resolver false links cur cs l := by
  induction h with
  | stop => exact .stop
  | slash rest ih => exact .slash (ih hlink)
  | dot stay rest ih => exact .dot stay (ih hlink)
  | dotdot stay rest ih => exact .dotdot stay (ih hlink)
  | child look name link directory rest ih => exact .child look name link directory (ih hlink)
  | keep look name link kept =>
    rw [link] at hlink
    cases hlink
  | follow look name link followed target_ne rest ih =>
    exact .follow look name link (by simp) target_ne (ih hlink)

/-! ## 3. The kernel and `realpath` -/

/-- **Two walks that arrive** along the same components arrive at the same place, whoever
    takes them and however many links they may follow. -/
theorem Walks.agree {resolver' : Resolver} {links' : Nat} {l' : Location}
    (h : Walks t resolver nofollow links cur cs l)
    (h' : Walks t resolver' nofollow links' cur cs l') : l = l' := by
  induction h generalizing links' with
  | stop =>
    cases h'
    rfl
  | slash rest ih =>
    cases h' with
    | slash rest' => exact ih rest'
    | child look name link directory rest' => exact absurd rfl name.ne_nil
    | keep look name link kept => exact absurd rfl name.ne_nil
    | follow look name link followed target_ne rest' => exact absurd rfl name.ne_nil
  | dot stay rest ih =>
    cases h' with
    | dot stay' rest' => exact ih rest'
    | child look name link directory rest' => exact absurd rfl name.ne_dot
    | keep look name link kept => exact absurd rfl name.ne_dot
    | follow look name link followed target_ne rest' => exact absurd rfl name.ne_dot
  | dotdot stay rest ih =>
    cases h' with
    | dotdot stay' rest' => exact ih rest'
    | child look name link directory rest' => exact absurd rfl name.ne_dotdot
    | keep look name link kept => exact absurd rfl name.ne_dotdot
    | follow look name link followed target_ne rest' => exact absurd rfl name.ne_dotdot
  | child look name link directory rest ih =>
    cases h' with
    | slash rest' => exact absurd rfl name.ne_nil
    | dot stay rest' => exact absurd rfl name.ne_dot
    | dotdot stay rest' => exact absurd rfl name.ne_dotdot
    | child look' name' link' directory' rest' => exact ih rest'
    | keep look' name' link' kept => cases link.symm.trans link'
    | follow look' name' link' followed target_ne rest' => cases link.symm.trans link'
  | keep look name link kept =>
    cases h' with
    | slash rest' => exact absurd rfl name.ne_nil
    | dot stay rest' => exact absurd rfl name.ne_dot
    | dotdot stay rest' => exact absurd rfl name.ne_dotdot
    | child look' name' link' directory' rest' => cases link.symm.trans link'
    | keep look' name' link' kept' => rfl
    | follow look' name' link' followed target_ne rest' => exact absurd ⟨kept, rfl⟩ followed
  | follow look name link followed target_ne rest ih =>
    cases h' with
    | slash rest' => exact absurd rfl name.ne_nil
    | dot stay rest' => exact absurd rfl name.ne_dot
    | dotdot stay rest' => exact absurd rfl name.ne_dotdot
    | child look' name' link' directory' rest' => cases link.symm.trans link'
    | keep look' name' link' kept' => exact absurd ⟨kept', rfl⟩ followed
    | follow look' name' link' followed' target_ne' rest' =>
      cases link.symm.trans link'
      exact ih rest'

/-- **From a reachable directory** `realpath` goes wherever the kernel does. -/
theorem Walks.realpath (h : Walks t .kernel nofollow links cur cs l)
    (hreach : t.reachable cur = true) : Walks t .realpath nofollow links cur cs l := by
  have hlooks : ∀ {cur}, t.reachable cur = true → t.mayLook .kernel cur = true →
      t.mayLook .realpath cur = true := by
    intro cur hcur hlook
    rwa [mayLook_of_reachable hcur] at hlook ⊢
  induction h with
  | stop => exact .stop
  | slash rest ih => exact .slash (ih hreach)
  | dot stay rest ih => exact .dot rfl (ih hreach)
  | dotdot stay rest ih => exact .dotdot rfl (ih (reachable_tail hreach))
  | child look name link directory rest ih =>
    refine .child (hlooks hreach look) name link directory (ih ?_)
    rw [reachable, searchable_of_mayLook look, hreach]
    rfl
  | keep look name link kept => exact .keep (hlooks hreach look) name link kept
  | follow look name link followed target_ne rest ih =>
    refine .follow (hlooks hreach look) name link followed target_ne (ih ?_)
    split
    · rfl
    · exact hreach

/-! ## 4. Paths -/

variable {path : Bytes}

theorem locateBy_eq_some_iff :
    t.locateBy resolver nofollow path = some l ↔ cString path ≠ [] ∧
      t.isDirectory (t.base (cString path)) = true ∧
      Walks t resolver nofollow t.symloopMax (t.base (cString path))
        (components (cString path)) l := by
  rw [← walk_eq_some_iff]
  exact locateBy_eq_some

/-- The kernel and `realpath` take a path for the same object, if both find one. -/
theorem resolve_agree {l' : Location} (h : t.resolve path = some l)
    (h' : t.realResolve path = some l') : l = l' := by
  have hkernel := (locateBy_eq_some_iff.mp (resolve_solid h).1).2.2
  have hreal := (locateBy_eq_some_iff.mp (realResolve_solid h').1).2.2
  exact hkernel.agree hreal

theorem realLocate_of_locate (hbase : t.reachable (t.base (cString path)) = true)
    (h : t.locate false path = some l) : t.realLocate path = some l := by
  rcases locateBy_eq_some_iff.mp h with ⟨hne, hdir, hwalk⟩
  exact locateBy_eq_some_iff.mpr ⟨hne, hdir, hwalk.realpath hbase⟩

/-- `realpath` finds what the kernel finds by a path from a reachable directory. -/
theorem realResolve_of_resolve (hbase : t.reachable (t.base (cString path)) = true)
    (h : t.resolve path = some l) : t.realResolve path = some l := by
  rcases Option.filter_eq_some_iff.mp h with ⟨hlocate, hsome⟩
  exact Option.filter_eq_some_iff.mpr ⟨realLocate_of_locate hbase hlocate, hsome⟩

/-- A file that `realpath` finds is reachable. -/
theorem reachable_of_realLocate (h : t.realLocate path = some l)
    (hfile : t.isDirectory l = false) : t.reachable l = true := by
  rcases locateBy_eq_some.mp h with ⟨-, hdir, hwalk⟩
  rcases walk_realpath_reachable hdir hwalk with hl | hreach
  · rw [hl] at hfile
    cases hfile
  · exact hreach

theorem base_append_slash (front back : Bytes) :
    t.base (front ++ SLASH :: back) = t.base (front ++ [SLASH]) := by
  cases front with
  | nil => rfl
  | cons first rest => rfl

/-- A path goes on behind a slash where it was before it. -/
theorem locateBy_append_slash {front : Bytes} (hnul : NUL ∉ front) (back : Bytes) :
    t.locateBy resolver nofollow (front ++ SLASH :: back) = some l ↔
      t.isDirectory (t.base (front ++ [SLASH])) = true ∧
      Walks t resolver nofollow t.symloopMax (t.base (front ++ [SLASH]))
        (names front ++ components (SLASH :: cString back)) l := by
  have hback : cString (SLASH :: back) = SLASH :: cString back := rfl
  rw [locateBy_eq_some_iff, cString_append hnul, hback, base_append_slash, components_append_slash]
  exact and_iff_right (by simp)

/-- The directory that `front` leads to is where `back` goes on to `l`. -/
def Behind (t : FileTree) (resolver : Resolver) (front back : Bytes) (l : Location) : Prop :=
  ∃ n m mid, n + m = t.symloopMax ∧
    Walks t resolver false n (t.base (front ++ [SLASH])) (names front) mid ∧
    t.isDirectory mid = true ∧ Walks t resolver false m mid (components back) l

/-- **A path behind a directory.** -/
theorem locateBy_behind_iff {front : Bytes} (hnul : NUL ∉ front) (back : Bytes) :
    t.locateBy resolver false (front ++ SLASH :: back) = some l ↔
      t.isDirectory (t.base (front ++ [SLASH])) = true ∧
        t.Behind resolver front (SLASH :: cString back) l := by
  rw [locateBy_append_slash hnul]
  constructor
  · rintro ⟨hbase, hwalk⟩
    rcases hwalk.split (components_ne_nil (List.cons_ne_nil _ _)) hbase with
      ⟨n, m, mid, hsum, hfirst, hmid, hsecond⟩
    exact ⟨hbase, n, m, mid, hsum, hfirst, hmid, hsecond⟩
  · rintro ⟨hbase, n, m, mid, hsum, hfirst, hmid, hsecond⟩
    have hwalk := hfirst.append hmid hsecond
    rw [hsum] at hwalk
    exact ⟨hbase, hwalk⟩

/-- To look up its first component, the kernel has to search where it is. -/
theorem Walks.searchable_of_ne (h : Walks t .kernel nofollow links cur cs l) (hne : cs ≠ [])
    (hnames : ∀ c ∈ cs, c ≠ []) : t.searchable cur = true := by
  cases h with
  | stop => exact absurd rfl hne
  | slash rest => exact absurd rfl (hnames _ List.mem_cons_self)
  | dot stay rest => exact stay
  | dotdot stay rest => exact stay
  | child look name link directory rest => exact look
  | keep look name link kept => exact look
  | follow look name link followed target_ne rest => exact look

theorem walks_of_entry (h : t.entry path = some l) :
    Walks t .kernel true t.symloopMax (t.base (cString path)) (names (cString path)) l := by
  unfold entry at h
  dsimp only at h
  split at h
  · cases h
  · split at h
    · cases h
    · exact walk_eq_some_iff.mp h

theorem Walks.eq_of_slash (h : Walks t resolver nofollow links cur [[]] l) : l = cur := by
  cases h with
  | slash rest =>
    cases rest
    rfl
  | child look name link directory rest => exact absurd rfl name.ne_nil
  | keep look name link kept => exact absurd rfl name.ne_nil
  | follow look name link followed target_ne rest => exact absurd rfl name.ne_nil

/-- Behind a slash at the end the walk stays where it is. -/
theorem Walks.names_of_components (hcur : t.isDirectory cur = true)
    (h : Walks t resolver false links cur (components path) l) :
    Walks t resolver false links cur (names path) l := by
  unfold components at h
  split at h
  · rcases h.split (by simp) hcur with ⟨n, m, mid, rfl, hfirst, -, hslash⟩
    rw [hslash.eq_of_slash]
    exact hfirst.more m
  · rwa [List.append_nil] at h

theorem Walks.components_of_names (h : Walks t resolver false links cur (names path) l)
    (hdir : t.isDirectory l = true) : Walks t resolver false links cur (components path) l := by
  unfold components
  split
  · have hslash : Walks t resolver false 0 l [[]] l := .slash .stop
    exact h.append hdir hslash
  · rwa [List.append_nil]

/-- **An entry that is no symbolic link** is what its path leads to. -/
theorem eq_of_entry {named : Location} (hl : t.locateBy resolver false path = some l)
    (hnamed : t.entry path = some named) (hlink : t.link named = none) : named = l := by
  have hnames := (walks_of_entry hnamed).following hlink
  rcases locateBy_eq_some_iff.mp hl with ⟨-, hbase, hwalk⟩
  exact hnames.agree (hwalk.names_of_components hbase)

/-- The walk down to a reachable directory, and on from there. -/
theorem walks_reverse_append (hdir : t.isDirectory cur = true) (hreach : t.reachable cur = true) :
    Walks t resolver nofollow links [] (cur.reverse ++ cs) l ↔
      Walks t resolver nofollow links cur cs l := by
  rw [← walk_eq_some_iff, ← walk_eq_some_iff, walk_reverse (solid_of_isDirectory hdir),
    if_pos ⟨hreach, Or.inr hdir⟩]

/-- The number of links that may be followed is no limit to `realpath` for the path. -/
def Unlimited (t : FileTree) (path : Bytes) : Prop :=
  ∀ links l, t.walk .realpath false links (t.base (cString path)) (components (cString path)) = some l →
    t.realLocate path = some l

end FileTree

end Posix
