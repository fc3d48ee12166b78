import FtpsServer.FileSystem
import FtpsServer.Lib.Walks

/-!
# Canonical paths and what they name

`get_canonical_full_path` writes the path of what `realpath` takes its argument for, with a
slash behind a directory.  A handler that makes a path canonical and works on the result
works on the same object, or on nothing when a directory on the way may not be searched.
-/

namespace FtpsServer

open ByteString Posix

namespace Path

variable {t : FileTree} {path : Bytes} {l : Location}

theorem canonical_eq_nil (h : t.realResolve path = none) : canonical t path = [] := by
  rw [canonical, getCanonicalFullPath, FileTree.realpath, h]
  rfl

theorem canonical_eq (h : t.realResolve path = some l) :
    canonical t path =
      if Directory.exists' t (render l) && !trailing (render l) then render l ++ [SLASH]
      else render l := by
  rw [canonical, getCanonicalFullPath, FileTree.realpath, h]
  dsimp only [Option.map_some]
  split <;> rfl

theorem leadsTo_render_of_realResolve (h : t.realResolve path = some l) : LeadsTo (render l) l :=
  leadsTo_render (FileTree.validName_of_mem (FileTree.realResolve_solid h).2.isSome)

/-- **A canonical path** is rooted and has the names of what the path leads to. -/
theorem canonical_leadsTo (h : t.realResolve path = some l) : LeadsTo (canonical t path) l := by
  have hrender := leadsTo_render_of_realResolve h
  rw [canonical_eq h]
  split
  · exact hrender.slash
  · exact hrender

theorem trailing_render_of_ne (h : t.Solid l) (hne : l ≠ []) : trailing (render l) = false := by
  cases l with
  | nil => exact absurd rfl hne
  | cons n d => exact trailing_render (FileTree.validName_of_mem h.isSome n (by simp))

/-- `directory::exists` finds a directory that can be reached from the root. -/
theorem directory_exists_iff :
    Directory.exists' t path = true ↔
      ∃ l, t.realResolve path = some l ∧ t.isDirectory l = true ∧ t.reachable l = true := by
  unfold Directory.exists' FileTree.realpath
  cases hresolve : t.realResolve path with
  | none => simp
  | some l =>
    have hsolid := (FileTree.realResolve_solid hresolve).2
    rw [Option.map_some]
    dsimp only
    rw [Directory.isFileType, FileTree.lstat,
      FileTree.locate_of_leadsTo (leadsTo_render_of_realResolve hresolve) hsolid]
    constructor
    · intro hexists
      split at hexists
      · cases hexists
      · next node hnode =>
        split at hnode
        · next hway =>
          refine ⟨l, rfl, ?_, (Bool.and_eq_true_iff.mp hway).1⟩
          rw [FileTree.isDirectory, show t.node l = some node from hnode]
          exact hexists
        · cases hnode
    · rintro ⟨l', heq, hdir, hreach⟩
      cases heq
      rcases FileTree.node_of_isDirectory hdir with ⟨mode, hnode⟩
      rw [hreach, hdir, Bool.or_true, Bool.and_true, if_pos rfl, Option.bind_some, hnode]
      rfl

/-- `directory::exists` on the path of an object. -/
theorem directory_exists_render_iff (hsolid : t.Solid l) :
    Directory.exists' t (render l) = true ↔ t.isDirectory l = true ∧ t.reachable l = true := by
  have hrender := leadsTo_render (FileTree.validName_of_mem hsolid.isSome)
  rw [directory_exists_iff, FileTree.realResolve_of_leadsTo hrender hsolid]
  constructor
  · rintro ⟨l', hl', hdir, hreach⟩
    split at hl'
    · cases hl'
      exact ⟨hdir, hreach⟩
    · cases hl'
  · rintro ⟨hdir, hreach⟩
    refine ⟨l, ?_, hdir, hreach⟩
    rw [hreach, hdir, Bool.or_true, Bool.and_true, if_pos rfl]

/-- The canonical path in full: the names of the object from the root on, and a slash
    behind a directory below the root that can be reached. -/
theorem canonical_eq_render (h : t.realResolve path = some l) :
    canonical t path =
      render l ++
        if l ≠ [] ∧ t.isDirectory l = true ∧ t.reachable l = true then [SLASH] else [] := by
  have hsolid := (FileTree.realResolve_solid h).2
  rw [canonical_eq h]
  by_cases hnil : l = []
  · -- the root is written as a slash already
    subst hnil
    rw [if_neg (by simp [trailing, render]), if_neg (by simp), List.append_nil]
  · rw [trailing_render_of_ne hsolid hnil, Bool.not_false, Bool.and_true]
    by_cases hexists : Directory.exists' t (render l) = true
    · rw [if_pos hexists, if_pos ⟨hnil, (directory_exists_render_iff hsolid).mp hexists⟩]
    · have hnot : ¬(l ≠ [] ∧ t.isDirectory l = true ∧ t.reachable l = true) := fun hall =>
        hexists ((directory_exists_render_iff hsolid).mpr hall.2)
      rw [if_neg hexists, if_neg hnot, List.append_nil]

/-- The canonical path of a directory ends with a slash. -/
theorem trailing_canonical (h : t.realResolve path = some l) (hdir : t.isDirectory l = true)
    (hreach : t.reachable l = true) : trailing (canonical t path) = true := by
  rw [canonical_eq_render h]
  by_cases hnil : l = []
  · subst hnil
    rfl
  · rw [if_pos ⟨hnil, hdir, hreach⟩]
    simp [trailing]

/-- The canonical path of what is no directory. -/
theorem trailing_canonical_of_not_directory (h : t.realResolve path = some l)
    (hnot : t.isDirectory l = false) : trailing (canonical t path) = false := by
  have hnil : l ≠ [] := by
    rintro rfl
    rw [FileTree.isDirectory, t.root_isDirectory] at hnot
    cases hnot
  rw [canonical_eq_render h, if_neg (by simp [hnot]), List.append_nil]
  exact trailing_render_of_ne (FileTree.realResolve_solid h).2 hnil

/-! ### Back from a canonical path -/

/-- **What a canonical path leads to**, for the kernel as for `realpath`: what the path led
    to, if that can be reached from the root. -/
theorem locateBy_canonical {resolver : Resolver} {nofollow : Bool}
    (h : t.realResolve path = some l) :
    t.locateBy resolver nofollow (canonical t path) = if t.reachable l then some l else none := by
  rw [FileTree.locateBy_of_leadsTo (canonical_leadsTo h) (FileTree.realResolve_solid h).2]
  cases hdir : t.isDirectory l with
  | true => rw [Bool.or_true, Bool.and_true]
  | false =>
    rw [trailing_canonical_of_not_directory h hdir]
    simp

theorem locate_canonical {nofollow : Bool} (h : t.realResolve path = some l) :
    t.locate nofollow (canonical t path) = if t.reachable l then some l else none :=
  locateBy_canonical h

theorem filter_reachable (h : t.realResolve path = some l) :
    (if t.reachable l then some l else none).filter (fun l => (t.node l).isSome) =
      if t.reachable l then some l else none :=
  FileTree.filter_of_solid (FileTree.realResolve_solid h).2 (t.reachable l)

theorem resolve_canonical (h : t.realResolve path = some l) :
    t.resolve (canonical t path) = if t.reachable l then some l else none := by
  rw [FileTree.resolve, locate_canonical h, filter_reachable h]

theorem realResolve_canonical (h : t.realResolve path = some l) :
    t.realResolve (canonical t path) = if t.reachable l then some l else none := by
  rw [FileTree.realResolve, FileTree.realLocate, locateBy_canonical h, filter_reachable h]

/-- The entry that a canonical path names is what the path led to. -/
theorem entry_canonical {l' : Location} (h : t.realResolve path = some l)
    (h' : t.entry (canonical t path) = some l') : l' = l := by
  cases l with
  | nil =>
    rw [FileTree.entry_of_leadsTo_nil (canonical_leadsTo h)] at h'
    cases h'
  | cons n d =>
    rw [FileTree.entry_of_leadsTo (canonical_leadsTo h) (FileTree.realResolve_solid h).2] at h'
    split at h'
    · exact (Option.some.inj h').symm
    · cases h'

/-- The entry of a reachable object is found by its canonical path. -/
theorem entry_canonical_iff {n : Name} {d : Location} (h : t.realResolve path = some (n :: d)) :
    t.entry (canonical t path) = some (n :: d) ↔ t.reachable (n :: d) = true := by
  rw [FileTree.entry_of_leadsTo (canonical_leadsTo h) (FileTree.realResolve_solid h).2]
  cases t.reachable (n :: d) <;> simp

theorem entry_nil (t : FileTree) : t.entry [] = none := rfl

/-- **The path leads where its canonical path leads.** -/
theorem realResolve_of_canonical (h : t.realResolve (canonical t path) = some l) :
    t.realResolve path = some l := by
  cases hpath : t.realResolve path with
  | none =>
    rw [canonical_eq_nil hpath] at h
    cases h
  | some found =>
    rw [realResolve_canonical hpath] at h
    split at h
    · exact h
    · cases h

theorem realResolve_of_resolve_canonical (h : t.resolve (canonical t path) = some l) :
    t.realResolve path = some l := by
  cases hpath : t.realResolve path with
  | none =>
    rw [canonical_eq_nil hpath] at h
    cases h
  | some found =>
    rw [resolve_canonical hpath] at h
    split at h
    · exact h
    · cases h

theorem realResolve_of_entry_canonical (h : t.entry (canonical t path) = some l) :
    t.realResolve path = some l := by
  cases hpath : t.realResolve path with
  | none =>
    rw [canonical_eq_nil hpath, entry_nil] at h
    cases h
  | some found => rw [entry_canonical hpath h]

/-- The same when the path was made canonical twice, as RNFR and RNTO do. -/
theorem realResolve_of_entry_canonical_canonical
    (h : t.entry (canonical t (canonical t path)) = some l) : t.realResolve path = some l :=
  realResolve_of_canonical (realResolve_of_entry_canonical h)

/-- The canonical path is that of a directory which is found when what the path leads to
    is a directory that can be reached. -/
theorem exists_canonical_iff (h : t.realResolve path = some l) :
    Directory.exists' t (canonical t path) = true ↔
      t.isDirectory l = true ∧ t.reachable l = true := by
  rw [directory_exists_iff, realResolve_canonical h]
  constructor
  · rintro ⟨l', hl', hdir, hreach⟩
    split at hl'
    · cases hl'
      exact ⟨hdir, hreach⟩
    · cases hl'
  · rintro ⟨hdir, hreach⟩
    exact ⟨l, if_pos hreach, hdir, hreach⟩

/-! ### Canonical paths as normal forms -/

/-- Two canonical paths are the same when both paths lead to the same object. -/
theorem canonical_eq_iff {other : Bytes} (h : t.realResolve path = some l) :
    canonical t other = canonical t path ↔ t.realResolve other = some l := by
  constructor
  · intro heq
    cases hother : t.realResolve other with
    | none =>
      rw [canonical_eq_nil hother] at heq
      exact absurd heq.symm (canonical_leadsTo h).ne_nil
    | some found =>
      have hnames := (canonical_leadsTo hother).names
      rw [heq, (canonical_leadsTo h).names] at hnames
      rw [List.reverse_injective hnames]
  · intro hother
    rw [canonical_eq hother, canonical_eq h]

/-- Two paths have one canonical path exactly when they lead to one object, or both to none. -/
theorem canonical_eq_canonical_iff {other : Bytes} :
    canonical t path = canonical t other ↔ t.realResolve path = t.realResolve other := by
  cases hother : t.realResolve other with
  | some l => rw [canonical_eq_iff hother]
  | none =>
    rw [canonical_eq_nil hother]
    constructor
    · intro hnil
      cases hpath : t.realResolve path with
      | none => rfl
      | some l => exact absurd hnil (canonical_leadsTo hpath).ne_nil
    · exact canonical_eq_nil

/-- Making a path canonical twice changes nothing exactly when what it leads to is reached
    from the root. -/
theorem canonical_canonical_iff :
    canonical t (canonical t path) = canonical t path ↔
      ∀ l, t.realResolve path = some l → t.reachable l = true := by
  rw [canonical_eq_canonical_iff]
  cases h : t.realResolve path with
  | none =>
    rw [canonical_eq_nil h]
    exact iff_of_true rfl (by simp)
  | some l =>
    rw [realResolve_canonical h]
    cases hreach : t.reachable l with
    | true => exact iff_of_true (if_pos rfl) (by simp [hreach])
    | false => exact iff_of_false (by simp) (by simp [hreach])

theorem getFileName_eq_nil (h : t.realResolve path = none) :
    getFileName t path = (OPERATION_FAILURE, []) := by
  rw [getFileName, canonical_eq_nil h]
  rfl

/-- A canonical path begins with its first slash: the file name is all the rest. -/
theorem getFileName_eq (h : t.realResolve path = some l) :
    (getFileName t path).1 = OPERATION_SUCCESS ∧
      canonical t path = SLASH :: (getFileName t path).2 := by
  have hroot := (canonical_leadsTo h).rooted
  rw [getFileName]
  cases hcanonical : canonical t path with
  | nil => simp [hcanonical, rooted] at hroot
  | cons first rest =>
    obtain rfl : first = SLASH := by simpa [hcanonical, rooted] using hroot
    simp [List.idxOf?, List.findIdx?_cons]

/-- The file name has the names of all directories on the way. -/
theorem names_getFileName (h : t.realResolve path = some l) :
    names (getFileName t path).2 = l.reverse := by
  rw [← (canonical_leadsTo h).names, (getFileName_eq h).2]
  exact (names_append_slash [] _).symm

/-- The file name is the last name of the path only for what lies in the root itself. -/
theorem getFileName_last_iff {n : Name} {d : Location} (h : t.realResolve path = some (n :: d)) :
    (getFileName t path).2 = n ∨ (getFileName t path).2 = n ++ [SLASH] ↔ d = [] := by
  rcases FileTree.validName_of_mem (FileTree.realResolve_solid h).2.isSome n (by simp) with
    ⟨hne, -, -, hslash, -⟩
  have hnames : names n = [n] := names_of_not_mem hne hslash
  constructor
  · intro hlast
    have hall := names_getFileName h
    have hone : names (getFileName t path).2 = [n] := by
      rcases hlast with heq | heq
      · rw [heq, hnames]
      · rw [heq, names_append_slash, names_nil, List.append_nil, hnames]
    rw [hone, List.reverse_cons] at hall
    simpa using congrArg List.length hall
  · rintro rfl
    have hrender : render [n] = SLASH :: n := by simp [render]
    have hrest := canonical_eq_render h
    rw [(getFileName_eq h).2, hrender, List.cons_append] at hrest
    rw [(List.cons.inj hrest).2]
    split
    · exact Or.inr rfl
    · exact Or.inl (List.append_nil n)

/-- **Canonical paths are normal forms** of the paths to an object: one text for each
    object, written out from the root; made canonical again it stays, unless a directory on
    the way may not be searched.  The object is the one that the kernel finds by the path,
    if the path is rooted or starts at a directory that can be reached.  The file name is
    that text behind its first byte, and so a base name only in the root. -/
theorem normal_form (t : FileTree) :
    (∀ path other,
      canonical t path = canonical t other ↔ t.realResolve path = t.realResolve other) ∧
    (∀ path, canonical t (canonical t path) = canonical t path ↔
      ∀ l, t.realResolve path = some l → t.reachable l = true) ∧
    (∀ path l, rooted path = true ∨ t.reachable t.cwd = true → t.resolve path = some l →
      t.realResolve path = some l ∧ t.resolve (canonical t path) = some l) ∧
    (∀ path, t.realResolve path = none →
      getCanonicalFullPath t path = (OPERATION_FAILURE, []) ∧
      getFileName t path = (OPERATION_FAILURE, [])) ∧
    (∀ path l, t.realResolve path = some l →
      getCanonicalFullPath t path =
        (OPERATION_SUCCESS, SLASH :: (getFileName t path).2) ∧
      (getFileName t path).1 = OPERATION_SUCCESS ∧
      canonical t path =
        render l ++
          if l ≠ [] ∧ t.isDirectory l = true ∧ t.reachable l = true then [SLASH] else []) ∧
    (∀ path n d, t.realResolve path = some (n :: d) →
      ((getFileName t path).2 = n ∨ (getFileName t path).2 = n ++ [SLASH] ↔ d = [])) := by
  refine ⟨fun _ _ => canonical_eq_canonical_iff, fun _ => canonical_canonical_iff, ?_, ?_, ?_,
    fun _ _ _ h => getFileName_last_iff h⟩
  · intro path l hstart h
    have hbase := FileTree.reachable_base hstart
    have hreal := FileTree.realResolve_of_resolve hbase h
    refine ⟨hreal, ?_⟩
    rw [resolve_canonical hreal,
      FileTree.locateBy_reachable hbase (FileTree.resolve_solid h).1, if_pos rfl]
  · intro path h
    refine ⟨?_, getFileName_eq_nil h⟩
    rw [getCanonicalFullPath, FileTree.realpath, h]
    rfl
  · intro path l h
    rcases getFileName_eq h with ⟨hsuccess, htext⟩
    refine ⟨Prod.ext ?_ htext, hsuccess, canonical_eq_render h⟩
    rw [getCanonicalFullPath, FileTree.realpath, h]
    dsimp only [Option.map_some]
    split <;> rfl

end Path

end FtpsServer
