import FtpsServer.CanonicalPath

/-!
# What a directory listing contains

`get_specify_files` makes its path canonical, opens the result, and takes the type of an
entry from the canonical path with the name of the entry behind it.  The slash that the
canonical path of a directory ends with makes this the path of the entry, so that the
listing has exactly the entries of the directory that are asked for.
-/

namespace FtpsServer

open ByteString Posix

namespace Directory

/-! ## 1. The order of the names -/

theorem bytesLe_iff (a b : Bytes) : bytesLe a b = true ↔ a ≤ b := by
  induction a generalizing b with
  | nil => simp [bytesLe]
  | cons x xs ih =>
    cases b with
    | nil => simp [bytesLe]
    | cons y ys =>
      rw [bytesLe, List.cons_le_cons_iff]
      by_cases hless : x < y
      · simp [hless]
      · by_cases hmore : y < x
        · have hne : x ≠ y := (UInt8.ne_of_lt hmore).symm
          simp [hless, hmore, hne]
        · have heq : x = y := UInt8.le_antisymm (UInt8.not_lt.mp hmore) (UInt8.not_lt.mp hless)
          simp [heq, ih]

instance : Std.Total fun a b : Bytes => bytesLe a b = true :=
  ⟨fun a b => by simpa only [bytesLe_iff] using List.le_total a b⟩

instance : IsTrans Bytes fun a b => bytesLe a b = true :=
  ⟨fun a b c => by simpa only [bytesLe_iff] using List.le_trans⟩

/-- A listing is in the order of the byte strings. -/
theorem pairwise_sorted (found : List Bytes) :
    (found.insertionSort fun a b => bytesLe a b).Pairwise (· ≤ ·) :=
  (List.pairwise_insertionSort (fun a b : Bytes => bytesLe a b = true) found).imp
    fun h => (bytesLe_iff _ _).mp h

/-! ## 2. Entries of a directory -/

/-- What `lstat` says of an entry of the directory at `l`: nothing where the directory may not
    be searched, and else what the entry is, not followed when it is a link. -/
def entryNode (t : FileTree) (l : Location) (name : Name) : Option Node :=
  if t.searchable l then
    if name = dot then t.node l else if name = dotdot then t.node l.tail else t.node (name :: l)
  else none

def hasType (fileType : FileT) : Node → Bool :=
  match fileType with
  | .regular => Node.isRegular
  | .directory => Node.isDirectory
  | .any => fun _ => true

/-- The entries that a listing is asked for. -/
def Wanted (t : FileTree) (l : Location) (pattern : Bytes) (fileType : FileT) (name : Name) : Prop :=
  pattern <+: name ∧ (entryNode t l name).any (hasType fileType) = true

instance (t : FileTree) (l : Location) (pattern : Bytes) (fileType : FileT) (name : Name) :
    Decidable (Wanted t l pattern fileType name) := by
  unfold Wanted; infer_instance

/-- The directory at `l` can be opened by its canonical path: it may be read, and the
    directories above it may be searched. -/
def CanBeOpened (t : FileTree) (l : Location) : Prop :=
  (∃ mode, t.node l = some (.directory mode) ∧ mode.read = true) ∧ t.reachable l = true

theorem isFileType_eq (t : FileTree) (fileName : Bytes) (fileType : FileT) :
    isFileType t fileName fileType = (t.lstat fileName).any (hasType fileType) := by
  unfold isFileType
  cases t.lstat fileName with
  | none => rfl
  | some node => cases fileType <;> rfl

theorem isFilePattern_iff (name pattern : Bytes) :
    (pattern.isEmpty || isFilePattern name pattern) = true ↔ pattern <+: name := by
  rw [List.prefix_iff_eq_take, Bool.or_eq_true, isFilePattern]
  by_cases hlong : pattern.length > name.length
  · have hne : pattern ≠ name.take pattern.length := by
      intro h
      have hlength := congrArg List.length h
      rw [List.length_take] at hlength
      omega
    have hpattern : pattern ≠ [] := by
      rintro rfl
      simp at hlong
    simp [hlong, hne, hpattern]
  · rw [if_neg hlong, beq_iff_eq, eq_comm (a := name.take pattern.length)]
    constructor
    · rintro (hempty | h)
      · rw [List.isEmpty_iff.mp hempty]
        rfl
      · exact h
    · exact Or.inr

variable {t : FileTree} {path : Bytes} {l : Location}

/-- A name that `readdir` returns is a path component without slash and NUL. -/
theorem mem_entries_name {name : Name} (h : name ∈ t.entries l) :
    name ≠ [] ∧ SLASH ∉ name ∧ NUL ∉ name := by
  rcases (t.mem_entries name l).mp h with rfl | rfl | hsome
  · decide
  · decide
  · rcases t.validName name l hsome with ⟨hne, -, -, hslash, hnul⟩
    exact ⟨hne, hslash, hnul⟩

theorem trailing_append_name {front : Bytes} {name : Name} (hne : name ≠ []) (hslash : SLASH ∉ name) :
    trailing (front ++ name) = false := by
  rw [trailing, List.getLast?_append_of_ne_nil front hne, beq_eq_false_iff_ne]
  intro hlast
  exact hslash (List.mem_of_getLast? hlast)

/-- The walk to an entry, from the directory it is in. -/
theorem walk_entry (links : Nat) {name : Name} (hne : name ≠ []) :
    t.walk .kernel true links l [name] =
      if t.searchable l then
        some (if name = dot then l else if name = dotdot then l.tail else name :: l)
      else none := by
  rw [FileTree.walk_eq, FileTree.walkWith_step, if_neg hne]
  by_cases hdot : name = dot
  · rw [if_pos hdot, if_pos hdot]
    rfl
  · rw [if_neg hdot, if_neg hdot]
    by_cases hdotdot : name = dotdot
    · rw [if_pos hdotdot, if_pos hdotdot]
      rfl
    · rw [if_neg hdotdot, if_neg hdotdot, FileTree.mayLook]
      cases t.link (name :: l) with
      | none => simp [FileTree.walkWith]
      | some target => simp

/-- **The path of an entry**: behind the slash of a canonical path, a name leads to the entry
    of that name. -/
theorem lstat_entry {canonical : Bytes} {name : Name} (h : LeadsTo (canonical ++ [SLASH]) l)
    (hdir : t.isDirectory l = true) (hreach : t.reachable l = true)
    (hne : name ≠ []) (hslash : SLASH ∉ name) (hnul : NUL ∉ name) :
    t.lstat (canonical ++ [SLASH] ++ name) = entryNode t l name := by
  have hroot : rooted (canonical ++ [SLASH] ++ name) = true := by
    have hrooted := h.rooted
    cases canonical with
    | nil => rfl
    | cons b bs => exact hrooted
  have hfree : NUL ∉ canonical ++ [SLASH] ++ name := by
    simp only [List.mem_append, not_or] at *
    exact ⟨by simpa using h.nul, hnul⟩
  have hnames : names (canonical ++ [SLASH] ++ name) = l.reverse ++ [name] := by
    have hcanonical := h.names
    rw [names_append_slash, names_nil, List.append_nil] at hcanonical
    rw [List.append_assoc, List.singleton_append, names_append_slash, hcanonical,
      names_of_not_mem hne hslash]
  have hbase : t.base (canonical ++ [SLASH] ++ name) = [] := FileTree.base_of_rooted hroot
  have hstart : ¬ (canonical ++ [SLASH] ++ name = [] ∨
      t.isDirectory (t.base (canonical ++ [SLASH] ++ name)) = false) := by
    rw [hbase, show t.isDirectory [] = true from t.root_isDirectory]
    simp
  have hlocate : t.locate true (canonical ++ [SLASH] ++ name) =
      if t.searchable l then
        some (if name = dot then l else if name = dotdot then l.tail else name :: l)
      else none := by
    unfold FileTree.locate FileTree.locateBy
    dsimp only
    rw [cString_eq_self hfree, if_neg hstart, hbase, components, hnames,
      trailing_append_name hne hslash, if_neg Bool.false_ne_true, List.append_nil,
      FileTree.walk_reverse (FileTree.solid_of_isDirectory hdir), if_pos ⟨hreach, Or.inr hdir⟩,
      walk_entry _ hne]
  rw [FileTree.lstat, hlocate, entryNode]
  split
  · rw [Option.bind_some]
    split
    · rfl
    · split <;> rfl
  · rfl

/-- The canonical path of a directory can be opened under these modes alone. -/
theorem opendir_canonical_iff (h : t.realResolve path = some l) :
    t.opendir (Path.canonical t path) = some l ↔ CanBeOpened t l := by
  unfold FileTree.opendir CanBeOpened
  rw [Path.resolve_canonical h, Option.filter_eq_some_iff]
  constructor
  · rintro ⟨hfound, hread⟩
    have hreach : t.reachable l = true := by
      by_contra hnot
      rw [if_neg hnot] at hfound
      cases hfound
    cases hnode : t.node l with
    | none => simp [hnode] at hread
    | some node =>
      cases node with
      | directory mode => exact ⟨⟨mode, rfl, by simpa [hnode] using hread⟩, hreach⟩
      | regular mode content => simp [hnode] at hread
      | symlink mode target => simp [hnode] at hread
      | special mode => simp [hnode] at hread
  · rintro ⟨⟨mode, hnode, hread⟩, hreach⟩
    exact ⟨if_pos hreach, by simp [hnode, hread]⟩

/-! ## 3. The listing -/

/-- `realpath` resolves `path` to the directory at `l`, and this can be opened. -/
def Opens (t : FileTree) (path : Bytes) (l : Location) : Prop :=
  t.realResolve path = some l ∧ CanBeOpened t l

theorem opendir_iff (t : FileTree) (path : Bytes) (l : Location) :
    t.opendir (Path.canonical t path) = some l ↔ Opens t path l := by
  constructor
  · intro hopen
    have hagain := (Option.filter_eq_some_iff.mp hopen).1
    have hresolve := Path.realResolve_of_resolve_canonical hagain
    exact ⟨hresolve, (opendir_canonical_iff hresolve).mp hopen⟩
  · rintro ⟨hresolve, hopened⟩
    exact (opendir_canonical_iff hresolve).mpr hopened

/-- The test of an entry, made with its full path, is the test of the entry itself. -/
theorem wanted_iff (h : Opens t path l) {name : Name} (hname : name ∈ t.entries l) (pattern : Bytes)
    (fileType : FileT) :
    (isFileType t (Path.canonical t path ++ name) fileType &&
        (pattern.isEmpty || isFilePattern name pattern)) = true ↔
      Wanted t l pattern fileType name := by
  rcases h with ⟨hresolve, ⟨mode, hnode, -⟩, hreach⟩
  have hdir : t.isDirectory l = true := by rw [FileTree.isDirectory, hnode]; rfl
  have htrailing := Path.trailing_canonical hresolve hdir hreach
  obtain ⟨front, hfront⟩ : ∃ front, Path.canonical t path = front ++ [SLASH] := by
    rw [trailing, beq_iff_eq, List.getLast?_eq_some_iff] at htrailing
    exact htrailing
  have hleads := Path.canonical_leadsTo hresolve
  rcases mem_entries_name hname with ⟨hne, hslash, hnul⟩
  rw [hfront] at hleads
  rw [Bool.and_eq_true, isFilePattern_iff, isFileType_eq, hfront,
    lstat_entry hleads hdir hreach hne hslash hnul, Wanted, and_comm]

/-- What a listing is to be: success exactly for a directory that can be opened, with exactly
    the entries that are asked for in order; else failure, with nothing changed. -/
structure ExactListing (t : FileTree) (path pattern : Bytes) (fileType : FileT)
    (files : List Bytes) (result : Int × List Bytes) : Prop where
  success_iff : result.1 = OPERATION_SUCCESS ↔ ∃ l, Opens t path l
  sorted : ∀ l, Opens t path l → result.2.Pairwise (· ≤ ·)
  perm : ∀ l, Opens t path l →
    result.2.Perm ((t.entries l).filter fun name => Wanted t l pattern fileType name)
  failure : (¬ ∃ l, Opens t path l) → result = (OPERATION_FAILURE, files)

theorem getSpecifyFiles_exact (t : FileTree) (path pattern : Bytes) (fileType : FileT)
    (files : List Bytes) :
    ExactListing t path pattern fileType files (getSpecifyFiles t path pattern fileType files) := by
  unfold getSpecifyFiles
  dsimp only
  cases hopen : t.opendir (Path.canonical t path) with
  | none =>
    have hnot : ¬ ∃ l, Opens t path l := by
      rintro ⟨l, hl⟩
      rw [(opendir_iff t path l).mpr hl] at hopen
      cases hopen
    refine ⟨iff_of_false (by simp [OPERATION_FAILURE, OPERATION_SUCCESS]) hnot, ?_, ?_, fun _ => rfl⟩
    · intro l hl
      exact absurd ⟨l, hl⟩ hnot
    · intro l hl
      exact absurd ⟨l, hl⟩ hnot
  | some l =>
    have hopens := (opendir_iff t path l).mp hopen
    refine ⟨iff_of_true rfl ⟨l, hopens⟩, fun _ _ => pairwise_sorted _, ?_, ?_⟩
    · intro l' hl'
      obtain rfl : l = l' := Option.some.inj (hopens.1.symm.trans hl'.1)
      refine (List.perm_insertionSort _ _).trans (List.Perm.of_eq ?_)
      apply List.filter_congr
      intro name hname
      rw [Bool.eq_iff_iff, wanted_iff hopens hname, decide_eq_true_iff]
    · intro hnot
      exact absurd ⟨l, hopens⟩ hnot

end Directory

end FtpsServer
