import FtpsServer.ServerRuns
import FtpsServer.ListDelivery
import FtpsServer.PathRule
import FtpsServer.Lib.Fixtures
import FtpsServer.Lib.KeyedStore

/-!
# Commands as requests to a store of files

STOR puts, DELE drops, RNTO moves and LIST looks.  The arguments are paths, taken from the
folder of the session or from the root, through links and dots; but as long as no command
removes or replaces a directory, a link or a device, every path leads where it led at the
start, and what a command asks for is a place: for STOR the one that `open` finds, for DELE,
RNFR and LIST the one that `realpath` takes the argument for.
-/

namespace FtpsServer

open ByteString Cxx Machine Posix KeyedStore

abbrev FileRequest := Request Location Bytes (Option Location)

/-! ## 1. The store -/

/-- Files may come to the place: its directory may be written, and nothing but a file is
    there. -/
def freePlace (t : FileTree) : Location → Bool
  | [] => false
  | n :: d => t.writable d && decide (ValidName n) && (t.fixture (n :: d)).isNone

/-- The file may leave its place: the directory may be written, and if that has the sticky bit,
    it or the file is the process's own. -/
def leavePlace (t : FileTree) (l : Location) (file : Mode × Bytes) : Bool :=
  t.writable l.tail &&
    (t.fixture l.tail).any fun folder => !folder.mode.sticky || folder.mode.own || file.1.own

/-- What opening a file to append makes of it. -/
def putFile (t : FileTree) (l : Location) : Option (Mode × Bytes) → Bytes → Option (Mode × Bytes)
  | some (mode, content), bytes => some (mode, if mode.write then content ++ bytes else content)
  | none, bytes => if freePlace t l then some (FileTree.createMode, bytes) else none

/-- The store that the fixtures of a tree make. -/
def storeOf (t : FileTree) : Layout Location (Mode × Bytes) Bytes (Option Location) where
  put := putFile t
  free := freePlace t
  leaves := leavePlace t
  inside folder := {l | ∃ n d, folder = some d ∧ l = n :: d}

@[simp] theorem storeOf_put (t : FileTree) : (storeOf t).put = putFile t := rfl

@[simp] theorem storeOf_free (t : FileTree) : (storeOf t).free = freePlace t := rfl

@[simp] theorem storeOf_leaves (t : FileTree) : (storeOf t).leaves = leavePlace t := rfl

theorem putFile_some (t : FileTree) (l : Location) (mode : Mode) (content bytes : Bytes) :
    putFile t l (some (mode, content)) bytes =
      some (mode, if mode.write then content ++ bytes else content) := rfl

theorem putFile_none (t : FileTree) (l : Location) (bytes : Bytes) :
    putFile t l none bytes = if freePlace t l then some (FileTree.createMode, bytes) else none := rfl

/-- The place a file would be renamed to. -/
def targetOf (t : FileTree) (path : Bytes) : Option Location :=
  if trailing (cString path) then none else t.entry path

/-- The folder that LIST opens, if names may be looked up in it; in another one it shows none. -/
def folderOf (t : FileTree) (path : Bytes) : Option Location :=
  (t.opendir (Path.canonical t path)).filter t.searchable

/-- What a command asks of the store. -/
def requestOf (t : FileTree) (c : Handled) : Option FileRequest :=
  match c.call.input.command, c.call.input.getArgument 0 with
  | .stor, .ok path =>
    some (.put (t.locate false (c.session.folder ++ path))
      (FtpSession.written c.call.env c.session.bufferFileSize))
  | .dele, .ok path => some (.drop (t.realLocate (c.session.renamePath path)))
  | .rnto, .ok path =>
    some (.move (t.realLocate c.session.argument) (targetOf t (c.session.renamePath path)))
  | .list, _ => some (.look (folderOf t c.session.folder))
  | _, _ => none

/-- The requests, each with the session that makes it. -/
def requests (t : FileTree) (cs : List Handled) : List (Nat × FileRequest) :=
  cs.filterMap fun c => (requestOf t c).map fun r => (c.session.id, r)

/-- The command removes and moves nothing but files, and no file over a link or a device. -/
def keepsToFiles (t : FileTree) (c : Handled) : Bool :=
  match c.call.input.command, c.call.input.getArgument 0 with
  | .dele, .ok path => (t.realLocate (c.session.renamePath path)).all fun l => (t.fixture l).isNone
  | .rnto, .ok path =>
    (t.realLocate c.session.argument).all (fun l => (t.fixture l).isNone) &&
      (t.entry (c.session.renamePath path)).all fun l => (t.fixture l).isNone || t.isDirectory l
  | _, _ => true

/-! ## 2. What the commands do to the files -/

section Trees

variable {t₀ t : FileTree}

theorem isDirectory_of_writable {d : Location} (h : t.writable d = true) : t.isDirectory d = true := by
  unfold FileTree.writable at h
  unfold FileTree.isDirectory
  split at h
  · next hnode =>
    rw [hnode]
    rfl
  · cases h

theorem freePlace_of_sameFixtures (h : FileTree.SameFixtures t₀ t) (l : Location) :
    freePlace t l = freePlace t₀ l := by
  cases l with
  | nil => rfl
  | cons n d => rw [freePlace, freePlace, h.writable, h.fixture]

theorem leavePlace_of_sameFixtures (h : FileTree.SameFixtures t₀ t) (l : Location) :
    leavePlace t l = leavePlace t₀ l := by
  funext file
  rw [leavePlace, leavePlace, h.writable, h.fixture]

theorem receives_of_sameFixtures (h : FileTree.SameFixtures t₀ t) (l : Location) :
    receives (storeOf t₀) t.fileAt l = receives (storeOf t) t.fileAt l := by
  unfold receives
  simp only [storeOf_free, storeOf_leaves, freePlace_of_sameFixtures h, leavePlace_of_sameFixtures h]

/-- What the kernel asks before it takes a file out of its directory. -/
theorem mayTake_file {l : Location} {file : Mode × Bytes} (h : t.fileAt l = some file) :
    t.mayTake l = leavePlace t l file := by
  rw [FileTree.mayTake, leavePlace, FileTree.fileAt_eq_some.mp h]
  cases hwritable : t.writable l.tail with
  | false => rfl
  | true =>
    have hdir := isDirectory_of_writable hwritable
    rcases FileTree.node_of_isDirectory hdir with ⟨mode, hnode⟩
    rw [FileTree.fixture_of_isDirectory hdir, hnode]
    rfl

/-- From `t` to `t'` the fixtures are the same, and the files are those of the store after
    the request. -/
structure Does (t₀ t t' : FileTree) (r : FileRequest) : Prop where
  sameFixtures : FileTree.SameFixtures t t'
  files : t'.fileAt = after (storeOf t₀) t.fileAt r

theorem Does.nothing {r : FileRequest} (h : after (storeOf t₀) t.fileAt r = t.fileAt) :
    Does t₀ t t r := ⟨.refl t, h.symm⟩

variable {l : Location} {bytes : Bytes}

theorem does_put_nothing (h : putFile t₀ l (t.fileAt l) bytes = t.fileAt l) :
    Does t₀ t t (.put (some l) bytes) := by
  apply Does.nothing
  rw [after_put, storeOf_put, h, Function.update_eq_self]

/-- Where something else is, nothing is put. -/
theorem does_put_fixture (h : FileTree.SameFixtures t₀ t) {node : Node}
    (hfixture : t.fixture l = some node) : Does t₀ t t (.put (some l) bytes) := by
  apply does_put_nothing
  have hnot : freePlace t₀ l = false := by
    cases l with
    | nil => rfl
    | cons n d =>
      rw [freePlace, ← h.fixture, hfixture]
      simp
  rw [FileTree.fileAt_of_fixture hfixture, putFile_none, hnot]
  rfl

/-- A file that may be written grows. -/
theorem does_put_file {mode : Mode} {content : Bytes} (hfile : t.fileAt l = some (mode, content))
    (hwrite : mode.write = true) : Does t₀ t (t.append l bytes) (.put (some l) bytes) := by
  have hbecomes := FileTree.append_becomes hfile bytes
  refine ⟨hbecomes.sameFixtures (FileTree.fixture_of_file hfile), ?_⟩
  rw [hbecomes.fileAt, after_put, storeOf_put, hfile, putFile_some, hwrite, if_pos rfl]

/-- Where there was nothing there is a new file. -/
theorem does_put_new {n : Name} {d : Location} (hdir : t.isDirectory d = true) (hname : ValidName n)
    (hnode : t.node (n :: d) = none) (hfree : freePlace t₀ (n :: d) = true) :
    Does t₀ t ((t.insert n d (.regular FileTree.createMode []) hdir hname hnode).append (n :: d) bytes)
      (.put (some (n :: d)) bytes) := by
  have hinsert : FileTree.Becomes t (t.insert n d (.regular FileTree.createMode []) hdir hname hnode)
      (n :: d) (some (FileTree.createMode, [])) := FileTree.insert_becomes hdir hname hnode
  have hnew : (t.insert n d (.regular FileTree.createMode []) hdir hname hnode).fileAt (n :: d) =
      some (FileTree.createMode, []) := by
    rw [hinsert.fileAt, Function.update_self]
  have happend := FileTree.append_becomes hnew bytes
  have hfile : t.fileAt (n :: d) = none := by rw [FileTree.fileAt, hnode]
  have hfixture : t.fixture (n :: d) = none := by
    rw [FileTree.fixture, hnode]
    rfl
  refine ⟨(hinsert.sameFixtures hfixture).trans
    (happend.sameFixtures (FileTree.fixture_of_file hnew)), ?_⟩
  rw [happend.fileAt, hinsert.fileAt, Function.update_idem, after_put, storeOf_put, hfile,
    putFile_none, hfree, if_pos rfl, List.nil_append]

/-- **STOR puts.** -/
theorem stored_does (h : FileTree.SameFixtures t₀ t) (filePath bytes : Bytes) :
    Does t₀ t (FtpSession.stored (FtpSession.transferTree t filePath)
      (FtpSession.transferFile t filePath) bytes) (.put (t₀.locate false filePath) bytes) := by
  unfold FtpSession.transferTree FtpSession.transferFile FileTree.openAppend
  rw [h.locate]
  cases t₀.locate false filePath with
  | none => exact Does.nothing rfl
  | some l =>
    dsimp only
    cases hnode : t.node l with
    | some node =>
      have hfixed : node.isRegular = false → Does t₀ t t (.put (some l) bytes) := by
        intro hregular
        have hfixture : t.fixture l = some node := by
          rw [FileTree.fixture, hnode, Option.filter_some, hregular]
          rfl
        exact does_put_fixture h hfixture
      cases node with
      | regular mode content =>
        have hfile : t.fileAt l = some (mode, content) := FileTree.fileAt_eq_some.mpr hnode
        cases hwrite : mode.write with
        | false =>
          simp only [hwrite, Bool.false_eq_true, if_false]
          apply does_put_nothing
          rw [hfile, putFile_some, hwrite]
          rfl
        | true =>
          simp only [hwrite, if_true]
          exact does_put_file hfile hwrite
      | directory mode => exact hfixed rfl
      | symlink target => exact hfixed rfl
      | special mode =>
        cases hwrite : mode.write with
        | false =>
          simp only [hwrite, Bool.false_eq_true, if_false]
          exact hfixed rfl
        | true =>
          simp only [hwrite, if_true]
          have hsame : t.append l bytes = t := by
            rw [FileTree.append_eq_self_iff, hnode]
            exact Or.inr rfl
          change Does t₀ t (t.append l bytes) _
          rw [hsame]
          exact hfixed rfl
    | none =>
      have hfile : t.fileAt l = none := by rw [FileTree.fileAt, hnode]
      cases l with
      | nil =>
        apply does_put_nothing
        rw [hfile]
        rfl
      | cons n d =>
        dsimp only
        have hfixture : t.fixture (n :: d) = none := by
          rw [FileTree.fixture, hnode]
          rfl
        have hfree : freePlace t₀ (n :: d) = true ↔ t.writable d = true ∧ ValidName n := by
          rw [freePlace, ← h.writable, ← h.fixture, hfixture]
          simp
        by_cases hok : t.writable d = true ∧ t.isDirectory d = true ∧ ValidName n ∧
            t.node (n :: d) = none
        · rw [dif_pos hok]
          exact does_put_new hok.2.1 hok.2.2.1 hnode (hfree.mpr ⟨hok.1, hok.2.2.1⟩)
        · rw [dif_neg hok]
          have hnot : freePlace t₀ (n :: d) = false := by
            rw [Bool.eq_false_iff]
            intro hplace
            rcases hfree.mp hplace with ⟨hwritable, hname⟩
            exact hok ⟨hwritable, isDirectory_of_writable hwritable, hname, hnode⟩
          apply does_put_nothing
          rw [hfile, putFile_none, hnot]
          rfl

/-- Where nothing but a file can be, `realpath` takes a path for it or for nothing. -/
theorem realResolve_file (h : FileTree.SameFixtures t₀ t) {path : Bytes}
    (hkeeps : ∀ l, t₀.realLocate path = some l → t₀.fixture l = none) :
    t.realResolve path = (t₀.realLocate path).filter fun l => (t.fileAt l).isSome := by
  rw [FileTree.realResolve, h.realLocate]
  cases hlocate : t₀.realLocate path with
  | none => rfl
  | some l =>
    have hfixture : t.fixture l = none := by rw [h.fixture, hkeeps l hlocate]
    rw [Option.filter_some, Option.filter_some, FileTree.node_of_no_fixture hfixture, Option.isSome_map]

/-- A file that there is has its canonical path as its entry. -/
structure Found (t : FileTree) (path : Bytes) (l : Location) : Prop where
  resolve : t.realResolve path = some l
  again : t.realResolve (Path.canonical t path) = some l
  entry : t.entry (Path.canonical t path) = some l

theorem found_file (h : FileTree.SameFixtures t₀ t) {path : Bytes}
    (hlocate : t₀.realLocate path = some l) {file : Mode × Bytes} (hfile : t.fileAt l = some file) :
    Found t path l := by
  have hsame : t.realLocate path = some l := by rw [h.realLocate, hlocate]
  have hresolve : t.realResolve path = some l := by
    rw [FileTree.realResolve, hsame, Option.filter_some, FileTree.fileAt_eq_some.mp hfile]
    rfl
  have hnot := FileTree.isDirectory_of_file hfile
  have hreach := FileTree.reachable_of_realLocate hsame hnot
  rcases FtpSession.found_again hresolve hreach hnot with ⟨hagain, hentry⟩
  exact ⟨hresolve, hagain, hentry⟩

/-- The entry of a canonical path is the file that the path leads to. -/
theorem entry_canonical_file (h : FileTree.SameFixtures t₀ t) {path : Bytes}
    (hkeeps : ∀ l, t₀.realLocate path = some l → t₀.fixture l = none) :
    t.entry (Path.canonical t path) =
      (t₀.realLocate path).filter fun l => (t.fileAt l).isSome := by
  have hresolve := realResolve_file h hkeeps
  rw [← hresolve]
  cases hfound : t.realResolve path with
  | none =>
    rw [Path.canonical_eq_nil hfound]
    rfl
  | some l =>
    rw [hfound, eq_comm, Option.filter_eq_some_iff] at hresolve
    rcases Option.isSome_iff_exists.mp hresolve.2 with ⟨file, hfile⟩
    exact (found_file h hresolve.1 hfile).entry

/-- DELE makes a rooted path canonical twice. -/
theorem canonical_delePath (h : FileTree.SameFixtures t₀ t) (session : FtpSession) {path : Bytes}
    (hkeeps : ∀ l, t₀.realLocate (session.renamePath path) = some l → t₀.fixture l = none) :
    Path.canonical t (session.delePath t path) = Path.canonical t (session.renamePath path) := by
  unfold FtpSession.delePath
  unfold FtpSession.renamePath at hkeeps ⊢
  split
  · rfl
  · next hroot =>
    rw [if_neg hroot] at hkeeps
    rw [Path.canonical_eq_canonical_iff]
    have hresolve := realResolve_file h hkeeps
    cases hfound : t.realResolve path with
    | none =>
      rw [Path.canonical_eq_nil hfound]
      rfl
    | some l =>
      rw [hfound, eq_comm, Option.filter_eq_some_iff] at hresolve
      rcases Option.isSome_iff_exists.mp hresolve.2 with ⟨file, hfile⟩
      exact (found_file h hresolve.1 hfile).again

theorem ne_nil_of_file {file : Mode × Bytes} (hfile : t.fileAt l = some file) : l ≠ [] := by
  rintro rfl
  have hroot : t.isDirectory [] = true := t.root_isDirectory
  rw [FileTree.isDirectory_of_file hfile] at hroot
  cases hroot

/-- No slash is at the end of the canonical path of a file. -/
theorem Found.not_trailing {path : Bytes} (h : Found t path l) {file : Mode × Bytes}
    (hfile : t.fileAt l = some file) : trailing (cString (Path.canonical t path)) = false := by
  rw [cString_eq_self (Path.canonical_leadsTo h.resolve).nul]
  exact Path.trailing_canonical_of_not_directory h.resolve (FileTree.isDirectory_of_file hfile)

/-- **DELE drops**, and says if it did. -/
theorem erase_does (h : FileTree.SameFixtures t₀ t) (session : FtpSession) {path : Bytes}
    (hkeeps : ∀ l, t₀.realLocate (session.renamePath path) = some l → t₀.fixture l = none) :
    let removal := File.erase t (session.delePath t path)
    let place := t₀.realLocate (session.renamePath path)
    Does t₀ t removal.2 (.drop place) ∧
      (removal.1 = OPERATION_SUCCESS ↔ drops (storeOf t₀) t.fileAt place = true) := by
  dsimp only
  rw [File.erase, FileTree.remove, canonical_delePath h session hkeeps, entry_canonical_file h hkeeps]
  have hfailure : OPERATION_FAILURE ≠ OPERATION_SUCCESS := by decide
  cases hlocate : t₀.realLocate (session.renamePath path) with
  | none => exact ⟨Does.nothing rfl, iff_of_false hfailure (by simp [drops])⟩
  | some l =>
    cases hfile : t.fileAt l with
    | none =>
      have hdrops : drops (storeOf t₀) t.fileAt (some l) = false := by simp [drops, hfile]
      rw [Option.filter_some, hfile, Option.isSome_none, if_neg (by simp)]
      exact ⟨Does.nothing (after_drop_of_not _ hdrops), iff_of_false hfailure (by simp [hdrops])⟩
    | some file =>
      have hfound := found_file h hlocate hfile
      rcases List.exists_cons_of_ne_nil (ne_nil_of_file hfile) with ⟨n, d, rfl⟩
      have hmay : t.mayRemove (Path.canonical t (session.renamePath path)) (n :: d) =
          leavePlace t₀ (n :: d) file := by
        rw [← leavePlace_of_sameFixtures h, ← mayTake_file hfile, FileTree.mayRemove,
          FileTree.fileAt_eq_some.mp hfile, hfound.not_trailing hfile]
        exact Bool.and_true _
      have hdrops : drops (storeOf t₀) t.fileAt (some (n :: d)) = leavePlace t₀ (n :: d) file := by
        simp [drops, hfile]
      rw [Option.filter_some, hfile, Option.isSome_some, if_pos rfl]
      dsimp only
      rw [hmay, hdrops]
      cases hleaves : leavePlace t₀ (n :: d) file with
      | false =>
        rw [hleaves] at hdrops
        exact ⟨Does.nothing (after_drop_of_not _ hdrops), iff_of_false hfailure (by simp)⟩
      | true =>
        rw [hleaves] at hdrops
        have hbecomes := FileTree.erase_becomes hfile
        refine ⟨⟨hbecomes.sameFixtures (FileTree.fixture_of_file hfile), ?_⟩, iff_of_true rfl rfl⟩
        rw [after_drop _ hdrops]
        exact hbecomes.fileAt

/-- A file is not above an entry, and no entry but a directory is above the file. -/
theorem apart_of_file {newPath : Bytes} {old new : Location} {file : Mode × Bytes}
    (hfile : t.fileAt old = some file) (hnew : t.entry newPath = some new)
    (hnot : t.isDirectory new = false) (hne : old ≠ new) : ¬ old <:+ new ∧ ¬ new <:+ old := by
  obtain ⟨n, d, rfl, -, hsearch⟩ := FileTree.entry_cons hnew
  have hdir := FileTree.isDirectory_of_searchable hsearch
  constructor
  · intro hbelow
    rw [FileTree.suffix_cons_of_ne hne] at hbelow
    by_cases hself : old = d
    · rw [← hself, FileTree.isDirectory_of_file hfile] at hdir
      cases hdir
    · exact FileTree.not_suffix_of_not_directory (FileTree.solid_of_isDirectory hdir).isSome hself
        (FileTree.isDirectory_of_file hfile) hbelow
  · have hsome : (t.node old).isSome = true := by
      rw [FileTree.fileAt_eq_some.mp hfile]
      rfl
    exact FileTree.not_suffix_of_not_directory hsome (Ne.symm hne) hnot

/-- When the kernel renames a file to an entry that is no link and no device. -/
theorem mayRename_file {oldPath newPath : Bytes} {old new : Location} {file : Mode × Bytes}
    (hfile : t.fileAt old = some file) (htrailing : trailing (cString oldPath) = false)
    (hnew : t.entry newPath = some new) (hnone : t.fixture new = none) :
    t.mayRename oldPath newPath old new = true ↔
      trailing (cString newPath) = false ∧
        (old = new ∨ leavePlace t old file = true ∧ receives (storeOf t) t.fileAt new = true) := by
  obtain ⟨n, d, rfl, hname, -⟩ := FileTree.entry_cons hnew
  rw [FileTree.mayRename, FileTree.fileAt_eq_some.mp hfile, htrailing, mayTake_file hfile]
  by_cases heq : old = n :: d
  · simp [heq, FileTree.fileNode, Node.isDirectory]
  · rcases apart_of_file hfile hnew (FileTree.isDirectory_of_no_fixture hnone) heq with
      ⟨hbelow, habove⟩
    have hnode := FileTree.node_of_no_fixture hnone
    unfold receives
    cases hthere : t.fileAt (n :: d) with
    | none =>
      have hfree : freePlace t (n :: d) = t.writable d := by simp [freePlace, hname, hnone]
      simp [hnode, hthere, hfree, heq, hbelow, habove, FileTree.fileNode, Node.isDirectory]
    | some there =>
      have htake := mayTake_file hthere
      simp [hnode, hthere, htake, heq, hbelow, habove, FileTree.fileNode, Node.isDirectory]

/-- A file does not replace a directory. -/
theorem not_mayRename_directory {oldPath newPath : Bytes} {old new : Location}
    {file : Mode × Bytes} (hfile : t.fileAt old = some file) (hdir : t.isDirectory new = true) :
    t.mayRename oldPath newPath old new = false := by
  have hne : old ≠ new := by
    rintro rfl
    rw [FileTree.isDirectory_of_file hfile] at hdir
    cases hdir
  rcases FileTree.node_of_isDirectory hdir with ⟨mode, hnode⟩
  rw [FileTree.mayRename, FileTree.fileAt_eq_some.mp hfile]
  simp [hne, hnode, FileTree.fileNode, Node.isDirectory]

theorem fixture_of_freePlace (h : freePlace t l = true) : t.fixture l = none := by
  cases l with
  | nil => cases h
  | cons n d => simpa [freePlace] using (Bool.and_eq_true_iff.mp h).2

/-- Nothing but a file is at a place that receives one. -/
theorem fixture_of_receives (h : receives (storeOf t) t.fileAt l = true) : t.fixture l = none := by
  cases hfile : t.fileAt l with
  | none =>
    rw [receives, hfile] at h
    exact fixture_of_freePlace h
  | some file => exact FileTree.fixture_of_file hfile

/-- A path to a place for files is not a path to a directory. -/
theorem not_exists_target (hground : t.Grounded) {path : Bytes} (hentry : t.entry path = some l)
    (htrailing : trailing (cString path) = false) (hfixture : t.fixture l = none) :
    Directory.exists' t path = false := by
  have hlink := FileTree.link_of_no_fixture hfixture
  rw [Bool.eq_false_iff]
  intro hexists
  rcases Path.directory_exists_iff.mp hexists with ⟨l', hresolve, hdir, -⟩
  have hlocate := hground.realLocate (FileTree.locate_of_entry hentry hlink htrailing)
  cases (FileTree.realResolve_solid hresolve).1.symm.trans hlocate
  rw [FileTree.isDirectory_of_no_fixture hfixture] at hdir
  cases hdir

/-- A target path, without a slash at its end. -/
theorem targetOf_eq_some {path : Bytes} :
    targetOf t path = some l ↔ t.entry path = some l ∧ trailing (cString path) = false := by
  unfold targetOf
  cases trailing (cString path) <;> simp

theorem drops_of_sameFixtures (h : FileTree.SameFixtures t₀ t) {file : Mode × Bytes}
    (hfile : t.fileAt l = some file) :
    drops (storeOf t₀) t.fileAt (some l) = true ↔ leavePlace t l file = true := by
  simp [drops, hfile, leavePlace_of_sameFixtures h]

/-- Where the store moves, the kernel does, and nothing keeps RNTO from asking it to. -/
theorem rename_of_moves (hground : t₀.Grounded) (h : FileTree.SameFixtures t₀ t)
    {argument path : Bytes}
    (hmoves : moves (storeOf t₀) t.fileAt (t₀.realLocate argument) (targetOf t₀ path) = true) :
    Directory.exists' t path = false ∧ ∃ renamed,
      t.rename (Path.canonical t argument) path = some renamed ∧
      Does t₀ t renamed (.move (t₀.realLocate argument) (targetOf t₀ path)) := by
  obtain ⟨k, m, hk, hm, hsome, hway⟩ := (moves_eq_true _).mp hmoves
  rcases Option.isSome_iff_exists.mp hsome with ⟨file, hfile⟩
  have hfound := found_file h hk hfile
  rw [hk, hm] at hmoves ⊢
  rw [drops_of_sameFixtures h hfile, receives_of_sameFixtures h] at hway
  rw [targetOf_eq_some, ← h.entry] at hm
  have hnone : t.fixture m = none := by
    rcases hway with rfl | ⟨-, hreceives⟩
    · exact FileTree.fixture_of_file hfile
    · exact fixture_of_receives hreceives
  have hexists := not_exists_target (hground.congr h) hm.1 hm.2 hnone
  have hmay := (mayRename_file hfile (hfound.not_trailing hfile) hm.1 hnone).mpr ⟨hm.2, hway⟩
  have hrenamed : t.rename (Path.canonical t argument) path = some (t.move k m) := by
    unfold FileTree.rename
    rw [hfound.entry, hm.1]
    exact if_pos hmay
  refine ⟨hexists, t.move k m, hrenamed, ?_⟩
  by_cases heq : k = m
  · subst heq
    have hstays : ¬ t.MoveOk k k := fun hok => hok.2.2.2.2.1 List.suffix_rfl
    rw [FileTree.move, dif_neg hstays]
    exact Does.nothing (after_move_self _ _ _)
  · have hok := FileTree.moveOk_of_mayRename hfound.entry hm.1 heq hmay
    rcases FileTree.move_file hfile hnone hok (hground.congr h).isDirectory with ⟨hsame, hfiles⟩
    refine ⟨hsame, ?_⟩
    rw [hfiles, after_move _ hmoves heq, hfile]

/-- What the kernel renames, the store moves: it renames no file onto a directory. -/
theorem moves_of_rename (h : FileTree.SameFixtures t₀ t) {argument path : Bytes}
    (hsource : ∀ l, t₀.realLocate argument = some l → t₀.fixture l = none)
    (htarget : ∀ l, t₀.entry path = some l → t₀.fixture l = none ∨ t₀.isDirectory l = true)
    (hrenamed : (t.rename (Path.canonical t argument) path).isSome = true) :
    moves (storeOf t₀) t.fileAt (t₀.realLocate argument) (targetOf t₀ path) = true := by
  rcases (FileTree.rename_isSome_iff t _ _).mp hrenamed with ⟨old, new, hold, hnew, hmay⟩
  rw [entry_canonical_file h hsource, Option.filter_eq_some_iff] at hold
  rcases Option.isSome_iff_exists.mp hold.2 with ⟨file, hfile⟩
  have hfound := found_file h hold.1 hfile
  rcases htarget new (by rw [← h.entry, hnew]) with hnone | hdir
  · rw [← h.fixture] at hnone
    rcases (mayRename_file hfile (hfound.not_trailing hfile) hnew hnone).mp hmay with
      ⟨htrailing, hway⟩
    have hm : targetOf t₀ path = some new :=
      targetOf_eq_some.mpr ⟨by rw [← h.entry, hnew], htrailing⟩
    rw [← drops_of_sameFixtures h hfile, ← receives_of_sameFixtures h] at hway
    exact (moves_eq_true (storeOf t₀)).mpr ⟨old, new, hold.1, hm, hold.2, hway⟩
  · rw [← h.isDirectory] at hdir
    rw [not_mayRename_directory hfile hdir] at hmay
    cases hmay

/-- **RNTO moves**, and says if it did. -/
theorem rename_does (hground : t₀.Grounded) (h : FileTree.SameFixtures t₀ t) {argument path : Bytes}
    (hsource : ∀ l, t₀.realLocate argument = some l → t₀.fixture l = none)
    (htarget : ∀ l, t₀.entry path = some l → t₀.fixture l = none ∨ t₀.isDirectory l = true) :
    let renamed := t.rename (Path.canonical t argument) path
    let source := t₀.realLocate argument
    Does t₀ t (if Directory.exists' t path then t else renamed.getD t)
        (.move source (targetOf t₀ path)) ∧
      (Directory.exists' t path = false ∧ renamed.isSome = true ↔
        moves (storeOf t₀) t.fileAt source (targetOf t₀ path) = true) := by
  intro renamed source
  cases hmoves : moves (storeOf t₀) t.fileAt source (targetOf t₀ path) with
  | true =>
    obtain ⟨hexists, t', hrenamed, hdoes⟩ := rename_of_moves hground h hmoves
    have hsome : renamed = some t' := hrenamed
    rw [hsome, hexists]
    exact ⟨hdoes, iff_of_true ⟨rfl, rfl⟩ rfl⟩
  | false =>
    have hnone : renamed = none := by
      rw [← Option.not_isSome_iff_eq_none]
      intro hsome
      have hyes := moves_of_rename h hsource htarget hsome
      rw [hmoves] at hyes
      cases hyes
    rw [hnone, Option.getD_none, ite_self]
    refine ⟨Does.nothing (after_move_of_not _ hmoves), iff_of_false ?_ (by simp)⟩
    rintro ⟨-, hsome⟩
    cases hsome

/-! ## 3. What LIST shows -/

theorem opens_congr (h : FileTree.SameFixtures t₀ t) (folder : Bytes) (d : Location) :
    Directory.Opens t folder d ↔ Directory.Opens t₀ folder d := by
  have hnode : ∀ {u : FileTree} {mode}, u.node d = some (.directory mode) ↔
      u.fixture d = some (.directory mode) := by
    intro u mode
    rw [FileTree.fixture_eq_some]
    exact (and_iff_left rfl).symm
  have hresolve : ∀ {u : FileTree} {mode}, u.node d = some (.directory mode) →
      (u.realResolve folder = some d ↔ u.realLocate folder = some d) := by
    intro u mode hdirectory
    rw [FileTree.realResolve, Option.filter_eq_some_iff, hdirectory]
    exact and_iff_left rfl
  unfold Directory.Opens Directory.CanBeOpened
  rw [h.sameWays.reachable]
  constructor
  · rintro ⟨hfound, ⟨mode, hdirectory, hread⟩, hway⟩
    have hfixed : t₀.node d = some (.directory mode) := by
      rw [hnode, ← h.fixture, ← hnode, hdirectory]
    rw [hresolve hdirectory, h.realLocate, ← hresolve hfixed] at hfound
    exact ⟨hfound, ⟨mode, hfixed, hread⟩, hway⟩
  · rintro ⟨hfound, ⟨mode, hfixed, hread⟩, hway⟩
    have hdirectory : t.node d = some (.directory mode) := by
      rw [hnode, h.fixture, ← hnode, hfixed]
    rw [hresolve hfixed, ← h.realLocate, ← hresolve hdirectory] at hfound
    exact ⟨hfound, ⟨mode, hdirectory, hread⟩, hway⟩

/-- The names in order, those of the fixtures in the folder and of what the store has there. -/
def Shows (t : FileTree) (folder : Option Location) (places : Set Location) (message : Bytes) : Prop :=
  ∃ names : List Name, names.Pairwise (· ≤ ·) ∧ names.Nodup ∧ message = Directory.lines names ∧
    ∀ n, n ∈ names ↔ ∃ d, folder = some d ∧
      (n = dot ∨ n = dotdot ∨ (t.fixture (n :: d)).isSome = true ∨ n :: d ∈ places)

/-- Without a folder to look in, LIST shows nothing. -/
theorem listing_of_no_folder (h : FileTree.SameFixtures t₀ t) {folder : Bytes}
    (hfolder : folderOf t₀ folder = none) : FtpSession.listing t folder = [] := by
  have hnames : (Directory.getFiles t folder []).2 = [] := by
    by_cases hopens : ∃ l, Directory.Opens t folder l
    · rcases hopens with ⟨l, hl⟩
      have hopen := (Directory.opendir_iff t₀ folder l).mpr ((opens_congr h folder l).mp hl)
      rw [folderOf, hopen, Option.filter_some, ← h.searchable] at hfolder
      have hsearch : t.searchable l = false := by
        cases hsearch : t.searchable l with
        | false => rfl
        | true => simp [hsearch] at hfolder
      exact Directory.getFiles_nil hl hsearch []
    · have hfailure := (Directory.getSpecifyFiles_exact t folder [] .any []).failure hopens
      unfold Directory.getFiles
      rw [hfailure]
  unfold FtpSession.listing
  rw [hnames]
  rfl

/-- **LIST looks.** -/
theorem listing_shows (h : FileTree.SameFixtures t₀ t) (folder : Bytes) :
    Shows t₀ (folderOf t₀ folder)
      {l | l ∈ (storeOf t₀).inside (folderOf t₀ folder) ∧ (t.fileAt l).isSome}
      (FtpSession.listing t folder) := by
  cases hfolder : folderOf t₀ folder with
  | none =>
    refine ⟨[], List.Pairwise.nil, List.nodup_nil, ?_, by simp⟩
    rw [listing_of_no_folder h hfolder]
    rfl
  | some d =>
    rcases Option.filter_eq_some_iff.mp hfolder with ⟨hopen, hsearch⟩
    have hopens : Directory.Opens t folder d := by
      rw [opens_congr h, ← Directory.opendir_iff, hopen]
    rw [← h.searchable] at hsearch
    have hperm := List.perm_insertionSort (fun a b => Directory.bytesLe a b) (t.entries d)
    refine ⟨(t.entries d).insertionSort fun a b => Directory.bytesLe a b,
      Directory.pairwise_sorted _, hperm.nodup_iff.mpr (t.entries_nodup d), ?_, ?_⟩
    · change (Directory.getFiles t folder []).2.flatMap _ = _
      rw [Directory.getFiles_names hopens hsearch (Directory.pairwise_sorted _) hperm]
      rfl
    · intro n
      rw [hperm.mem_iff, t.mem_entries, FileTree.isSome_iff, h.fixture]
      simp [storeOf]

end Trees

end FtpsServer
