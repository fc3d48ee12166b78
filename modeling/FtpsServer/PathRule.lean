import FtpsServer.CanonicalPath
import FtpsServer.Handlers

/-!
# Where the five path commands look

An argument that starts with a slash means itself, one that starts with `~/` the rest
below the home folder, and any other one something below `m_folder`.  Each of STOR,
DELE, RNFR, RNTO and CWD has its own version of this rule: STOR puts `m_folder` before
everything, only CWD knows the home folder, and CWD takes every `~` for it.
-/

namespace FtpsServer

open ByteString Cxx Machine Posix

def HOME : Bytes := ascii "~/"

namespace FtpSession

/-! ## 1. The rule -/

/-- The path that an argument means. -/
def rulePath (session : FtpSession) (path : Bytes) : Bytes :=
  if Path.isPathRooted path then path
  else if path.take 2 = HOME then session.user.folder ++ path.drop 2
  else session.folder ++ path

/-- `remove` in DELE and `rename` behind RNFR get a path that names the entry `l`. -/
def ActsOn (session : FtpSession) (t : FileTree) (path : Bytes) (l : Location) : Prop :=
  t.entry (Path.canonical t (session.delePath t path)) = some l ∧
    t.entry (Path.canonical t (Path.canonical t (session.renamePath path))) = some l

/-- **One path rule** for the argument `path`.  STOR and RNTO, which hand their path to the
    kernel, agree on the place that it leads to, and DELE, RNFR and CWD, which hand theirs to
    `realpath`, on the object; and what STOR has opened, and written any bytes to, is what
    DELE and RNFR act on. -/
structure OneRule (session : FtpSession) (t : FileTree) (path : Bytes) : Prop where
  stor : t.locate false (session.folder ++ path) = t.locate false (session.rulePath path)
  rnto : t.locate false (session.renamePath path) = t.locate false (session.rulePath path)
  dele : t.realResolve (session.delePath t path) = t.realResolve (session.rulePath path)
  rnfr : t.realResolve (session.renamePath path) = t.realResolve (session.rulePath path)
  cwd : ∃ folder, session.pathFolder path = .ok folder ∧
    t.realResolve folder = t.realResolve (session.rulePath path)
  acts : ∀ l bytes, transferFile t (session.folder ++ path) = some l →
    ActsOn session (stored (transferTree t (session.folder ++ path)) (some l) bytes) path l

/-- From the directory that `front` leads to, `rest` goes on to `l`.  With a NUL in it, `front`
    is all that there is of the path. -/
def GoesOn (t : FileTree) (front rest : Bytes) (l : Location) : Prop :=
  if NUL ∈ front then t.locate false front = some l
  else t.Behind .kernel front (cString rest) l

/-- What the five versions of the rule do not have in common makes no difference in `t`. -/
structure Unambiguous (session : FtpSession) (t : FileTree) (path : Bytes) : Prop where
  /-- A rooted path goes on from `m_folder` to where it leads from the root. -/
  rooted : Path.isPathRooted path = true →
    ∀ l, GoesOn t session.folder path l ↔ t.locate false path = some l
  /-- Below `m_folder` there is a `~` that stands for the home folder. -/
  homed : path.take 2 = HOME →
    (∀ l, GoesOn t (session.folder ++ ascii "~") (path.drop 1) l ↔
      t.locate false (session.user.folder ++ path.drop 2) = some l) ∧
      Path.canonical t (session.folder ++ path) =
        Path.canonical t (session.user.folder ++ path.drop 2)
  tilde : Path.isPathHomed path = true → path.take 2 ≠ HOME →
    2 ≤ path.length ∧
      Path.canonical t (session.user.folder ++ path.drop 2) =
        Path.canonical t (session.folder ++ path)
  /-- In the working directory of the process, `realpath` finds the file that `open` opens. -/
  relative : Posix.rooted (session.folder ++ path) = false → Path.isPathRooted path = false →
    ∀ l, transferFile t (session.folder ++ path) = some l →
      t.realLocate (session.folder ++ path) = some l

/-! ## 2. The kinds of arguments -/

variable {session : FtpSession} {t : FileTree} {path : Bytes}

theorem homed_of_home (h : path.take 2 = HOME) :
    Path.isPathHomed path = true ∧ 2 ≤ path.length := by
  constructor
  · have htake : path.take 1 = ascii "~" := by
      have hone := congrArg (List.take 1) h
      rwa [List.take_take] at hone
    rw [Path.isPathHomed, htake]
    rfl
  · have hlength : (path.take 2).length = 2 := by
      rw [h]
      rfl
    rw [List.length_take] at hlength
    omega

/-- A rooted argument is itself for everybody but STOR; DELE makes it canonical. -/
theorem paths_of_rooted (h : Path.isPathRooted path = true) :
    session.rulePath path = path ∧ session.renamePath path = path ∧
      session.pathFolder path = .ok path ∧ session.delePath t path = Path.canonical t path := by
  simp [rulePath, renamePath, pathFolder, delePath, h]

/-- Any other argument means the same to all five. -/
theorem paths_of_plain (hroot : Path.isPathRooted path = false)
    (hhomed : Path.isPathHomed path = false) :
    session.rulePath path = session.folder ++ path ∧
      session.renamePath path = session.folder ++ path ∧
      session.pathFolder path = .ok (session.folder ++ path) ∧
      session.delePath t path = session.folder ++ path := by
  have hhome : path.take 2 ≠ HOME := by
    intro hhome
    rw [(homed_of_home hhome).1] at hhomed
    cases hhomed
  simp [rulePath, renamePath, pathFolder, delePath, hroot, hhomed, hhome]

/-- By its canonical path a reachable file is found again and again. -/
theorem found_again {l : Location} (h : t.realResolve path = some l)
    (hreach : t.reachable l = true) (hfile : t.isDirectory l = false) :
    t.realResolve (Path.canonical t path) = some l ∧
      t.entry (Path.canonical t path) = some l := by
  refine ⟨(Path.realResolve_canonical h).trans (if_pos hreach), ?_⟩
  cases l with
  | nil =>
    have hroot : t.isDirectory [] = true := t.root_isDirectory
    rw [hfile] at hroot
    cases hroot
  | cons n d => exact (Path.entry_canonical_iff h).mpr hreach

/-- Below an absolute folder an argument without a slash or `~` at its head is never
    ambiguous. -/
theorem unambiguous_of_plain (hfolder : Posix.rooted session.folder = true)
    (hroot : Path.isPathRooted path = false) (hhomed : Path.isPathHomed path = false) :
    Unambiguous session t path := by
  refine ⟨?_, ?_, ?_, ?_⟩
  · intro h
    rw [hroot] at h
    cases h
  · intro hhome
    rw [(homed_of_home hhome).1] at hhomed
    cases hhomed
  · intro h _
    rw [hhomed] at h
    cases h
  · intro hrelative
    cases hfirst : session.folder with
    | nil => simp [hfirst, Posix.rooted] at hfolder
    | cons first rest =>
      rw [hfirst] at hfolder hrelative
      rw [show Posix.rooted (first :: rest ++ path) = true from hfolder] at hrelative
      cases hrelative

section Calls

variable {env env' : Environment} {th th₁ th₂ : Thread} {l : Location}

/-- What a STOR leaves behind is what the rule speaks of. -/
theorem stor_actsOn (hrule : OneRule th.session th.process.fileTree path)
    (hfile : transferFile th.process.fileTree (th.session.folder ++ path) = some l)
    (h : call th ⟨env, ⟨.stor, [path]⟩⟩ = .ok th₁) :
    ActsOn th₁.session th₁.process.fileTree path l := by
  rcases commandStor_did h with ⟨fileName, via, dataVia, hname, -, -, hdid⟩
  cases hname
  have htree := hdid.fileTree
  rw [hfile] at htree
  rw [hdid.session, htree]
  exact hrule.acts l _ hfile

/-- A DELE of the argument of the STOR removes the file that STOR wrote, or nothing. -/
theorem dele_behind_stor (hrule : OneRule th.session th.process.fileTree path)
    (hfile : transferFile th.process.fileTree (th.session.folder ++ path) = some l)
    (h : call th ⟨env, ⟨.stor, [path]⟩⟩ = .ok th₁)
    (h' : call th₁ ⟨env', ⟨.dele, [path]⟩⟩ = .ok th₂) :
    th₂.process.fileTree = th₁.process.fileTree ∨
      ∃ n d, l = n :: d ∧ th₂.process.fileTree = th₁.process.fileTree.erase n d := by
  have hentry := (stor_actsOn hrule hfile h).1
  rcases commandDele_did h' with ⟨path', message, via, hpath, -, -, hdid⟩
  cases hpath
  rw [hdid.fileTree, File.erase, FileTree.remove, hentry]
  cases l with
  | nil => exact Or.inl rfl
  | cons n d =>
    dsimp only
    cases th₁.process.fileTree.mayRemove _ (n :: d) with
    | false => exact Or.inl rfl
    | true => exact Or.inr ⟨n, d, rfl, rfl⟩

/-- After an RNFR of the argument of the STOR, RNTO moves the file that STOR wrote. -/
theorem rnfr_behind_stor (hrule : OneRule th.session th.process.fileTree path)
    (hfile : transferFile th.process.fileTree (th.session.folder ++ path) = some l)
    (h : call th ⟨env, ⟨.stor, [path]⟩⟩ = .ok th₁)
    (h' : call th₁ ⟨env', ⟨.rnfr, [path]⟩⟩ = .ok th₂) :
    th₂.process.fileTree.entry (Path.canonical th₂.process.fileTree th₂.session.argument) =
      some l := by
  have hentry := (stor_actsOn hrule hfile h).2
  rcases commandRnfr_did h' with ⟨path', via, hpath, -, hdid⟩
  cases hpath
  rw [hdid.session, hdid.fileTree]
  exact hentry

end Calls

end FtpSession

end FtpsServer
