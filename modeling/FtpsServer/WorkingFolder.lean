import FtpsServer.CanonicalPath
import FtpsServer.Credentials

/-!
# The working folder

Every handler that makes a path puts `m_folder` before a name and relies on the slash at
its end.  The slash is part of the folders in the user database, and behind a CWD it
comes from `get_canonical_full_path`.
-/

namespace FtpsServer

open ByteString Cxx Machine Posix

/-! ## 1. Folders -/

/-- An absolute path that ends with a slash. -/
structure IsFolder (folder : Bytes) : Prop where
  absolute : rooted folder = true
  slash : trailing folder = true

instance (folder : Bytes) : Decidable (IsFolder folder) :=
  decidable_of_iff (rooted folder = true ∧ trailing folder = true)
    ⟨fun h => ⟨h.1, h.2⟩, fun h => ⟨h.absolute, h.slash⟩⟩

theorem exists_of_trailing {folder : Bytes} (h : trailing folder = true) :
    ∃ front, folder = front ++ [SLASH] := by
  rcases List.eq_nil_or_concat folder with rfl | ⟨front, last, rfl⟩
  · cases h
  · refine ⟨front, ?_⟩
    rw [List.concat_eq_append] at h ⊢
    have hlast : last = SLASH := by simpa [trailing] using h
    rw [hlast]

/-- Behind a slash a name stays a name. -/
theorem names_append_of_trailing {folder : Bytes} (h : trailing folder = true) (rest : Bytes) :
    names (folder ++ rest) = names folder ++ names rest := by
  rcases exists_of_trailing h with ⟨front, rfl⟩
  rw [List.append_assoc, List.singleton_append, names_append_slash, names_append_slash, names_nil,
    List.append_nil]

namespace FtpUserDatabase

/-- Every user has a folder. -/
def HasFolders (database : FtpUserDatabase) : Prop :=
  ∀ login entry, database login = some entry → IsFolder entry.folder

theorem hasFolders_initial : HasFolders initial := by
  intro login entry h
  unfold initial at h
  split at h
  · cases h
    decide
  · split at h
    · cases h
      decide
    · cases h

theorem HasFolders.update {database : FtpUserDatabase} (h : HasFolders database) {key : Bytes}
    {value : Option FtpUser} (hvalue : ∀ entry, value = some entry → IsFolder entry.folder) :
    HasFolders (Function.update database key value) := by
  intro login entry hentry
  by_cases hlogin : login = key
  · rw [hlogin, Function.update_self] at hentry
    exact hvalue entry hentry
  · rw [Function.update_of_ne hlogin] at hentry
    exact h login entry hentry

theorem HasFolders.applyAll {database : FtpUserDatabase} (h : HasFolders database)
    {updates : List Update} (hadd : ∀ user, .add user ∈ updates → IsFolder user.folder) :
    HasFolders (database.applyAll updates) := by
  induction updates generalizing database with
  | nil => exact h
  | cons update updates ih =>
    refine ih ?_ fun user hmem => hadd user (List.mem_cons_of_mem _ hmem)
    cases update with
    | add user =>
      show HasFolders (database.add user).2
      unfold FtpUserDatabase.add
      cases database user.login with
      | some other => exact h
      | none =>
        apply h.update
        intro entry hentry
        cases hentry
        exact hadd user List.mem_cons_self
    | erase user =>
      show HasFolders (database.erase user).2
      unfold FtpUserDatabase.erase
      cases database user.login with
      | none => exact h
      | some other =>
        apply h.update
        intro entry hentry
        cases hentry

end FtpUserDatabase

/-- Users that are added have folders. -/
def Action.AddsFolders : Action → Prop
  | .call _ => True
  | .elsewhere _ updates => ∀ user, .add user ∈ updates → IsFolder user.folder

namespace FtpSession

/-! ## 2. CWD -/

/-- A CWD that gets an answer of this code. -/
def AnsweredCwd (code : Nat) (th : Thread) (c : Call) (th' : Thread) : Prop :=
  c.input.command = .cwd ∧ ∃ message, Replied th th' [message] ∧ replyCode message = code

/-- The path with a slash at its end. -/
def slashed (path : Bytes) : Bytes := if trailing path then path else path ++ [SLASH]

/-- What `m_folder` is behind a CWD: the real path of a directory that its argument leads
    to, closed by a slash, which `get_canonical_full_path` makes nothing else of. -/
def Entered (th : Thread) (c : Call) (th' : Thread) : Prop :=
  ∃ argument path l, c.input.getArgument 0 = .ok argument ∧
    th.session.pathFolder argument = .ok path ∧
    th.process.fileTree.realpath path = some (render l) ∧
    th.process.fileTree.isDirectory l = true ∧
    th'.session.folder = slashed (render l) ∧
    Path.getCanonicalFullPath th'.process.fileTree th'.session.folder =
      (OPERATION_SUCCESS, th'.session.folder)

/-- What each CWD makes of `m_folder`. -/
structure CwdSound (th : Thread) (c : Call) (th' : Thread) : Prop where
  found : AnsweredCwd 250 th c th' → Entered th c th'
  missing : AnsweredCwd 553 th c th' → th'.session.folder = th.session.folder

variable {c : Call} {th th' : Thread}

/-- A directory that is found by its canonical path is there under that path. -/
theorem canonical_of_directory {t : FileTree} {path : Bytes}
    (h : Directory.exists' t (Path.canonical t path) = true) :
    ∃ l, t.realpath path = some (render l) ∧ t.isDirectory l = true ∧
      Path.canonical t path = slashed (render l) ∧
      Path.getCanonicalFullPath t (Path.canonical t path) =
        (OPERATION_SUCCESS, Path.canonical t path) := by
  rcases Path.directory_exists_iff.mp h with ⟨l, hagain, hdir, hreach⟩
  have hl := Path.realResolve_of_canonical hagain
  have hcanonical := Path.canonical_eq hl
  have hsame : Path.canonical t (Path.canonical t path) = Path.canonical t path := by
    rw [Path.canonical_eq hagain, ← hcanonical]
  refine ⟨l, by rw [FileTree.realpath, hl]; rfl, hdir, ?_, ?_⟩
  · have htrailing := Path.trailing_canonical hl hdir hreach
    rw [hcanonical] at htrailing ⊢
    unfold slashed
    cases hslash : trailing (render l) with
    | true => simp
    | false =>
      cases hexists : Directory.exists' t (render l) with
      | true => rfl
      | false => simp [hexists, hslash] at htrailing
  · apply Prod.ext
    · rw [Path.getCanonicalFullPath, FileTree.realpath, hagain]
      dsimp only [Option.map_some]
      split <;> rfl
    · exact hsame

/-- A CWD is answered 250 and enters the folder, or answered 553 and leaves it. -/
theorem cwd_cases (hcommand : c.input.command = .cwd) (h : call th c = .ok th') :
    (∃ message, Replied th th' [message] ∧ replyCode message = 250 ∧ Entered th c th') ∨
      (∃ message, Replied th th' [message] ∧ replyCode message = 553 ∧
        th'.session.folder = th.session.folder) := by
  rw [call_cwd hcommand] at h
  rcases commandCwd_did h with ⟨argument, path, via, hargument, hpath, -, hdid⟩
  dsimp only at hdid
  have hreplied := hdid.replied
  rw [replies_replyEvent, replies_nil] at hreplied
  cases hfound : Directory.exists' th.process.fileTree (Path.canonical th.process.fileTree path) with
  | false =>
    rw [hfound] at hdid hreplied
    exact Or.inr ⟨_, hreplied, by decide, by rw [hdid.session]; rfl⟩
  | true =>
    rw [hfound] at hdid hreplied
    rcases canonical_of_directory hfound with ⟨l, hreal, hdir, hslashed, hfixed⟩
    have hfolder : th'.session.folder = Path.canonical th.process.fileTree path := by
      rw [hdid.session]
      rfl
    refine Or.inl ⟨_, hreplied, by decide, argument, path, l, hargument, hpath, hreal, hdir, ?_, ?_⟩
    · rw [hfolder, hslashed]
    · rw [hfolder, hdid.fileTree]
      exact hfixed

theorem cwdSound (h : call th c = .ok th') : CwdSound th c th' := by
  refine ⟨?_, ?_⟩
  · rintro ⟨hcommand, message, hmessage, hcode⟩
    rcases cwd_cases hcommand h with ⟨_, -, -, hentered⟩ | ⟨message', hmessage', hcode', -⟩
    · exact hentered
    · obtain rfl : message = message' := by simpa using hmessage.unique hmessage'
      rw [hcode] at hcode'
      cases hcode'
  · rintro ⟨hcommand, message, hmessage, hcode⟩
    rcases cwd_cases hcommand h with ⟨message', hmessage', hcode', -⟩ | ⟨_, -, -, hsame⟩
    · obtain rfl : message = message' := by simpa using hmessage.unique hmessage'
      rw [hcode] at hcode'
      cases hcode'
    · exact hsame

theorem isFolder_slashed (l : Location) : IsFolder (slashed (render l)) := by
  rcases render_head l with ⟨rest, hhead⟩
  unfold slashed
  split
  · next hslash => exact ⟨by rw [hhead]; rfl, hslash⟩
  · exact ⟨by rw [hhead]; rfl, by simp [trailing]⟩

theorem Entered.isFolder (h : Entered th c th') : IsFolder th'.session.folder := by
  rcases h with ⟨_, _, l, -, -, -, -, hfolder, -⟩
  rw [hfolder]
  exact isFolder_slashed l

/-! ## 3. One step -/

/-- A PASS or a CWD succeeds. -/
def Succeeds (th : Thread) (a : Action) (th' : Thread) : Prop :=
  ∃ c, a = .call c ∧
    ((c.input.command = .pass ∧ Accesses th th') ∨ AnsweredCwd 250 th c th')

theorem pass_folder (hfolders : th.process.database.HasFolders) (hcommand : c.input.command = .pass)
    (h : call th c = .ok th') :
    (Accesses th th' → IsFolder th'.session.folder) ∧
      (¬ Accesses th th' → th'.session.folder = th.session.folder) := by
  have hpass := h
  rw [call_pass hcommand] at hpass
  rcases commandPass_did hpass with ⟨password, via, hpassword, -, hcases⟩
  have haccesses := pass_accesses_iff hcommand h hpassword
  rcases hcases with ⟨entry, hmatch, hdid⟩ | ⟨hmatch, hdid⟩
  · refine ⟨?_, ?_⟩
    · intro _
      rw [hdid.session]
      exact hfolders _ entry (FtpUserDatabase.matching_eq_some hmatch).1
    · intro hnot
      exact absurd (haccesses.mpr (by rw [hmatch]; rfl)) hnot
  · refine ⟨?_, ?_⟩
    · intro haccess
      have hsome := haccesses.mp haccess
      rw [hmatch] at hsome
      cases hsome
    · intro _
      rw [hdid.session]
      rfl

/-- With success `m_folder` is a folder, and without it stays what it is. -/
theorem folder_step (hfolders : th.process.database.HasFolders) {a : Action}
    (h : act th a = .ok th') :
    (Succeeds th a th' → IsFolder th'.session.folder) ∧
      (¬ Succeeds th a th' → th'.session.folder = th.session.folder) := by
  constructor
  · rintro ⟨c, rfl, ⟨hpass, haccess⟩ | hcwd⟩
    · exact (pass_folder hfolders hpass h).1 haccess
    · exact ((cwdSound h).found hcwd).isFolder
  · intro hnot
    cases a with
    | elsewhere p updates =>
      cases h
      rfl
    | call c =>
      by_cases hpass : c.input.command = .pass
      · exact (pass_folder hfolders hpass h).2 fun haccess =>
          hnot ⟨c, rfl, Or.inl ⟨hpass, haccess⟩⟩
      · by_cases hcwd : c.input.command = .cwd
        · rcases cwd_cases hcwd h with ⟨message, hmessage, hcode, -⟩ | ⟨_, -, -, hsame⟩
          · exact absurd ⟨c, rfl, Or.inr ⟨hcwd, message, hmessage, hcode⟩⟩ hnot
          · exact hsame
        · exact (processCommand_frame h).1.folder (by simp [hpass, hcwd])

/-! ## 4. Runs -/

/-- No PASS and no CWD succeeds in the run. -/
def NoSuccess (start : Thread) (actions : List Action) : Prop :=
  EveryStep act (fun th a th' => ¬ Succeeds th a th') start actions

/-- The folder is empty before the first success, and one afterwards. -/
def FolderAfter (start : Thread) (before : List Action) (th : Thread) : Prop :=
  th.session.folder = [] ∧ NoSuccess start before ∨ IsFolder th.session.folder

theorem hasFolders_act {a : Action} (hfolders : th.process.database.HasFolders)
    (ha : a.AddsFolders) (h : act th a = .ok th') : th'.process.database.HasFolders := by
  cases a with
  | elsewhere p updates =>
    cases h
    exact hfolders.applyAll ha
  | call c =>
    rw [call_database h]
    exact hfolders

theorem folderAfter_step {start : Thread} {before : List Action} {a : Action}
    (hfolders : th.process.database.HasFolders) (hrun : run act start before = .ok th)
    (hth : FolderAfter start before th) (h : act th a = .ok th') :
    FolderAfter start (before ++ [a]) th' := by
  rcases folder_step hfolders h with ⟨hwith, hwithout⟩
  by_cases hsucceeds : Succeeds th a th'
  · exact Or.inr (hwith hsucceeds)
  · unfold FolderAfter
    rw [hwithout hsucceeds]
    rcases hth with ⟨hempty, hnone⟩ | hfolder
    · refine Or.inl ⟨hempty, hnone.concat hrun ?_⟩
      intro next hnext
      rw [h] at hnext
      cases hnext
      exact hsucceeds
    · exact Or.inr hfolder

/-- Behind a folder, or behind nothing, a name stays a name. -/
theorem FolderAfter.names_append {start : Thread} {before : List Action}
    (h : FolderAfter start before th) (rest : Bytes) :
    names (th.session.folder ++ rest) = names th.session.folder ++ names rest := by
  rcases h with ⟨hempty, -⟩ | hfolder
  · rw [hempty, names_nil]
    rfl
  · exact names_append_of_trailing hfolder.slash rest

/-- What the actions `before` lead to, if they add only users with folders. -/
def FolderHistory (start : Thread) (before : List Action) (th : Thread) : Prop :=
  run act start before = .ok th ∧ ((∀ a ∈ before, a.AddsFolders) →
    th.process.database.HasFolders ∧ FolderAfter start before th)

theorem folderHistory_step {start : Thread} {before : List Action} {a : Action}
    (hth : FolderHistory start before th) (h : act th a = .ok th') :
    FolderHistory start (before ++ [a]) th' := by
  rcases hth with ⟨hrun, hsound⟩
  refine ⟨run_concat_ok.mpr ⟨th, hrun, h⟩, ?_⟩
  intro hadds
  rcases hsound fun a ha => hadds a (List.mem_append_left _ ha) with ⟨hfolders, hfolder⟩
  exact ⟨hasFolders_act hfolders (hadds a (by simp)) h, folderAfter_step hfolders hrun hfolder h⟩

theorem folder_run {opens : Bool} {id : Nat} {connection : TcpTransport}
    {garbage : Uninitialised} {p : Process}
    (hfolders : p.database.HasFolders) {before : List Action}
    (hrun : run act (construct opens id connection garbage p) before = .ok th)
    (hbefore : ∀ a ∈ before, a.AddsFolders) :
    FolderAfter (construct opens id connection garbage p) before th := by
  have hstart : FolderHistory (construct opens id connection garbage p) []
      (construct opens id connection garbage p) := by
    refine ⟨rfl, fun _ => ⟨?_, Or.inl ⟨rfl, everyStep_nil⟩⟩⟩
    rw [(construct_quiet opens id connection garbage p).database]
    exact hfolders
  exact ((run_history (fun _ _ _ _ => folderHistory_step) hstart hrun).2 hbefore).2

/-- **The working folder.**  With users whose folders are absolute and end with a slash,
    whatever the session and the rest of the program do: `m_folder` is empty before the
    first PASS or CWD that succeeds and such a folder afterwards, so that no name behind
    it fuses with one in it; a CWD answered 250 makes it the real path of a directory,
    and one answered 553 leaves it. -/
theorem working_folder (opens : Bool) (id : Nat) (connection : TcpTransport) (garbage : Uninitialised)
    (p : Process) (hfolders : p.database.HasFolders) (actions : List Action)
    (hactions : ∀ a ∈ actions, a.AddsFolders) :
    let start := construct opens id connection garbage p
    (∀ before th, before <+: actions → run act start before = .ok th →
        FolderAfter start before th ∧
          ∀ rest, names (th.session.folder ++ rest) = names th.session.folder ++ names rest) ∧
      EveryStep act (fun th a th' => ∀ c, a = .call c → CwdSound th c th') start actions := by
  intro start
  refine ⟨?_, ?_⟩
  · rintro before th ⟨after, rfl⟩ hbefore
    have hth := folder_run hfolders hbefore fun a ha => hactions a (List.mem_append_left _ ha)
    exact ⟨hth, hth.names_append⟩
  · rintro before a after mid next - - hact c rfl
    exact cwdSound hact

/-- A login, another user, and a CWD to the root. -/
def visit : List Action :=
  [.call ⟨.plain, ⟨.user, [ascii "admin"]⟩⟩, .call ⟨.plain, ⟨.pass, [ascii "admin"]⟩⟩,
    .elsewhere (Process.initial .bare) [.add ⟨ascii "guest", [], ascii "/pub/"⟩],
    .call ⟨.plain, ⟨.cwd, [ascii "/"]⟩⟩]

theorem working_folder_root :
    ∃ th, run act (first .bare ⟨0, 0, .clear⟩) visit = .ok th ∧
      FolderAfter (first .bare ⟨0, 0, .clear⟩) visit th ∧
      EveryStep act (fun th a th' => ∀ c, a = .call c → CwdSound th c th')
        (first .bare ⟨0, 0, .clear⟩) visit := by
  obtain ⟨th, hrun, -⟩ := exists_of_reaches (first .bare ⟨0, 0, .clear⟩) visit
    (fun th => th.session.folder == ascii "/") (show reaches act _ _ _ = true by decide)
  have hactions : ∀ a ∈ visit, a.AddsFolders := by
    intro a ha
    simp only [visit, List.mem_cons, List.not_mem_nil, or_false] at ha
    rcases ha with rfl | rfl | rfl | rfl
    · trivial
    · trivial
    · intro user hmem
      obtain rfl : user = ⟨ascii "guest", [], ascii "/pub/"⟩ := by simpa using hmem
      decide
    · trivial
  rcases working_folder true 0 ⟨6, .null, false, ascii "127.0.0.1", 21⟩ ⟨0, 0, .clear⟩
    { Process.initial .bare with descriptors := ⟨[0, 1, 2, 3, 4, 5, 6]⟩ }
    FtpUserDatabase.hasFolders_initial visit hactions with ⟨hstates, hsteps⟩
  exact ⟨th, hrun, (hstates visit th (List.prefix_refl visit) hrun).1, hsteps⟩

end FtpSession

end FtpsServer
