import FtpsServer.DescriptorLeak
import FtpsServer.Replies

/-!
# The authentication gate

Eight commands change the file tree, read it, or open a data connection.  No handler
looks at the login, so before a PASS has matched the tree, the folder and the data
channel are untouched only where a command has nothing to do.
-/

namespace FtpsServer

open ByteString Cxx Machine

/-! ## 1. The gate -/

/-- The reply to a PASS that matched an entry of the database. -/
def ACCESS : Bytes := ascii "230 access is performed\r\n"

/-- A PASS has matched since `fresh`. -/
def Admitted (fresh th : Thread) : Prop := ∃ new, Replied fresh th new ∧ ACCESS ∈ new

/-- The commands that need a login. -/
def gated : FtpCommandT → Bool
  | .stor | .dele | .rnto | .list | .cwd | .rnfr | .port | .pasv => true
  | _ => false

/-- The file tree, `m_folder` and `m_data_channel` are the same. -/
structure Untouched (th th' : Thread) : Prop where
  fileTree : th'.process.fileTree = th.process.fileTree
  folder : th'.session.folder = th.session.folder
  dataChannel : th'.session.dataChannel = th.session.dataChannel

theorem Untouched.refl (th : Thread) : Untouched th th := ⟨rfl, rfl, rfl⟩

theorem Untouched.trans {th mid th' : Thread} (h : Untouched th mid) (h' : Untouched mid th') :
    Untouched th th' :=
  ⟨h'.fileTree.trans h.fileTree, h'.folder.trans h.folder, h'.dataChannel.trans h.dataChannel⟩

/-- STOR finds no file it may write, or one to which nothing is added: no data, no room for
    any, or something that is no file. -/
def StoresNothing (env : Environment) (t : Posix.FileTree) (filePath : Bytes) : Prop :=
  match t.openAppend filePath with
  | none => True
  | some (_, l) =>
    (t.node l).isSome = true ∧
      (env.room = some 0 ∨ env.data = [] ∨ (t.node l).any Posix.Node.isRegular = false)

/-- **A call with nothing to do.**  The data channel is closed already, nothing comes
    in, nothing is found to remove, to rename or to change to, no port can be
    bound. -/
def Inert (th : Thread) (c : FtpSession.Call) : Prop :=
  let t := th.process.fileTree
  match c.input.command with
  | .list => th.session.dataChannel.IsClosed
  | .stor => th.session.dataChannel.IsClosed ∧ ∀ fileName,
      c.input.getArgument 0 = .ok fileName → StoresNothing c.env t (th.session.folder ++ fileName)
  | .dele => ∀ path, c.input.getArgument 0 = .ok path →
      t.remove (Path.canonical t (th.session.delePath t path)) = none
  | .rnto => ∀ path, c.input.getArgument 0 = .ok path →
      Directory.exists' t (th.session.renamePath path) = true ∨
        ¬ t.Renames (Path.canonical t th.session.argument) (th.session.renamePath path)
  | .cwd => ∀ argument folder, c.input.getArgument 0 = .ok argument →
      th.session.pathFolder argument = .ok folder →
        Directory.exists' t (Path.canonical t folder) = false ∨
          Path.canonical t folder = th.session.folder
  | .port => ∀ address text port, c.input.getArgument 0 = .ok address →
      c.input.getArgument 1 = .ok text → stoi text = .ok port →
        th.session.dataChannel = ⟨th.process.socket (c.env.socket 0), .null, false,
          if c.env.connect then address else [], if c.env.connect then port else 0⟩
  | .pasv => ¬ FtpSession.BindsWithin c.env 0 20 ∨
      c.env.accept = false ∧ th.session.protectsData = false
  | _ => True

namespace FtpSession

/-! ## 2. STOR -/

theorem handed_eq_nil_iff (env : Environment) (bufferFileSize : Int) :
    handed env bufferFileSize = [] ↔ env.data = [] := by
  unfold handed
  cases hdata : env.data with
  | nil => simp [handedAllocated]
  | cons chunk chunks =>
    have hne := chunk.nonempty
    by_cases hsize : bufferFileSize > 0
    · have hnonzero : bufferFileSize ≠ 0 := by omega
      simp [hsize, handedAllocated, hnonzero, hne]
    · simp [hsize, hne]

theorem stored_eq_self_iff (env : Environment) (t : Posix.FileTree) (filePath : Bytes)
    (bufferFileSize : Int) :
    stored (transferTree t filePath) (transferFile t filePath) (written env bufferFileSize) = t ↔
      StoresNothing env t filePath := by
  unfold transferTree transferFile StoresNothing
  cases hopen : t.openAppend filePath with
  | none => simp [stored]
  | some opened =>
    rcases opened with ⟨t', l⟩
    dsimp only [Option.map_some, Option.getD_some, stored]
    rcases Posix.FileTree.openAppend_cases hopen with ⟨rfl, hsome⟩ | ⟨hnone, hnew, -⟩
    · rw [Posix.FileTree.append_eq_self_iff, written, taken_eq_nil_iff, handed_eq_nil_iff, or_assoc]
      exact ⟨fun h => ⟨hsome, h⟩, And.right⟩
    · -- the new file is there afterwards
      refine iff_of_false ?_ (by simp [hnone])
      intro heq
      have hnode := congrFun (congrArg Posix.FileTree.node heq) l
      rw [Posix.FileTree.append_node, if_pos rfl, hnew, hnone] at hnode
      cases hnode

/-! ## 3. One call -/

variable {c : Call} {th th' : Thread}

theorem untouched_iff {session : FtpSession} {t : Posix.FileTree} {sent : List Event}
    (h : Did th th' session t sent) :
    Untouched th th' ↔ t = th.process.fileTree ∧ session.folder = th.session.folder ∧
      session.dataChannel = th.session.dataChannel := by
  obtain rfl := h.session
  obtain rfl := h.fileTree
  exact ⟨fun hu => ⟨hu.fileTree, hu.folder, hu.dataChannel⟩, fun ⟨h₁, h₂, h₃⟩ => ⟨h₁, h₂, h₃⟩⟩

theorem untouched_of_inert (h : call th c = .ok th') (hgated : gated c.input.command = true)
    (hinert : Inert th c) : Untouched th th' := by
  rcases c with ⟨env, input⟩
  unfold call processCommand at h
  unfold Inert at hinert
  dsimp only at h hinert hgated
  cases hcommand : input.command <;> rw [hcommand] at h hinert hgated <;>
    dsimp only [gated] at h hinert hgated <;> try cases hgated
  case cwd =>
    rcases commandCwd_did h with ⟨argument, folder, _, hargument, hfolder, _, hdid⟩
    refine (untouched_iff hdid).mpr ⟨rfl, ?_, rfl⟩
    rcases hinert argument folder hargument hfolder with hnone | hsame
    · simp [hnone]
    · simp [hsame]
  case port =>
    rcases commandPort_did h with ⟨address, text, port, _, _, haddress, htext, hport, _, rfl, hdid⟩
    exact (untouched_iff hdid).mpr ⟨rfl, rfl, (hinert address text port haddress htext hport).symm⟩
  case list =>
    rcases commandList_did h with ⟨_, _, _, _, hdid⟩
    exact (untouched_iff hdid).mpr ⟨rfl, rfl, (TcpTransport.closed_eq_self_iff _).mpr hinert⟩
  case stor =>
    rcases commandStor_did h with ⟨fileName, _, _, hname, _, _, hdid⟩
    exact (untouched_iff hdid).mpr ⟨(stored_eq_self_iff _ _ _ _).mpr (hinert.2 fileName hname), rfl,
      (TcpTransport.closed_eq_self_iff _).mpr hinert.1⟩
  case pasv =>
    obtain ⟨_, _, ⟨_, hdid⟩ | ⟨hbinds, port, accepted, channel, haccepted, hchannel, hdid⟩⟩ :=
      commandPasv_did h
    · exact (untouched_iff hdid).mpr ⟨rfl, rfl, rfl⟩
    · rcases hinert with hnone | ⟨hrefused, hclear⟩
      · exact absurd hbinds hnone
      · rw [hclear, if_neg (by decide)] at hchannel
        rw [Accepted, hrefused, if_neg (by decide)] at haccepted
        exact (untouched_iff hdid).mpr ⟨rfl, rfl, hchannel.trans haccepted⟩
  case dele =>
    rcases commandDele_did h with ⟨path, _, _, hpath, _, _, hdid⟩
    refine (untouched_iff hdid).mpr ⟨?_, rfl, rfl⟩
    simp only [File.erase, hinert path hpath]
  case rnfr =>
    rcases commandRnfr_did h with ⟨_, _, _, _, hdid⟩
    exact (untouched_iff hdid).mpr ⟨rfl, rfl, rfl⟩
  case rnto =>
    rcases commandRnto_did h with ⟨path, _, hpath, _, hdid⟩
    refine (untouched_iff hdid).mpr ⟨?_, rfl, rfl⟩
    rcases hinert path hpath with hexists | hstays
    · rw [if_pos hexists]
    · rw [(Posix.FileTree.rename_getD_eq_self_iff _ _ _).mpr hstays, ite_self]

/-! ## 4. A channel that nothing has been done to -/

/-- The data channel is as the constructor has made it: no TLS session, and an open socket of
    its own or none. -/
structure Pristine (th : Thread) : Prop where
  session : th.session.dataChannel.session = .null
  socket : th.session.dataChannel.socket = -1 ∨ 0 < th.session.dataChannel.socket ∧
    th.process.SocketOpen th.session.dataChannel.socket

theorem Pristine.construct {opens : Bool} {id : Nat} {connection : TcpTransport}
    {garbage : Uninitialised} {p : Process} (h : 0 ∈ p.descriptors.opened) :
    Pristine (construct opens id connection garbage p) := by
  refine ⟨rfl, ?_⟩
  cases opens with
  | false => exact Or.inl rfl
  | true =>
    have hne : p.descriptors.lowestFree ≠ 0 := by
      intro hzero
      exact p.descriptors.lowestFree_not_mem (hzero ▸ h)
    have hnonneg := p.descriptors.lowestFree_nonneg
    refine Or.inr ⟨by change 0 < p.descriptors.lowestFree; omega, ?_, ?_⟩
    · exact (p.descriptors.mem_allocate _).mpr (Or.inl rfl)
    · exact ⟨.socket (.data id) (some p.descriptors.lowestFree), by simp [FtpSession.construct,
        TcpTransport.new, TcpTransport.moveConstruct], rfl⟩

/-- It stays so until it is touched; LIST and STOR would touch it. -/
theorem Pristine.step (hth : Pristine th) (h : call th c = .ok th') (hsame : Untouched th th') :
    Pristine th' := by
  refine ⟨by rw [hsame.dataChannel]; exact hth.session, ?_⟩
  rw [hsame.dataChannel]
  rcases hth.socket with hnone | ⟨hpositive, hopen⟩
  · exact Or.inl hnone
  · refine Or.inr ⟨hpositive, ?_⟩
    have happart : Apart true th.session.dataChannel.socket th := ⟨hopen, nofun, nofun⟩
    have hclosed : th.session.dataChannel.closed ≠ th.session.dataChannel := by
      intro heq
      exact hpositive.ne' ((TcpTransport.closed_eq_self_iff _).mp heq).1
    refine (processCommand_apart happart hpositive (fun _ => ⟨?_, ?_⟩) th' h).isOpen
    · intro hlist
      rw [call_list hlist] at h
      rcases commandList_did h with ⟨_, _, _, _, hdid⟩
      exact hclosed ((untouched_iff hdid).mp hsame).2.2
    · intro hstor
      rw [call_stor hstor] at h
      rcases commandStor_did h with ⟨_, _, _, _, _, _, hdid⟩
      exact hclosed ((untouched_iff hdid).mp hsame).2.2

/-- A PASV that gets a connection, or makes a TLS session, exchanges such a channel: a
    connection has a descriptor that was free, and a TLS session has credentials. -/
theorem commandPasv_exchanges {env : Environment} {input : FtpCommand}
    (h : commandPasv env input th = .ok th') (hth : Pristine th) (hbinds : BindsWithin env 0 20)
    (hsome : env.accept = true ∨ th.session.protectsData = true) :
    th'.session.dataChannel ≠ th.session.dataChannel := by
  intro hsame
  obtain ⟨_, _, ⟨hnone, _⟩ | ⟨_, port, accepted, channel, haccepted, hchannel, hdid⟩⟩ :=
    commandPasv_did h
  · exact hnone hbinds
  · have hkept : channel = th.session.dataChannel := by rw [← hsame, hdid.session]
    cases hprotects : th.session.protectsData with
    | true =>
      rw [hprotects, if_pos rfl, hkept] at hchannel
      have hcredentials := hchannel.credentials
      rw [hth.session] at hcredentials
      cases hcredentials
    | false =>
      have haccept := hsome.resolve_right (by simp [hprotects])
      rcases hth.socket with hnone | ⟨hpositive, hopen⟩
      · rw [hprotects, if_neg (by decide)] at hchannel
        rw [Accepted, if_pos haccept, ← hchannel, hkept, hnone] at haccepted
        exact absurd haccepted.2.2 (by decide)
      · have happart : Apart true th.session.dataChannel.socket th := ⟨hopen, nofun, nofun⟩
        exact (commandPasv_apart happart hpositive th' h).2 hbinds haccept (by rw [hsame])

/-! ## 5. Calls without effect -/

theorem inert_of_untouched (h : call th c = .ok th')
    (hpasv : c.input.command = .pasv → Pristine th) (huntouched : Untouched th th') :
    Inert th c := by
  rcases c with ⟨env, input⟩
  unfold call processCommand at h
  unfold Inert
  dsimp only at h hpasv ⊢
  cases hcommand : input.command <;> rw [hcommand] at h hpasv <;> dsimp only at h ⊢
  case cwd =>
    intro argument folder hargument hfolder
    rcases commandCwd_did h with ⟨argument', folder', _, hargument', hfolder', _, hdid⟩
    rw [hargument] at hargument'
    cases hargument'
    rw [hfolder] at hfolder'
    cases hfolder'
    obtain ⟨-, hsame, -⟩ := (untouched_iff hdid).mp huntouched
    cases hexists : Directory.exists' th.process.fileTree
        (Path.canonical th.process.fileTree folder) with
    | false => exact Or.inl rfl
    | true => exact Or.inr (by simpa [hexists] using hsame)
  case port =>
    intro address text port haddress htext hport
    obtain ⟨address', text', port', _, _, haddress', htext', hport', _, rfl, hdid⟩ :=
      commandPort_did h
    rw [haddress] at haddress'
    cases haddress'
    rw [htext] at htext'
    cases htext'
    rw [hport] at hport'
    cases hport'
    exact ((untouched_iff hdid).mp huntouched).2.2.symm
  case list =>
    rcases commandList_did h with ⟨_, _, _, _, hdid⟩
    exact (TcpTransport.closed_eq_self_iff _).mp ((untouched_iff hdid).mp huntouched).2.2
  case stor =>
    rcases commandStor_did h with ⟨fileName, _, _, hname, _, _, hdid⟩
    obtain ⟨htree, -, hchannel⟩ := (untouched_iff hdid).mp huntouched
    refine ⟨(TcpTransport.closed_eq_self_iff _).mp hchannel, ?_⟩
    intro fileName' hname'
    rw [hname] at hname'
    cases hname'
    exact (stored_eq_self_iff _ _ _ _).mp htree
  case pasv =>
    by_contra hnot
    rw [not_or, not_not, not_and_or, Bool.not_eq_false, Bool.not_eq_false] at hnot
    exact commandPasv_exchanges h (hpasv rfl) hnot.1 hnot.2 huntouched.dataChannel
  case dele =>
    intro path hpath
    rcases commandDele_did h with ⟨path', _, _, hpath', _, _, hdid⟩
    rw [hpath] at hpath'
    cases hpath'
    obtain ⟨htree, -, -⟩ := (untouched_iff hdid).mp huntouched
    unfold File.erase at htree
    cases hremove : th.process.fileTree.remove (Path.canonical th.process.fileTree
        (th.session.delePath th.process.fileTree path)) with
    | none => rfl
    | some t' =>
      rw [hremove] at htree
      exact absurd htree (Posix.FileTree.remove_ne hremove)
  case rnto =>
    intro path hpath
    rcases commandRnto_did h with ⟨path', _, hpath', _, hdid⟩
    rw [hpath] at hpath'
    cases hpath'
    obtain ⟨htree, -, -⟩ := (untouched_iff hdid).mp huntouched
    cases hexists : Directory.exists' th.process.fileTree (th.session.renamePath path) with
    | true => exact Or.inl rfl
    | false =>
      rw [hexists, if_neg (by decide)] at htree
      exact Or.inr ((Posix.FileTree.rename_getD_eq_self_iff _ _ _).mp htree)

/-- The other commands touch nothing, but for the PASS that matches. -/
theorem untouched_of_not_gated (h : call th c = .ok th') (hgated : gated c.input.command = false) :
    Untouched th th' ∨ ∃ new, Replied th th' new ∧ ACCESS ∈ new := by
  have hframe := (processCommand_frame h).1
  by_cases hpass : c.input.command = .pass
  · rw [call_pass hpass] at h
    rcases commandPass_did h with ⟨_, via, _, _, ⟨_, _, hdid⟩ | ⟨_, hdid⟩⟩
    · exact Or.inr ⟨_, hdid.replied, by simp [ACCESS]⟩
    · exact Or.inl ((untouched_iff hdid).mpr ⟨rfl, rfl, rfl⟩)
  · refine Or.inl ⟨hframe.fileTree ?_, hframe.folder ?_, hframe.dataChannel ?_⟩ <;>
      cases hcommand : c.input.command <;> simp_all [gated]

/-! ## 6. Runs -/

/-- The gate holds: before a PASS has matched, the eight commands touch nothing. -/
def Gate (fresh : Thread) (mid : Thread) (c : Call) (next : Thread) : Prop :=
  ¬ Admitted fresh mid → gated c.input.command = true → Untouched mid next

def InertCalls (fresh : Thread) (mid : Thread) (c : Call) (_ : Thread) : Prop :=
  ¬ Admitted fresh mid → gated c.input.command = true → Inert mid c

theorem admitted_mono {fresh mid next : Thread} (hid : mid.session.id = fresh.session.id)
    (hcall : call mid c = .ok next) (h : Admitted fresh mid) : Admitted fresh next := by
  rcases h with ⟨new, hnew, hmem⟩
  rcases call_replied hcall with ⟨more, hmore⟩
  exact ⟨new ++ more, replied_trans hnew hid hmore, List.mem_append_left _ hmem⟩

/-- What holds of every state of a run in which the gate holds. -/
structure Waiting (fresh th : Thread) : Prop where
  id : th.session.id = fresh.session.id
  replied : ∃ new, Replied fresh th new
  untouched : ¬ Admitted fresh th → Untouched fresh th
  pristine : Pristine fresh → ¬ Admitted fresh th → Pristine th

theorem Waiting.refl (fresh : Thread) : Waiting fresh fresh :=
  ⟨rfl, ⟨[], by simp [Replied]⟩, fun _ => Untouched.refl _, fun hpristine _ => hpristine⟩

theorem waiting_step {fresh mid next : Thread} (hmid : Waiting fresh mid)
    (hcall : call mid c = .ok next) (hgate : Gate fresh mid c next) : Waiting fresh next := by
  rcases hmid.replied with ⟨new, hnew⟩
  rcases call_replied hcall with ⟨more, hmore⟩
  have hnext : ¬ Admitted fresh next → ¬ Admitted fresh mid ∧ Untouched mid next := by
    intro hnot
    have hbefore : ¬ Admitted fresh mid := by
      intro h
      exact hnot (admitted_mono hmid.id hcall h)
    refine ⟨hbefore, ?_⟩
    cases hgated : gated c.input.command with
    | true => exact hgate hbefore hgated
    | false =>
      rcases untouched_of_not_gated hcall hgated with hsame | ⟨more', hmore', haccess⟩
      · exact hsame
      · exact absurd ⟨new ++ more', replied_trans hnew hmid.id hmore',
          List.mem_append_right _ haccess⟩ hnot
  refine ⟨(call_id hcall).trans hmid.id, ⟨new ++ more, replied_trans hnew hmid.id hmore⟩, ?_, ?_⟩
  · intro hnot
    exact (hmid.untouched (hnext hnot).1).trans (hnext hnot).2
  · intro hpristine hnot
    exact (hmid.pristine hpristine (hnext hnot).1).step hcall (hnext hnot).2

theorem gate_of_inertCalls {fresh mid next : Thread} (hcall : call mid c = .ok next)
    (hinert : InertCalls fresh mid c next) : Gate fresh mid c next :=
  fun hnot hgated => untouched_of_inert hcall hgated (hinert hnot hgated)

/-- **The gate.**  In a run from a constructed session whose gated calls are inert until
    a PASS matches, each of them touches nothing, and until then the tree, the folder
    and the data channel are those of the new session.  In a process that has its descriptor
    0 open, and in every run without PASV, the gate holds in no other case. -/
theorem gate_iff_inert (opens : Bool) (id : Nat) (connection : TcpTransport)
    (garbage : Uninitialised) (p : Process) (calls : List Call) :
    let fresh := construct opens id connection garbage p
    (EveryStep call (InertCalls fresh) fresh calls →
      EveryStep call (Gate fresh) fresh calls ∧
        ∀ th', run call fresh calls = .ok th' → ¬ Admitted fresh th' → Untouched fresh th') ∧
    (0 ∈ p.descriptors.opened ∨ (∀ c ∈ calls, c.input.command ≠ .pasv) →
      EveryStep call (Gate fresh) fresh calls → EveryStep call (InertCalls fresh) fresh calls) := by
  intro fresh
  have hstep : ∀ mid c next, Waiting fresh mid → call mid c = .ok next →
      Gate fresh mid c next → Waiting fresh next := fun _ _ _ => waiting_step
  refine ⟨fun hinert => ?_, ?_⟩
  · have hgate : EveryStep call (Gate fresh) fresh calls := by
      intro before c after mid next heq hrun hcall
      exact gate_of_inertCalls hcall (hinert before c after mid next heq hrun hcall)
    refine ⟨hgate, ?_⟩
    intro th' hrun hnot
    exact (run_invariant_of_everyStep hstep (Waiting.refl fresh) hgate hrun).untouched hnot
  · intro hcase hgate before c after mid next heq hrun hcall hnot hgated
    have hfront : EveryStep call (Gate fresh) fresh before := EveryStep.front (heq ▸ hgate)
    have hmid : Waiting fresh mid :=
      run_invariant_of_everyStep hstep (Waiting.refl fresh) hfront hrun
    refine inert_of_untouched hcall ?_ (hgate before c after mid next heq hrun hcall hnot hgated)
    intro hpasv
    rcases hcase with hzero | hnone
    · exact hmid.pristine (Pristine.construct hzero) hnot
    · exact absurd hpasv (hnone c (by rw [heq]; simp))

/-- Behind a PASS that matched, every call meets the condition. -/
theorem inertCalls_of_admitted {fresh : Thread} (hid : th.session.id = fresh.session.id)
    (h : Admitted fresh th) (calls : List Call) : EveryStep call (InertCalls fresh) th calls := by
  intro before c after mid next _ hrun _ hnot
  have hkeep : ∀ mid c next, mid.session.id = fresh.session.id ∧ Admitted fresh mid →
      call mid c = .ok next → next.session.id = fresh.session.id ∧ Admitted fresh next := by
    rintro mid c next ⟨hid, hmid⟩ hcall
    exact ⟨(call_id hcall).trans hid, admitted_mono hid hcall hmid⟩
  exact absurd (run_invariant hkeep ⟨hid, h⟩ hrun).2 hnot

/-- A DELE of nothing, and a login. -/
def login : List Call :=
  [⟨.plain, ⟨.dele, [ascii "/x"]⟩⟩, ⟨.plain, ⟨.user, [ascii "admin"]⟩⟩,
    ⟨.plain, ⟨.pass, [ascii "admin"]⟩⟩]

/-- What needs a login. -/
def upload : List Call :=
  [⟨.plain, ⟨.port, [ascii "127.0.0.1", ascii "5001"]⟩⟩, ⟨.plain, ⟨.stor, [ascii "x"]⟩⟩]

theorem gate_iff_inert_login :
    EveryStep call (Gate (first .bare ⟨0, 0, .clear⟩)) (first .bare ⟨0, 0, .clear⟩)
      (login ++ upload) := by
  refine ((gate_iff_inert _ _ _ _ _ _).1 ?_).1
  change EveryStep call (InertCalls (first .bare ⟨0, 0, .clear⟩)) (first .bare ⟨0, 0, .clear⟩) _
  obtain ⟨mid, hrun, hmid⟩ := exists_of_reaches (first .bare ⟨0, 0, .clear⟩) login
    (fun th => th.session.id = 0 ∧ replies 0 th.process.trace =
      [ascii "250 DELE command is failure\r\n", ascii "331 password is needed\r\n", ACCESS])
    (show reaches call _ _ _ = true by decide +kernel)
  obtain ⟨hid, hreplies⟩ := of_decide_eq_true hmid
  have hadmitted : Admitted (first .bare ⟨0, 0, .clear⟩) mid := ⟨_, hreplies, by simp⟩
  refine (everyStep_append hrun upload).mpr ⟨?_, inertCalls_of_admitted hid hadmitted upload⟩
  obtain ⟨deleted, hdele, hrun⟩ := run_cons_ok.mp hrun
  obtain ⟨named, huser, hrun⟩ := run_cons_ok.mp hrun
  obtain ⟨admitted, hpass, -⟩ := run_cons_ok.mp hrun
  refine (everyStep_cons hdele).mpr ⟨?_, (everyStep_cons huser).mpr ⟨nofun,
    (everyStep_cons hpass).mpr ⟨nofun, everyStep_nil⟩⟩⟩
  intro _ _ path hpath
  cases hpath
  decide +kernel

/-- Without a login STOR creates a file in the directory of the process. -/
theorem stor_passes_gate :
    ¬ EveryStep call (Gate (first .bare ⟨0, 0, .clear⟩)) (first .bare ⟨0, 0, .clear⟩)
      [⟨.plain, ⟨.stor, [ascii "x"]⟩⟩] := by
  intro h
  obtain ⟨hgate, -⟩ := (everyStep_cons rfl).mp h
  have hnot : ¬ Admitted (first .bare ⟨0, 0, .clear⟩) (first .bare ⟨0, 0, .clear⟩) := by
    rintro ⟨new, hnew, hmem⟩
    rw [List.append_right_eq_self.mp hnew.symm] at hmem
    cases hmem
  have hnode := congrArg (fun t => (t.node [ascii "x"]).isSome) (hgate hnot rfl).fileTree
  revert hnode
  decide

end FtpSession

end FtpsServer
