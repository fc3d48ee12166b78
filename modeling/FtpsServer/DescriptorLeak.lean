import FtpsServer.FtpServer

/-!
# Descriptors that nobody holds

The assignment of a transport overwrites the descriptor it had, and no destructor
closes one.  A descriptor that no transport holds any more is never closed: `close`
is called on what a transport holds, or on 0.  The server starts with such a
descriptor, the socket that the constructor of `m_control_channel` opened.
-/

namespace FtpsServer

open ByteString Cxx Machine

/-! ## 1. Open sockets -/

/-- The descriptor that an event creates. -/
def Event.created : Event → Option Int
  | .socket _ result => result
  | .accept _ _ result => result
  | _ => none

/-- `d` is open, and the constructor of a transport or `accept` created it. -/
structure Process.SocketOpen (p : Process) (d : Int) : Prop where
  isOpen : d ∈ p.descriptors.opened
  created : ∃ e ∈ p.trace, e.created = some d

namespace Process.SocketOpen

variable {p q : Process} {d : Int}

/-- More was logged, and no descriptor was closed. -/
theorem grown (h : p.SocketOpen d) (hopen : d ∈ q.descriptors.opened) {more : List Event}
    (htrace : q.trace = p.trace ++ more) : q.SocketOpen d := by
  rcases h.created with ⟨e, he, hcreated⟩
  exact ⟨hopen, e, by rw [htrace]; exact List.mem_append_left _ he, hcreated⟩

theorem emit (h : p.SocketOpen d) (e : Event) : (p.emit e).SocketOpen d := h.grown h.isOpen rfl

theorem open' (h : p.SocketOpen d) : p.open'.SocketOpen d :=
  ⟨(p.descriptors.mem_allocate d).mpr (Or.inr h.isOpen), h.created⟩

theorem close (h : p.SocketOpen d) {n : Int} (hne : n ≠ d) : (p.close n).SocketOpen d :=
  ⟨(p.descriptors.mem_release d n).mpr ⟨h.isOpen, hne.symm⟩, h.created⟩

theorem offstage (h : p.SocketOpen d) (hoffstage : Offstage p q) : q.SocketOpen d := by
  rcases hoffstage with ⟨n, calls, rfl⟩
  exact h.grown h.isOpen rfl

theorem lowestFree_ne (h : p.SocketOpen d) : p.descriptors.lowestFree ≠ d := by
  intro heq
  exact p.descriptors.lowestFree_not_mem (heq ▸ h.isOpen)

end Process.SocketOpen

/-! ## 2. Transports -/

namespace TcpTransport

variable {p : Process} {d : Int} {t : TcpTransport}

theorem new_apart (h : p.SocketOpen d) (hd : 0 < d) (opens : Bool) (object : Object) :
    (new opens object p).2.SocketOpen d ∧ (new opens object p).1.socket ≠ d := by
  cases opens with
  | false => exact ⟨h.emit _, by change -1 ≠ d; omega⟩
  | true => exact ⟨h.open'.emit _, h.lowestFree_ne⟩

theorem close_apart (h : p.SocketOpen d) (ht : t.socket ≠ d) (hd : 0 < d) (object : Object) :
    (t.close object p).2.SocketOpen d ∧ (t.close object p).1.socket ≠ d := by
  unfold close
  cases t.secure with
  | false => exact ⟨(h.close ht).emit _, hd.ne⟩
  | true => exact ⟨((h.offstage (t.session.close_offstage p)).close ht).emit _, hd.ne⟩

theorem connect_apart (h : p.SocketOpen d) (ht : t.socket ≠ d) (env : Environment) (object : Object)
    (address : Bytes) (port : Int) :
    (t.connect env object address port p).2.2.SocketOpen d ∧
      (t.connect env object address port p).2.1.socket ≠ d := by
  unfold connect
  dsimp only
  split
  · exact ⟨h.emit _, ht⟩
  · exact ⟨h.emit _, ht⟩

theorem setTls_apart (h : p.SocketOpen d) (env : Environment) (object : Object) :
    Ensures (t.setTls env object p) fun result =>
      result.2.2.SocketOpen d ∧ result.2.1.socket = t.socket := by
  rcases t.setTls_ok env object p with ⟨result, t', p', heq, ⟨mid, hmid, hlast⟩, hbound⟩
  rw [heq]
  refine ensures_ok ⟨?_, hbound.socket⟩
  have hcreated := h.offstage hmid
  split at hlast
  · rcases hlast with ⟨handle, hlast⟩
    exact (hcreated.emit _).offstage hlast
  · exact hlast ▸ hcreated

end TcpTransport

namespace TcpListener

variable {p : Process} {d : Int} (listener : TcpListener)

/-- The listener replaced by another one, and a bind of it. -/
theorem renew_apart (h : p.SocketOpen d) (hd : 0 < d) (opens : Bool) (env : Environment)
    (object : Object) (hobject : object ≠ .temporary) (attempt : Nat) (address : Bytes)
    (port queueSize : Int) :
    let other := ofAddress opens .temporary address port queueSize p
    let moved := moveAssign object .temporary listener other.1 other.2
    (moved.1.bind env object attempt moved.2).2.SocketOpen d ∧ moved.1.transport.socket ≠ d := by
  dsimp only
  unfold ofAddress moveAssign
  simp only [TcpTransport.moveAssign_of_ne hobject]
  rcases TcpTransport.new_apart h hd opens .temporary with ⟨hopened, hne⟩
  refine ⟨?_, hne⟩
  unfold bind
  dsimp only
  split
  · exact (hopened.emit _).emit _
  · exact (hopened.emit _).emit _

theorem accept_apart (h : p.SocketOpen d) (env : Environment) (object target : Object)
    (htarget : target ≠ .temporary) (transport : TcpTransport) :
    (listener.accept env object target transport p).2.2.SocketOpen d ∧
      (env.accept = true ∨ transport.socket ≠ d →
        (listener.accept env object target transport p).2.1.socket ≠ d) := by
  constructor
  · unfold accept
    cases env.accept with
    | false => exact h.emit _
    | true =>
      simp only [TcpTransport.moveAssign_of_ne htarget, TcpTransport.ofSocket]
      cases env.getsockname <;> exact ((h.open'.emit _).emit _).emit _
  · intro ht
    rw [accept_transport env object target htarget]
    split
    · exact h.lowestFree_ne
    · next hrefused => exact ht.resolve_left hrefused

end TcpListener

/-! ## 3. Handlers -/

/-- `d` is an open socket, and unless it is the session's own neither channel holds it. -/
structure Apart (own : Bool) (d : Int) (th : Thread) : Prop where
  isOpen : th.process.SocketOpen d
  control : own = false → th.session.controlChannel.socket ≠ d
  data : own = false → th.session.dataChannel.socket ≠ d

namespace Apart

variable {own : Bool} {d : Int} {th : Thread} {env : Environment} {message : Bytes}

theorem reply (h : Apart own d th) : Ensures (th.reply env message) (Apart own d) := by
  intro th' hreply
  rcases reply_ok.mp hreply with ⟨via, -, rfl⟩
  exact ⟨h.isOpen.emit _, h.control, h.data⟩

theorem replyWhen (h : Apart own d th) (condition : Bool) :
    Ensures (th.replyWhen env condition message) (Apart own d) := ensures_ite h.reply (ensures_ok h)

theorem dataPush (h : Apart own d th) : Ensures (th.dataPush env message) (Apart own d) := by
  intro th' hpush
  rcases dataPush_ok.mp hpush with ⟨via, -, rfl⟩
  exact ⟨h.isOpen.emit _, h.control, h.data⟩

theorem controlPull (h : Apart own d th) (result : Received) :
    Ensures (th.controlPull result) (Apart own d) := by
  intro th' hpull
  rcases controlPull_ok.mp hpull with ⟨via, -, rfl⟩
  exact ⟨h.isOpen.emit _, h.control, h.data⟩

theorem dataClose (h : Apart false d th) (hd : 0 < d) : Apart false d th.dataClose := by
  rcases TcpTransport.close_apart h.isOpen (h.data rfl) hd (.data th.session.id) with ⟨hopen, hdata⟩
  exact ⟨hopen, h.control, fun _ => hdata⟩

theorem notify (h : Apart own d th) (event : FtpObserveEventT) (info : Bytes) :
    Apart own d (th.notify event info) := ⟨h.isOpen.grown h.isOpen.isOpen rfl, h.control, h.data⟩

theorem setFileTree (h : Apart own d th) (t : Posix.FileTree) : Apart own d (th.setFileTree t) :=
  ⟨⟨h.isOpen.isOpen, h.isOpen.created⟩, h.control, h.data⟩

end Apart

theorem ensures_raising {α β : Type} {x : Except StdException α} {f : α → Except Abort β}
    {P : β → Prop} (hf : ∀ a, Ensures (f a) P) : Ensures (raising x >>= f) P := by
  cases x with
  | ok a => exact hf a
  | error e => exact ensures_error _

namespace FtpSession

variable {own : Bool} {d : Int} {th : Thread} {env : Environment} {input : FtpCommand}

theorem commandPort_apart (h : Apart own d th) (hd : 0 < d) :
    Ensures (commandPort env input th) (Apart own d) := by
  refine ensures_raising fun address => ensures_raising fun port => ?_
  dsimp only
  rw [TcpTransport.moveAssign_of_ne (by simp)]
  rcases TcpTransport.new_apart h.isOpen hd (env.socket 0) .temporary with ⟨hopened, hne⟩
  have hmoved := hopened.emit (.move .temporary (.data th.session.id)
    (TcpTransport.new (env.socket 0) .temporary th.process).1.socket)
  rcases TcpTransport.connect_apart hmoved hne env (.data th.session.id) address port with
    ⟨hprocess, hsocket⟩
  refine ensures_ite (Apart.reply ⟨hprocess, h.control, fun _ => hsocket⟩) ?_
  exact ensures_bind (Apart.reply ⟨hprocess, h.control, fun _ => hsocket⟩) fun _ h' => h'.reply

theorem commandList_apart (h : Apart false d th) (hd : 0 < d) :
    Ensures (commandList env input th) (Apart false d) :=
  ensures_bind h.reply fun _ h => ensures_bind h.dataPush fun _ h => ensures_bind h.reply fun _ h =>
    ensures_ok (h.dataClose hd)

theorem receiveFile_apart (h : Apart own d th) (file : Option Posix.Location) :
    Ensures (receiveFile env file th) (Apart own d) := by
  cases hvia : th.session.dataChannel.via with
  | error e =>
    rw [receiveFile_error hvia]
    exact ensures_error e
  | ok via =>
    rw [receiveFile_eq hvia]
    exact ensures_ok ⟨h.isOpen.grown h.isOpen.isOpen rfl, h.control, h.data⟩

theorem commandStor_apart (h : Apart false d th) (hd : 0 < d) :
    Ensures (commandStor env input th) (Apart false d) := by
  refine ensures_raising fun fileName => ?_
  have hopened : Apart false d (openTransfer (th.session.folder ++ fileName) th).2 := by
    unfold openTransfer
    split
    · exact h.setFileTree _
    · exact h
  dsimp only
  refine ensures_bind hopened.reply fun _ h => ensures_bind (receiveFile_apart h _) fun _ h => ?_
  exact ensures_bind (h.dataClose hd).reply fun _ h => ensures_ok (h.notify _ _)

theorem commandAuth_apart (h : Apart own d th) : Ensures (commandAuth env input th) (Apart own d) := by
  refine ensures_raising fun service => ensures_ite h.reply (ensures_bind h.reply fun th₁ h₁ => ?_)
  refine ensures_bind (TcpTransport.setTls_apart h₁.isOpen env _) ?_
  rintro ⟨result, channel, p⟩ ⟨hopen, hsocket⟩
  exact ensures_ok ⟨hopen, fun hown => hsocket ▸ h₁.control hown, h₁.data⟩

theorem secureData_apart (h : Apart own d th) :
    Ensures (secureData env th) fun th' => Apart own d th' ∧
      th'.session.dataChannel.socket = th.session.dataChannel.socket := by
  refine ensures_ite (ensures_bind (TcpTransport.setTls_apart h.isOpen env _) ?_) (ensures_ok ⟨h, rfl⟩)
  rintro ⟨result, channel, p⟩ ⟨hopen, hsocket⟩
  exact ensures_ok ⟨⟨hopen, h.control, fun hown => hsocket ▸ h.data hown⟩, hsocket⟩

/-- Every attempt opens a socket of its own. -/
theorem allocateListener_apart (env : Environment) (id : Nat) (address : Bytes) (attempts attempt : Nat)
    {listener : TcpListener} (port : Int) {p : Process} (h : p.SocketOpen d)
    (hd : 0 < d) (hlistener : listener.transport.socket ≠ d) :
    (allocateListener env id address attempts attempt listener port p).2.2.2.SocketOpen d ∧
      (allocateListener env id address attempts attempt listener port p).2.1.transport.socket ≠ d := by
  induction attempts generalizing attempt listener port p with
  | zero => exact ⟨h, hlistener⟩
  | succ attempts ih =>
    have hrenewed := TcpListener.renew_apart listener h hd (env.socket (attempt + 1)) env
      (.passive id) (by simp) attempt address port 1
    unfold allocateListener
    dsimp only at hrenewed ⊢
    split
    · exact ih (attempt + 1) _ ⟨hrenewed.1.isOpen, hrenewed.1.created⟩ hrenewed.2
    · exact hrenewed

/-- A connection that is accepted has a descriptor that was free. -/
theorem acceptData_apart (h : Apart own d th) (hd : 0 < d) {listener : TcpListener}
    (hlistener : listener.transport.socket ≠ d) :
    Ensures (acceptData env listener th) fun th' => Apart own d th' ∧
      (env.accept = true → th'.session.dataChannel.socket ≠ d) := by
  rcases TcpListener.accept_apart listener h.isOpen env (.passive th.session.id)
    (.data th.session.id) (by simp) th.session.dataChannel with ⟨haccepted, hdata⟩
  unfold acceptData
  dsimp only
  generalize listener.accept env (.passive th.session.id) (.data th.session.id)
    th.session.dataChannel th.process = accepted at haccepted hdata ⊢
  have happart : Apart own d ⟨{ th.session with dataChannel := accepted.2.1 }, accepted.2.2⟩ :=
    ⟨haccepted, h.control, fun hown => hdata (Or.inr (h.data hown))⟩
  refine ensures_bind (secureData_apart happart) ?_
  rintro th₁ ⟨h₁, hsocket⟩
  rcases TcpTransport.close_apart h₁.isOpen hlistener hd (.passive th₁.session.id) with ⟨hclosed, -⟩
  refine ensures_ok ⟨⟨hclosed.offstage (TlsSession.freeTlsSession_offstage _ _), h₁.control,
    h₁.data⟩, ?_⟩
  intro haccept
  exact hsocket ▸ hdata (Or.inl haccept)

theorem commandPasv_apart (h : Apart own d th) (hd : 0 < d) :
    Ensures (commandPasv env input th) fun th' => Apart own d th' ∧
      (BindsWithin env 0 20 → env.accept = true → th'.session.dataChannel.socket ≠ d) := by
  have hnext : (nextPort th.process).2.SocketOpen d := ⟨h.isOpen.isOpen, h.isOpen.created⟩
  let opened := TcpListener.new (env.socket 0) (.passive th.session.id) (nextPort th.process).2
  have hopened : opened.2.SocketOpen d ∧ opened.1.transport.socket ≠ d :=
    TcpTransport.new_apart hnext hd (env.socket 0) (.passive th.session.id)
  have hallocated : (listening env th).2.2.2.SocketOpen d ∧
      (listening env th).2.1.transport.socket ≠ d :=
    allocateListener_apart env th.session.id _ 20 0 _ hopened.1 hd hopened.2
  have hflag := (listening_spec env th).1
  rw [commandPasv_eq]
  generalize listening env th = allocated at hallocated hflag ⊢
  rcases allocated with ⟨allocationFlag, listener, port, p⟩
  have happart : Apart own d ⟨th.session, p⟩ := ⟨hallocated.1, h.control, h.data⟩
  cases allocationFlag with
  | false =>
    refine ensures_bind happart.reply fun _ h => ensures_ok ⟨?_, ?_⟩
    · exact ⟨h.isOpen.offstage (listener.transport.session.freeTlsSession_offstage _), h.control,
        h.data⟩
    · intro hbinds
      cases hflag.mpr hbinds
  | true =>
    refine ensures_bind happart.reply fun _ h => ?_
    exact (acceptData_apart h hd hallocated.2).mono fun _ hdone => ⟨hdone.1, fun _ => hdone.2⟩

/-- **A handler leaves the descriptors of others alone**, apart from 0; and only LIST and STOR
    close one of the session. -/
theorem processCommand_apart (h : Apart own d th) (hd : 0 < d)
    (hown : own = true → input.command ≠ .list ∧ input.command ≠ .stor) :
    Ensures (processCommand env input th) (Apart own d) := by
  -- a handler that changes members other than the channels, and replies
  have hreply : ∀ {session : FtpSession} {message : Bytes},
      session.controlChannel = th.session.controlChannel →
        session.dataChannel = th.session.dataChannel →
          Ensures (Thread.reply env message ⟨session, th.process⟩) (Apart own d) := by
    intro session message hcontrol hdata
    exact Apart.reply ⟨h.isOpen, by rw [hcontrol]; exact h.control, by rw [hdata]; exact h.data⟩
  unfold processCommand
  cases hcommand : input.command <;> dsimp only
  case user =>
    refine ensures_raising fun login => ensures_bind (h.replyWhen _) fun th₁ h₁ => ?_
    exact Apart.reply ⟨h₁.isOpen, h₁.control, h₁.data⟩
  case pass =>
    refine ensures_raising fun password => ensures_bind (h.replyWhen _) fun th₁ h₁ => ?_
    refine ensures_ite ?_ (Apart.reply ⟨h₁.isOpen, h₁.control, h₁.data⟩)
    refine ensures_bind (Apart.reply ⟨h₁.isOpen, h₁.control, h₁.data⟩) fun th₂ h₂ => ?_
    exact ensures_ok ⟨h₂.isOpen, h₂.control, h₂.data⟩
  case port => exact commandPort_apart h hd
  case list =>
    cases own with
    | false => exact commandList_apart h hd
    | true => exact absurd hcommand (hown rfl).1
  case cwd =>
    refine ensures_raising fun folder => ensures_raising fun path => ?_
    exact ensures_ite h.reply (hreply rfl rfl)
  case stor =>
    cases own with
    | false => exact commandStor_apart h hd
    | true => exact absurd hcommand (hown rfl).2
  case type =>
    refine ensures_raising fun type => ?_
    exact ensures_ite (hreply rfl rfl) (ensures_ite (hreply rfl rfl) h.reply)
  case auth => exact commandAuth_apart h
  case pbsz => exact ensures_raising fun size => (hreply rfl rfl)
  case prot => exact ensures_raising fun level => (hreply rfl rfl)
  case pasv => exact (commandPasv_apart h hd).mono fun _ hdone => hdone.1
  case allo => exact ensures_raising fun size => (hreply rfl rfl)
  case dele =>
    exact ensures_raising fun path => ensures_ite (h.setFileTree _).reply (h.setFileTree _).reply
  case rnfr =>
    refine ensures_raising fun path => ensures_bind h.reply fun _ h => ?_
    exact ensures_ok ⟨h.isOpen, h.control, h.data⟩
  case rnto =>
    refine ensures_raising fun path => ensures_ite h.reply ?_
    exact ensures_ite (h.setFileTree _).reply (h.setFileTree _).reply
  case quit => exact ensures_ok ⟨h.isOpen, h.control, h.data⟩
  all_goals exact h.reply

end FtpSession

/-! ## 4. Session threads -/

namespace SessionThread

variable {s : SessionThread} {d : Int}

theorem step_apart (h : Apart false d s.thread) (hd : 0 < d) (turn : Turn) :
    Ensures (s.step turn) fun s' => Apart false d s'.thread := by
  refine ensures_ite (ensures_ok h) (ensures_bind (h.controlPull _) fun th hth => ?_)
  refine ensures_raising fun command => ?_
  exact ensures_bind (FtpSession.processCommand_apart hth hd nofun) fun _ hdone => ensures_ok hdone

theorem finish_apart (h : Apart false d s.thread) (hd : 0 < d) (ending : Received) :
    Ensures (s.finish ending) fun s' => Apart false d s'.thread := by
  refine ensures_bind (ensures_ite (ensures_ok h) (h.controlPull _)) fun th hth => ensures_ok ?_
  rcases TcpTransport.close_apart hth.isOpen (hth.control rfl) hd (.control th.session.id) with
    ⟨hopen, hcontrol⟩
  exact ⟨hopen, fun _ => hcontrol, hth.data⟩

end SessionThread

/-! ## 5. The server -/

namespace FtpServer

variable {s s' : FtpServer} {d : Int}

/-- The transports that are alive between two steps.  `client_sessions` keeps a session when
    its thread has ended. -/
def transports (s : FtpServer) : List TcpTransport :=
  s.controlChannel.transport ::
    s.clientSessions.flatMap fun client => [client.session.controlChannel, client.session.dataChannel]

/-- **Every open socket is held by a transport that is alive.** -/
def AllHeld (s : FtpServer) : Prop :=
  ∀ d, s.process.SocketOpen d → ∃ t ∈ s.transports, t.socket = d

/-- `d` is an open socket that no transport holds. -/
structure Leaked (s : FtpServer) (d : Int) : Prop where
  isOpen : s.process.SocketOpen d
  listener : s.controlChannel.transport.socket ≠ d
  sessions : ∀ client ∈ s.clientSessions, client.session.controlChannel.socket ≠ d ∧
    client.session.dataChannel.socket ≠ d

theorem Leaked.not_allHeld (h : Leaked s d) : ¬ AllHeld s := by
  intro hall
  rcases hall d h.isOpen with ⟨t, ht, hsocket⟩
  unfold transports at ht
  rcases List.mem_cons.mp ht with rfl | ht
  · exact h.listener hsocket
  · rcases List.mem_flatMap.mp ht with ⟨client, hclient, ht⟩
    rcases h.sessions client hclient with ⟨hcontrol, hdata⟩
    simp only [List.mem_cons, List.not_mem_nil, or_false] at ht
    rcases ht with rfl | rfl
    · exact hcontrol hsocket
    · exact hdata hsocket

/-- A session that is apart from `d` stays so. -/
theorem Leaked.sessionStep (h : Leaked s d) {i : Nat}
    {f : ClientSession → Process → Except Abort (ClientSession × Process)}
    (hf : ∀ client, Apart false d ⟨client.session, s.process⟩ →
      Ensures (f client s.process) fun result => Apart false d ⟨result.1.session, result.2⟩) :
    Ensures (s.sessionStep i f) fun s' => Leaked s' d := by
  unfold FtpServer.sessionStep
  cases hclient : s.clientSessions[i]? with
  | none => exact ensures_ok h
  | some client =>
    rcases h.sessions client (List.mem_of_getElem? hclient) with ⟨hcontrol, hdata⟩
    have happart : Apart false d ⟨client.session, s.process⟩ :=
      ⟨h.isOpen, fun _ => hcontrol, fun _ => hdata⟩
    refine ensures_bind (hf client happart) fun result hresult => ensures_ok ?_
    refine ⟨hresult.isOpen, h.listener, ?_⟩
    intro other hother
    rcases List.mem_or_eq_of_mem_set hother with hold | rfl
    · exact h.sessions other hold
    · exact ⟨hresult.control rfl, hresult.data rfl⟩

theorem acceptRound_leaked (h : Leaked s d) (hd : 0 < d) (env : Environment) (garbage : Uninitialised)
    (buffer : MessageBuffer) : Leaked (s.acceptRound env garbage buffer) d := by
  rcases TcpTransport.new_apart h.isOpen hd (env.socket 0) .connection with ⟨hnew, hconnection⟩
  rcases TcpListener.accept_apart s.controlChannel hnew env .listener .connection
    (by simp) _ with ⟨haccepted, hclient⟩
  rcases TcpTransport.new_apart (haccepted.emit (.move .connection (.control s.clientSessions.length)
    _)) hd (env.socket 1) (.data s.clientSessions.length) with ⟨hdata, hsocket⟩
  refine ⟨hdata, h.listener, ?_⟩
  intro client hmem
  rcases List.mem_append.mp hmem with hold | hnew
  · exact h.sessions client hold
  · rw [List.mem_singleton.mp hnew]
    exact ⟨hclient (Or.inr hconnection), hsocket⟩

/-- **Once leaked, always leaked**: no step closes a descriptor that nobody holds. -/
theorem step_leaked (hd : 0 < d) (h : Leaked s d) {i : ServerStep} (hstep : s.step i = .ok s') :
    Leaked s' d := by
  cases i with
  | accept env garbage buffer =>
    cases hstep
    exact acceptRound_leaked h hd env garbage buffer
  | greet session env =>
    refine h.sessionStep (fun client happart => ?_) s' hstep
    unfold greet
    cases client.phase with
    | created => exact ensures_bind happart.reply fun _ hth => ensures_ok hth
    | _ => exact ensures_ok happart
  | turn session t =>
    refine h.sessionStep (fun client happart => ?_) s' hstep
    unfold turn
    cases client.phase with
    | looping =>
      exact ensures_bind (SessionThread.step_apart (by exact happart) hd t) fun _ hth => ensures_ok hth
    | _ => exact ensures_ok happart
  | finish session ending =>
    refine h.sessionStep (fun client happart => ?_) s' hstep
    unfold finish
    cases client.phase with
    | looping =>
      exact ensures_bind (SessionThread.finish_apart (by exact happart) hd ending) fun _ hth =>
        ensures_ok hth
    | _ => exact ensures_ok happart

/-- The listener that is assigned to `m_control_channel` takes the place of the socket that
    its constructor opened. -/
theorem start_leaked {env : Environment} {address : Bytes} {port : Int} {t : Posix.FileTree}
    (hstart : start env address port (Process.initial t) = some s) : Leaked s 3 := by
  have hopened : (TcpListener.new true .listener (Process.initial t)).2.SocketOpen 3 :=
    ⟨show 3 ∈ (Ownership.Table.mk [0, 1, 2]).allocate.opened by decide, .socket .listener (some 3),
      List.mem_singleton.mpr rfl, rfl⟩
  have hrenewed := TcpListener.renew_apart
    (TcpListener.new true .listener (Process.initial t)).1 hopened (by decide) true env .listener
    (by simp) 0 address port 10
  unfold start at hstart
  dsimp only at hstart hrenewed
  split at hstart
  · cases hstart
  · cases hstart
    exact ⟨hrenewed.1, hrenewed.2, by simp⟩

/-- **A server leaks a descriptor in every state of every run.** -/
theorem never_all_held {env : Environment} {address : Bytes} {port : Int} {t : Posix.FileTree}
    {steps : List ServerStep} {s s' : FtpServer}
    (hstart : start env address port (Process.initial t) = some s) (hrun : run step s steps = .ok s') :
    ¬ AllHeld s' :=
  (run_invariant (fun _ _ _ hleaked => step_leaked (by decide) hleaked) (start_leaked hstart)
    hrun).not_allHeld

theorem start_plain : start .plain (ascii "127.0.0.1") 21 (Process.initial .bare) =
    some ((start .plain (ascii "127.0.0.1") 21 (Process.initial .bare)).get rfl) :=
  (Option.some_get _).symm

theorem never_all_held_accept :
    ∃ s s', start .plain (ascii "127.0.0.1") 21 (Process.initial .bare) = some s ∧
      run step s [.accept .plain ⟨0, 0, .clear⟩ .zero] = .ok s' ∧ ¬ AllHeld s' := by
  have hrun : run step ((start .plain (ascii "127.0.0.1") 21 (Process.initial .bare)).get rfl)
      [.accept .plain ⟨0, 0, .clear⟩ .zero] = .ok (acceptRound .plain ⟨0, 0, .clear⟩ .zero _) := rfl
  exact ⟨_, _, start_plain, hrun, never_all_held start_plain hrun⟩

/-- A server that has just been started has two sockets open and one transport alive. -/
theorem two_sockets_one_transport :
    ∃ s, start .plain (ascii "127.0.0.1") 21 (Process.initial .bare) = some s ∧
      s.process.SocketOpen 3 ∧ s.process.SocketOpen 4 ∧ s.transports.length = 1 ∧ ¬ AllHeld s := by
  refine ⟨_, start_plain, (start_leaked start_plain).isOpen, ?_, rfl,
    (start_leaked start_plain).not_allHeld⟩
  exact ⟨by decide +kernel, .socket .temporary (some 4), by decide +kernel, rfl⟩

end FtpServer

end FtpsServer
