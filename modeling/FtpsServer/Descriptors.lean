import FtpsServer.DescriptorLog

/-!
# Ownership of descriptors

Each session acts on the descriptors of its own channels.  A closed or moved-from
transport keeps the number 0, which is a descriptor like any other: the operations
that follow a close are the ones to watch.  Where a SIGPIPE would end the process, in
a send on a socket that nobody has connected, the runs here go on.
-/

namespace FtpsServer

open ByteString Cxx Machine Ownership

/-! ## 1. Sessions -/

/-- The objects that a session acts for. -/
def BelongsTo (id : Nat) : Object → Prop
  | .control session => session = id
  | .data session => session = id
  | .passive session => session = id
  | .temporary => True
  | .listener => False
  | .connection => False

/-- The control channel of a session holds a descriptor of its own, and so does the data
    channel, if it has one. -/
structure Channels (p : Process) (session : FtpSession) : Prop where
  control : Held p (.control session.id) session.controlChannel
  data : NoDescriptor session.dataChannel ∨ Held p (.data session.id) session.dataChannel

theorem Channels.kept {p p' : Process} {session : FtpSession} {mine : Object → Prop}
    (h : Channels p session) (hkept : Kept mine p p') (hcontrol : ¬ mine (.control session.id))
    (hdata : ¬ mine (.data session.id)) : Channels p' session where
  control := h.control.kept hkept hcontrol
  data := h.data.imp (fun hclosed => hclosed) (fun hheld => hheld.kept hkept hdata)

/-- Since `p` the session `id` has acted for itself only, and its channels are in order. -/
structure Owned (id : Nat) (p : Process) (th : Thread) : Prop where
  identity : th.session.id = id
  kept : Kept (BelongsTo id) p th.process
  channels : Channels th.process th.session

namespace Owned

variable {id : Nat} {p : Process} {th th' : Thread} {env : Environment} {message : Bytes}

theorem sound (h : Owned id p th) : th.process.Sound := h.kept.sound

theorem start {session : FtpSession} (h : p.Sound) (hchannels : Channels p session) :
    Owned session.id p ⟨session, p⟩ := ⟨rfl, Kept.refl h, hchannels⟩

theorem data (h : Owned id p th) (hopen : 0 < th.session.dataChannel.socket) :
    Held th.process (.data th.session.id) th.session.dataChannel := by
  rcases h.channels.data with hnone | hheld
  · exact absurd hopen (not_lt.mpr hnone.socket)
  · exact hheld

/-- Steps of the process that leave the two channels alone. -/
theorem process (h : Owned id p th) {mine : Object → Prop} {q : Process}
    (hkept : Kept mine th.process q)
    (hside : ∀ o, mine o → o = .temporary ∨ o = .passive th.session.id) :
    Owned id p { th with process := q } := by
  have hcontrol : ∀ i, ¬ mine (.control i) := fun i hmine => by simpa using hside _ hmine
  have hdata : ∀ i, ¬ mine (.data i) := fun i hmine => by simpa using hside _ hmine
  refine ⟨h.identity, h.kept.trans (hkept.mono ?_), h.channels.kept hkept (hcontrol _) (hdata _)⟩
  intro o hmine
  rcases hside o hmine with rfl | rfl
  · trivial
  · exact h.identity

/-- Steps that take no descriptor from anybody. -/
theorem call (h : Owned id p th) {q : Process} (hkept : Kept nobody th.process q) :
    Owned id p { th with process := q } := h.process hkept fun _ hmine => hmine.elim

theorem silent (h : Owned id p th) {q : Process} (hs : Silent th.process q) :
    Owned id p { th with process := q } := h.call (Kept.silent h.sound hs)

theorem session (h : Owned id p th) {session : FtpSession} (hid : session.id = th.session.id)
    (hcontrol : session.controlChannel = th.session.controlChannel)
    (hdata : session.dataChannel = th.session.dataChannel) :
    Owned id p { th with session := session } := by
  refine ⟨hid.trans h.identity, h.kept, ?_, ?_⟩
  · rw [hid, hcontrol]
    exact h.channels.control
  · rw [hid, hdata]
    exact h.channels.data

theorem dataChannel (h : Owned id p th) {channel : TcpTransport}
    (hdata : NoDescriptor channel ∨ Held th.process (.data th.session.id) channel) :
    Owned id p { th with session := { th.session with dataChannel := channel } } :=
  ⟨h.identity, h.kept, h.channels.control, hdata⟩

theorem controlChannel (h : Owned id p th) {channel : TcpTransport}
    (hcontrol : Held th.process (.control th.session.id) channel) :
    Owned id p { th with session := { th.session with controlChannel := channel } } :=
  ⟨h.identity, h.kept, hcontrol, h.channels.data⟩

theorem reply (h : Owned id p th) (hreply : th.reply env message = .ok th') : Owned id p th' := by
  obtain ⟨via, hvia, rfl⟩ := reply_ok.mp hreply
  refine h.call (Kept.use h.sound h.channels.control.owner ?_)
  rw [← h.channels.control.via hvia]
  rfl

theorem sessionReply (h : Owned id p th) {session : FtpSession}
    (hreply : (Thread.mk session th.process).reply env message = .ok th')
    (hid : session.id = th.session.id) (hcontrol : session.controlChannel = th.session.controlChannel)
    (hdata : session.dataChannel = th.session.dataChannel) : Owned id p th' :=
  (h.session hid hcontrol hdata).reply hreply

theorem replyWhen (h : Owned id p th) {condition : Bool}
    (hreply : th.replyWhen env condition message = .ok th') : Owned id p th' := by
  unfold Thread.replyWhen at hreply
  split at hreply
  · exact h.reply hreply
  · cases hreply
    exact h

theorem dataPush (h : Owned id p th) (hopen : 0 < th.session.dataChannel.socket)
    (hpush : th.dataPush env message = .ok th') :
    Owned id p th' ∧ th'.session = th.session := by
  obtain ⟨via, hvia, rfl⟩ := dataPush_ok.mp hpush
  refine ⟨h.call (Kept.use h.sound (h.data hopen).owner ?_), rfl⟩
  rw [← (h.data hopen).via hvia]
  rfl

theorem dataPull (h : Owned id p th) (hopen : 0 < th.session.dataChannel.socket)
    {result : Received} (hpull : th.dataPull result = .ok th') :
    Owned id p th' ∧ th'.session = th.session := by
  obtain ⟨via, hvia, rfl⟩ := dataPull_ok.mp hpull
  refine ⟨h.call (Kept.use h.sound (h.data hopen).owner ?_), rfl⟩
  rw [← (h.data hopen).via hvia]
  rfl

theorem dataClose (h : Owned id p th) (hopen : 0 < th.session.dataChannel.socket) :
    Owned id p th.dataClose := by
  obtain ⟨hkept, hclosed⟩ := TcpTransport.close_kept h.sound (h.data hopen)
  refine ⟨h.identity, h.kept.trans (hkept.mono ?_), ?_, Or.inl hclosed⟩
  · rintro o rfl
    exact h.identity
  · exact h.channels.control.kept hkept (by simp)

theorem setFileTree (h : Owned id p th) (t : Posix.FileTree) : Owned id p (th.setFileTree t) :=
  h.silent ⟨rfl, rfl⟩

theorem notify (h : Owned id p th) (event : FtpObserveEventT) (info : Bytes) :
    Owned id p (th.notify event info) := by
  refine h.silent ⟨?_, rfl⟩
  simp [descriptorLog, descriptorAct, Function.comp_def]

end Owned

theorem reply_session {env : Environment} {message : Bytes} {th th' : Thread}
    (h : th.reply env message = .ok th') : th'.session = th.session := by
  obtain ⟨_, _, rfl⟩ := reply_ok.mp h
  rfl

/-! ## 2. Handlers -/

namespace FtpSession

/-- The call works on the descriptor of the data channel as it is: LIST and STOR do, and
    PASV does when it makes a TLS session without having accepted anybody. -/
def usesData (session : FtpSession) (c : Call) : Bool :=
  match c.input.command with
  | .list | .stor => true
  | .pasv => BindsWithin c.env 0 20 && !c.env.accept && session.protectsData && c.env.keyFile
  | _ => false

/-- The call finds the sockets that it works on: a data channel with a descriptor, and for
    PORT the one that it opens itself. -/
def socketsAtHand (session : FtpSession) (c : Call) : Bool :=
  (!session.usesData c || 0 < session.dataChannel.socket) &&
    (c.input.command != .port || c.env.socket 0)

variable {id : Nat} {p : Process} {env : Environment} {input : FtpCommand} {th th' : Thread}

theorem commandPort_owned (h : Owned id p th) (hopen : env.socket 0 = true)
    (hcall : commandPort env input th = .ok th') :
    Owned id p th' := by
  unfold commandPort at hcall
  obtain ⟨address, -, hcall⟩ := raising_bind_ok.mp hcall
  obtain ⟨port, -, hcall⟩ := raising_bind_ok.mp hcall
  dsimp only at hcall
  obtain ⟨hrenewed, hheld⟩ := TcpTransport.renew_kept (env.socket 0) (.data th.session.id)
    (by simp) th.session.dataChannel h.sound (fun t => t) fun _ => ⟨rfl, rfl, rfl⟩
  rw [hopen, if_pos rfl] at hheld
  rw [hopen] at hcall hrenewed
  obtain ⟨hconnected, hheld'⟩ := TcpTransport.connect_kept env address port hrenewed.sound hheld
  have hchannel := (h.process (hrenewed.trans (hconnected.mono fun _ h => h.elim))
    fun _ htemporary => Or.inl htemporary).dataChannel (Or.inr hheld')
  split at hcall
  · exact hchannel.reply hcall
  · obtain ⟨th₁, h₁, h₂⟩ := bind_ok_iff.mp hcall
    exact (hchannel.reply h₁).reply h₂

theorem commandList_owned (h : Owned id p th) (hopen : 0 < th.session.dataChannel.socket)
    (hcall : commandList env input th = .ok th') : Owned id p th' := by
  unfold commandList at hcall
  obtain ⟨th₁, h₁, hcall⟩ := bind_ok_iff.mp hcall
  obtain ⟨th₂, h₂, hcall⟩ := bind_ok_iff.mp hcall
  obtain ⟨th₃, h₃, hcall⟩ := bind_ok_iff.mp hcall
  obtain rfl := pure_ok_iff.mp hcall
  have hsame₁ := reply_session h₁
  obtain ⟨hpushed, hsame₂⟩ := (h.reply h₁).dataPush (hsame₁ ▸ hopen) h₂
  have hsame₃ := reply_session h₃
  apply (hpushed.reply h₃).dataClose
  rwa [hsame₃, hsame₂, hsame₁]

theorem write_owned (file : Option Posix.Location) (room : Option Nat) (h : Owned id p th)
    (bytes : Bytes) :
    Owned id p (write file room bytes th) ∧ (write file room bytes th).session = th.session := by
  cases file with
  | none => exact ⟨h, rfl⟩
  | some l => exact ⟨h.setFileTree _, rfl⟩

theorem receiveAllocated_owned {file : Option Posix.Location} {room : Option Nat}
    {chunks : List Chunk} {fileTotalSize : Int} (h : Owned id p th)
    (hopen : 0 < th.session.dataChannel.socket)
    (hreceive : receiveAllocated env file room chunks fileTotalSize th = .ok th') :
    Owned id p th' ∧ th'.session = th.session := by
  induction chunks generalizing room th fileTotalSize with
  | nil => exact h.dataPull hopen hreceive
  | cons chunk chunks ih =>
    simp only [receiveAllocated] at hreceive
    obtain ⟨th₁, hpull, hrest⟩ := bind_ok_iff.mp hreceive
    obtain ⟨hpulled, hsame⟩ := h.dataPull hopen hpull
    split at hrest
    · obtain ⟨hwritten, hsame'⟩ := write_owned file room hpulled chunk.bytes
      obtain ⟨hloop, hsame''⟩ := ih hwritten (by rwa [hsame', hsame]) hrest
      exact ⟨hloop, hsame''.trans (hsame'.trans hsame)⟩
    · obtain rfl := pure_ok_iff.mp hrest
      exact ⟨hpulled, hsame⟩

theorem receiveAll_owned {file : Option Posix.Location} {room : Option Nat}
    {chunks : List Chunk} (h : Owned id p th) (hopen : 0 < th.session.dataChannel.socket)
    (hreceive : receiveAll env file room chunks th = .ok th') :
    Owned id p th' ∧ th'.session = th.session := by
  induction chunks generalizing room th with
  | nil => exact h.dataPull hopen hreceive
  | cons chunk chunks ih =>
    simp only [receiveAll] at hreceive
    obtain ⟨th₁, hpull, hrest⟩ := bind_ok_iff.mp hreceive
    obtain ⟨hpulled, hsame⟩ := h.dataPull hopen hpull
    obtain ⟨hwritten, hsame'⟩ := write_owned file room hpulled chunk.bytes
    obtain ⟨hloop, hsame''⟩ := ih hwritten (by rwa [hsame', hsame]) hrest
    exact ⟨hloop, hsame''.trans (hsame'.trans hsame)⟩

theorem commandStor_owned (h : Owned id p th) (hopen : 0 < th.session.dataChannel.socket)
    (hcall : commandStor env input th = .ok th') : Owned id p th' := by
  unfold commandStor at hcall
  obtain ⟨fileName, -, hcall⟩ := raising_bind_ok.mp hcall
  dsimp only at hcall
  have hopened : Owned id p (openTransfer (th.session.folder ++ fileName) th).2 ∧
      (openTransfer (th.session.folder ++ fileName) th).2.session = th.session := by
    unfold openTransfer
    split
    · exact ⟨h.setFileTree _, rfl⟩
    · exact ⟨h, rfl⟩
  obtain ⟨th₁, h₁, hcall⟩ := bind_ok_iff.mp hcall
  obtain ⟨th₂, h₂, hcall⟩ := bind_ok_iff.mp hcall
  obtain ⟨th₃, h₃, hcall⟩ := bind_ok_iff.mp hcall
  obtain rfl := pure_ok_iff.mp hcall
  have hsame₁ : th₁.session = th.session := (reply_session h₁).trans hopened.2
  have hreplied := hopened.1.reply h₁
  have hreceived : Owned id p th₂ ∧ th₂.session = th₁.session := by
    unfold receiveFile at h₂
    split at h₂
    · exact receiveAllocated_owned hreplied (hsame₁ ▸ hopen) h₂
    · exact receiveAll_owned hreplied (hsame₁ ▸ hopen) h₂
  have hclosed := hreceived.1.dataClose (by rwa [hreceived.2, hsame₁])
  exact (hclosed.reply h₃).notify _ _

theorem commandAuth_owned (h : Owned id p th) (hcall : commandAuth env input th = .ok th') :
    Owned id p th' := by
  unfold commandAuth at hcall
  obtain ⟨service, -, hcall⟩ := raising_bind_ok.mp hcall
  split at hcall
  · exact h.reply hcall
  · obtain ⟨th₁, h₁, hcall⟩ := bind_ok_iff.mp hcall
    obtain ⟨⟨result, channel, q⟩, h₂, hcall⟩ := bind_ok_iff.mp hcall
    obtain rfl := pure_ok_iff.mp hcall
    have hreplied := h.reply h₁
    obtain ⟨_, _, _, heq, hshaken, hbound⟩ := TcpTransport.setTls_ok env
      (.control th₁.session.id) th₁.session.controlChannel th₁.process
    rw [heq] at h₂
    cases h₂
    have hkept := hshaken.kept hreplied.sound hreplied.channels.control.owner
    exact (hreplied.call hkept).controlChannel (hbound.held hreplied.channels.control hkept)

theorem nextPort_silent (p : Process) : Silent p (nextPort p).2 := ⟨rfl, rfl⟩

/-- The attempts of PASV: behind one that could bind, the listener has a descriptor. -/
theorem allocateListener_owned (env : Environment) (id : Nat) (address : Bytes) (attempts attempt : Nat)
    (listener : TcpListener) (port : Int) {q : Process} (h : q.Sound) :
    let allocated := allocateListener env id address attempts attempt listener port q
    Kept (· = .temporary) q allocated.2.2.2 ∧
      (allocated.1 = true → Held allocated.2.2.2 (.passive id) allocated.2.1.transport) := by
  induction attempts generalizing attempt listener port q with
  | zero => exact ⟨Kept.refl h, nofun⟩
  | succ attempts ih =>
    obtain ⟨hkept, hheld⟩ := TcpListener.rebind_kept (env.bind_socket attempt) (.passive id)
      (by simp) listener address port 1 h
    unfold allocateListener
    dsimp only at hkept hheld ⊢
    split
    · -- the next port, and the listener replaced once more
      have hnext := Kept.silent_nobody hkept.sound (nextPort_silent _)
      obtain ⟨hrest, hlast⟩ := ih (attempt + 1)
        (TcpListener.moveAssign (.passive id) .temporary listener
          (TcpListener.ofAddress (env.socket (attempt + 1)) .temporary address port 1 q).1
          (TcpListener.ofAddress (env.socket (attempt + 1)) .temporary address port 1 q).2).1
        (nextPort _).1 hnext.sound
      exact ⟨(hkept.trans (hnext.mono fun _ h => h.elim)).trans hrest, hlast⟩
    · next hbind =>
      rw [TcpListener.bind_fst] at hbind
      refine ⟨hkept, fun _ => hheld ?_⟩
      by_contra hfails
      rw [if_neg hfails] at hbind
      exact hbind (by decide)

theorem secureData_owned (h : Owned id p th)
    (hopen : th.session.protectsData = true → env.keyFile = true →
      Held th.process (.data th.session.id) th.session.dataChannel)
    (hcall : secureData env th = .ok th') :
    Owned id p th' ∧ th'.session.id = th.session.id ∧ Kept nobody th.process th'.process := by
  unfold secureData at hcall
  split at hcall
  · next hprotects =>
    obtain ⟨⟨result, channel, q⟩, h₁, hcall⟩ := bind_ok_iff.mp hcall
    obtain rfl := pure_ok_iff.mp hcall
    obtain ⟨_, _, _, heq, hshaken, hbound⟩ := TcpTransport.setTls_ok env
      (.data th.session.id) th.session.dataChannel th.process
    rw [heq] at h₁
    cases h₁
    have hheld : Held th.process (.data th.session.id) th.session.dataChannel →
        Owned id p ⟨{ th.session with dataChannel := channel }, q⟩ ∧ Kept nobody th.process q := by
      intro hdata
      have hkept := hshaken.kept h.sound hdata.owner
      exact ⟨(h.call hkept).dataChannel (Or.inr (hbound.held hdata hkept)), hkept⟩
    cases hkey : env.keyFile with
    | true =>
      obtain ⟨howned, hkept⟩ := hheld (hopen hprotects hkey)
      exact ⟨howned, rfl, hkept⟩
    | false =>
      rcases h.channels.data with hclosed | hdata
      · -- nothing is called, and the channel stays closed
        have hsilent := hshaken.silent hkey
        exact ⟨(h.silent hsilent).dataChannel (Or.inl ⟨hbound.socket.trans_le hclosed.socket,
          (hbound.kept hkey).trans hclosed.session⟩), rfl, Kept.silent h.sound hsilent⟩
      · obtain ⟨howned, hkept⟩ := hheld hdata
        exact ⟨howned, rfl, hkept⟩
  · cases hcall
    exact ⟨h, rfl, Kept.refl h.sound⟩

theorem acceptData_owned {listener : TcpListener} (h : Owned id p th)
    (hheld : Held th.process (.passive th.session.id) listener.transport)
    (hopen : env.accept = false → th.session.protectsData = true → env.keyFile = true →
      0 < th.session.dataChannel.socket)
    (hcall : acceptData env listener th = .ok th') : Owned id p th' := by
  unfold acceptData at hcall
  dsimp only at hcall
  obtain ⟨th₁, h₁, hcall⟩ := bind_ok_iff.mp hcall
  obtain rfl := pure_ok_iff.mp hcall
  obtain ⟨hkept, hchannel⟩ := TcpListener.accept_kept env (.data th.session.id) (by simp)
    th.session.dataChannel h.sound hheld
  have hside := h.process hkept fun _ htemporary => Or.inl htemporary
  generalize listener.accept env (.passive th.session.id) (.data th.session.id)
    th.session.dataChannel th.process = accepted at hkept hchannel hside h₁
  rcases accepted with ⟨_, channel, q⟩
  dsimp only at hkept hchannel hside h₁
  -- the channel that was accepted, or the one that was there
  have haccepted : Owned id p ⟨{ th.session with dataChannel := channel }, q⟩ ∧
      (th.session.protectsData = true → env.keyFile = true →
        Held q (.data th.session.id) channel) := by
    cases haccept : env.accept with
    | true =>
      rw [haccept, if_pos rfl] at hchannel
      exact ⟨hside.dataChannel (Or.inr hchannel), fun _ _ => hchannel⟩
    | false =>
      rw [haccept, if_neg (by decide)] at hchannel
      subst hchannel
      exact ⟨hside, fun hprotects hkey => hside.data (hopen haccept hprotects hkey)⟩
  obtain ⟨howned, hid, hsecured⟩ := secureData_owned haccepted.1 haccepted.2 h₁
  dsimp only at hid hsecured
  have hlistening : Held th₁.process (.passive th₁.session.id) listener.transport := by
    rw [hid]
    exact (hheld.kept hkept (by simp)).kept hsecured fun h => h
  obtain ⟨hclosed, -⟩ := TcpTransport.close_kept howned.sound hlistening
  exact howned.process (hclosed.trans (Kept.silent hclosed.sound
    (TlsSession.freeTlsSession_offstage _ _).silent)) fun _ hpassive => Or.inr hpassive

theorem listening_owned (h : Owned id p th) :
    Owned id p ⟨th.session, (listening env th).2.2.2⟩ ∧ ((listening env th).1 = true →
      Held (listening env th).2.2.2 (.passive th.session.id) (listening env th).2.1.transport) := by
  have hnext := Kept.silent_nobody h.sound (nextPort_silent th.process)
  have hnew := TcpListener.new_kept (env.socket 0) (.passive th.session.id) hnext.sound
  obtain ⟨hallocated, hlistening⟩ := allocateListener_owned env th.session.id
    th.session.controlChannel.address 20 0
    (TcpListener.new (env.socket 0) (.passive th.session.id) (nextPort th.process).2).1
    (nextPort th.process).1 hnew.sound
  exact ⟨h.process (((hnext.trans hnew).mono fun _ h => h.elim).trans hallocated)
    fun _ htemporary => Or.inl htemporary, hlistening⟩

theorem commandPasv_owned (h : Owned id p th)
    (hopen : BindsWithin env 0 20 → env.accept = false → th.session.protectsData = true →
      env.keyFile = true → 0 < th.session.dataChannel.socket)
    (hcall : commandPasv env input th = .ok th') : Owned id p th' := by
  rcases listening_owned h with ⟨howned, hlistening⟩
  have hflag := (listening_spec env th).1
  rw [commandPasv_eq] at hcall
  generalize listening env th = allocated at hcall hlistening hflag howned
  rcases allocated with ⟨allocationFlag, listener, port, q⟩
  dsimp only at hcall hlistening hflag howned
  cases hcase : allocationFlag with
  | false =>
    rw [hcase] at hcall
    obtain ⟨th₁, h₁, hcall⟩ := bind_ok_iff.mp hcall
    obtain rfl := pure_ok_iff.mp hcall
    exact (howned.reply h₁).silent (listener.transport.session.freeTlsSession_offstage _).silent
  | true =>
    rw [hcase] at hcall
    obtain ⟨th₁, h₁, hcall⟩ := bind_ok_iff.mp hcall
    obtain ⟨via, hvia, rfl⟩ := reply_ok.mp h₁
    have hreply : Kept nobody q (q.emit (replyEvent env th.session.id via
        (passiveReply th.session.controlChannel.address port))) := by
      apply Kept.use howned.sound howned.channels.control.owner
      rw [← howned.channels.control.via hvia]
      rfl
    exact acceptData_owned (howned.call hreply) ((hlistening hcase).kept hreply fun h => h)
      (hopen (hflag.mp hcase)) hcall

/-- **One call**: whatever the command, the session acts on its own descriptors. -/
theorem processCommand_owned (h : Owned id p th)
    (hsockets : socketsAtHand th.session ⟨env, input⟩ = true)
    (hcall : processCommand env input th = .ok th') : Owned id p th' := by
  have hopen : usesData th.session ⟨env, input⟩ = true → 0 < th.session.dataChannel.socket := by
    intro huses
    simp only [socketsAtHand, huses, Bool.not_true, Bool.false_or, Bool.and_eq_true,
      decide_eq_true_eq] at hsockets
    exact hsockets.1
  have hsocket : input.command = .port → env.socket 0 = true := by
    intro hport
    simp only [socketsAtHand, hport, bne_self_eq_false, Bool.false_or, Bool.and_eq_true] at hsockets
    exact hsockets.2
  unfold processCommand at hcall
  unfold usesData at hopen
  dsimp only at hopen
  cases hcommand : input.command <;> rw [hcommand] at hcall hopen hsocket <;>
    dsimp only at hcall hopen
  case user =>
    unfold commandUser at hcall
    obtain ⟨login, -, hcall⟩ := raising_bind_ok.mp hcall
    obtain ⟨th₁, h₁, hcall⟩ := bind_ok_iff.mp hcall
    exact (h.replyWhen h₁).sessionReply hcall rfl rfl rfl
  case pass =>
    unfold commandPass at hcall
    obtain ⟨password, -, hcall⟩ := raising_bind_ok.mp hcall
    obtain ⟨th₁, h₁, hcall⟩ := bind_ok_iff.mp hcall
    dsimp only at hcall
    split at hcall
    · obtain ⟨th₂, h₂, hcall⟩ := bind_ok_iff.mp hcall
      obtain rfl := pure_ok_iff.mp hcall
      exact ((h.replyWhen h₁).sessionReply h₂ rfl rfl rfl).session rfl rfl rfl
    · exact (h.replyWhen h₁).sessionReply hcall rfl rfl rfl
  case cwd =>
    unfold commandCwd at hcall
    obtain ⟨argument, -, hcall⟩ := raising_bind_ok.mp hcall
    obtain ⟨folder, -, hcall⟩ := raising_bind_ok.mp hcall
    dsimp only at hcall
    split at hcall
    · exact h.reply hcall
    · exact h.sessionReply hcall rfl rfl rfl
  case port => exact commandPort_owned h (hsocket rfl) hcall
  case list => exact commandList_owned h (hopen rfl) hcall
  case stor => exact commandStor_owned h (hopen rfl) hcall
  case type =>
    unfold commandType at hcall
    obtain ⟨type, -, hcall⟩ := raising_bind_ok.mp hcall
    split at hcall
    · exact h.sessionReply hcall rfl rfl rfl
    · split at hcall
      · exact h.sessionReply hcall rfl rfl rfl
      · exact h.reply hcall
  case auth => exact commandAuth_owned h hcall
  case pbsz =>
    obtain ⟨size, -, hcall⟩ := raising_bind_ok.mp hcall
    exact h.sessionReply hcall rfl rfl rfl
  case prot =>
    obtain ⟨level, -, hcall⟩ := raising_bind_ok.mp hcall
    exact h.sessionReply hcall rfl rfl rfl
  case pasv =>
    refine commandPasv_owned h ?_ hcall
    intro hbinds haccept hprotects hkey
    exact hopen (by simp [hbinds, haccept, hprotects, hkey])
  case allo =>
    obtain ⟨size, -, hcall⟩ := raising_bind_ok.mp hcall
    exact h.sessionReply hcall rfl rfl rfl
  case dele =>
    unfold commandDele at hcall
    obtain ⟨path, -, hcall⟩ := raising_bind_ok.mp hcall
    dsimp only at hcall
    split at hcall
    · exact (h.setFileTree _).reply hcall
    · exact (h.setFileTree _).reply hcall
  case rnfr =>
    unfold commandRnfr at hcall
    obtain ⟨path, -, hcall⟩ := raising_bind_ok.mp hcall
    obtain ⟨th₁, h₁, hcall⟩ := bind_ok_iff.mp hcall
    obtain rfl := pure_ok_iff.mp hcall
    exact (h.reply h₁).session rfl rfl rfl
  case rnto =>
    unfold commandRnto at hcall
    obtain ⟨path, -, hcall⟩ := raising_bind_ok.mp hcall
    dsimp only at hcall
    split at hcall
    · exact h.reply hcall
    · split at hcall
      · exact (h.setFileTree _).reply hcall
      · exact (h.setFileTree _).reply hcall
  case quit =>
    cases hcall
    exact h.session rfl rfl rfl
  all_goals exact h.reply hcall

/-- The constructor: the connection is moved in, and the data channel opens its own socket. -/
theorem construct_kept (opens : Bool) (id : Nat) (connection : TcpTransport)
    (garbage : Uninitialised) (h : p.Sound) :
    Kept (· = .connection) p (construct opens id connection garbage p).process ∧
      (Held p .connection connection → Channels (construct opens id connection garbage p).process
        (construct opens id connection garbage p).session) ∧
      (NoDescriptor (construct opens id connection garbage p).session.dataChannel ∨
        Held (construct opens id connection garbage p).process (.data id)
          (construct opens id connection garbage p).session.dataChannel) := by
  have hmoved := TcpTransport.moved_kept h (.control id) .connection connection.socket
  have hnew := (TcpTransport.new_kept opens (.data id) hmoved.sound).1
  have hdata := TcpTransport.new_held opens (.data id) hmoved.sound
  refine ⟨hmoved.trans (hnew.mono fun _ h => h.elim), ?_, hdata⟩
  intro hheld
  exact ⟨(TcpTransport.moved_held hheld (.control id)).kept hnew fun h => h, hdata⟩

end FtpSession

/-! ## 3. The server -/

theorem Owned.controlPull {id : Nat} {p : Process} {th th' : Thread} {result : Received}
    (h : Owned id p th) (hpull : th.controlPull result = .ok th') :
    Owned id p th' ∧ th'.session = th.session := by
  obtain ⟨via, hvia, rfl⟩ := controlPull_ok.mp hpull
  refine ⟨h.call (Kept.use h.sound h.channels.control.owner ?_), rfl⟩
  rw [← h.channels.control.via hvia]
  rfl

namespace FtpServer

/-- A step finds the sockets that it works on.  A thread starts on a control channel with a
    descriptor, and a turn of its loop is as its command is. -/
def socketsAtHand (s : FtpServer) : ServerStep → Bool
  | .greet session _ =>
    match s.clientSessions[session]? with
    | none => true
    | some client => client.phase != .created || 0 < client.session.controlChannel.socket
  | .turn session t =>
    match s.clientSessions[session]? with
    | none => true
    | some client =>
      client.phase != .looping || client.session.state == .terminated ||
        match SessionThread.command client.buffer t.message t.behind with
        | .error _ => true
        | .ok input => client.session.socketsAtHand ⟨t.env, input⟩
  | _ => true

/-- A session that is not at its end: its channels are in order, or it has not started yet
    and was made on a socket that did not open. -/
structure InOrder (p : Process) (client : ClientSession) : Prop where
  control : (client.phase = .created ∧ client.session.controlChannel.socket ≤ 0) ∨
    Held p (.control client.session.id) client.session.controlChannel
  data : NoDescriptor client.session.dataChannel ∨
    Held p (.data client.session.id) client.session.dataChannel

theorem InOrder.kept {p p' : Process} {client : ClientSession} {mine : Object → Prop}
    (h : InOrder p client) (hkept : Kept mine p p') (hcontrol : ¬ mine (.control client.session.id))
    (hdata : ¬ mine (.data client.session.id)) : InOrder p' client where
  control := h.control.imp_right fun hheld => hheld.kept hkept hcontrol
  data := h.data.imp_right fun hheld => hheld.kept hkept hdata

theorem InOrder.channels {p : Process} {client : ClientSession} (h : InOrder p client)
    (hstarted : client.phase = .created → 0 < client.session.controlChannel.socket) :
    Channels p client.session := by
  refine ⟨h.control.resolve_left ?_, h.data⟩
  rintro ⟨hcreated, hsocket⟩
  exact absurd (hstarted hcreated) (not_lt.mpr hsocket)

/-- The listener and every session that is not at its end hold their descriptors. -/
structure Intact (s : FtpServer) : Prop where
  sound : s.process.Sound
  listener : Held s.process .listener s.controlChannel.transport
  sessions : ∀ (i : Nat) client, s.clientSessions[i]? = some client →
    client.session.id = i ∧ (client.phase ≠ .ended → InOrder s.process client)

theorem start_intact {env : Environment} {address : Bytes} {port : Int} {p : Process}
    {s : FtpServer} (h : p.Sound) (hstart : start env address port p = some s) : Intact s := by
  have hnew := TcpListener.new_kept true .listener h
  have hopens : env.bind 0 = true → true = true := fun _ => rfl
  obtain ⟨hbound, hheld⟩ := TcpListener.rebind_kept hopens .listener (by simp)
    (TcpListener.new true .listener p).1 address port 10 hnew.sound
  unfold start at hstart
  dsimp only at hstart hbound hheld
  split at hstart
  · cases hstart
  · next hbind =>
    cases hstart
    rw [TcpListener.bind_fst] at hbind
    refine ⟨hbound.sound, hheld ?_, by simp⟩
    by_contra hfails
    rw [if_neg hfails] at hbind
    exact hbind (by decide)

theorem acceptRound_intact (env : Environment) (garbage : Uninitialised) (buffer : MessageBuffer)
    {s : FtpServer} (h : Intact s) : Intact (s.acceptRound env garbage buffer) := by
  have hnew := (TcpTransport.new_kept (env.socket 0) .connection h.sound).1
  have hlistener := h.listener.kept hnew fun h => h
  have haccepted := (TcpListener.accept_kept env .connection (by simp)
    (TcpTransport.new (env.socket 0) .connection s.process).1 hnew.sound hlistener).1
  have hheld := TcpListener.accept_held env .connection (by simp) hnew.sound hlistener
    (TcpTransport.new_held (env.socket 0) .connection h.sound)
  obtain ⟨hconstructed, hchannels, hdata⟩ := FtpSession.construct_kept (env.socket 1)
    s.clientSessions.length _ garbage haccepted.sound
  let accepting (o : Object) : Prop := o = .temporary ∨ o = .connection
  have hkept : Kept accepting s.process (s.acceptRound env garbage buffer).process :=
    ((hnew.mono fun _ h => h.elim).trans (haccepted.mono fun _ h => Or.inl h)).trans
      (hconstructed.mono fun _ h => Or.inr h)
  refine ⟨hkept.sound, h.listener.kept hkept (by simp [accepting]), ?_⟩
  intro i client hclient
  change (s.clientSessions ++ [_])[i]? = some client at hclient
  rcases Nat.lt_trichotomy i s.clientSessions.length with hlt | rfl | hgt
  · rw [List.getElem?_append_left hlt] at hclient
    obtain ⟨hid, hold⟩ := h.sessions i client hclient
    exact ⟨hid, fun hphase => (hold hphase).kept hkept (by simp [accepting]) (by simp [accepting])⟩
  · rw [List.getElem?_concat_length] at hclient
    cases hclient
    refine ⟨rfl, fun _ => ⟨?_, hdata⟩⟩
    exact hheld.imp (fun hnone => ⟨rfl, hnone.socket⟩) fun hheld => (hchannels hheld).control
  · rw [List.getElem?_eq_none (by simp; omega)] at hclient
    cases hclient

/-- A step of one session keeps the server intact when the session keeps to itself. -/
theorem sessionStep_intact {s s' : FtpServer} {i : Nat}
    {f : ClientSession → Process → Except Abort (ClientSession × Process)} (h : Intact s)
    (hf : ∀ client client' p', s.clientSessions[i]? = some client →
      f client s.process = .ok (client', p') →
        client'.session.id = i ∧ Kept (BelongsTo i) s.process p' ∧
          (client'.phase ≠ .ended → InOrder p' client'))
    (hstep : s.sessionStep i f = .ok s') : Intact s' := by
  unfold sessionStep at hstep
  cases hclient : s.clientSessions[i]? with
  | none =>
    rw [hclient] at hstep
    cases hstep
    exact h
  | some client =>
    rw [hclient] at hstep
    obtain ⟨⟨client', p'⟩, hcall, hlast⟩ := bind_ok_iff.mp hstep
    obtain rfl := pure_ok_iff.mp hlast
    obtain ⟨hid, hkept, hchannels⟩ := hf client client' p' hclient hcall
    refine ⟨hkept.sound, h.listener.kept hkept fun h => h, ?_⟩
    intro k other hother
    by_cases hki : i = k
    · subst hki
      rw [List.getElem?_set_self (List.getElem?_eq_some_iff.mp hclient).1] at hother
      cases hother
      exact ⟨hid, hchannels⟩
    · rw [List.getElem?_set_ne hki] at hother
      obtain ⟨hkid, hold⟩ := h.sessions k other hother
      have hne : ¬ other.session.id = i := fun heq => hki (heq.symm.trans hkid)
      exact ⟨hkid, fun hphase => (hold hphase).kept hkept hne hne⟩

/-- A session that is not at its end, as its own thread sees it. -/
theorem Intact.owned {s : FtpServer} (h : Intact s) {i : Nat} {client : ClientSession}
    (hclient : s.clientSessions[i]? = some client) (hphase : client.phase ≠ .ended)
    (hstarted : client.phase = .created → 0 < client.session.controlChannel.socket) :
    Owned i s.process ⟨client.session, s.process⟩ := by
  obtain ⟨hid, horder⟩ := h.sessions i client hclient
  exact hid ▸ Owned.start h.sound ((horder hphase).channels hstarted)

theorem inOrder_of_owned {id : Nat} {p : Process} {th : Thread} (h : Owned id p th)
    (buffer : MessageBuffer) (phase : Phase) : InOrder th.process ⟨th.session, buffer, phase⟩ :=
  ⟨Or.inr h.channels.control, h.channels.data⟩

theorem greet_intact {s s' : FtpServer} {i : Nat} {env : Environment} (h : Intact s)
    (hopen : s.socketsAtHand (.greet i env) = true)
    (hstep : s.sessionStep i (greet env) = .ok s') : Intact s' := by
  refine sessionStep_intact h ?_ hstep
  intro client client' p' hclient hcall
  obtain ⟨hid, horder⟩ := h.sessions i client hclient
  simp only [socketsAtHand, hclient] at hopen
  unfold greet at hcall
  split at hcall
  · next hphase =>
    obtain ⟨th, hreply, hlast⟩ := bind_ok_iff.mp hcall
    obtain ⟨rfl, rfl⟩ := Prod.mk.inj (pure_ok_iff.mp hlast)
    have howned := (h.owned hclient (by simp [hphase])
      fun _ => by simpa [hphase] using hopen).reply hreply
    exact ⟨howned.identity, howned.kept, fun _ => inOrder_of_owned howned _ _⟩
  · cases hcall
    exact ⟨hid, Kept.refl h.sound, horder⟩

theorem turn_intact {s s' : FtpServer} {i : Nat} {t : Turn} (h : Intact s)
    (hopen : s.socketsAtHand (.turn i t) = true) (hstep : s.sessionStep i (turn t) = .ok s') :
    Intact s' := by
  refine sessionStep_intact h ?_ hstep
  intro client client' p' hclient hcall
  obtain ⟨hid, hchannels⟩ := h.sessions i client hclient
  simp only [socketsAtHand, hclient] at hopen
  unfold turn at hcall
  split at hcall
  · next hphase =>
    have howned := h.owned hclient (by simp [hphase]) (by simp [hphase])
    obtain ⟨last, hturn, hlast⟩ := bind_ok_iff.mp hcall
    obtain ⟨rfl, rfl⟩ := Prod.mk.inj (pure_ok_iff.mp hlast)
    unfold SessionThread.step at hturn
    split at hturn
    · cases hturn
      exact ⟨hid, Kept.refl h.sound, fun hnot => hchannels (by simp [hphase])⟩
    · next hstate =>
      unfold SessionThread.handle at hturn
      obtain ⟨th₁, hpull, hturn⟩ := bind_ok_iff.mp hturn
      obtain ⟨input, hinput, hturn⟩ := raising_bind_ok.mp hturn
      obtain ⟨th₂, hcommand, hturn⟩ := bind_ok_iff.mp hturn
      obtain rfl := pure_ok_iff.mp hturn
      obtain ⟨hpulled, hsame⟩ := howned.controlPull hpull
      dsimp only at hstate hinput
      rw [hinput] at hopen
      have hsockets : FtpSession.socketsAtHand th₁.session ⟨t.env, input⟩ = true := by
        rw [hsame]
        simpa [hphase, hstate] using hopen
      have hdone := FtpSession.processCommand_owned hpulled hsockets hcommand
      exact ⟨hdone.identity, hdone.kept, fun _ => inOrder_of_owned hdone _ _⟩
  · cases hcall
    exact ⟨hid, Kept.refl h.sound, hchannels⟩

theorem finish_intact {s s' : FtpServer} {i : Nat} {ending : Received} (h : Intact s)
    (hstep : s.sessionStep i (finish ending) = .ok s') : Intact s' := by
  refine sessionStep_intact h ?_ hstep
  intro client client' p' hclient hcall
  obtain ⟨hid, hchannels⟩ := h.sessions i client hclient
  unfold finish at hcall
  split at hcall
  · next hphase =>
    have howned := h.owned hclient (by simp [hphase]) (by simp [hphase])
    obtain ⟨last, hfinish, hlast⟩ := bind_ok_iff.mp hcall
    obtain ⟨rfl, rfl⟩ := Prod.mk.inj (pure_ok_iff.mp hlast)
    unfold SessionThread.finish at hfinish
    obtain ⟨th₁, hpull, hfinish⟩ := bind_ok_iff.mp hfinish
    obtain rfl := pure_ok_iff.mp hfinish
    have hpulled : Owned i s.process th₁ := by
      unfold SessionThread.lastPull at hpull
      split at hpull
      · cases hpull
        exact howned
      · exact (howned.controlPull hpull).1
    obtain ⟨hclosed, -⟩ := TcpTransport.close_kept hpulled.sound hpulled.channels.control
    refine ⟨hpulled.identity, hpulled.kept.trans (hclosed.mono ?_), fun hnot => absurd rfl hnot⟩
    rintro o rfl
    exact hpulled.identity
  · cases hcall
    exact ⟨hid, Kept.refl h.sound, hchannels⟩

/-- **One step** of any thread of the process. -/
theorem step_intact {s s' : FtpServer} {i : ServerStep} (h : Intact s)
    (hopen : s.socketsAtHand i = true) (hstep : s.step i = .ok s') : Intact s' := by
  cases i with
  | accept env garbage buffer =>
    cases hstep
    exact acceptRound_intact env garbage buffer h
  | greet session env => exact greet_intact h hopen hstep
  | turn session t => exact turn_intact h hopen hstep
  | finish session ending => exact finish_intact h hstep

theorem initial_sound (t : Posix.FileTree) : (Process.initial t).Sound where
  clean := clean_nil
  opened := by simp [descriptorLog, Process.initial]
  standard := by
    intro r hr
    refine ⟨?_, rfl⟩
    simp only [Process.initial, List.mem_cons, List.not_mem_nil, or_false]
    omega

/-- **Descriptor ownership.**  In every run of the server, for any number of sessions and any
    interleaving, in which every step finds the sockets that it works on, every use and every
    close of a descriptor is by the object it belongs to at that moment, and the standard
    descriptors stay open and belong to nobody. -/
theorem descriptor_ownership {env : Environment} {address : Bytes} {port : Int}
    {t : Posix.FileTree} {steps : List ServerStep} {s s' : FtpServer}
    (hstart : start env address port (Process.initial t) = some s)
    (hopen : EveryStep step (fun mid i _ => mid.socketsAtHand i = true) s steps)
    (hrun : run step s steps = .ok s') :
    Clean (descriptorLog s'.process) ∧
      ∀ r, 0 ≤ r → r < 3 → r ∈ s'.process.descriptors.opened ∧ s'.process.owner r = none := by
  have hkeep : ∀ mid i next, Intact mid → step mid i = .ok next → mid.socketsAtHand i = true →
      Intact next := fun mid i next hmid hstep hopen => step_intact hmid hopen hstep
  have hintact : Intact s' :=
    run_invariant_of_everyStep hkeep (start_intact (initial_sound t) hstart) hopen hrun
  exact ⟨hintact.sound.clean, fun r hzero hthree => hintact.sound.standard r ⟨hzero, hthree⟩⟩

def listTurn : Turn := ⟨⟨ascii "LIST\r\n", by decide, by decide⟩, [], .plain⟩

/-- A connection, its greeting, a PORT and a LIST. -/
def oneList : List ServerStep :=
  [.accept .plain ⟨0, 0, .clear⟩ .zero, .greet 0 .plain, .turn 0 SessionThread.portTurn,
    .turn 0 listTurn]

/-- Two clients list in turn, each over the connection of a PORT of its own. -/
def twoLists : List ServerStep :=
  [.accept .plain ⟨0, 0, .clear⟩ .zero, .greet 0 .plain, .accept .plain ⟨0, 0, .clear⟩ .zero,
    .turn 0 SessionThread.portTurn, .greet 1 .plain, .turn 1 SessionThread.portTurn,
    .turn 0 listTurn, .turn 1 listTurn, .finish 0 .closed]

theorem descriptor_ownership_list :
    ∃ s s', start .plain (ascii "127.0.0.1") 21 (Process.initial .bare) = some s ∧
      run step s twoLists = .ok s' ∧ Clean (descriptorLog s'.process) := by
  obtain ⟨s', hrun, -⟩ := exists_of_reaches _ twoLists (fun _ => true)
    (show reaches step ((start .plain (ascii "127.0.0.1") 21 (Process.initial .bare)).get rfl)
      twoLists _ = true by decide +kernel)
  exact ⟨_, s', (Option.some_get _).symm, hrun, (descriptor_ownership (Option.some_get _).symm
    (everyStep_of_allSteps (by decide +kernel)) hrun).1⟩

/-- Behind a LIST over the connection of its PORT, the second one sends to descriptor 0 and
    closes it. -/
theorem second_list_on_descriptor_zero :
    ∃ s s', start .plain (ascii "127.0.0.1") 21 (Process.initial .bare) = some s ∧
      run step s (oneList ++ [.turn 0 listTurn]) = .ok s' ∧ ¬ Clean (descriptorLog s'.process) := by
  obtain ⟨s', hrun, hfault⟩ := exists_of_reaches _ (oneList ++ [.turn 0 listTurn])
    (fun s => !check (fun _ => none) (descriptorLog s.process))
    (show reaches step ((start .plain (ascii "127.0.0.1") 21 (Process.initial .bare)).get rfl)
      _ _ = true by decide +kernel)
  refine ⟨_, s', (Option.some_get _).symm, hrun, ?_⟩
  rw [clean_iff_check]
  simpa using hfault

end FtpServer

end FtpsServer
