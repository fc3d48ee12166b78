import FtpsServer.Replies

/-!
# Sessions side by side

Two sessions that a client cannot tell apart: they differ in the members that the
constructor leaves uninitialised and in TLS sessions, and have sent the same replies,
see the same files and send their data the same way.
-/

namespace FtpsServer

open ByteString Cxx Machine

/-! ## 1. What a client can tell -/

namespace TcpTransport

/-- The way bytes take over the transport: through TLS or not, or into a NULL session. -/
def way (t : TcpTransport) : Except Abort Bool := t.via.map Via.isTls

def withSession (t : TcpTransport) (session : TlsSession) : TcpTransport := { t with session := session }

theorem way_eq (t : TcpTransport) :
    t.way = if t.secure then
      if t.session.session.isSome then .ok true else .error .nullSession
    else .ok false := by
  unfold way via
  cases t.secure with
  | false => rfl
  | true => cases t.session.session <;> rfl

/-- As far as the way goes, only the presence of a session matters, and only behind the flag. -/
theorem way_withSession_iff (t : TcpTransport) (session : TlsSession) :
    (t.withSession session).way = t.way ↔
      (t.secure = true → session.session.isSome = t.session.session.isSome) := by
  rw [way_eq, way_eq, withSession]
  cases t.secure with
  | false => simp
  | true => cases session.session.isSome <;> cases t.session.session.isSome <;> simp

theorem withSession_withSession (t : TcpTransport) (session session' : TlsSession) :
    (t.withSession session).withSession session' = t.withSession session' := rfl

/-- `set_tls` on two transports with the same way leaves two with the same way. -/
theorem Bound.withSession {env : Environment} {t channel channel' : TcpTransport} {session : TlsSession}
    (h : Bound env t channel) (h' : Bound env (t.withSession session) channel')
    (hway : (t.withSession session).way = t.way) :
    channel' = channel.withSession channel'.session ∧
      (channel.withSession channel'.session).way = channel.way := by
  rw [way_withSession_iff] at hway ⊢
  constructor
  · have hsocket := h'.socket.trans h.socket.symm
    have haddress := h'.address.trans h.address.symm
    have hport := h'.port.trans h.port.symm
    have hsecure := h'.secure.trans h.secure.symm
    rcases channel' with ⟨socket, own, secure, address, port⟩
    obtain rfl := hsocket
    obtain rfl := haddress
    obtain rfl := hport
    obtain rfl := hsecure
    rfl
  · intro hsecure
    rw [h.secure] at hsecure
    cases hkey : env.keyFile with
    | false =>
      rw [hkey, if_neg (by decide)] at hsecure
      rw [h.kept hkey, h'.kept hkey]
      exact hway hsecure
    | true =>
      rw [hkey, if_pos rfl] at hsecure
      obtain ⟨handle, hmade⟩ := h.made hkey hsecure
      obtain ⟨handle', hmade'⟩ := h'.made hkey hsecure
      rw [hmade, hmade']
      rfl

/-- What `set_tls` makes of the way of a transport. -/
theorem Bound.way {env : Environment} {t channel : TcpTransport} (h : Bound env t channel) :
    channel.way = if env.keyFile then .ok env.handshake else t.way := by
  rw [way_eq, way_eq, h.secure]
  cases hkey : env.keyFile with
  | false =>
    rw [h.kept hkey]
    rfl
  | true =>
    cases hhand : env.handshake with
    | false => rfl
    | true =>
      obtain ⟨handle, hmade⟩ := h.made hkey hhand
      rw [hmade]
      rfl

theorem secure_of_way {t t' : TcpTransport} (h : t'.way = t.way) : t'.secure = t.secure := by
  rw [way_eq, way_eq] at h
  revert h
  cases t.secure <;> cases t'.secure <;> cases t.session.session.isSome <;>
    cases t'.session.session.isSome <;> simp

/-- `set_tls` that cannot be told from none: the way is the one the handshake gives. -/
theorem Bound.unseen {env : Environment} {t channel : TcpTransport} (h : Bound env t channel)
    (hway : env.keyFile = true → t.way = .ok env.handshake) :
    channel = t.withSession channel.session ∧ channel.way = t.way := by
  have hsame : channel.way = t.way := by
    rw [h.way]
    cases hkey : env.keyFile with
    | false => rfl
    | true => exact (hway hkey).symm
  refine ⟨?_, hsame⟩
  have hsecure := secure_of_way hsame
  rcases channel with ⟨socket, own, secure, address, port⟩
  obtain rfl := h.socket
  obtain rfl := h.address
  obtain rfl := h.port
  obtain rfl := hsecure
  rfl

end TcpTransport

/-- The same replies, the same files, the same choice between TLS and clear text. -/
structure SameResults (th th' : Thread) : Prop where
  replies : replies th'.session.id th'.process.trace = replies th.session.id th.process.trace
  fileTree : th'.process.fileTree = th.process.fileTree
  way : th'.session.dataChannel.way = th.session.dataChannel.way

/-! ## 2. Processes side by side -/

/-- Two processes that differ in gnutls handles and in what the log says beside the replies
    of session `id`. -/
def Like (id : Nat) (p p' : Process) : Prop :=
  ∃ (nextHandle : Nat) (trace : List Event),
    p' = { p with nextHandle := nextHandle, trace := trace } ∧
      replies id trace = replies id p.trace

namespace Like

variable {id : Nat} {p p' q : Process}

theorem refl (id : Nat) (p : Process) : Like id p p := ⟨p.nextHandle, p.trace, rfl, rfl⟩

theorem symm (h : Like id p q) : Like id q p := by
  rcases h with ⟨n, trace, rfl, hreplies⟩
  exact ⟨p.nextHandle, p.trace, rfl, hreplies.symm⟩

theorem trans (h : Like id p q) (h' : Like id q p') : Like id p p' := by
  rcases h with ⟨n, trace, rfl, hreplies⟩
  rcases h' with ⟨n', trace', rfl, hreplies'⟩
  exact ⟨n', trace', rfl, hreplies'.trans hreplies⟩

theorem emit (h : Like id p q) {e e' : Event} (he : replyOf id e' = replyOf id e) :
    Like id (p.emit e) (q.emit e') := by
  rcases h with ⟨n, trace, rfl, hreplies⟩
  refine ⟨n, trace ++ [e'], rfl, ?_⟩
  rw [Process.emit_trace, replies_append, replies_append, hreplies]
  simp only [replies, List.filterMap_cons, List.filterMap_nil, he]

theorem emit_right (h : Like id p q) {e : Event} (he : replyOf id e = none) :
    Like id p (q.emit e) := by
  refine h.trans ⟨q.nextHandle, q.trace ++ [e], rfl, ?_⟩
  rw [replies_append]
  simp [replies, he]

theorem offstage (h : Offstage p p') : Like id p p' := by
  rcases h with ⟨n, calls, rfl⟩
  refine ⟨n, _, rfl, ?_⟩
  rw [replies_append]
  simp [replies, replyOf]

theorem shaken {env : Environment} {object : Object} {d : Int}
    (h : TcpTransport.Shaken env object d p p') : Like id p p' := by
  rcases h with ⟨mid, hmid, hlast⟩
  split at hlast
  · rcases hlast with ⟨handle, hlast⟩
    exact ((offstage hmid).emit_right rfl).trans (offstage hlast)
  · exact hlast ▸ offstage hmid

theorem fileTree (h : Like id p q) : q.fileTree = p.fileTree := by
  rcases h with ⟨n, trace, rfl, -⟩
  rfl

theorem replies (h : Like id p q) : replies id q.trace = replies id p.trace := by
  rcases h with ⟨n, trace, rfl, hreplies⟩
  exact hreplies

theorem setFileTree (h : Like id p q) (t : Posix.FileTree) :
    Like id (p.setFileTree t) (q.setFileTree t) := by
  rcases h with ⟨n, trace, rfl, hreplies⟩
  exact ⟨n, trace, rfl, hreplies⟩

theorem open' (h : Like id p q) : Like id p.open' q.open' := by
  rcases h with ⟨n, trace, rfl, hreplies⟩
  exact ⟨n, trace, rfl, hreplies⟩

theorem close (h : Like id p q) (d : Int) : Like id (p.close d) (q.close d) := by
  rcases h with ⟨n, trace, rfl, hreplies⟩
  exact ⟨n, trace, rfl, hreplies⟩

theorem descriptors (h : Like id p q) : q.descriptors = p.descriptors := by
  rcases h with ⟨n, trace, rfl, -⟩
  rfl

theorem new (h : Like id p q) (opens : Bool) (object : Object) :
    (TcpTransport.new opens object q).1 = (TcpTransport.new opens object p).1 ∧
      Like id (TcpTransport.new opens object p).2 (TcpTransport.new opens object q).2 := by
  constructor
  · simp only [TcpTransport.new, Process.socket, h.descriptors]
  · cases opens with
    | false => exact h.emit rfl
    | true => exact h.open'.emit rfl

theorem moveAssign (h : Like id p q) (target source : Object) (this this' other : TcpTransport)
    (hne : target ≠ source) :
    (TcpTransport.moveAssign target source this' other q).1 =
        (TcpTransport.moveAssign target source this other p).1 ∧
      Like id (TcpTransport.moveAssign target source this other p).2.2
        (TcpTransport.moveAssign target source this' other q).2.2 := by
  rw [TcpTransport.moveAssign_of_ne hne, TcpTransport.moveAssign_of_ne hne]
  exact ⟨rfl, h.emit rfl⟩

theorem closeTransport (h : Like id p q) (object : Object) (t : TcpTransport)
    (session : TlsSession) :
    Like id (t.close object p).2 ((t.withSession session).close object q).2 := by
  unfold TcpTransport.close TcpTransport.withSession
  dsimp only
  split
  · exact (((offstage (t.session.close_offstage p)).symm.trans h).trans
      (offstage (session.close_offstage q))).close _ |>.emit rfl
  · exact (h.close _).emit rfl

/-- The end of a listener: its socket is closed, then its destructor runs. -/
theorem destructTransport (h : Like id p q) (object : Object) (t : TcpTransport) :
    Like id ((t.close object p).1.destruct (t.close object p).2)
      ((t.close object q).1.destruct (t.close object q).2) :=
  ((offstage ((t.close object p).1.session.freeTlsSession_offstage _)).symm.trans
    (h.closeTransport object t t.session)).trans
      (offstage ((t.close object q).1.session.freeTlsSession_offstage _))

end Like

/-! ## 3. Sessions side by side -/

/-- The members that two sessions side by side may differ in. -/
structure Hidden where
  bufferFileSize : Int
  protectionBufferSize : Int
  protectionLevel : FtpProtectionT
  controlSession : TlsSession
  dataSession : TlsSession

def FtpSession.vary (session : FtpSession) (x : Hidden) : FtpSession :=
  { session with
    bufferFileSize := x.bufferFileSize
    protectionBufferSize := x.protectionBufferSize
    protectionLevel := x.protectionLevel
    controlChannel := session.controlChannel.withSession x.controlSession
    dataChannel := session.dataChannel.withSession x.dataSession }

/-- Which of the members that STOR and PASV read have been set by a command. -/
structure Known where
  size : Bool
  level : Bool

/-- The call sets the level, whatever it was. -/
def FtpSession.setsLevel (c : FtpSession.Call) : Bool :=
  c.input.command == .prot &&
    match c.input.getArgument 0 with
    | .ok text => (FtpSession.protectionOf text).isSome
    | .error _ => false

def Known.after (known : Known) (c : FtpSession.Call) : Known where
  size := known.size || c.input.command == .allo
  level := known.level || FtpSession.setsLevel c

/-- The hidden members agree with those of the session where they are known, and give the
    channels the same way. -/
structure Fits (known : Known) (session : FtpSession) (x : Hidden) : Prop where
  control : (session.controlChannel.withSession x.controlSession).way = session.controlChannel.way
  data : (session.dataChannel.withSession x.dataSession).way = session.dataChannel.way
  size : known.size = true → x.bufferFileSize = session.bufferFileSize
  level : known.level = true → x.protectionLevel = session.protectionLevel

/-- Two threads that differ in hidden members only. -/
def Alike (known : Known) (th th' : Thread) : Prop :=
  ∃ x q, Fits known th.session x ∧ Like th.session.id th.process q ∧ th' = ⟨th.session.vary x, q⟩

theorem TcpTransport.via_of_way {t t' : TcpTransport} (h : t'.way = t.way) :
    Related (fun _ _ => True) t.via t'.via := by
  unfold way at h
  cases hvia : t.via <;> cases hvia' : t'.via <;> rw [hvia, hvia'] at h
  · cases h
    rfl
  · cases h
  · cases h
  · trivial

theorem reply_error {env : Environment} {message : Bytes} {th : Thread} {e : Abort}
    (h : th.session.controlChannel.via = .error e) : th.reply env message = .error e := by
  unfold Thread.reply TcpTransport.push
  rw [h]
  rfl

theorem dataPush_error {env : Environment} {message : Bytes} {th : Thread} {e : Abort}
    (h : th.session.dataChannel.via = .error e) : th.dataPush env message = .error e := by
  unfold Thread.dataPush TcpTransport.push
  rw [h]
  rfl

namespace Alike

variable {known : Known} {th th' : Thread} {env : Environment}

theorem sameResults (h : Alike known th th') : SameResults th th' := by
  rcases h with ⟨x, q, hfits, hq, rfl⟩
  exact ⟨hq.replies, hq.fileTree, hfits.data⟩

theorem reply (h : Alike known th th') (message : Bytes) :
    Related (Alike known) (th.reply env message) (th'.reply env message) := by
  rcases h with ⟨x, q, hfits, hq, rfl⟩
  have hvias := TcpTransport.via_of_way hfits.control
  cases hvia : th.session.controlChannel.via with
  | error e =>
    rw [hvia] at hvias
    rw [reply_error hvia, reply_error hvias.of_error_left]
    rfl
  | ok via =>
    rw [hvia] at hvias
    rcases hvias.of_ok_left with ⟨via', hvia', -⟩
    rw [reply_ok.mpr ⟨via, hvia, rfl⟩, reply_ok.mpr ⟨via', hvia', rfl⟩]
    exact ⟨x, q.emit (replyEvent env th.session.id via' message), hfits, hq.emit rfl, rfl⟩

theorem replyMembers {session session' : FtpSession} {p q : Process} {message : Bytes} (x : Hidden)
    (hsession : session' = session.vary x) (hfits : Fits known session x)
    (hq : Like session.id p q) :
    Related (Alike known) (Thread.reply env message ⟨session, p⟩)
      (Thread.reply env message ⟨session', q⟩) :=
  Alike.reply ⟨x, q, hfits, hq, hsession ▸ rfl⟩ message

theorem replyWhen (h : Alike known th th') (condition : Bool) (message : Bytes) :
    Related (Alike known) (th.replyWhen env condition message)
      (th'.replyWhen env condition message) := by
  cases condition with
  | false => exact h
  | true => exact h.reply message

theorem dataPush (h : Alike known th th') (message : Bytes) :
    Related (Alike known) (th.dataPush env message) (th'.dataPush env message) := by
  rcases h with ⟨x, q, hfits, hq, rfl⟩
  have hvias := TcpTransport.via_of_way hfits.data
  cases hvia : th.session.dataChannel.via with
  | error e =>
    rw [hvia] at hvias
    rw [dataPush_error hvia, dataPush_error hvias.of_error_left]
    rfl
  | ok via =>
    rw [hvia] at hvias
    rcases hvias.of_ok_left with ⟨via', hvia', -⟩
    rw [dataPush_ok.mpr ⟨via, hvia, rfl⟩, dataPush_ok.mpr ⟨via', hvia', rfl⟩]
    exact ⟨x, q.emit (dataPushEvent env th.session.id via' message), hfits, hq.emit rfl, rfl⟩

theorem dataClose (h : Alike known th th') : Alike known th.dataClose th'.dataClose := by
  rcases h with ⟨x, q, hfits, hq, rfl⟩
  have hclosed := hq.closeTransport (.data th.session.id) th.session.dataChannel x.dataSession
  refine ⟨{ x with dataSession :=
    if th.session.dataChannel.secure then .null else x.dataSession }, _, ?_, hclosed, ?_⟩
  · refine ⟨hfits.control, ?_, hfits.size, hfits.level⟩
    have hway := (TcpTransport.way_withSession_iff _ _).mp hfits.data
    unfold Thread.dataClose
    dsimp only
    rw [TcpTransport.close_fst, TcpTransport.way_withSession_iff]
    intro hsecure
    change th.session.dataChannel.secure = true at hsecure
    simp only [TcpTransport.closed, hsecure, if_true]
  · unfold Thread.dataClose FtpSession.vary
    simp only [TcpTransport.close_fst, TcpTransport.closed, TcpTransport.withSession]

theorem setFileTree (h : Alike known th th') (t : Posix.FileTree) :
    Alike known (th.setFileTree t) (th'.setFileTree t) := by
  rcases h with ⟨x, q, hfits, hq, rfl⟩
  exact ⟨x, _, hfits, hq.setFileTree t, rfl⟩

theorem notify (h : Alike known th th') (event : FtpObserveEventT) (message : Bytes) :
    Alike known (th.notify event message) (th'.notify event message) := by
  rcases h with ⟨x, q, hfits, ⟨n, trace, rfl, hreplies⟩, rfl⟩
  refine ⟨x, _, hfits, ⟨n, _, rfl, ?_⟩, rfl⟩
  have hnone : ∀ signalled : List Nat, FtpsServer.replies th.session.id
      (signalled.map fun observer => Event.notifySignal observer message) = [] := by
    simp [FtpsServer.replies, replyOf]
  simp only [Thread.notify, replies_append, hreplies, hnone]

end Alike

end FtpsServer
