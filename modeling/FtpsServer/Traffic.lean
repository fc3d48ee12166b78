import FtpsServer.FtpSession

/-!
# The traffic of a process

Most events of the log are housekeeping: sockets opened, descriptors moved, calls
into gnutls.  The *traffic* is what carries information to or from the outside:
pushes, pulls and signals to observers.  An operation is `Quiet` when it neither
changes the shared state a client can see nor adds traffic.  Every operation on
transports other than push and pull is quiet.
-/

namespace FtpsServer

open ByteString Cxx Machine

/-! ## 1. Traffic and quiet steps -/

def Event.isTraffic : Event → Bool
  | .push _ _ _ _ => true
  | .pull _ _ _ => true
  | .notifySignal _ _ => true
  | _ => false

def traffic (events : List Event) : List Event := events.filter Event.isTraffic

@[simp] theorem traffic_nil : traffic [] = [] := rfl

@[simp] theorem traffic_append (front back : List Event) :
    traffic (front ++ back) = traffic front ++ traffic back := List.filter_append ..

@[simp] theorem traffic_cons (e : Event) (events : List Event) :
    traffic (e :: events) = if e.isTraffic then e :: traffic events else traffic events :=
  List.filter_cons

theorem traffic_eq_self {events : List Event} (h : ∀ e ∈ events, e.isTraffic = true) :
    traffic events = events := List.filter_eq_self.mpr h

structure Quiet (p p' : Process) : Prop where
  fileTree : p'.fileTree = p.fileTree
  database : p'.database = p.database
  observers : p'.observers = p.observers
  traffic : traffic p'.trace = traffic p.trace

namespace Quiet

theorem refl (p : Process) : Quiet p p := ⟨rfl, rfl, rfl, rfl⟩

theorem trans {p q r : Process} (h : Quiet p q) (h' : Quiet q r) : Quiet p r :=
  ⟨h'.fileTree.trans h.fileTree, h'.database.trans h.database,
    h'.observers.trans h.observers, h'.traffic.trans h.traffic⟩

theorem emit {p q : Process} (h : Quiet p q) {e : Event} (he : e.isTraffic = false) :
    Quiet p (q.emit e) :=
  ⟨h.fileTree, h.database, h.observers, by simp [he, h.traffic]⟩

theorem close {p q : Process} (h : Quiet p q) (descriptor : Int) : Quiet p (q.close descriptor) :=
  ⟨h.fileTree, h.database, h.observers, h.traffic⟩

theorem open' {p q : Process} (h : Quiet p q) : Quiet p q.open' :=
  ⟨h.fileTree, h.database, h.observers, h.traffic⟩

theorem allocate {p q : Process} (h : Quiet p q) : Quiet p q.allocate.2 :=
  ⟨h.fileTree, h.database, h.observers, by simp [Process.allocate, Event.isTraffic, h.traffic]⟩

end Quiet

/-- From `p` to `p'` there are only calls into gnutls. -/
def Offstage (p p' : Process) : Prop :=
  ∃ (nextHandle : Nat) (calls : List GnutlsCall),
    p' = { p with nextHandle := nextHandle, trace := p.trace ++ calls.map Event.gnutls }

namespace Offstage

theorem refl (p : Process) : Offstage p p := ⟨p.nextHandle, [], by simp⟩

theorem trans {p q r : Process} (h : Offstage p q) (h' : Offstage q r) : Offstage p r := by
  rcases h with ⟨n, calls, rfl⟩
  rcases h' with ⟨n', calls', rfl⟩
  exact ⟨n', calls ++ calls', by simp⟩

theorem call {p q : Process} (h : Offstage p q) (c : GnutlsCall) :
    Offstage p (q.emit (.gnutls c)) := h.trans ⟨q.nextHandle, [c], rfl⟩

theorem allocate {p q : Process} (h : Offstage p q) : Offstage p q.allocate.2 :=
  h.trans ⟨q.nextHandle + 1, [.allocate q.nextHandle], rfl⟩

theorem quiet {p p' : Process} (h : Offstage p p') : Quiet p p' := by
  rcases h with ⟨n, calls, rfl⟩
  refine ⟨rfl, rfl, rfl, ?_⟩
  rw [traffic_append, List.append_right_eq_self]
  exact List.filter_eq_nil_iff.mpr (by simp [Event.isTraffic])

end Offstage

/-! ## 2. TLS sessions -/

namespace TlsSession

theorem createTlsSession_offstage (env : Environment) (descriptor : Int) (s : TlsSession)
    (p : Process) : Offstage p (s.createTlsSession env descriptor p).2.2 := by
  unfold createTlsSession initializeCredentials initializeDhParameters initializeSession
  cases env.keyFile with
  | false => exact (Offstage.refl p).allocate.call _
  | true =>
    exact (((((((Offstage.refl p).allocate.call _).allocate.call _).call _).allocate).call _).call _)

theorem createTlsSession_session (env : Environment) (descriptor : Int) (s : TlsSession)
    (p : Process) :
    ((s.createTlsSession env descriptor p).1 = OPERATION_SUCCESS ↔ env.keyFile = true) ∧
      ((s.createTlsSession env descriptor p).2.1.session =
        if env.keyFile then some ⟨p.nextHandle + 2, descriptor⟩ else s.session) := by
  unfold createTlsSession initializeCredentials initializeDhParameters initializeSession
  cases env.keyFile with
  | false => simp [OPERATION_SUCCESS, OPERATION_FAILURE]
  | true => simp [OPERATION_SUCCESS, Process.allocate]

/-- Credentials are allocated before the key file is looked at. -/
theorem createTlsSession_credentials (env : Environment) (descriptor : Int) (s : TlsSession)
    (p : Process) : (s.createTlsSession env descriptor p).2.1.credentials = some p.nextHandle := by
  unfold createTlsSession initializeCredentials initializeDhParameters initializeSession
  cases env.keyFile <;> rfl

theorem freeTlsSession_offstage (s : TlsSession) (p : Process) :
    Offstage p (s.freeTlsSession p).2 := by
  unfold freeTlsSession
  -- one call for each handle that is there
  cases s.session <;> cases s.dhParameters <;> cases s.credentials <;> dsimp only <;>
    · repeat apply Offstage.call
      apply Offstage.refl

theorem close_offstage (s : TlsSession) (p : Process) : Offstage p (s.close p).2 := by
  refine Offstage.trans ?_ (s.freeTlsSession_offstage _)
  cases s.session with
  | none => exact Offstage.refl p
  | some session => exact (Offstage.refl p).call _

end TlsSession

/-! ## 3. Transports -/

namespace TcpTransport

/-- The flag of a transport is the way its bytes take. -/
theorem isTls_of_via {t : TcpTransport} {via : Via} (h : t.via = .ok via) :
    via.isTls = t.secure := by
  unfold TcpTransport.via at h
  cases hsecure : t.secure with
  | false =>
    rw [hsecure] at h
    cases h
    rfl
  | true =>
    rw [hsecure] at h
    cases hsession : t.session.session with
    | none => simp [hsession] at h
    | some session =>
      simp only [hsession, if_true] at h
      cases h
      rfl

theorem new_quiet (opens : Bool) (object : Object) (p : Process) :
    Quiet p (new opens object p).2 := by
  cases opens with
  | false => exact (Quiet.refl p).emit rfl
  | true => exact (Quiet.refl p).open'.emit rfl

theorem ofSocket_quiet (env : Environment) (object : Object) (descriptor : Int) (p : Process) :
    Quiet p (ofSocket env object descriptor p).2 := by
  unfold ofSocket
  cases env.getsockname <;> exact (Quiet.refl p).emit rfl

theorem moveAssign_quiet (target source : Object) (this other : TcpTransport) (p : Process) :
    Quiet p (moveAssign target source this other p).2.2 := by
  unfold moveAssign
  split
  · exact Quiet.refl p
  · exact (Quiet.refl p).emit rfl

theorem moveAssign_of_ne {target source : Object} (h : target ≠ source) (this other : TcpTransport)
    (p : Process) :
    moveAssign target source this other p =
      (other, ⟨0, .null, false, [], 0⟩, p.emit (.move source target other.socket)) := by
  simp [moveAssign, h]

theorem close_quiet (object : Object) (t : TcpTransport) (p : Process) :
    Quiet p (t.close object p).2 := by
  unfold close
  cases t.secure with
  | true => exact ((t.session.close_offstage p).quiet.close _).emit rfl
  | false => exact ((Quiet.refl p).close _).emit rfl

/-- What a closed transport looks like: no descriptor, and the flag as it was. -/
def closed (t : TcpTransport) : TcpTransport :=
  { t with socket := 0, session := if t.secure then .null else t.session }

/-- A transport on which `close` changes nothing. -/
def IsClosed (t : TcpTransport) : Prop := t.socket = 0 ∧ (t.secure = true → t.session = .null)

theorem closed_eq_self_iff (t : TcpTransport) : t.closed = t ↔ t.IsClosed := by
  rcases t with ⟨socket, session, secure, address, port⟩
  cases secure <;> simp [closed, IsClosed, eq_comm]

theorem close_fst (object : Object) (t : TcpTransport) (p : Process) :
    (t.close object p).1 = t.closed := by
  unfold close closed
  cases t.secure <;> rfl

theorem connect_quiet (env : Environment) (object : Object) (t : TcpTransport) (address : Bytes)
    (port : Int) (p : Process) : Quiet p (t.connect env object address port p).2.2 := by
  unfold connect
  dsimp only
  split <;> exact (Quiet.refl p).emit rfl

theorem destruct_quiet (t : TcpTransport) (p : Process) : Quiet p (t.destruct p) :=
  (t.session.freeTlsSession_offstage p).quiet

/-- What `set_tls` makes of the transport `t`.  Without the key file the transport keeps
    its session and its flag; with it, the handshake decides both.  Either way it has new
    credentials. -/
structure Bound (env : Environment) (t t' : TcpTransport) : Prop where
  socket : t'.socket = t.socket
  address : t'.address = t.address
  port : t'.port = t.port
  secure : t'.secure = if env.keyFile then env.handshake else t.secure
  kept : env.keyFile = false → t'.session.session = t.session.session
  made : env.keyFile = true → env.handshake = true →
    ∃ handle, t'.session.session = some ⟨handle, t.socket⟩
  lost : env.keyFile = true → env.handshake = false → t'.session.session = none
  credentials : t'.session.credentials.isSome = true

/-- What `set_tls` does to the process: calls into gnutls, and with the key file one
    handshake over `descriptor`. -/
def Shaken (env : Environment) (object : Object) (descriptor : Int) (p p' : Process) : Prop :=
  ∃ mid, Offstage p mid ∧ if env.keyFile then
    ∃ handle, Offstage (mid.emit (.handshake object ⟨handle, descriptor⟩ env.handshake)) p'
  else p' = mid

theorem Shaken.quiet {env : Environment} {object : Object} {descriptor : Int} {p p' : Process}
    (h : Shaken env object descriptor p p') : Quiet p p' := by
  rcases h with ⟨mid, hmid, hlast⟩
  split at hlast
  · rcases hlast with ⟨handle, hlast⟩
    exact (hmid.quiet.emit rfl).trans hlast.quiet
  · exact hlast ▸ hmid.quiet

/-- **`set_tls`** never aborts: it hands gnutls the session it has just created. -/
theorem setTls_ok (env : Environment) (object : Object) (t : TcpTransport) (p : Process) :
    ∃ result t' p', t.setTls env object p = .ok (result, t', p') ∧
      Shaken env object t.socket p p' ∧ Bound env t t' := by
  have hcreated := TlsSession.createTlsSession_offstage env t.socket t.session p
  rcases TlsSession.createTlsSession_session env t.socket t.session p with ⟨hresult, hsession⟩
  have hcredentials :
      (t.session.createTlsSession env t.socket p).2.1.credentials.isSome = true := by
    rw [TlsSession.createTlsSession_credentials]
    rfl
  unfold setTls TlsSession.bind Shaken
  cases hkey : env.keyFile with
  | false =>
    have hfail : (t.session.createTlsSession env t.socket p).1 ≠ OPERATION_SUCCESS := by
      rw [Ne, hresult, hkey]
      decide
    dsimp only
    rw [if_pos hfail]
    rw [hkey, if_neg (by decide)] at hsession
    exact ⟨_, _, _, rfl, ⟨_, hcreated, rfl⟩, rfl, rfl, rfl, by simp [hkey], fun _ => hsession,
      by simp [hkey], by simp [hkey], hcredentials⟩
  | true =>
    have hsucc : ¬ (t.session.createTlsSession env t.socket p).1 ≠ OPERATION_SUCCESS := by
      rw [Ne, not_not, hresult, hkey]
    dsimp only
    rw [if_neg hsucc]
    rw [hkey, if_pos rfl] at hsession
    unfold TlsSession.handshake
    rw [hsession]
    cases hhand : env.handshake with
    | true =>
      exact ⟨_, _, _, rfl, ⟨_, hcreated.call _, _, Offstage.refl _⟩, rfl, rfl, rfl,
        by simp [hkey, hhand], by simp [hkey], fun _ _ => ⟨_, hsession⟩, by simp [hhand], hcredentials⟩
    | false =>
      exact ⟨_, _, _, rfl, ⟨_, hcreated.call _, _, (Offstage.refl _).call _⟩, rfl, rfl, rfl,
        by simp [hkey, hhand], by simp [hkey], by simp [hhand], fun _ _ => rfl, hcredentials⟩

end TcpTransport

namespace TcpListener

theorem new_quiet (opens : Bool) (object : Object) (p : Process) :
    Quiet p (new opens object p).2 :=
  TcpTransport.new_quiet opens object p

theorem ofAddress_quiet (opens : Bool) (object : Object) (address : Bytes) (port queueSize : Int)
    (p : Process) : Quiet p (ofAddress opens object address port queueSize p).2 :=
  TcpTransport.new_quiet opens object p

theorem moveAssign_quiet (target source : Object) (this other : TcpListener) (p : Process) :
    Quiet p (moveAssign target source this other p).2 :=
  TcpTransport.moveAssign_quiet target source this.transport other.transport p

theorem bind_quiet (env : Environment) (object : Object) (attempt : Nat) (listener : TcpListener)
    (p : Process) : Quiet p (listener.bind env object attempt p).2 := by
  unfold bind
  dsimp only
  split <;> exact (Quiet.refl p).emit rfl

theorem bind_fst (env : Environment) (object : Object) (attempt : Nat) (listener : TcpListener)
    (p : Process) :
    (listener.bind env object attempt p).1 =
      if env.bind attempt then OPERATION_SUCCESS else OPERATION_FAILURE := by
  unfold bind
  dsimp only
  split <;> rfl

theorem accept_quiet (env : Environment) (object target : Object) (listener : TcpListener)
    (transport : TcpTransport) (p : Process) :
    Quiet p (listener.accept env object target transport p).2.2 := by
  unfold accept
  dsimp only
  split
  · exact (((Quiet.refl p).open'.emit rfl).trans (TcpTransport.ofSocket_quiet env _ _ _)).trans
      (TcpTransport.moveAssign_quiet _ _ _ _ _)
  · exact (Quiet.refl p).emit rfl

theorem accept_transport (env : Environment) (object target : Object)
    (htarget : target ≠ .temporary) (listener : TcpListener) (transport : TcpTransport)
    (p : Process) :
    (listener.accept env object target transport p).2.1 =
      if env.accept then
        ⟨p.descriptors.lowestFree, .null, false, (env.getsockname.getD ([], 0)).1,
          (env.getsockname.getD ([], 0)).2⟩
      else transport := by
  unfold accept
  cases env.accept with
  | false => rfl
  | true =>
    simp only [TcpTransport.moveAssign_of_ne htarget, TcpTransport.ofSocket]
    cases env.getsockname <;> rfl

end TcpListener

theorem FtpSession.construct_quiet (opens : Bool) (id : Nat) (connection : TcpTransport)
    (garbage : Uninitialised) (p : Process) :
    Quiet p (construct opens id connection garbage p).process :=
  ((Quiet.refl p).emit rfl).trans (TcpTransport.new_quiet opens (.data id) _)

end FtpsServer
