import FtpsServer.Credentials

/-!
# The port of a passive data channel

`command_pasv` takes a number from `DATA_PORT_ALLOCATION`, which only grows.  The 227
reply has its low 16 bits in two fields, and `tcp_listener::bind` cuts it to 16 bits too.
The two agree on every number but the multiples of 65536: these are advertised as port
0, and for a bind to port 0 the kernel chooses another one.
-/

namespace FtpsServer

open ByteString Cxx Machine

/-! ## 1. Listening and accepting -/

/-- The port that a successful bind gives to `descriptor`. -/
def boundPort (descriptor : Int) : Event → Option Nat
  | .bind _ d (some port) => if d = descriptor then some port else none
  | _ => none

/-- The port a socket listens on after these events: the one it was bound to last. -/
def listensOn (descriptor : Int) (events : List Event) : Option Nat :=
  (events.filterMap (boundPort descriptor)).getLast?

/-- The socket that the data listener of session `id` accepts from. -/
def acceptsFrom (id : Nat) : Event → Option Int
  | .accept (.passive session) descriptor _ => if session = id then some descriptor else none
  | _ => none

/-- The ports of the sockets that session `id` accepts from in `events`, behind `past`. -/
def acceptedPorts (id : Nat) : List Event → List Event → List (Option Nat)
  | _, [] => []
  | past, e :: events =>
    ((acceptsFrom id e).toList.map fun descriptor => listensOn descriptor past) ++
      acceptedPorts id (past ++ [e]) events

theorem listensOn_bind (descriptor : Int) (port : Nat) (object : Object) (events : List Event) :
    listensOn descriptor (events ++ [.bind object descriptor (some port)]) = some port := by
  simp [listensOn, boundPort]

theorem listensOn_append {descriptor : Int} {front back : List Event}
    (h : ∀ e ∈ back, boundPort descriptor e = none) :
    listensOn descriptor (front ++ back) = listensOn descriptor front := by
  unfold listensOn
  rw [List.filterMap_append, List.filterMap_eq_nil_iff.mpr h, List.append_nil]

theorem acceptedPorts_append (id : Nat) (past front back : List Event) :
    acceptedPorts id past (front ++ back) =
      acceptedPorts id past front ++ acceptedPorts id (past ++ front) back := by
  induction front generalizing past with
  | nil => simp [acceptedPorts]
  | cons e front ih =>
    rw [List.cons_append, acceptedPorts, acceptedPorts, ih, List.append_assoc, List.append_assoc,
      List.singleton_append]

theorem acceptedPorts_eq_nil {id : Nat} {events : List Event}
    (h : ∀ e ∈ events, acceptsFrom id e = none) (past : List Event) :
    acceptedPorts id past events = [] := by
  induction events generalizing past with
  | nil => rfl
  | cons e events ih =>
    rw [acceptedPorts, h e List.mem_cons_self, ih fun e' he' => h e' (List.mem_cons_of_mem _ he')]
    rfl

/-- One accept, and the port of its socket. -/
theorem acceptedPorts_once {id : Nat} {front back : List Event} {descriptor : Int}
    {result : Option Int} (hfront : ∀ e ∈ front, acceptsFrom id e = none)
    (hback : ∀ e ∈ back, acceptsFrom id e = none) (past : List Event) :
    acceptedPorts id past (front ++ .accept (.passive id) descriptor result :: back) =
      [listensOn descriptor (past ++ front)] := by
  rw [acceptedPorts_append, acceptedPorts_eq_nil hfront, acceptedPorts, acceptedPorts_eq_nil hback]
  simp [acceptsFrom]

/-- From `p` to `p'` there are only events with the property `P`. -/
def Adds (P : Event → Prop) (p p' : Process) : Prop :=
  ∃ new, p'.trace = p.trace ++ new ∧ ∀ e ∈ new, P e

namespace Adds

variable {P : Event → Prop} {p q r : Process}

theorem same (h : q.trace = p.trace) : Adds P p q := ⟨[], by rw [h, List.append_nil], by simp⟩

theorem trans (h : Adds P p q) (h' : Adds P q r) : Adds P p r := by
  rcases h with ⟨new, hnew, hP⟩
  rcases h' with ⟨new', hnew', hP'⟩
  refine ⟨new ++ new', by rw [hnew', hnew, List.append_assoc], ?_⟩
  intro e he
  rcases List.mem_append.mp he with he | he
  · exact hP e he
  · exact hP' e he

theorem emit (p : Process) {e : Event} (he : P e) : Adds P p (p.emit e) :=
  ⟨[e], rfl, by simpa using he⟩

theorem mono {Q : Event → Prop} (h : Adds P p q) (hsub : ∀ e, P e → Q e) : Adds Q p q := by
  rcases h with ⟨new, hnew, hP⟩
  exact ⟨new, hnew, fun e he => hsub e (hP e he)⟩

end Adds

/-- A call that neither binds nor accepts. -/
def Event.IsIdle : Event → Prop
  | .bind _ _ _ => False
  | .accept _ _ _ => False
  | _ => True

theorem Event.IsIdle.boundPort {e : Event} (h : e.IsIdle) (descriptor : Int) :
    boundPort descriptor e = none := by
  cases e with
  | bind object d port => exact h.elim
  | _ => rfl

theorem Event.IsIdle.acceptsFrom {e : Event} (h : e.IsIdle) (id : Nat) :
    acceptsFrom id e = none := by
  cases e with
  | accept object d result => exact h.elim
  | _ => rfl

theorem Offstage.idle {p p' : Process} (h : Offstage p p') : Adds Event.IsIdle p p' := by
  rcases h with ⟨n, calls, rfl⟩
  refine ⟨calls.map Event.gnutls, rfl, ?_⟩
  intro e he
  obtain ⟨c, -, rfl⟩ := List.mem_map.mp he
  trivial

theorem Shaken.idle {env : Environment} {object : Object} {descriptor : Int} {p p' : Process}
    (h : TcpTransport.Shaken env object descriptor p p') : Adds Event.IsIdle p p' := by
  rcases h with ⟨mid, hmid, hlast⟩
  split at hlast
  · rcases hlast with ⟨handle, hlast⟩
    have hshake : Event.IsIdle (.handshake object ⟨handle, descriptor⟩ env.handshake) := trivial
    exact (hmid.idle.trans (.emit mid hshake)).trans hlast.idle
  · exact hlast ▸ hmid.idle

theorem TcpTransport.new_idle (opens : Bool) (object : Object) (p : Process) :
    Adds Event.IsIdle p (new opens object p).2 := by
  cases opens with
  | false =>
    have hfailed : Event.IsIdle (.socket object none) := trivial
    exact .emit p hfailed
  | true =>
    have hopened : Event.IsIdle (.socket object (some p.descriptors.lowestFree)) := trivial
    exact (Adds.same rfl).trans (.emit p.open' hopened)

theorem TcpTransport.new_dataPortAllocation (opens : Bool) (object : Object) (p : Process) :
    (new opens object p).2.dataPortAllocation = p.dataPortAllocation := by
  cases opens <;> rfl

theorem TcpTransport.close_idle (object : Object) (t : TcpTransport) (p : Process) :
    Adds Event.IsIdle p (t.close object p).2 := by
  have hclose : ∀ q : Process,
      Adds Event.IsIdle q ((q.close t.socket).emit (.close object t.socket)) := by
    intro q
    exact (Adds.same (q.close_trace t.socket)).trans (.emit _ trivial)
  unfold TcpTransport.close
  cases t.secure with
  | true => exact (t.session.close_offstage p).idle.trans (hclose _)
  | false => exact hclose p

theorem TcpTransport.ofSocket_idle (env : Environment) (object : Object) (descriptor : Int)
    (p : Process) : Adds Event.IsIdle p (ofSocket env object descriptor p).2 := by
  have hadopt : Event.IsIdle (.adopt object descriptor) := trivial
  unfold ofSocket
  cases env.getsockname <;> exact .emit p hadopt

theorem TcpTransport.moveAssign_idle (target source : Object) (this other : TcpTransport)
    (p : Process) : Adds Event.IsIdle p (moveAssign target source this other p).2.2 := by
  unfold moveAssign
  split
  · exact .same rfl
  · exact .emit p trivial

namespace FtpSession

variable {env : Environment} {input : FtpCommand} {th th' : Thread}

/-! ## 2. The listener of PASV -/

/-- The port of a socket that is bound to the low 16 bits of `port`. -/
def listenPort (env : Environment) (port : Int) : Nat :=
  if (BitVec.ofInt 16 port).toNat = 0 then env.ephemeralPort else (BitVec.ofInt 16 port).toNat

/-- One attempt: a fresh socket, or -1, is moved into the listener and bound. -/
theorem allocateListener_succ (env : Environment) (id : Nat) (address : Bytes)
    (attempts attempt : Nat) (listener : TcpListener) (port : Int) (p : Process) :
    let opens := env.socket (attempt + 1)
    let descriptor := p.socket opens
    let listener' : TcpListener := ⟨⟨descriptor, .null, false, address, port⟩, 1⟩
    let q := (TcpTransport.new opens .temporary p).2.emit
      (.move .temporary (.passive id) descriptor)
    allocateListener env id address (attempts + 1) attempt listener port p =
      if env.bind attempt then
        (true, listener', port, q.emit (.bind (.passive id) descriptor (some (listenPort env port))))
      else
        allocateListener env id address attempts (attempt + 1) listener' q.dataPortAllocation
          (nextPort (q.emit (.bind (.passive id) descriptor none))).2 := by
  dsimp only
  rw [allocateListener]
  unfold TcpListener.bind listenPort
  cases env.bind attempt <;> rfl

/-- Attempt `n` is the first whose bind succeeds. -/
def FirstBind (env : Environment) (attempt n : Nat) : Prop :=
  env.bind (attempt + n) = true ∧ ∀ m < n, env.bind (attempt + m) = false

/-- **The attempts of `command_pasv`**: nothing is accepted, and the listener they leave
    listens on the number that the first successful one took. -/
theorem allocateListener_listens (env : Environment) (id : Nat) (address : Bytes)
    (attempts attempt : Nat) (listener : TcpListener) (port : Int) (p : Process)
    (hcounter : p.dataPortAllocation = increment port) :
    let allocated := allocateListener env id address attempts attempt listener port p
    Adds (fun e => acceptsFrom id e = none) p allocated.2.2.2 ∧
      (allocated.1 = true → ∃ n < attempts, FirstBind env attempt n ∧
        allocated.2.2.1 = increment^[n] port ∧
        listensOn allocated.2.1.transport.socket allocated.2.2.2.trace =
          some (listenPort env allocated.2.2.1)) := by
  induction attempts generalizing attempt listener port p with
  | zero => exact ⟨.same rfl, fun h => by cases h⟩
  | succ attempts ih =>
    have hnew : Adds (fun e => acceptsFrom id e = none) p
        (TcpTransport.new (env.socket (attempt + 1)) .temporary p).2 :=
      (TcpTransport.new_idle _ _ p).mono fun e he => he.acceptsFrom id
    have hmove : acceptsFrom id (.move .temporary (.passive id)
      (p.socket (env.socket (attempt + 1)))) = none := rfl
    have hfresh := hnew.trans (.emit _ hmove)
    dsimp only
    rw [allocateListener_succ]
    cases hbind : env.bind attempt with
    | true =>
      rw [if_pos rfl]
      refine ⟨hfresh.trans (.emit _ rfl), fun _ => ⟨0, by omega, ⟨hbind, ?_⟩, rfl, ?_⟩⟩
      · intro m hm
        omega
      · exact listensOn_bind _ _ _ _
    | false =>
      rw [if_neg (by decide)]
      obtain ⟨hadds, hlistens⟩ := ih (attempt + 1)
        ⟨⟨p.socket (env.socket (attempt + 1)), .null, false, address, port⟩, 1⟩
        ((TcpTransport.new (env.socket (attempt + 1)) .temporary p).2.emit
          (.move .temporary (.passive id) (p.socket (env.socket (attempt + 1))))).dataPortAllocation
        (nextPort (((TcpTransport.new (env.socket (attempt + 1)) .temporary p).2.emit
          (.move .temporary (.passive id) (p.socket (env.socket (attempt + 1))))).emit
          (.bind (.passive id) (p.socket (env.socket (attempt + 1))) none))).2 rfl
      refine ⟨((hfresh.trans (.emit _ rfl)).trans (.same rfl)).trans hadds, ?_⟩
      intro hflag
      rcases hlistens hflag with ⟨n, hn, ⟨hfirst, hbefore⟩, hport, hlistens⟩
      refine ⟨n + 1, by omega, ⟨?_, ?_⟩, ?_, hlistens⟩
      · rwa [Nat.add_assoc, Nat.add_comm 1 n] at hfirst
      · intro m hm
        cases m with
        | zero => exact hbind
        | succ m =>
          have hfailed := hbefore m (by omega)
          rwa [Nat.add_assoc, Nat.add_comm 1 m] at hfailed
      · have hnext : increment^[n + 1] port = increment^[n] ((TcpTransport.new
            (env.socket (attempt + 1)) .temporary p).2.emit (.move .temporary (.passive id)
              (p.socket (env.socket (attempt + 1))))).dataPortAllocation := by
          rw [Function.iterate_succ_apply, ← hcounter, Process.emit_dataPortAllocation,
            TcpTransport.new_dataPortAllocation]
        rw [hnext]
        exact hport

theorem accept_adds (env : Environment) (object target : Object) (listener : TcpListener)
    (transport : TcpTransport) (p : Process) :
    ∃ result mid, mid.trace = p.trace ++ [.accept object listener.transport.socket result] ∧
      Adds Event.IsIdle mid (listener.accept env object target transport p).2.2 := by
  unfold TcpListener.accept
  cases env.accept with
  | false => exact ⟨none, p.emit (.accept object listener.transport.socket none), rfl, .same rfl⟩
  | true =>
    refine ⟨some p.descriptors.lowestFree, p.open'.emit (.accept object listener.transport.socket
      (some p.descriptors.lowestFree)), rfl, ?_⟩
    exact (TcpTransport.ofSocket_idle env .temporary p.descriptors.lowestFree _).trans
      (TcpTransport.moveAssign_idle _ _ _ _ _)

theorem secureData_idle (h : secureData env th = .ok th') :
    Adds Event.IsIdle th.process th'.process ∧ th'.session.id = th.session.id := by
  unfold secureData at h
  split at h
  · obtain ⟨⟨result, channel, p⟩, h₁, h⟩ := bind_ok_iff.mp h
    obtain rfl := pure_ok_iff.mp h
    obtain ⟨result', channel', p', heq, hshaken, -⟩ :=
      TcpTransport.setTls_ok env (.data th.session.id) th.session.dataChannel th.process
    rw [heq] at h₁
    cases h₁
    exact ⟨Shaken.idle hshaken, rfl⟩
  · cases h
    exact ⟨.same rfl, rfl⟩

theorem acceptData_adds {listener : TcpListener} (h : acceptData env listener th = .ok th') :
    ∃ result back, th'.process.trace =
        th.process.trace ++ .accept (.passive th.session.id) listener.transport.socket result :: back ∧
      ∀ e ∈ back, e.IsIdle := by
  unfold acceptData at h
  dsimp only at h
  obtain ⟨th₁, h₁, h⟩ := bind_ok_iff.mp h
  obtain rfl := pure_ok_iff.mp h
  rcases accept_adds env (.passive th.session.id) (.data th.session.id) listener
    th.session.dataChannel th.process with ⟨result, mid, hmid, haccept⟩
  have hclose := (listener.transport.close_idle (.passive th₁.session.id) th₁.process).trans
    ((listener.transport.close (.passive th₁.session.id) th₁.process).1.session.freeTlsSession_offstage
      (listener.transport.close (.passive th₁.session.id) th₁.process).2).idle
  rcases (haccept.trans (secureData_idle h₁).1).trans hclose with ⟨back, hback, hidle⟩
  refine ⟨result, back, ?_, hidle⟩
  refine hback.trans ?_
  rw [hmid, List.append_assoc, List.singleton_append]

theorem listening_listens (env : Environment) (th : Thread) :
    Adds (fun e => acceptsFrom th.session.id e = none) th.process (listening env th).2.2.2 ∧
      ((listening env th).1 = true → ∃ n < 20, FirstBind env 0 n ∧
        (listening env th).2.2.1 = increment^[n] th.process.dataPortAllocation ∧
        listensOn (listening env th).2.1.transport.socket (listening env th).2.2.2.trace =
          some (listenPort env (listening env th).2.2.1)) := by
  obtain ⟨hadds, hlistens⟩ := allocateListener_listens env th.session.id
    th.session.controlChannel.address 20 0
    (TcpListener.new (env.socket 0) (.passive th.session.id) (nextPort th.process).2).1
    (nextPort th.process).1
    (TcpListener.new (env.socket 0) (.passive th.session.id) (nextPort th.process).2).2
    (TcpTransport.new_dataPortAllocation _ _ _)
  have hfresh : Adds (fun e => acceptsFrom th.session.id e = none) th.process
      (TcpListener.new (env.socket 0) (.passive th.session.id) (nextPort th.process).2).2 :=
    (Adds.same rfl).trans ((TcpTransport.new_idle _ _ (nextPort th.process).2).mono
      fun e he => he.acceptsFrom _)
  exact ⟨hfresh.trans hadds, hlistens⟩

/-- **What PASV does behind its 227 reply**: it accepts once, from a socket that listens on
    the number that was bound. -/
theorem commandPasv_accepts (hbinds : BindsWithin env 0 20)
    (h : commandPasv env input th = .ok th') :
    ∃ n < 20, FirstBind env 0 n ∧ ∃ via new, th'.process.trace = th.process.trace ++ new ∧
      replyEvent env th.session.id via (passiveReply th.session.controlChannel.address
        (increment^[n] th.process.dataPortAllocation)) ∈ new ∧
      acceptedPorts th.session.id th.process.trace new =
        [some (listenPort env (increment^[n] th.process.dataPortAllocation))] := by
  rcases listening_listens env th with ⟨hfront, hlistens⟩
  have hflag := (listening_spec env th).1.mpr hbinds
  rw [commandPasv_eq] at h
  generalize listening env th = allocated at h hflag hlistens hfront
  rcases allocated with ⟨allocationFlag, listener, port, p⟩
  dsimp only at h hflag hlistens hfront
  rw [hflag] at h
  obtain ⟨th₁, h₁, h⟩ := bind_ok_iff.mp h
  obtain ⟨via, hvia, rfl⟩ := reply_ok.mp h₁
  rcases hlistens hflag with ⟨n, hn, hfirst, hport, hsocket⟩
  rw [hport] at hsocket
  rcases hfront with ⟨front, hfront, hnone⟩
  rcases acceptData_adds h with ⟨result, back, hback, hidle⟩
  dsimp only at hback
  rw [hport] at hback
  refine ⟨n, hn, hfirst, via, front ++ [replyEvent env th.session.id via
    (passiveReply th.session.controlChannel.address
      (increment^[n] th.process.dataPortAllocation))] ++
    .accept (.passive th.session.id) listener.transport.socket result :: back, ?_, ?_, ?_⟩
  · rw [hback, Process.emit_trace, hfront]
    simp only [List.append_assoc]
  · simp
  · have hquiet : ∀ e ∈ front ++ [replyEvent env th.session.id via
        (passiveReply th.session.controlChannel.address
          (increment^[n] th.process.dataPortAllocation))], acceptsFrom th.session.id e = none := by
      intro e he
      rcases List.mem_append.mp he with he | he
      · exact hnone e he
      · rw [List.mem_singleton.mp he]
        rfl
    rw [acceptedPorts_once hquiet fun e he => (hidle e he).acceptsFrom _, ← List.append_assoc,
      ← hfront]
    refine congrArg (fun port => [port]) ((listensOn_append ?_).trans hsocket)
    intro e he
    rw [List.mem_singleton.mp he]
    rfl

/-! ## 3. The text of the reply -/

/-- A 227 reply with these fields. -/
def passiveText (address : Bytes) (high low : Int) : Bytes :=
  ascii "227 Entering Passive Mode (" ++ address ++ ascii "," ++ stdToString high ++ ascii "," ++
    stdToString low ++ ascii ")\r\n"

theorem comma_not_mem_stdToString (n : Int) : COMMA ∉ stdToString n :=
  not_mem_stdToString (by decide) (by decide) n

/-- What stands behind the last comma. -/
theorem last_field {front front' field field' : Bytes} (hfield : COMMA ∉ field)
    (hfield' : COMMA ∉ field') (h : front ++ [COMMA] ++ field = front' ++ [COMMA] ++ field') :
    front = front' ∧ field = field' := by
  have htake : ∀ front field : Bytes, COMMA ∉ field →
      (front ++ [COMMA] ++ field).reverse.takeWhile (· != COMMA) = field.reverse := by
    intro front field hfield
    rw [List.reverse_append, List.takeWhile_append_of_pos]
    · simp
    · intro b hb
      rw [bne_iff_ne]
      rintro rfl
      exact hfield (List.mem_reverse.mp hb)
  have hsame : field = field' := by
    have hreverse := htake front field hfield
    rw [h, htake front' field' hfield'] at hreverse
    exact (List.reverse_inj.mp hreverse).symm
  subst hsame
  exact ⟨List.append_cancel_right (List.append_cancel_right h), rfl⟩

/-- The fields of a 227 reply can be read back. -/
theorem passiveText_injective {address address' : Bytes} {high high' low low' : Int}
    (h : passiveText address high low = passiveText address' high' low') :
    high = high' ∧ low = low' := by
  have hfields := List.append_cancel_right h
  rcases last_field (comma_not_mem_stdToString low) (comma_not_mem_stdToString low') hfields with
    ⟨hfront, hlow⟩
  have hhigh := (last_field (comma_not_mem_stdToString high) (comma_not_mem_stdToString high')
    hfront).2
  exact ⟨stdToString_injective hhigh, stdToString_injective hlow⟩

/-- The reply of `command_pasv` has the low 16 bits of the port in its fields. -/
theorem passiveReply_fields (address : Bytes) (port : Int) :
    ∃ address' high low, passiveReply address port = passiveText address' high low ∧
      high * 256 + low = ((BitVec.ofInt 16 port).toNat : Int) := by
  rcases low_bytes (BitVec.ofInt 32 port) with ⟨hhigh, hlow⟩
  refine ⟨_, _, _, rfl, ?_⟩
  rw [hhigh, hlow, BitVec.toNat_ofInt, BitVec.toNat_ofInt]
  omega

/-! ## 4. One PASV -/

/-- Whatever port a 227 reply advertises, the call accepts once, and from a socket that
    listens on that port. -/
def AdvertisesPort (th th' : Thread) : Prop :=
  ∀ address high low, Replied th th' [passiveText address high low] →
    ∃ (new : List Event) (port : Nat), th'.process.trace = th.process.trace ++ new ∧
      acceptedPorts th.session.id th.process.trace new = [some port] ∧
      (port : Int) = high * 256 + low

/-- The number that is bound first is no multiple of 65536. -/
def NeverZero (th : Thread) (env : Environment) : Prop :=
  ∀ n < 20, FirstBind env 0 n → increment^[n] th.process.dataPortAllocation % 65536 ≠ 0

theorem FirstBind.unique {attempt m n : Nat} (h : FirstBind env attempt m)
    (h' : FirstBind env attempt n) : m = n := by
  rcases Nat.lt_trichotomy m n with hlt | heq | hgt
  · have hfailed := h'.2 m hlt
    rw [h.1] at hfailed
    cases hfailed
  · exact heq
  · have hfailed := h.2 n hgt
    rw [h'.1] at hfailed
    cases hfailed

theorem low_bits_eq_zero_iff (port : Int) :
    (BitVec.ofInt 16 port).toNat = 0 ↔ port % 65536 = 0 := by
  rw [BitVec.toNat_ofInt]
  omega

/-- The message among the new events is the one that was replied. -/
theorem replied_of_mem {message message' : Bytes} {via : Via} {new : List Event}
    (h : Replied th th' [message]) (htrace : th'.process.trace = th.process.trace ++ new)
    (hmem : replyEvent env th.session.id via message' ∈ new) : message' = message := by
  have hnew : Replied th th' (replies th.session.id new) := by
    unfold Replied
    rw [htrace, replies_append]
  rcases List.append_of_mem hmem with ⟨front, back, rfl⟩
  have hone := h.unique hnew
  rw [replies_append, replies_replyEvent] at hone
  cases hfront : replies th.session.id front with
  | nil =>
    rw [hfront, List.nil_append] at hone
    exact (List.cons.inj hone).1.symm
  | cons first rest =>
    rw [hfront] at hone
    exact absurd (congrArg List.length hone) (by simp)

theorem pasv_says (h : commandPasv env input th = .ok th') :
    (¬ BindsWithin env 0 20 ∧ Replied th th' [ascii "500 PASV command if failure"]) ∨
      ∃ n < 20, FirstBind env 0 n ∧
        Replied th th' [passiveReply th.session.controlChannel.address
          (increment^[n] th.process.dataPortAllocation)] ∧
        ∃ new, th'.process.trace = th.process.trace ++ new ∧
          acceptedPorts th.session.id th.process.trace new =
            [some (listenPort env (increment^[n] th.process.dataPortAllocation))] := by
  rcases commandPasv_did h with ⟨via, -, ⟨hbinds, hdid⟩ | ⟨hbinds, port, _, _, -, -, hdid⟩⟩
  · exact Or.inl ⟨hbinds, by simpa using hdid.replied⟩
  · right
    rcases commandPasv_accepts hbinds h with ⟨n, hn, hfirst, via', new, htrace, hmem, haccepted⟩
    have hreplied := hdid.replied
    rw [replies_replyEvent, replies_nil] at hreplied
    rw [← replied_of_mem hreplied htrace hmem] at hreplied
    exact ⟨n, hn, hfirst, hreplied, new, htrace, haccepted⟩

variable {c : Call}

/-- **A PASV advertises the port it listens on** exactly when the number it binds is no
    multiple of 65536, given that the kernel never chooses port 0. -/
theorem advertisesPort_iff (hkernel : c.env.ephemeralPort ≠ 0) (hcommand : c.input.command = .pasv)
    (h : call th c = .ok th') : AdvertisesPort th th' ↔ NeverZero th c.env := by
  rw [call_pasv hcommand] at h
  rcases pasv_says h with ⟨hbinds, hreplied⟩ | ⟨n, hn, hfirst, hreplied, new, htrace, haccepted⟩
  · -- no bind succeeds, and the reply is no 227
    apply iff_of_true
    · intro address high low hadvertised
      have hcode : (ascii "500 PASV command if failure").take 1 = ascii "2" :=
        congrArg (List.take 1) (List.cons.inj (hreplied.unique hadvertised)).1
      exact absurd hcode (by decide)
    · intro n hn hfirst
      exact absurd ⟨n, hn, hfirst.1⟩ hbinds
  · rcases passiveReply_fields th.session.controlChannel.address
      (increment^[n] th.process.dataPortAllocation) with ⟨address, high, low, htext, hfields⟩
    rw [htext] at hreplied
    constructor
    · intro hadvertises m hm hfirst' hzero
      obtain rfl := hfirst.unique hfirst'
      rcases hadvertises address high low hreplied with ⟨new', port, htrace', haccepted', hport⟩
      rw [htrace] at htrace'
      obtain rfl := List.append_cancel_left htrace'
      rw [haccepted] at haccepted'
      have hlow := (low_bits_eq_zero_iff _).mpr hzero
      have hchosen : c.env.ephemeralPort = port := by
        simpa [listenPort, hlow] using haccepted'
      rw [hlow] at hfields
      omega
    · intro hnever address' high' low' hadvertised
      obtain ⟨rfl, rfl⟩ :=
        passiveText_injective (List.cons.inj (hreplied.unique hadvertised)).1
      have hlow : (BitVec.ofInt 16 (increment^[n] th.process.dataPortAllocation)).toNat ≠ 0 := by
        rw [Ne, low_bits_eq_zero_iff]
        exact hnever n hn hfirst
      refine ⟨new, _, htrace, haccepted, ?_⟩
      rw [listenPort, if_neg hlow, hfields]

/-! ## 5. Runs -/

/-- Every PASV among the actions advertises the port it listens on. -/
def PasvAdvertises (th : Thread) (a : Action) (th' : Thread) : Prop :=
  ∀ c, a = .call c → c.input.command = .pasv → AdvertisesPort th th'

/-- Every PASV among the actions binds a number with low bits. -/
def PasvNeverZero (th : Thread) (a : Action) (_ : Thread) : Prop :=
  ∀ c, a = .call c → c.input.command = .pasv → NeverZero th c.env

/-- **The advertised port.**  Whatever other sessions do to `DATA_PORT_ALLOCATION` between
    the calls of a session, all its PASVs advertise the ports they listen on exactly
    when none binds a multiple of 65536. -/
theorem passive_port (opens : Bool) (id : Nat) (connection : TcpTransport) (garbage : Uninitialised)
    (p : Process) (actions : List Action)
    (hkernel : ∀ c, .call c ∈ actions → c.env.ephemeralPort ≠ 0) :
    EveryStep act PasvAdvertises (construct opens id connection garbage p) actions ↔
      EveryStep act PasvNeverZero (construct opens id connection garbage p) actions := by
  constructor
  · rintro hadvertises before a after mid next heq hrun hact c rfl hcommand
    apply (advertisesPort_iff (hkernel c (by simp [heq])) hcommand hact).mp
    exact hadvertises before (.call c) after mid next heq hrun hact c rfl hcommand
  · rintro hnever before a after mid next heq hrun hact c rfl hcommand
    apply (advertisesPort_iff (hkernel c (by simp [heq])) hcommand hact).mpr
    exact hnever before (.call c) after mid next heq hrun hact c rfl hcommand

def plainPasv : Action := .call ⟨.plain, ⟨.pasv, []⟩⟩

theorem passive_port_once :
    EveryStep act PasvAdvertises (first .bare ⟨0, 0, .clear⟩) [plainPasv] := by
  apply (passive_port true 0 ⟨6, .null, false, ascii "127.0.0.1", 21⟩ ⟨0, 0, .clear⟩
    { Process.initial .bare with descriptors := ⟨[0, 1, 2, 3, 4, 5, 6]⟩ } [plainPasv] ?_).mpr
  · refine (everyStep_cons rfl).mpr ⟨?_, everyStep_nil⟩
    intro c hc _ n hn hfirst
    cases hc
    cases n with
    | zero => decide
    | succ n => exact absurd (hfirst.2 0 (by omega)) (by decide)
  · intro c hc
    obtain rfl : c = ⟨.plain, ⟨.pasv, []⟩⟩ := by simpa [plainPasv] using hc
    decide

/-- A PASV over a clear control channel whose first bind succeeds takes one number. -/
theorem act_plainPasv (hsecure : th.session.controlChannel.secure = false) :
    ∃ th', act th plainPasv = .ok th' ∧ th'.session.controlChannel.secure = false ∧
      th'.process.dataPortAllocation = increment th.process.dataPortAllocation := by
  rcases th with ⟨⟨id, user, folder, transferType, state, argument, ⟨socket, tls, secure, address, port⟩,
    dataChannel, bufferFileSize, authAttempt, protectionBufferSize, protectionLevel⟩, p⟩
  cases hsecure
  exact ⟨_, rfl, rfl, rfl⟩

theorem run_plainPasv (n : Nat) (hsecure : th.session.controlChannel.secure = false)
    (hlow : 0 ≤ th.process.dataPortAllocation)
    (hhigh : th.process.dataPortAllocation + n ≤ INT_MAX) :
    ∃ th', run act th (List.replicate n plainPasv) = .ok th' ∧
      th'.session.controlChannel.secure = false ∧
      th'.process.dataPortAllocation = th.process.dataPortAllocation + n := by
  induction n generalizing th with
  | zero => exact ⟨th, rfl, hsecure, by simp⟩
  | succ n ih =>
    rcases act_plainPasv hsecure with ⟨mid, hmid, hsecure', hcounter⟩
    rw [increment_eq (by unfold INT_MIN; omega) (by omega)] at hcounter
    rcases ih hsecure' (by omega) (by omega) with ⟨th', hrun, hsecure'', hcounter'⟩
    refine ⟨th', ?_, hsecure'', by omega⟩
    rw [List.replicate_succ]
    exact run_cons_ok.mpr ⟨mid, hmid, hrun⟩

/-- From 40150 on, the 25387th PASV is the one that binds 65536 and advertises port 0. -/
theorem passive_port_zero :
    ¬ EveryStep act PasvAdvertises (first .bare ⟨0, 0, .clear⟩) (List.replicate 25387 plainPasv) := by
  intro h
  have hstart : (first .bare ⟨0, 0, .clear⟩).process.dataPortAllocation = 40150 := rfl
  obtain ⟨mid, hrun, hsecure, hcounter⟩ : ∃ mid,
      run act (first .bare ⟨0, 0, .clear⟩) (List.replicate 25386 plainPasv) = .ok mid ∧
        mid.session.controlChannel.secure = false ∧ mid.process.dataPortAllocation = _ :=
    run_plainPasv 25386 rfl (by rw [hstart]; decide) (by rw [hstart]; decide)
  rcases act_plainPasv hsecure with ⟨next, hnext, -⟩
  have hadvertises := h (List.replicate 25386 plainPasv) plainPasv [] mid next
    List.replicate_succ' hrun hnext _ rfl rfl
  have hnever := (advertisesPort_iff (by decide) rfl hnext).mp hadvertises
  apply hnever 0 (by decide) ⟨rfl, by simp⟩
  show mid.process.dataPortAllocation % 65536 = 0
  rw [hcounter, hstart]
  decide

end FtpSession

end FtpsServer
