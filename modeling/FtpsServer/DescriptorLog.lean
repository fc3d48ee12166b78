import FtpsServer.FtpServer

/-!
# The log of descriptors

Every socket call is on a descriptor, and a descriptor belongs to the object that got
it from `socket` or `accept`, or from whom it was moved.  What follows says what each
operation of a transport does to that log.
-/

namespace FtpsServer

open ByteString Cxx Machine Ownership

/-! ## 1. The log of the process -/

/-- What an event does to a descriptor.  A push, a pull or a handshake over TLS is a `send`
    or a `recv` on the descriptor its session was bound to.  A `bind` without a socket is
    none: it fails, and the transport is dropped. -/
def descriptorAct : Event → Option (Act Object Int)
  | .socket object result => result.map fun descriptor => .obtain object descriptor
  | .accept object descriptor _ => some (.use object descriptor)
  | .adopt object descriptor => some (.obtain object descriptor)
  | .move source target descriptor => some (.pass source target descriptor)
  | .connect object descriptor _ _ _ => some (.use object descriptor)
  | .bind object descriptor _ => if descriptor < 0 then none else some (.use object descriptor)
  | .close object descriptor => some (.giveUp object descriptor)
  | .push object via _ _ => some (.use object via.descriptor)
  | .pull object via _ => some (.use object via.descriptor)
  | .handshake object session _ => some (.use object session.descriptor)
  | .gnutls _ => none
  | .notifySignal _ _ => none

/-- What a process did to its descriptors. -/
def descriptorLog (p : Process) : List (Act Object Int) := p.trace.filterMap descriptorAct

theorem descriptorLog_emit (p : Process) {e : Event} {a : Act Object Int}
    (he : descriptorAct e = some a) : descriptorLog (p.emit e) = descriptorLog p ++ [a] := by
  simp [descriptorLog, he]

/-- The object a descriptor belongs to. -/
def Process.owner (p : Process) : Int → Option Object := Ownership.owner (descriptorLog p)

/-- The log is clean, and the standard descriptors are open and belong to nobody. -/
def Process.Sound (p : Process) : Prop :=
  Ownership.Sound (fun r => 0 ≤ r ∧ r < 3) (descriptorLog p) p.descriptors

structure Silent (p p' : Process) : Prop where
  log : descriptorLog p' = descriptorLog p
  descriptors : p'.descriptors = p.descriptors

theorem Offstage.silent {p p' : Process} (h : Offstage p p') : Silent p p' := by
  rcases h with ⟨n, calls, rfl⟩
  refine ⟨?_, rfl⟩
  have hnone : (calls.map Event.gnutls).filterMap descriptorAct = [] := by
    simp [descriptorAct]
  unfold descriptorLog
  rw [List.filterMap_append, hnone, List.append_nil]

/-- From `p` to `p'` the log stays clean, and no descriptor is taken from an object outside
    `mine`. -/
structure Kept (mine : Object → Prop) (p p' : Process) : Prop where
  sound : p'.Sound
  others : ∀ r o, ¬ mine o → p.owner r = some o → p'.owner r = some o

def nobody (_ : Object) : Prop := False

namespace Kept

variable {mine : Object → Prop} {p q r : Process}

theorem refl (h : p.Sound) : Kept mine p p := ⟨h, fun _ _ _ ho => ho⟩

theorem trans (h : Kept mine p q) (h' : Kept mine q r) : Kept mine p r :=
  ⟨h'.sound, fun x o hmine ho => h'.others x o hmine (h.others x o hmine ho)⟩

theorem mono {mine' : Object → Prop} (h : Kept mine p q) (hsub : ∀ o, mine o → mine' o) :
    Kept mine' p q :=
  ⟨h.sound, fun x o hmine ho => h.others x o (fun hm => hmine (hsub o hm)) ho⟩

theorem silent (h : p.Sound) (hs : Silent p q) : Kept mine p q := by
  refine ⟨?_, ?_⟩
  · unfold Process.Sound
    rw [hs.log, hs.descriptors]
    exact h
  · intro x o _ ho
    unfold Process.owner
    rwa [hs.log]

theorem silent_nobody (h : p.Sound) (hs : Silent p q) : Kept nobody p q := silent h hs

theorem use (h : p.Sound) {o : Object} {d : Int} (ho : p.owner d = some o) {e : Event}
    (he : descriptorAct e = some (.use o d)) : Kept mine p (p.emit e) := by
  refine ⟨?_, ?_⟩
  · unfold Process.Sound
    rw [descriptorLog_emit p he]
    exact Ownership.Sound.use h ho
  · intro x o' _ hx
    unfold Process.owner
    rw [descriptorLog_emit p he, owner_use]
    exact hx

end Kept

/-! ## 2. Transports -/

/-- The transport holds a descriptor that belongs to `object`, and its TLS session, if there
    is one, is bound to it. -/
structure Held (p : Process) (object : Object) (t : TcpTransport) : Prop where
  owner : p.owner t.socket = some object
  bound : ∀ session, t.session.session = some session →
    t.secure = true ∧ session.descriptor = t.socket

theorem Held.kept {p p' : Process} {object : Object} {t : TcpTransport} {mine : Object → Prop}
    (h : Held p object t) (hkept : Kept mine p p') (hobject : ¬ mine object) :
    Held p' object t := ⟨hkept.others _ _ hobject h.owner, h.bound⟩

theorem Held.via {p : Process} {object : Object} {t : TcpTransport} (h : Held p object t)
    {via : Via} (hvia : t.via = .ok via) : via.descriptor = t.socket := by
  unfold TcpTransport.via at hvia
  split at hvia
  · split at hvia
    · next session hsession =>
      cases hvia
      exact (h.bound session hsession).2
    · cases hvia
  · cases hvia
    rfl

/-- A transport with no descriptor: it was closed, or its socket was not opened. -/
structure NoDescriptor (t : TcpTransport) : Prop where
  socket : t.socket ≤ 0
  session : t.session.session = none

namespace TcpTransport

variable {p : Process}

theorem obtained_kept {q : Process} {object : Object} {d : Int}
    (hlog : descriptorLog q = descriptorLog p ++ [.obtain object d])
    (h : Ownership.Sound (fun r => 0 ≤ r ∧ r < 3) (descriptorLog p) q.descriptors)
    (hopen : d ∈ q.descriptors.opened) (hfree : ¬ (0 ≤ d ∧ d < 3)) (hnone : p.owner d = none) :
    Kept nobody p q ∧ q.owner d = some object := by
  refine ⟨⟨?_, ?_⟩, ?_⟩
  · unfold Process.Sound
    rw [hlog]
    exact h.obtain' hopen hfree object
  · intro x o _ ho
    have hne : x ≠ d := by
      rintro rfl
      rw [hnone] at ho
      cases ho
    unfold Process.owner
    rw [hlog, owner_obtain, if_neg hne]
    exact ho
  · unfold Process.owner
    rw [hlog, owner_obtain]
    exact if_pos rfl

/-- The constructor: a descriptor of its own, or none. -/
theorem new_kept (opens : Bool) (object : Object) (h : p.Sound) :
    Kept nobody p (new opens object p).2 ∧
      if opens then Held (new opens object p).2 object (new opens object p).1
      else NoDescriptor (new opens object p).1 := by
  cases opens with
  | false =>
    have hsilent : Silent p (new false object p).2 := ⟨by simp [new, descriptorLog, descriptorAct], rfl⟩
    exact ⟨Kept.silent h hsilent, by change (-1 : Int) ≤ 0; decide, rfl⟩
  | true =>
    have hlog : descriptorLog (new true object p).2 =
        descriptorLog p ++ [.obtain object p.descriptors.lowestFree] :=
      descriptorLog_emit p.open' rfl
    obtain ⟨hkept, howner⟩ := obtained_kept hlog h.allocate
      ((p.descriptors.mem_allocate _).mpr (Or.inl rfl)) h.not_reserved_fresh h.owner_fresh
    exact ⟨hkept, howner, by simp [new, TlsSession.null]⟩

/-- The constructor leaves a transport in order either way. -/
theorem new_held (opens : Bool) (object : Object) (h : p.Sound) :
    NoDescriptor (new opens object p).1 ∨
      Held (new opens object p).2 object (new opens object p).1 := by
  have hnew := (new_kept opens object h).2
  split at hnew
  · exact Or.inr hnew
  · exact Or.inl hnew

theorem ofSocket_kept (env : Environment) (object : Object) {d : Int} (h : p.Sound)
    (hopen : d ∈ p.descriptors.opened) (hfree : ¬ (0 ≤ d ∧ d < 3)) (hnone : p.owner d = none) :
    Kept nobody p (ofSocket env object d p).2 ∧
      Held (ofSocket env object d p).2 object (ofSocket env object d p).1 := by
  have hlog : descriptorLog (p.emit (.adopt object d)) = descriptorLog p ++ [.obtain object d] :=
    descriptorLog_emit p rfl
  obtain ⟨hkept, howner⟩ := obtained_kept (q := p.emit (.adopt object d)) hlog h hopen hfree hnone
  unfold ofSocket
  cases env.getsockname <;> exact ⟨hkept, howner, by simp [TlsSession.null]⟩

theorem moved_kept (h : p.Sound) (target source : Object) (descriptor : Int) :
    Kept (· = source) p (p.emit (.move source target descriptor)) := by
  have hlog := descriptorLog_emit p (e := .move source target descriptor) rfl
  refine ⟨?_, ?_⟩
  · unfold Process.Sound
    rw [hlog]
    exact Ownership.Sound.pass h source target descriptor
  · intro x o hne ho
    unfold Process.owner
    have hother :
        ¬ (x = descriptor ∧ Ownership.owner (descriptorLog p) descriptor = some source) := by
      rintro ⟨rfl, hsource⟩
      rw [Process.owner, hsource] at ho
      cases ho
      exact hne rfl
    rw [hlog, owner_pass, if_neg hother]
    exact ho

theorem moved_held {source : Object} {t : TcpTransport} (hheld : Held p source t)
    (target : Object) : Held (p.emit (.move source target t.socket)) target t := by
  refine ⟨?_, hheld.bound⟩
  unfold Process.owner
  rw [descriptorLog_emit p (e := .move source target t.socket) rfl, owner_pass]
  exact if_pos ⟨rfl, hheld.owner⟩

/-- A transport replaced by a new one, on which only the members behind the socket are set. -/
theorem renew_kept (opens : Bool) (target : Object) (hne : target ≠ .temporary)
    (this : TcpTransport) (h : p.Sound) (f : TcpTransport → TcpTransport)
    (hf : ∀ t, (f t).socket = t.socket ∧ (f t).session = t.session ∧ (f t).secure = t.secure) :
    let opened := new opens .temporary p
    let moved := moveAssign target .temporary this (f opened.1) opened.2
    Kept (· = .temporary) p moved.2.2 ∧
      if opens then Held moved.2.2 target moved.1 else moved.1.socket = -1 := by
  rcases new_kept opens .temporary h with ⟨hkept, hheld⟩
  obtain ⟨hsocket, hsession, hsecure⟩ := hf (new opens .temporary p).1
  dsimp only
  rw [moveAssign_of_ne hne]
  refine ⟨(hkept.mono fun _ h => h.elim).trans (moved_kept hkept.sound target .temporary _), ?_⟩
  cases opens with
  | false => exact hsocket
  | true =>
    rw [if_pos rfl] at hheld
    refine moved_held ⟨hsocket ▸ hheld.owner, ?_⟩ target
    rw [hsession, hsecure, hsocket]
    exact hheld.bound

theorem close_kept {object : Object} {t : TcpTransport} (h : p.Sound) (hheld : Held p object t) :
    Kept (· = object) p (t.close object p).2 ∧ NoDescriptor (t.close object p).1 := by
  -- the TLS session is told first, then the descriptor is closed
  have hclose : ∀ {q : Process}, Silent p q →
      Kept (· = object) p ((q.close t.socket).emit (.close object t.socket)) := by
    intro q hq
    have hlog : descriptorLog ((q.close t.socket).emit (.close object t.socket)) =
        descriptorLog p ++ [.giveUp object t.socket] := by
      rw [descriptorLog_emit _ (e := .close object t.socket) rfl]
      exact congrArg (· ++ _) hq.log
    refine ⟨?_, ?_⟩
    · unfold Process.Sound
      rw [hlog, Process.emit_descriptors, Process.close_descriptors, hq.descriptors]
      exact h.giveUp hheld.owner
    · intro x o hne ho
      unfold Process.owner
      have hother :
          ¬ (x = t.socket ∧ Ownership.owner (descriptorLog p) t.socket = some object) := by
        rintro ⟨rfl, howner⟩
        rw [Process.owner, howner] at ho
        cases ho
        exact hne rfl
      rw [hlog, owner_giveUp, if_neg hother]
      exact ho
  unfold close
  cases hsecure : t.secure with
  | true => exact ⟨hclose (t.session.close_offstage p).silent, le_refl 0, rfl⟩
  | false =>
    refine ⟨hclose (Offstage.refl p).silent, le_refl 0, ?_⟩
    cases hsession : t.session.session with
    | none => exact hsession
    | some session =>
      have hup := (hheld.bound session hsession).1
      rw [hsecure] at hup
      cases hup

theorem connect_kept {object : Object} {t : TcpTransport} (env : Environment) (address : Bytes)
    (port : Int) (h : p.Sound) (hheld : Held p object t) :
    Kept nobody p (t.connect env object address port p).2.2 ∧
      Held (t.connect env object address port p).2.2 object
        (t.connect env object address port p).2.1 := by
  have hkept : Kept nobody p
      (p.emit (.connect object t.socket address port env.connect)) := Kept.use h hheld.owner rfl
  have hheld' := hheld.kept hkept fun h => h
  unfold connect
  dsimp only
  split
  · exact ⟨hkept, hheld'.owner, hheld'.bound⟩
  · exact ⟨hkept, hheld'⟩

theorem Shaken.silent {env : Environment} {object : Object} {d : Int} {p' : Process}
    (h : Shaken env object d p p') (hkey : env.keyFile = false) : Silent p p' := by
  rcases h with ⟨mid, hmid, hlast⟩
  rw [hkey, if_neg (by decide)] at hlast
  exact hlast ▸ hmid.silent

theorem Shaken.kept {env : Environment} {object : Object} {d : Int} {p' : Process}
    (h : Shaken env object d p p') (hsound : p.Sound) (ho : p.owner d = some object) :
    Kept nobody p p' := by
  rcases h with ⟨mid, hmid, hlast⟩
  have hcreated := Kept.silent_nobody hsound hmid.silent
  split at hlast
  · -- the handshake itself is the one call on the descriptor
    rcases hlast with ⟨handle, hlast⟩
    have hshake : Kept nobody mid
        (mid.emit (.handshake object ⟨handle, d⟩ env.handshake)) :=
      Kept.use hcreated.sound (hcreated.others _ _ (fun h => h) ho) rfl
    exact (hcreated.trans hshake).trans (Kept.silent hshake.sound hlast.silent)
  · exact hlast ▸ hcreated

theorem Bound.held {env : Environment} {object : Object} {t t' : TcpTransport} {p' : Process}
    (h : Bound env t t') (hheld : Held p object t) (hkept : Kept nobody p p') :
    Held p' object t' := by
  refine ⟨h.socket ▸ hkept.others _ _ (fun h => h) hheld.owner, ?_⟩
  intro session hsession
  rw [h.socket, h.secure]
  cases hkey : env.keyFile with
  | false =>
    rw [h.kept hkey] at hsession
    exact hheld.bound session hsession
  | true =>
    cases hhand : env.handshake with
    | false =>
      rw [h.lost hkey hhand] at hsession
      cases hsession
    | true =>
      rcases h.made hkey hhand with ⟨handle, hmade⟩
      rw [hmade] at hsession
      cases hsession
      exact ⟨rfl, rfl⟩

end TcpTransport

namespace TcpListener

variable {p : Process} {object : Object} {listener : TcpListener}

theorem new_kept (opens : Bool) (object : Object) (h : p.Sound) :
    Kept nobody p (new opens object p).2 := (TcpTransport.new_kept opens object h).1

theorem bind_kept (env : Environment) (attempt : Nat) (h : p.Sound)
    (hheld : listener.transport.socket < 0 ∨ Held p object listener.transport) :
    Kept nobody p (listener.bind env object attempt p).2 := by
  have hkept : ∀ port, Kept nobody p (p.emit (.bind object listener.transport.socket port)) := by
    intro port
    by_cases hnone : listener.transport.socket < 0
    · exact Kept.silent h ⟨by simp [descriptorLog, descriptorAct, hnone], rfl⟩
    · exact Kept.use h (hheld.resolve_left hnone).owner (if_neg hnone)
  unfold bind
  dsimp only
  split
  · exact hkept _
  · exact hkept _

/-- A listener replaced by a new one, and the bind of that: where it succeeds, there is a
    socket. -/
theorem rebind_kept {opens : Bool} {env : Environment} {attempt : Nat}
    (hopens : env.bind attempt = true → opens = true) (target : Object) (hne : target ≠ .temporary)
    (listener : TcpListener) (address : Bytes) (port queueSize : Int) (h : p.Sound) :
    let other := ofAddress opens .temporary address port queueSize p
    let moved := moveAssign target .temporary listener other.1 other.2
    let bound := moved.1.bind env target attempt moved.2
    Kept (· = .temporary) p bound.2 ∧
      (env.bind attempt = true → Held bound.2 target moved.1.transport) := by
  intro other moved bound
  obtain ⟨hrenewed, hmoved⟩ := TcpTransport.renew_kept opens target hne listener.transport h
    (fun t => { t with address := address, port := port }) fun _ => ⟨rfl, rfl, rfl⟩
  have hsocket : moved.1.transport.socket < 0 ∨ Held moved.2 target moved.1.transport := by
    split at hmoved
    · exact Or.inr hmoved
    · left
      rw [show moved.1.transport.socket = -1 from hmoved]
      decide
  have hbound := bind_kept env attempt hrenewed.sound hsocket
  refine ⟨hrenewed.trans (hbound.mono fun _ h => h.elim), ?_⟩
  intro hbind
  rw [if_pos (hopens hbind)] at hmoved
  exact Held.kept hmoved hbound fun h => h

/-- `accept`, by the owner of the listening descriptor: either `target` has a new descriptor
    of its own, or nothing has changed hands. -/
theorem accept_kept (env : Environment) (target : Object) (htarget : target ≠ .temporary)
    (transport : TcpTransport) (h : p.Sound) (hheld : Held p object listener.transport) :
    let accepted := listener.accept env object target transport p
    Kept (· = .temporary) p accepted.2.2 ∧
      (if env.accept then Held accepted.2.2 target accepted.2.1 else accepted.2.1 = transport) := by
  unfold accept
  cases env.accept with
  | false => exact ⟨Kept.use h hheld.owner rfl, rfl⟩
  | true =>
    -- the kernel opens a number, then the temporary gets it
    have hopened : Kept nobody p p.open' := ⟨h.allocate, fun _ _ _ ho => ho⟩
    have hcall : Kept nobody p.open' (p.open'.emit
        (.accept object listener.transport.socket (some p.descriptors.lowestFree))) :=
      Kept.use hopened.sound hheld.owner rfl
    have hnone : (p.open'.emit (.accept object listener.transport.socket
        (some p.descriptors.lowestFree))).owner p.descriptors.lowestFree = none := by
      unfold Process.owner
      rw [descriptorLog_emit p.open' rfl, owner_use]
      exact h.owner_fresh
    obtain ⟨hadopted, hclient⟩ := TcpTransport.ofSocket_kept env .temporary hcall.sound
      ((p.descriptors.mem_allocate _).mpr (Or.inl rfl)) h.not_reserved_fresh hnone
    have hmoved := TcpTransport.moved_kept hadopted.sound target .temporary
    simp only [TcpTransport.moveAssign_of_ne htarget, if_true]
    exact ⟨(((hopened.trans hcall).trans hadopted).mono fun _ h => h.elim).trans (hmoved _),
      TcpTransport.moved_held hclient target⟩

/-- `target` stays in order: it has the accepted connection, or what it had. -/
theorem accept_held (env : Environment) (target : Object) (htarget : target ≠ .temporary)
    {transport : TcpTransport} (h : p.Sound) (hlistener : Held p object listener.transport)
    (htransport : NoDescriptor transport ∨ Held p target transport) :
    let accepted := listener.accept env object target transport p
    NoDescriptor accepted.2.1 ∨ Held accepted.2.2 target accepted.2.1 := by
  obtain ⟨hkept, hresult⟩ := accept_kept env target htarget transport h hlistener
  intro accepted
  split at hresult
  · exact Or.inr hresult
  · rw [show accepted.2.1 = transport from hresult]
    exact htransport.imp_right fun hheld => hheld.kept hkept htarget

end TcpListener

end FtpsServer
