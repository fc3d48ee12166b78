import FtpsServer.NullSession
import FtpsServer.DataProtection
import FtpsServer.TlsHandles

/-!
# The flag of a transport and its TLS session

`m_secure` says that there is a TLS session behind a transport, and `push` and `pull`
believe it.  The assignment of a transport takes the flag along with the session;
`close` and the move constructor take the session and leave the flag up.  A session that
comes to its data channel twice finds it so.
-/

namespace FtpsServer

open ByteString Cxx Machine Lifetimes

/-! ## 1. The program -/

/-- What a program does with its `tcp_transport` objects, by the place they live at. -/
inductive TransportOperation where
  | construct (place : Nat) (opens : Bool)
  | adopt (place : Nat) (env : Environment) (descriptor : Int)
  | moveConstruct (place source : Nat)
  | moveAssign (place source : Nat)
  | setTls (place : Nat) (env : Environment)
  | push (place : Nat) (env : Environment) (message : Bytes)
  | pull (place : Nat) (result : Received)
  | close (place : Nat)
  | destruct (place : Nat)

structure TransportProgram where
  process : Process
  transports : Nat → Option TcpTransport

namespace TransportProgram

def initial (t : Posix.FileTree) : TransportProgram := ⟨Process.initial t, fun _ => none⟩

/-- An object is constructed at a place where there is none. -/
def construct (s : TransportProgram) (place : Nat) (f : Process → TcpTransport × Process) :
    TransportProgram :=
  match s.transports place with
  | some _ => s
  | none =>
    let (this, p) := f s.process
    ⟨p, Function.update s.transports place (some this)⟩

/-- A member function of the object at `place`, if there is one. -/
def call (s : TransportProgram) (place : Nat)
    (f : TcpTransport → Process → Except Abort (TcpTransport × Process)) :
    Except Abort TransportProgram :=
  match s.transports place with
  | none => .ok s
  | some this => do
    let (this, p) ← f this s.process
    return ⟨p, Function.update s.transports place (some this)⟩

/-- `set_tls`, whose result goes nowhere. -/
def setTls (env : Environment) (place : Nat) (this : TcpTransport) (p : Process) :
    Except Abort (TcpTransport × Process) := do
  let (_, this, p) ← this.setTls env (.data place) p
  return (this, p)

def push (env : Environment) (message : Bytes) (place : Nat) (this : TcpTransport) (p : Process) :
    Except Abort (TcpTransport × Process) := do
  let (_, p) ← this.push env (.data place) message p
  return (this, p)

def pull (result : Received) (place : Nat) (this : TcpTransport) (p : Process) :
    Except Abort (TcpTransport × Process) := do
  let p ← this.pull (.data place) result p
  return (this, p)

/-- One operation; the name of an object in the log is of no account here. -/
def step (s : TransportProgram) : TransportOperation → Except Abort TransportProgram
  | .construct place opens => .ok (s.construct place (TcpTransport.new opens (.data place)))
  | .adopt place env descriptor =>
    .ok (s.construct place (TcpTransport.ofSocket env (.data place) descriptor))
  | .moveConstruct place source =>
    match s.transports place, s.transports source with
    | none, some other =>
      let (this, other, p) := TcpTransport.moveConstruct (.data place) (.data source) other s.process
      .ok ⟨p, Function.update (Function.update s.transports source (some other)) place (some this)⟩
    | _, _ => .ok s
  | .moveAssign place source =>
    match s.transports place, s.transports source with
    | some this, some other =>
      let (this, other, p) := TcpTransport.moveAssign (.data place) (.data source) this other s.process
      .ok ⟨p, Function.update (Function.update s.transports source (some other)) place (some this)⟩
    | _, _ => .ok s
  | .setTls place env => s.call place (setTls env place)
  | .push place env message => s.call place (push env message place)
  | .pull place result => s.call place (pull result place)
  | .close place => s.call place fun this p => .ok (this.close (.data place) p)
  | .destruct place =>
    match s.transports place with
    | none => .ok s
    | some this => .ok ⟨this.destruct s.process, Function.update s.transports place none⟩

/-! ## 2. What the flag promises -/

/-- Behind the flag there is a session; its handshake has succeeded, and it was not freed. -/
def FlagTrue (p : Process) (t : TcpTransport) : Prop :=
  t.secure = true → ∃ session, t.session.session = some session ∧
    (∃ object, .handshake object session true ∈ p.trace) ∧
    .release session.handle ∉ gnutlsActs p.trace

/-- Every flag is true, and `push` and `pull` hand no NULL session to gnutls. -/
def FlagsTrue (s : TransportProgram) : Prop :=
  ∀ place this, s.transports place = some this →
    FlagTrue s.process this ∧ this.via ≠ .error .nullSession

/-- The operation takes no session away from behind a flag: it neither closes a secure
    transport nor constructs another one out of it. -/
def KeepsFlags (s : TransportProgram) (operation : TransportOperation) (_ : TransportProgram) : Prop :=
  match operation with
  | .close place => ∀ this, s.transports place = some this → this.secure = false
  | .moveConstruct place source =>
    s.transports place = none → ∀ other, s.transports source = some other → other.secure = false
  | _ => True

/-! ## 3. One transport -/

end TransportProgram

theorem Offstage.grown {p p' : Process} (h : Offstage p p') : p.trace <+: p'.trace := by
  rcases h with ⟨n, calls, rfl⟩
  exact List.prefix_append _ _

namespace TcpTransport

variable {p p' : Process} {t t' : TcpTransport}

/-- From `t` in `p` to `t'` in `p'` the log has grown, and the handles are in order still. -/
structure Acted (p : Process) (t : TcpTransport) (p' : Process) (t' : TcpTransport) : Prop where
  grown : p.trace <+: p'.trace
  inOrder : ∀ slots place, TlsSession.AtPlace slots place t.session p →
    TlsSession.AtPlace slots place t'.session p'

theorem Acted.emit (hsession : t'.session = t.session) {e : Event} (he : e.gnutlsAct = none) :
    Acted p t (p.emit e) t' where
  grown := List.prefix_append _ _
  inOrder slots place h := by
    rw [hsession]
    exact Orderly.emit h he

theorem close_acted (object : Object) (t : TcpTransport) (p : Process) :
    Acted p t (t.close object p).2 (t.close object p).1 := by
  unfold close
  cases t.secure with
  | false =>
    refine ⟨List.prefix_append _ _, fun slots place h => ?_⟩
    exact (h.closeDescriptor t.socket).emit rfl
  | true =>
    refine ⟨?_, fun slots place h => ?_⟩
    · exact (Offstage.grown (t.session.close_offstage p)).trans (List.prefix_append _ _)
    · exact (h.close.closeDescriptor t.socket).emit rfl

/-- What `set_tls` does: the handles stay in order, and a flag that is up afterwards was up
    before over the same session, or comes from a handshake. -/
theorem setTls_acted {env : Environment} {object : Object} {result : Int}
    (h : t.setTls env object p = .ok (result, t', p')) :
    Acted p t p' t' ∧ (t'.secure = true →
      t.secure = true ∧ t'.session.session = t.session.session ∨
        ∃ session, t'.session.session = some session ∧
          .handshake object session true ∈ p'.trace) := by
  have hcreated := Offstage.grown (t.session.createTlsSession_offstage env t.socket p)
  rcases t.session.createTlsSession_session env t.socket p with ⟨hresult, hsession⟩
  unfold setTls at h
  dsimp only at h
  by_cases hkey : env.keyFile = true
  · have hsucc : ¬ (t.session.bind env t.socket p).1 ≠ OPERATION_SUCCESS :=
      not_not_intro (hresult.mpr hkey)
    rw [if_neg hsucc] at h
    rcases bind_ok_iff.mp h with ⟨⟨secure, session, q⟩, hhandshake, hlast⟩
    have hinOrder : ∀ slots place, TlsSession.AtPlace slots place t.session p →
        TlsSession.AtPlace slots place session q :=
      fun slots place hat => (hat.bind env t.socket).handshake hhandshake
    rw [if_pos hkey] at hsession
    unfold TlsSession.handshake TlsSession.bind at hhandshake
    rw [hsession] at hhandshake
    dsimp only at hhandshake
    cases hshaken : env.handshake with
    | true =>
      rw [hshaken, if_pos rfl] at hhandshake
      cases hhandshake
      cases hlast
      refine ⟨⟨hcreated.trans ?_, hinOrder⟩, fun _ => Or.inr ⟨_, hsession, ?_⟩⟩
      · exact (List.prefix_append _ _).trans (List.prefix_append _ _)
      · exact List.mem_append_right _ (List.mem_singleton.mpr rfl)
    | false =>
      rw [hshaken, if_neg (by decide)] at hhandshake
      cases hhandshake
      cases hlast
      refine ⟨⟨hcreated.trans ?_, hinOrder⟩, fun hsecure => by cases hsecure⟩
      exact ((List.prefix_append _ _).trans (List.prefix_append _ _)).trans (List.prefix_append _ _)
  · -- without the key file the flag and the session stay
    have hfail : (t.session.bind env t.socket p).1 ≠ OPERATION_SUCCESS :=
      fun heq => hkey (hresult.mp heq)
    rw [if_pos hfail] at h
    rw [if_neg hkey] at hsession
    cases h
    exact ⟨⟨hcreated, fun slots place hat => hat.bind env t.socket⟩,
      fun hsecure => Or.inl ⟨hsecure, hsession⟩⟩

end TcpTransport

/-! ## 4. One operation -/

namespace TransportProgram

variable {s s' : TransportProgram} {operation : TransportOperation}

/-- What a program with transports is for their TLS sessions. -/
def tls (s : TransportProgram) : TlsProgram :=
  ⟨s.process, fun i => (s.transports i).map TcpTransport.session⟩

theorem tls_update (transports : Nat → Option TcpTransport) (place : Nat)
    (this : Option TcpTransport) (p : Process) :
    tls ⟨p, Function.update transports place this⟩ =
      ⟨p, Function.update (tls ⟨p, transports⟩).objects place (this.map TcpTransport.session)⟩ := by
  unfold tls
  dsimp only
  congr
  funext i
  exact Function.apply_update (fun _ => Option.map TcpTransport.session) transports place this i

/-- A flag of `s'` is down, or stands over a session that had a flag in `s`, or over one
    whose handshake is in the log. -/
def Accounted (s s' : TransportProgram) (this : TcpTransport) : Prop :=
  this.secure = true →
    (∃ source other, s.transports source = some other ∧ other.secure = true ∧
      this.session.session = other.session.session) ∨
    ∃ session object, this.session.session = some session ∧
      .handshake object session true ∈ s'.process.trace

/-- What one operation does when it keeps the flags. -/
structure Stepped (s s' : TransportProgram) : Prop where
  inOrder : s.tls.InOrder → s'.tls.InOrder
  grown : s.process.trace <+: s'.process.trace

def FlagsKept (s s' : TransportProgram) : Prop :=
  ∀ place this, s'.transports place = some this → Accounted s s' this

theorem accounted_of_mem {place : Nat} {this : TcpTransport} (h : s.transports place = some this) :
    Accounted s s' this := fun hsecure => Or.inl ⟨place, this, h, hsecure, rfl⟩

/-- Only the transport at `place` is another one. -/
theorem flagsKept_update {place : Nat} {this : TcpTransport} {p : Process}
    (hthis : Accounted s ⟨p, Function.update s.transports place (some this)⟩ this) :
    FlagsKept s ⟨p, Function.update s.transports place (some this)⟩ := by
  intro i t ht
  dsimp only at ht
  by_cases hi : i = place
  · rw [hi, Function.update_self] at ht
    cases ht
    exact hthis
  · rw [Function.update_of_ne hi] at ht
    exact accounted_of_mem ht

theorem stepped_refl (s : TransportProgram) : Stepped s s ∧ FlagsKept s s :=
  ⟨⟨id, List.prefix_rfl⟩, fun _ _ h => accounted_of_mem h⟩

/-- A new transport has no flag and no session. -/
theorem construct_stepped (s : TransportProgram) (place : Nat) {f : Process → TcpTransport × Process}
    {e : Event} (hsession : (f s.process).1.session = .null)
    (hsecure : (f s.process).1.secure = false)
    (htrace : (f s.process).2.trace = s.process.trace ++ [e]) (he : e.gnutlsAct = none)
    (hnext : (f s.process).2.nextHandle = s.process.nextHandle) :
    Stepped s (s.construct place f) ∧ FlagsKept s (s.construct place f) := by
  unfold construct
  split
  · exact stepped_refl s
  · next hnone =>
    refine ⟨⟨fun h => ?_, ?_⟩, flagsKept_update fun h => ?_⟩
    · unfold TlsProgram.InOrder
      rw [tls_update, Option.map_some, hsession]
      dsimp only
      rw [TlsProgram.slots_update, ← TlsProgram.slots_update_none]
      have hplace : (tls ⟨(f s.process).2, s.transports⟩).objects place = none := by
        simp [tls, hnone]
      rw [← hplace, Function.update_eq_self]
      have hemit : Orderly (TlsProgram.slots s.tls.objects) (s.process.emit e) := Orderly.emit h he
      refine ⟨?_, ?_⟩
      · rw [htrace]
        exact hemit.exclusive
      · rw [htrace, hnext]
        exact hemit.fresh
    · rw [htrace]
      exact List.prefix_append _ _
    · rw [hsecure] at h
      cases h

/-- A member function of one transport. -/
theorem call_stepped {place : Nat}
    {f : TcpTransport → Process → Except Abort (TcpTransport × Process)}
    (h : s.call place f = .ok s')
    (hf : ∀ t t' p', f t s.process = .ok (t', p') → TcpTransport.Acted s.process t p' t') :
    Stepped s s' ∧ ((∀ t t' p', s.transports place = some t → f t s.process = .ok (t', p') →
      s' = ⟨p', Function.update s.transports place (some t')⟩ → Accounted s s' t') →
      FlagsKept s s') := by
  unfold call at h
  cases hplace : s.transports place with
  | none =>
    rw [hplace] at h
    cases h
    exact ⟨(stepped_refl s).1, fun _ => (stepped_refl s).2⟩
  | some t =>
    rw [hplace] at h
    rcases bind_ok_iff.mp h with ⟨⟨t', p'⟩, hresult, hlast⟩
    obtain rfl := pure_ok_iff.mp hlast
    have hacted := hf t t' p' hresult
    refine ⟨⟨fun horder => ?_, hacted.grown⟩, fun hflags => ?_⟩
    · unfold TlsProgram.InOrder
      rw [tls_update, Option.map_some]
      dsimp only
      rw [TlsProgram.slots_update]
      apply hacted.inOrder
      exact TlsProgram.InOrder.atPlace horder (by simp [tls, hplace])
    · exact flagsKept_update (hflags t t' p' rfl hresult rfl)

/-- The transport at `source` goes over to `place`, and what is left of it has no session. -/
theorem move_stepped {place source : Nat} {other : TcpTransport} (rest : TcpTransport) {e : Event}
    (hne : place ≠ source) (hother : s.transports source = some other)
    (hrest : rest.session = .null) (he : e.gnutlsAct = none) :
    let s' : TransportProgram := ⟨s.process.emit e,
      Function.update (Function.update s.transports source (some rest)) place (some other)⟩
    Stepped s s' ∧ (rest.secure = false → FlagsKept s s') := by
  intro s'
  refine ⟨⟨fun horder => ?_, List.prefix_append _ _⟩, fun hdown => ?_⟩
  · have hsource : s.tls.objects source = some other.session := by simp [tls, hother]
    have hmoved := TlsProgram.InOrder.move horder hne hsource
    unfold TlsProgram.InOrder
    rw [tls_update, tls_update, Option.map_some, Option.map_some, hrest]
    exact Orderly.emit hmoved he
  · intro i t ht
    dsimp only [s'] at ht
    by_cases hi : i = place
    · rw [hi, Function.update_self] at ht
      cases ht
      exact accounted_of_mem hother
    · rw [Function.update_of_ne hi] at ht
      by_cases hi' : i = source
      · rw [hi', Function.update_self] at ht
        cases ht
        intro hsecure
        rw [hdown] at hsecure
        cases hsecure
      · rw [Function.update_of_ne hi'] at ht
        exact accounted_of_mem ht

theorem setTls_stepped {place : Nat} {env : Environment}
    (h : s.call place (setTls env place) = .ok s') : Stepped s s' ∧ FlagsKept s s' := by
  have hset : ∀ {t t' p'}, setTls env place t s.process = .ok (t', p') →
      ∃ result, t.setTls env (.data place) s.process = .ok (result, t', p') := by
    intro t t' p' hresult
    rcases bind_ok_iff.mp hresult with ⟨⟨result, this, p⟩, hok, hlast⟩
    cases hlast
    exact ⟨result, hok⟩
  have hacted : ∀ t t' p', setTls env place t s.process = .ok (t', p') →
      TcpTransport.Acted s.process t p' t' := by
    intro t t' p' hresult
    rcases hset hresult with ⟨result, hok⟩
    exact (TcpTransport.setTls_acted hok).1
  rcases call_stepped h hacted with ⟨hstepped, hflags⟩
  refine ⟨hstepped, hflags ?_⟩
  intro t t' p' ht hresult hs' hsecure
  rcases hset hresult with ⟨result, hok⟩
  rcases (TcpTransport.setTls_acted hok).2 hsecure with ⟨hup, hsession⟩ | ⟨session, hsession, hshaken⟩
  · exact Or.inl ⟨place, t, ht, hup, hsession⟩
  · exact Or.inr ⟨session, _, hsession, by rw [hs']; exact hshaken⟩

/-- A member function that leaves the transport as it is. -/
theorem const_stepped {place : Nat}
    {f : TcpTransport → Process → Except Abort (TcpTransport × Process)}
    (h : s.call place f = .ok s')
    (hf : ∀ t t' p', f t s.process = .ok (t', p') →
      t' = t ∧ ∃ e, p' = s.process.emit e ∧ e.gnutlsAct = none) : Stepped s s' ∧ FlagsKept s s' := by
  have hacted : ∀ t t' p', f t s.process = .ok (t', p') →
      TcpTransport.Acted s.process t p' t' := by
    intro t t' p' hresult
    rcases hf t t' p' hresult with ⟨rfl, e, rfl, he⟩
    exact TcpTransport.Acted.emit rfl he
  rcases call_stepped h hacted with ⟨hstepped, hflags⟩
  refine ⟨hstepped, hflags ?_⟩
  intro t t' p' ht hresult _
  rw [(hf t t' p' hresult).1]
  exact accounted_of_mem ht

theorem close_stepped {place : Nat}
    (h : s.call place (fun this p => .ok (this.close (.data place) p)) = .ok s') :
    Stepped s s' ∧
      ((∀ this, s.transports place = some this → this.secure = false) → FlagsKept s s') := by
  have hacted : ∀ t t' p', (Except.ok (t.close (.data place) s.process) :
      Except Abort (TcpTransport × Process)) = .ok (t', p') →
        TcpTransport.Acted s.process t p' t' := by
    intro t t' p' hresult
    have hclose := TcpTransport.close_acted (.data place) t s.process
    rwa [Except.ok.inj hresult] at hclose
  rcases call_stepped h hacted with ⟨hstepped, hflags⟩
  refine ⟨hstepped, fun hdown => hflags ?_⟩
  intro t t' p' ht hresult _ hsecure
  have hclosed := TcpTransport.close_fst (.data place) t s.process
  rw [Except.ok.inj hresult] at hclosed
  rw [show t' = t.closed from hclosed] at hsecure
  rw [TcpTransport.closed, hdown t ht] at hsecure
  cases hsecure

theorem destruct_stepped {place : Nat} {this : TcpTransport}
    (hthis : s.transports place = some this) :
    let s' : TransportProgram :=
      ⟨this.destruct s.process, Function.update s.transports place none⟩
    Stepped s s' ∧ FlagsKept s s' := by
  intro s'
  refine ⟨⟨fun horder => ?_, Offstage.grown (this.session.freeTlsSession_offstage s.process)⟩, ?_⟩
  · unfold TlsProgram.InOrder
    rw [tls_update, Option.map_none]
    dsimp only
    rw [TlsProgram.slots_update_none]
    exact (TlsProgram.InOrder.atPlace horder (by simp [tls, hthis])).freeTlsSession
  · intro i t ht
    dsimp only [s'] at ht
    by_cases hi : i = place
    · rw [hi, Function.update_self] at ht
      cases ht
    · rw [Function.update_of_ne hi] at ht
      exact accounted_of_mem ht

/-- **What one operation does**: handles stay in order, and no flag is left without its
    session unless `KeepsFlags` fails. -/
theorem step_stepped (h : s.step operation = .ok s') :
    Stepped s s' ∧ (KeepsFlags s operation s' → FlagsKept s s') := by
  have hsame : s = s' → Stepped s s' ∧ (KeepsFlags s operation s' → FlagsKept s s') := by
    rintro rfl
    exact ⟨(stepped_refl s).1, fun _ => (stepped_refl s).2⟩
  cases operation with
  | construct place opens =>
    cases h
    cases opens <;>
      exact (construct_stepped s place rfl rfl rfl rfl rfl).imp_right fun hflags _ => hflags
  | adopt place env descriptor =>
    cases h
    refine (construct_stepped s place (e := .adopt (.data place) descriptor) ?_ ?_ ?_ rfl ?_).imp_right
      fun hflags _ => hflags
    all_goals
      unfold TcpTransport.ofSocket
      cases env.getsockname <;> rfl
  | moveConstruct place source =>
    simp only [step] at h
    split at h
    · next other hplace hother =>
      cases h
      have hne : place ≠ source := by
        rintro rfl
        rw [hplace] at hother
        cases hother
      have hmoved := move_stepped (s := s) (e := .move (.data source) (.data place) other.socket)
        { other with socket := 0, session := .null, address := [] } hne hother rfl rfl
      exact ⟨hmoved.1, fun hkeeps => hmoved.2 (hkeeps hplace other hother)⟩
    · exact hsame (Except.ok.inj h)
  | moveAssign place source =>
    simp only [step] at h
    split at h
    · next this other hthis hother =>
      by_cases heq : place = source
      · -- an object assigned to itself stays as it is
        subst heq
        rw [hthis] at hother
        cases hother
        simp only [TcpTransport.moveAssign, if_true] at h
        rw [← hthis, Function.update_eq_self, Function.update_eq_self] at h
        exact hsame (Except.ok.inj h)
      · rw [TcpTransport.moveAssign_of_ne (by simpa using heq)] at h
        cases h
        have hmoved := move_stepped (s := s) (e := .move (.data source) (.data place) other.socket)
          ⟨0, .null, false, [], 0⟩ heq hother rfl rfl
        exact ⟨hmoved.1, fun _ => hmoved.2 rfl⟩
    · exact hsame (Except.ok.inj h)
  | setTls place env => exact (setTls_stepped h).imp_right fun hflags _ => hflags
  | push place env message =>
    refine (const_stepped (f := push env message place) h ?_).imp_right fun hflags _ => hflags
    intro t t' p' hresult
    rcases bind_ok_iff.mp hresult with ⟨⟨result, p⟩, hok, hlast⟩
    cases hlast
    rcases bind_ok_iff.mp hok with ⟨via, -, hlast'⟩
    cases hlast'
    exact ⟨rfl, _, rfl, rfl⟩
  | pull place result =>
    refine (const_stepped (f := pull result place) h ?_).imp_right fun hflags _ => hflags
    intro t t' p' hresult
    rcases bind_ok_iff.mp hresult with ⟨p, hok, hlast⟩
    cases hlast
    rcases bind_ok_iff.mp hok with ⟨via, -, hlast'⟩
    cases hlast'
    exact ⟨rfl, _, rfl, rfl⟩
  | close place => exact close_stepped h
  | destruct place =>
    simp only [step] at h
    split at h
    · exact hsame (Except.ok.inj h)
    · next this hthis =>
      cases h
      exact (destruct_stepped hthis).imp_right fun hflags _ => hflags

/-! ## 5. Flags and sessions over a run -/

theorem not_flagTrue_of_none {p : Process} {this : TcpTransport} (hsecure : this.secure = true)
    (hnone : this.session.session = none) : ¬ FlagTrue p this := by
  intro h
  rcases h hsecure with ⟨session, hsession, -⟩
  rw [hnone] at hsession
  cases hsession

/-- What is in a slot was not freed. -/
theorem not_freed (horder : s.tls.InOrder) {place : Nat} {this : TcpTransport}
    (hthis : s.transports place = some this) {session : GnutlsSession}
    (hsession : this.session.session = some session) :
    .release session.handle ∉ gnutlsActs s.process.trace := by
  have hslot : TlsProgram.slots s.tls.objects (place, .session) = some session.handle := by
    simp [tls, TlsProgram.slots, TlsSession.slot, hthis, hsession]
  exact (horder.exclusive.alive _ _ hslot).2

theorem flagTrue_via {p : Process} {this : TcpTransport} (h : FlagTrue p this) :
    this.via ≠ .error .nullSession := by
  rw [Ne, TcpTransport.via_null_iff, not_not]
  intro hsecure
  rcases h hsecure with ⟨session, hsession, -⟩
  exact ⟨session, hsession⟩

theorem flagsTrue_of_kept (horder : s'.tls.InOrder) (hstepped : Stepped s s')
    (hflags : FlagsTrue s) (hkept : FlagsKept s s') : FlagsTrue s' := by
  have htrue : ∀ place this, s'.transports place = some this → FlagTrue s'.process this := by
    intro place this hthis hsecure
    rcases hkept place this hthis hsecure with
      ⟨source, other, hother, hup, hsame⟩ | ⟨session, object, hsession, hshaken⟩
    · rcases (hflags source other hother).1 hup with ⟨session, hsession, ⟨object, hshaken⟩, -⟩
      rw [← hsame] at hsession
      exact ⟨session, hsession, ⟨object, hstepped.grown.subset hshaken⟩,
        not_freed horder hthis hsession⟩
    · exact ⟨session, hsession, ⟨object, hshaken⟩, not_freed horder hthis hsession⟩
  intro place this hthis
  exact ⟨htrue place this hthis, flagTrue_via (htrue place this hthis)⟩

/-- An operation that takes a session from behind a flag leaves a flag that is not true. -/
theorem keepsFlags_of_flagsTrue (h : s.step operation = .ok s') (hflags : FlagsTrue s') :
    KeepsFlags s operation s' := by
  cases operation with
  | close place =>
    intro this hthis
    simp only [step, call, hthis] at h
    cases h
    by_contra hup
    have hclosed := (hflags place _ (Function.update_self ..)).1
    rw [TcpTransport.close_fst] at hclosed
    refine not_flagTrue_of_none ?_ ?_ hclosed
    · simpa [TcpTransport.closed] using hup
    · simp [TcpTransport.closed, TlsSession.null, (Bool.not_eq_false _).mp hup]
  | moveConstruct place source =>
    intro hplace other hother
    simp only [step, hplace, hother] at h
    cases h
    by_contra hup
    have hne : source ≠ place := by
      rintro rfl
      rw [hplace] at hother
      cases hother
    refine not_flagTrue_of_none ?_ ?_ (hflags source
      { other with socket := 0, session := .null, address := [] } ?_).1
    · exact (Bool.not_eq_false _).mp hup
    · rfl
    · dsimp only
      rw [Function.update_of_ne hne, Function.update_self]
      rfl
  | _ => trivial

theorem step_inOrder (horder : s.tls.InOrder) (h : s.step operation = .ok s') : s'.tls.InOrder :=
  (step_stepped h).1.inOrder horder

theorem step_flagsTrue (horder : s.tls.InOrder) (hflags : FlagsTrue s)
    (h : s.step operation = .ok s') : FlagsTrue s' ↔ KeepsFlags s operation s' := by
  constructor
  · exact keepsFlags_of_flagsTrue h
  · intro hkeeps
    have hstepped := step_stepped h
    exact flagsTrue_of_kept (step_inOrder horder h) hstepped.1 hflags (hstepped.2 hkeeps)

theorem initial_flagsTrue (t : Posix.FileTree) : FlagsTrue (initial t) := by
  intro place this hthis
  cases hthis

/-! ## 6. The data channel of a session -/

end TransportProgram

namespace TcpTransport

theorem Bound.live_iff {env : Environment} {t t' : TcpTransport} (h : t.Bound env t') :
    t'.Live ↔ env.keyFile = true ∨ t.Live := by
  cases hkey : env.keyFile with
  | false =>
    have hsecure : t'.secure = t.secure := by simpa [hkey] using h.secure
    unfold Live
    rw [hsecure, h.kept hkey]
    simp
  | true =>
    refine iff_of_true (fun hsecure => ?_) (Or.inl rfl)
    have hshaken : env.handshake = true := by simpa [hkey, hsecure] using h.secure.symm
    rcases h.made hkey hshaken with ⟨handle, hmade⟩
    exact ⟨_, hmade⟩

theorem closed_live_iff {t : TcpTransport} : t.closed.Live ↔ t.secure = false := by
  unfold Live closed
  cases hsecure : t.secure <;> simp [TlsSession.null]

end TcpTransport

namespace FtpSession

variable {env : Environment} {c : Call} {th th' : Thread}

theorem accepted_live_iff {t accepted : TcpTransport} (h : Accepted env t accepted) :
    accepted.Live ↔ env.accept = true ∨ t.Live := by
  unfold Accepted at h
  cases haccept : env.accept with
  | false =>
    rw [haccept, if_neg (by decide)] at h
    rw [h]
    simp
  | true =>
    rw [haccept, if_pos rfl] at h
    exact iff_of_true (TcpTransport.live_of_clear h.1) (Or.inl rfl)

/-- Behind a PASV there is a session behind the flag when it decided about the channel, or
    there was one before. -/
theorem pasv_live_iff (hcommand : c.input.command = .pasv) (h : call th c = .ok th') :
    th'.session.dataChannel.Live ↔
      (decides th c).isSome = true ∨ th.session.dataChannel.Live := by
  rw [call_pasv hcommand] at h
  unfold decides
  rw [hcommand]
  dsimp only
  obtain ⟨_, _, ⟨hnone, hdid⟩ | ⟨hbinds, _, accepted, channel, haccepted, hchannel, hdid⟩⟩ :=
    commandPasv_did h
  · rw [hdid.session, if_neg hnone]
    simp
  · rw [hdid.session, if_pos hbinds]
    dsimp only
    have hlive := accepted_live_iff haccepted
    cases hprotects : th.session.protectsData with
    | false =>
      rw [hprotects, if_neg (by decide)] at hchannel
      rw [hchannel, hlive]
      cases c.env.accept <;> simp
    | true =>
      rw [hprotects, if_pos rfl] at hchannel
      rw [hchannel.live_iff, hlive]
      cases c.env.keyFile <;> cases c.env.accept <;> simp

/-- A call that does not come to the data channel leaves no flag up without a session, unless
    it was so before and the call decided nothing. -/
theorem call_live_iff (hcommand : ¬ transfers c.input.command) (h : call th c = .ok th') :
    th'.session.dataChannel.Live ↔
      (decides th c).isSome = true ∨ th.session.dataChannel.Live := by
  by_cases hpasv : c.input.command = .pasv
  · exact pasv_live_iff hpasv h
  · by_cases hport : c.input.command = .port
    · rw [call_port hport] at h
      rcases commandPort_did h with ⟨_, _, _, _, _, _, _, _, _, rfl, hdid⟩
      rw [hdid.session]
      exact iff_of_true (TcpTransport.live_of_clear rfl) (Or.inl (by simp [decides, hport]))
    · unfold transfers at hcommand
      rw [(processCommand_frame h).1.dataChannel (by simp_all)]
      have hnone : decides th c = none := by
        unfold decides
        split <;> simp_all
      simp [hnone]

/-- LIST and STOR close the data channel, and leave the flag. -/
theorem transfer_live_iff (hcommand : transfers c.input.command) (h : call th c = .ok th') :
    th'.session.dataChannel.Live ↔ th.session.dataChannel.secure = false := by
  rcases hcommand with hcommand | hcommand
  · rw [call_list hcommand] at h
    rcases commandList_did h with ⟨_, _, _, _, hdid⟩
    rw [hdid.session]
    exact TcpTransport.closed_live_iff
  · rw [call_stor hcommand] at h
    rcases commandStor_did h with ⟨_, _, _, _, _, _, hdid⟩
    rw [hdid.session]
    exact TcpTransport.closed_live_iff

/-- **A spent data channel**: among the calls `before` there is a LIST or STOR over TLS, and
    behind it none that decided about the channel. -/
def Spent (fresh : Thread) (before : List Call) : Prop :=
  ∃ front use back mid, before = front ++ [use] ++ back ∧ transfers use.input.command ∧
    decided fresh false front = true ∧ run call fresh (front ++ [use]) = .ok mid ∧
    EveryStep call (fun th c _ => decides th c = none) mid back

/-- A flag with no session behind it stays so until a call decides about the channel. -/
theorem notLive_step (hth : ¬ th.session.dataChannel.Live) (h : call th c = .ok th')
    (hnone : decides th c = none) : ¬ th'.session.dataChannel.Live := by
  by_cases hcommand : transfers c.input.command
  · rw [transfer_live_iff hcommand h]
    intro hclear
    exact hth (TcpTransport.live_of_clear hclear)
  · rw [call_live_iff hcommand h, hnone]
    simpa using hth

theorem not_live_of_spent {fresh : Thread} (hclear : fresh.session.dataChannel.secure = false)
    {before : List Call} (hrun : run call fresh before = .ok th) (h : Spent fresh before) :
    ¬ th.session.dataChannel.Live := by
  rcases h with ⟨front, use, back, mid, rfl, huse, hflag, hmid, hnone⟩
  rcases run_append_ok.mp hrun with ⟨mid', hmid', hback⟩
  rw [hmid] at hmid'
  cases hmid'
  rcases run_concat_ok.mp hmid with ⟨first, hfirst, hcall⟩
  have hkeeps : ∀ mid c next, ¬ mid.session.dataChannel.Live → call mid c = .ok next →
      decides mid c = none → ¬ next.session.dataChannel.Live :=
    fun _ _ _ hmid hcall hdecides => notLive_step hmid hcall hdecides
  refine run_invariant_of_everyStep hkeeps ?_ hnone hback
  rw [transfer_live_iff huse hcall, decided_of_run hfirst, hclear, hflag]
  decide

/-- By induction on the calls; the last LIST or STOR is the one that closed the channel. -/
theorem spent_of_not_live {fresh : Thread} (hclear : fresh.session.dataChannel.secure = false)
    {before : List Call} (hrun : run call fresh before = .ok th)
    (h : ¬ th.session.dataChannel.Live) : Spent fresh before := by
  induction before using List.reverseRecOn generalizing th with
  | nil =>
    cases hrun
    exact absurd (TcpTransport.live_of_clear hclear) h
  | append_singleton before c ih =>
    rcases run_concat_ok.mp hrun with ⟨mid, hmid, hcall⟩
    by_cases hcommand : transfers c.input.command
    · rw [transfer_live_iff hcommand hcall, decided_of_run hmid, hclear, Bool.not_eq_false] at h
      exact ⟨before, c, [], th, by simp, hcommand, h, hrun, everyStep_nil⟩
    · rw [call_live_iff hcommand hcall, not_or, Bool.not_eq_true, Option.isSome_eq_false_iff,
        Option.isNone_iff_eq_none] at h
      rcases ih hmid h.2 with ⟨front, use, back, first, rfl, huse, hflag, hfirst, hnone⟩
      rcases run_append_ok.mp hmid with ⟨first', hfirst', hback⟩
      rw [hfirst] at hfirst'
      cases hfirst'
      exact ⟨front, use, back ++ [c], first, by simp, huse, hflag, hfirst,
        hnone.concat hback fun _ _ => h.1⟩

/-- The calls of a session of which none ends with a NULL session in the hands of gnutls. -/
def NoNullSession (th : Thread) (calls : List Call) : Prop :=
  EveryInput call (fun mid c => call mid c ≠ .error .nullSession) th calls

/-- No LIST, and no STOR with an argument, comes when the data channel is spent. -/
def NeverSpent (th : Thread) (calls : List Call) : Prop :=
  EveryInputAfter call (fun before _ c => c.input.UsesData → ¬ Spent th before) th calls

theorem noNullSession_iff (hlive : th.session.controlChannel.Live)
    (hclear : th.session.dataChannel.secure = false) (calls : List Call) :
    NoNullSession th calls ↔ NeverSpent th calls := by
  refine everyInputAfter_congr (P := fun _ mid c => call mid c ≠ .error .nullSession)
    (fun before mid => run call th before = .ok mid ∧ mid.session.controlChannel.Live) ?_
    ⟨rfl, hlive⟩ ?_
  · rintro before mid c next ⟨hrun, hmid⟩ hcall
    exact ⟨run_concat_ok.mpr ⟨mid, hrun, hcall⟩, call_live hmid hcall⟩
  · rintro before mid c ⟨hrun, hmid⟩
    rw [Ne, call_null_iff hmid, not_and, not_not]
    constructor
    · intro hdata huses hspent
      exact not_live_of_spent hclear hrun hspent (hdata huses)
    · intro hnever huses
      by_contra hnull
      exact hnever huses (spent_of_not_live hclear hrun hnull)

end FtpSession

namespace TransportProgram

open FtpSession (NoNullSession NeverSpent)

/-- **The flags of a program are true** as long as it closes no secure transport and
    constructs none out of one; a session hands gnutls no NULL session as long as no LIST or
    STOR comes behind one over TLS, with no PORT or PASV between that decided about the
    channel. -/
theorem flags_true (t : Posix.FileTree) (operations : List TransportOperation) (opens : Bool)
    (id : Nat) (descriptor : Int) (address : Bytes) (port : Int) (garbage : Uninitialised)
    (p : Process) (calls : List FtpSession.Call) :
    let opened := FtpSession.construct opens id ⟨descriptor, .null, false, address, port⟩ garbage p
    (EveryState step FlagsTrue (initial t) operations ↔
        EveryStep step KeepsFlags (initial t) operations) ∧
      (NoNullSession opened calls ↔ NeverSpent opened calls) := by
  intro opened
  constructor
  · apply everyState_iff_everyStep (fun s => s.tls.InOrder)
    · exact fun _ _ _ horder h => step_inOrder horder h
    · exact fun _ _ _ horder hflags h => step_flagsTrue horder hflags h
    · exact TlsProgram.initial_inOrder t
    · exact initial_flagsTrue t
  · exact FtpSession.noNullSession_iff (TcpTransport.live_of_clear rfl) rfl calls

/-- A transport is made secure and closed. -/
def closedSecure : List TransportOperation := [.construct 0 true, .setTls 0 .plain, .close 0]

/-- AUTH TLS, PROT P and PASV, and two LISTs on the one data connection. -/
def twoListings : List FtpSession.Call :=
  [⟨.plain, .auth, [ascii "TLS"]⟩, ⟨.plain, .prot, [ascii "P"]⟩, ⟨.plain, .pasv, []⟩,
    ⟨.plain, .list, []⟩, ⟨.plain, .list, []⟩]

/-- A closed transport keeps its flag, and the second LIST hands gnutls NULL. -/
theorem closed_flag_stays :
    ¬ EveryState step FlagsTrue (initial .bare) closedSecure ∧
      ¬ NoNullSession (FtpSession.first .bare ⟨0, 0, .clear⟩) twoListings := by
  constructor
  · intro h
    obtain ⟨s, hrun, hup⟩ := exists_of_reaches (initial .bare) closedSecure
      (fun s => match s.transports 0 with
        | some this => this.secure && this.session.session.isNone
        | none => false)
      (show reaches step _ _ _ = true by decide +kernel)
    have hflags := h closedSecure s List.prefix_rfl hrun
    cases hthis : s.transports 0 with
    | none => simp [hthis] at hup
    | some this =>
      simp only [hthis, Bool.and_eq_true, Option.isNone_iff_eq_none] at hup
      exact not_flagTrue_of_none hup.1 hup.2 (hflags 0 this hthis).1
  · intro h
    obtain ⟨mid, hrun, hup⟩ := exists_of_reaches (FtpSession.first .bare ⟨0, 0, .clear⟩)
      (twoListings.take 4)
      (fun th => th.session.dataChannel.secure && th.session.dataChannel.session.session.isNone)
      (show reaches FtpSession.call _ _ _ = true by decide +kernel)
    have hfirst : (FtpSession.first .bare ⟨0, 0, .clear⟩).session.controlChannel.Live :=
      TcpTransport.live_of_clear rfl
    have hlive := run_invariant (fun _ _ _ => FtpSession.call_live) hfirst hrun
    refine h (twoListings.take 4) ⟨.plain, .list, []⟩ [] mid rfl hrun ?_
    refine (FtpSession.call_null_iff hlive).mpr ⟨Or.inl rfl, fun hdata => ?_⟩
    simp only [Bool.and_eq_true, Option.isNone_iff_eq_none] at hup
    rcases hdata hup.1 with ⟨session, hsession⟩
    rw [hup.2] at hsession
    cases hsession

end TransportProgram

end FtpsServer
