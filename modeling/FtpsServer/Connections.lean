import FtpsServer.ServerStatus
import Mathlib.Data.List.Forall2
import Mathlib.Data.List.ReduceOption

/-!
# One session per connection

`server_thread` opens a socket, has `accept` put the new connection in its place, and
starts a session on what it then holds.  It does not look at the result of `accept`: when
the call fails, the session comes all the same, on the socket that was opened, or on -1 when
none was.
-/

namespace FtpsServer

open ByteString Cxx Machine

/-! ## 1. Sessions and connections -/

/-- The program, with the outcomes of the calls of `accept` that `server_thread` has made:
    the descriptor of a new connection, or none. -/
structure AcceptHistory where
  program : ServerProgram
  outcomes : List (Option Int)

namespace AcceptHistory

/-- The outcome of the call of `accept`, if the step is one. -/
def outcome (s : ServerProgram) (i : StatusStep) : List (Option Int) :=
  match i, s.thread with
  | .serverThread env _ _, .accepting _ =>
    [if env.accept then some s.server.process.descriptors.lowestFree else none]
  | _, _ => []

def step (s : AcceptHistory) (i : StatusStep) : Except ServerAbort AcceptHistory := do
  let program ← s.program.step i
  return ⟨program, s.outcomes ++ outcome s.program i⟩

def initial (address : Bytes) (port : Int) (p : Process) : AcceptHistory :=
  ⟨.construct address port p, []⟩

/-- The connection on which `server_thread` is about to start a session. -/
def pending (s : ServerProgram) : List Int :=
  match s.thread with
  | .starting clientConnection => [clientConnection.socket]
  | _ => []

/-- The session has the connection with this descriptor, up to the close at its end. -/
def Holds (client : ClientSession) (descriptor : Int) : Prop :=
  client.session.controlChannel.socket = if client.phase = .ended then 0 else descriptor

/-- The sessions are those of the accepted connections, in order and one for each.  The
    last connection can still be on its way to its session, and the sessions are gone
    when `server_thread` has ended. -/
def OneToOne (s : AcceptHistory) : Prop :=
  ∃ served, s.outcomes.reduceOption = served ++ pending s.program ∧
    s.program.started = served.length ∧
    (s.program.thread ≠ .ended → List.Forall₂ Holds s.program.server.clientSessions served)

/-- The call of `accept`, if the step is one, succeeds. -/
def AcceptSucceeds (s : AcceptHistory) (i : StatusStep) (_ : AcceptHistory) : Prop :=
  ∀ clientConnection env garbage buffer, s.program.thread = .accepting clientConnection →
    i = .serverThread env garbage buffer → env.accept = true

/-! ## 2. Steps of the sessions -/

/-- A step of a session that leaves it the connection it has. -/
def KeepsConnection (f : ClientSession → Process → Except Abort (ClientSession × Process)) : Prop :=
  ∀ client p, Ensures (f client p) fun r => ∀ descriptor, Holds client descriptor →
    Holds r.1 descriptor

theorem forall₂_set {α β : Type} {R : α → β → Prop} {xs : List α} {ys : List β}
    (h : List.Forall₂ R xs ys) {i : Nat} {x x' : α} (hx : xs[i]? = some x)
    (hx' : ∀ y, R x y → R x' y) : List.Forall₂ R (xs.set i x') ys := by
  induction h generalizing i with
  | nil => exact .nil
  | cons hfirst hrest ih =>
    cases i with
    | zero =>
      obtain rfl := Option.some.inj hx
      exact .cons (hx' _ hfirst) hrest
    | succ i => exact .cons hfirst (ih hx)

theorem sessionStep_holds {s s' : FtpServer} {i : Nat}
    {f : ClientSession → Process → Except Abort (ClientSession × Process)}
    (hf : KeepsConnection f) (h : s.sessionStep i f = .ok s') {served : List Int}
    (hserved : List.Forall₂ Holds s.clientSessions served) :
    List.Forall₂ Holds s'.clientSessions served := by
  unfold FtpServer.sessionStep at h
  cases hclient : s.clientSessions[i]? with
  | none =>
    rw [hclient] at h
    cases h
    exact hserved
  | some client =>
    rw [hclient] at h
    rcases bind_ok_iff.mp h with ⟨⟨client', p'⟩, hcall, hlast⟩
    obtain rfl := pure_ok_iff.mp hlast
    exact forall₂_set hserved hclient (hf client s.process _ hcall)

theorem greet_keepsConnection (env : Environment) : KeepsConnection (FtpServer.greet env) := by
  intro client p
  unfold FtpServer.greet
  split
  · next hphase =>
    rintro _ h descriptor hholds
    rcases bind_ok_iff.mp h with ⟨th, hth, hlast⟩
    obtain rfl := pure_ok_iff.mp hlast
    rcases reply_ok.mp hth with ⟨_, _, rfl⟩
    simpa [Holds, hphase] using hholds
  · exact ensures_ok fun _ hholds => hholds

theorem step_socket {s s' : SessionThread} {turn : Turn} (h : s.step turn = .ok s') :
    s'.thread.session.controlChannel.socket = s.thread.session.controlChannel.socket := by
  unfold SessionThread.step at h
  split at h
  · cases h
    rfl
  · rcases SessionThread.handle_ok h with ⟨_, _, _, _, _, rfl, hcall, _⟩
    rcases FtpSession.processCommand_controlChannel hcall with hsame | hbound
    · rw [hsame]
    · exact hbound.socket

theorem turn_keepsConnection (t : Turn) : KeepsConnection (FtpServer.turn t) := by
  intro client p
  unfold FtpServer.turn
  split
  · rintro _ h descriptor hholds
    rcases bind_ok_iff.mp h with ⟨s, hs, hlast⟩
    obtain rfl := pure_ok_iff.mp hlast
    exact (step_socket hs).trans hholds
  · exact ensures_ok fun _ hholds => hholds

theorem finish_keepsConnection (ending : Received) : KeepsConnection (FtpServer.finish ending) := by
  intro client p
  unfold FtpServer.finish
  split
  · rintro _ h descriptor -
    rcases bind_ok_iff.mp h with ⟨s, hs, hlast⟩
    obtain rfl := pure_ok_iff.mp hlast
    rcases bind_ok_iff.mp hs with ⟨th, -, hend⟩
    obtain rfl := pure_ok_iff.mp hend
    exact (if_pos rfl).symm
  · exact ensures_ok fun _ hholds => hholds

/-! ## 3. Steps of the program -/

variable {s s' : AcceptHistory} {i : StatusStep}

theorem step_ok :
    s.step i = .ok s' ↔ ∃ program, s.program.step i = .ok program ∧
      ⟨program, s.outcomes ++ outcome s.program i⟩ = s' := by
  simp only [step, bind_ok_iff, pure_ok_iff]

theorem accept_trace (env : Environment) (listener : TcpListener) (transport : TcpTransport)
    (p : Process) :
    ∃ more, (listener.accept env .listener .connection transport p).2.2.trace =
      p.trace ++ .accept .listener listener.transport.socket
        (if env.accept then some p.descriptors.lowestFree else none) :: more := by
  unfold TcpListener.accept
  cases env.accept with
  | false => exact ⟨[], rfl⟩
  | true =>
    unfold TcpTransport.ofSocket
    cases env.getsockname <;> exact ⟨_, by simp [TcpTransport.moveAssign_of_ne]; rfl⟩

/-- What is noted of the call is what the process logs of it. -/
theorem outcome_logged {clientConnection : TcpTransport} {env : Environment}
    {garbage : Uninitialised} {buffer : MessageBuffer}
    (hthread : s.program.thread = .accepting clientConnection)
    (h : s.step (.serverThread env garbage buffer) = .ok s') :
    ∃ result more, s'.outcomes = s.outcomes ++ [result] ∧
      s'.program.server.process.trace = s.program.server.process.trace ++
        .accept .listener s.program.server.controlChannel.transport.socket result :: more := by
  rcases step_ok.mp h with ⟨program, hprogram, rfl⟩
  simp only [ServerProgram.step, ServerProgram.advance, hthread] at hprogram
  cases hprogram
  rcases accept_trace env s.program.server.controlChannel clientConnection
    s.program.server.process with ⟨more, hmore⟩
  exact ⟨_, more, by simp [outcome, hthread], hmore⟩

/-- A step that calls no `accept` and starts no session, and leaves the others their
    connections. -/
theorem OneToOne.keep (h : OneToOne s) {program : ServerProgram}
    (hpending : pending program = pending s.program)
    (hstarted : program.started = s.program.started)
    (hclients : program.thread ≠ .ended → s.program.thread ≠ .ended ∧
      ∀ served, List.Forall₂ Holds s.program.server.clientSessions served →
        List.Forall₂ Holds program.server.clientSessions served) :
    OneToOne ⟨program, s.outcomes ++ []⟩ := by
  rcases h with ⟨served, houtcomes, hcount, hholds⟩
  refine ⟨served, ?_, hstarted.trans hcount, ?_⟩
  · rw [List.append_nil, hpending, houtcomes]
  · intro hthread
    rcases hclients hthread with ⟨hbefore, hkeep⟩
    exact hkeep served (hholds hbefore)

/-- A step that does not touch the sessions. -/
theorem OneToOne.stay (h : OneToOne s) {program : ServerProgram}
    (hpending : pending program = pending s.program)
    (hstarted : program.started = s.program.started)
    (hclients : program.server.clientSessions = s.program.server.clientSessions)
    (hgoes : program.thread ≠ .ended → s.program.thread ≠ .ended) :
    OneToOne ⟨program, s.outcomes ++ []⟩ := by
  refine h.keep hpending hstarted fun hthread => ⟨hgoes hthread, fun served hserved => ?_⟩
  rwa [hclients]

theorem OneToOne.sessions (h : OneToOne s) {t : ServerStep} {program : ServerProgram}
    (ht : ∀ env garbage buffer, t ≠ .accept env garbage buffer)
    (hstep : s.program.sessions t = .ok program) : OneToOne ⟨program, s.outcomes ++ []⟩ := by
  unfold ServerProgram.sessions at hstep
  split at hstep
  · next server hserver =>
    cases hstep
    refine h.keep rfl rfl fun hthread => ⟨hthread, fun served hserved => ?_⟩
    cases t with
    | accept env garbage buffer => exact absurd rfl (ht env garbage buffer)
    | greet session env => exact sessionStep_holds (greet_keepsConnection env) hserver hserved
    | turn session t => exact sessionStep_holds (turn_keepsConnection t) hserver hserved
    | finish session ending =>
      exact sessionStep_holds (finish_keepsConnection ending) hserver hserved
  · cases hstep

/-- The steps of `server_thread` other than its call of `accept`. -/
theorem oneToOne_advance (hs : OneToOne s) {env : Environment} {garbage : Uninitialised}
    {buffer : MessageBuffer} {program : ServerProgram}
    (hthread : ∀ clientConnection, s.program.thread ≠ .accepting clientConnection)
    (h : s.program.advance env garbage buffer = .ok program) :
    OneToOne ⟨program, s.outcomes ++ []⟩ := by
  unfold ServerProgram.advance at h
  cases hstands : s.program.thread with
  | unborn =>
    rw [hstands] at h
    cases h
    exact hs.stay rfl rfl rfl fun hgoes => hgoes
  | binding =>
    rw [hstands] at h
    cases hbind : s.program.server.bind env s.program.address s.program.port with
    | none => simp [hbind] at h
    | some server =>
      simp only [hbind] at h
      cases h
      have hclients : server.clientSessions = s.program.server.clientSessions := by
        unfold FtpServer.bind at hbind
        dsimp only at hbind
        split at hbind <;> cases hbind
        rfl
      exact hs.stay (by simp [pending, hstands]) rfl hclients fun _ => by simp [hstands]
  | announcing =>
    rw [hstands] at h
    cases h
    exact hs.stay (by simp [pending, hstands]) rfl rfl fun _ => by simp [hstands]
  | looping =>
    simp only [hstands] at h
    split at h <;> cases h
    · exact hs.stay (by simp [pending, hstands]) rfl rfl fun _ => by simp [hstands]
    · exact hs.keep (by simp [pending, hstands]) rfl fun hgoes => absurd rfl hgoes
  | accepting clientConnection => exact absurd hstands (hthread clientConnection)
  | starting clientConnection =>
    simp only [hstands] at h
    cases h
    rcases hs with ⟨served, houtcomes, hcount, hholds⟩
    -- the connection on its way gets its session
    refine ⟨served ++ [clientConnection.socket], ?_, ?_, fun _ => ?_⟩
    · rw [List.append_nil, houtcomes]
      simp [pending, hstands]
    · simp [hcount]
    · exact List.rel_append (hholds (by simp [hstands])) (.cons rfl .nil)
  | ended =>
    rw [hstands] at h
    cases h
    exact hs.stay rfl rfl rfl fun hgoes => hgoes

/-- The call of `accept` keeps the sessions to their connections exactly when it succeeds. -/
theorem oneToOne_accept_iff (hs : OneToOne s) {clientConnection : TcpTransport} {env : Environment}
    {garbage : Uninitialised} {buffer : MessageBuffer}
    (hthread : s.program.thread = .accepting clientConnection)
    (h : s.step (.serverThread env garbage buffer) = .ok s') :
    OneToOne s' ↔ env.accept = true := by
  rcases step_ok.mp h with ⟨program, hprogram, rfl⟩
  rcases hs with ⟨served, houtcomes, hcount, hholds⟩
  simp only [ServerProgram.step, ServerProgram.advance, hthread] at hprogram
  cases hprogram
  have hnone : pending s.program = [] := by simp [pending, hthread]
  rw [hnone, List.append_nil] at houtcomes
  cases haccept : env.accept with
  | true =>
    refine iff_of_true ⟨served, ?_, hcount, fun _ => hholds (by simp [hthread])⟩ rfl
    have hsocket := congrArg TcpTransport.socket (TcpListener.accept_transport env .listener
      .connection (by simp) s.program.server.controlChannel clientConnection
      s.program.server.process)
    rw [haccept, if_pos rfl] at hsocket
    simp only [outcome, hthread, haccept, if_true, List.reduceOption_append, houtcomes, pending,
      FtpServer.accept, hsocket]
    rfl
  | false =>
    refine iff_of_false ?_ (by simp)
    rintro ⟨served', houtcomes', hcount', -⟩
    -- a connection is on its way, and none was accepted
    simp only [outcome, hthread, haccept, List.reduceOption_append, houtcomes, pending] at houtcomes'
    have hlength := congrArg List.length houtcomes'
    simp at hlength hcount'
    omega

theorem oneToOne_step_iff (hs : OneToOne s) (h : s.step i = .ok s') :
    OneToOne s' ↔ AcceptSucceeds s i s' := by
  rcases step_ok.mp h with ⟨program, hprogram, rfl⟩
  cases i with
  | serverThread env garbage buffer =>
    by_cases haccepting : ∃ clientConnection, s.program.thread = .accepting clientConnection
    · rcases haccepting with ⟨clientConnection, hthread⟩
      rw [oneToOne_accept_iff hs hthread h]
      constructor
      · rintro haccept _ _ _ _ _ ⟨⟩
        exact haccept
      · intro hsucceeds
        exact hsucceeds clientConnection env garbage buffer hthread rfl
    · have hother : ∀ clientConnection, s.program.thread ≠ .accepting clientConnection :=
        fun clientConnection hthread => haccepting ⟨clientConnection, hthread⟩
      refine iff_of_true ?_ fun clientConnection _ _ _ hthread => absurd hthread (hother _)
      have hnone : outcome s.program (.serverThread env garbage buffer) = [] := by
        unfold outcome
        split
        · next _ hthread => exact absurd hthread (hother _)
        · rfl
      rw [hnone]
      exact oneToOne_advance hs hother hprogram
  | start =>
    refine iff_of_true ?_ (by simp [AcceptSucceeds])
    simp only [ServerProgram.step] at hprogram
    split at hprogram <;> cases hprogram
    · next hborn =>
      exact hs.stay (by simp [pending, hborn]) rfl rfl fun _ => by simp [hborn]
    · exact hs.stay rfl rfl rfl fun hgoes => hgoes
  | stop =>
    refine iff_of_true ?_ (by simp [AcceptSucceeds])
    simp only [ServerProgram.step] at hprogram
    split at hprogram <;> cases hprogram <;>
      exact hs.stay rfl rfl rfl fun hgoes => hgoes
  | join =>
    refine iff_of_true ?_ (by simp [AcceptSucceeds])
    simp only [ServerProgram.step] at hprogram
    split at hprogram
    · split at hprogram <;> cases hprogram <;>
        exact hs.stay rfl rfl rfl fun hgoes => hgoes
    · cases hprogram
      exact hs.stay rfl rfl rfl fun hgoes => hgoes
  | greet session env =>
    exact iff_of_true (hs.sessions (by simp) hprogram) (by simp [AcceptSucceeds])
  | turn session t =>
    exact iff_of_true (hs.sessions (by simp) hprogram) (by simp [AcceptSucceeds])
  | finish session ending =>
    exact iff_of_true (hs.sessions (by simp) hprogram) (by simp [AcceptSucceeds])

/-! ## 4. Runs -/

theorem initial_oneToOne (address : Bytes) (port : Int) (p : Process) :
    OneToOne (initial address port p) := ⟨[], rfl, rfl, fun _ => .nil⟩

/-- **One session per connection**, in every state of the server, exactly when none of its
    calls of `accept` fails. -/
theorem one_session_per_connection_iff (address : Bytes) (port : Int) (p : Process)
    (steps : List StatusStep) :
    EveryState step OneToOne (initial address port p) steps ↔
      EveryStep step AcceptSucceeds (initial address port p) steps := by
  apply everyState_iff_everyStep fun _ => True
  · exact fun _ _ _ _ _ => trivial
  · exact fun _ _ _ _ hs h => oneToOne_step_iff hs h
  · trivial
  · exact initial_oneToOne address port p

/-- A step of `server_thread` whose `accept` fails, for want of a descriptor or since the client
    is gone again. -/
def exhausted : StatusStep :=
  .serverThread { Environment.plain with accept := false } ⟨0, 0, .clear⟩ .zero

/-- The server starts, its first call of `accept` fails, and it starts a session. -/
def exhaustedRun : List StatusStep :=
  [.start, ServerProgram.turnServer, ServerProgram.turnServer, ServerProgram.turnServer, exhausted,
    ServerProgram.turnServer]

theorem failed_accept_starts_session :
    ¬ EveryState step OneToOne (initial (ascii "127.0.0.1") 21 (Process.initial .bare))
      exhaustedRun := by
  intro h
  have hrun : run step (initial (ascii "127.0.0.1") 21 (Process.initial .bare)) exhaustedRun =
      .ok _ := rfl
  rcases h exhaustedRun _ List.prefix_rfl hrun with ⟨served, houtcomes, hcount, -⟩
  have hnone : [] = served ++ [] := houtcomes
  have hone : 1 = served.length := hcount
  rw [List.append_nil] at hnone
  simp [← hnone] at hone

end AcceptHistory

end FtpsServer
