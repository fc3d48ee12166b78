import FtpsServer.FtpServer

/-!
# `m_status`: start and stop of the server

Two threads write `m_status`: `server_thread` writes RUNNING once it is bound, and
`stop` writes STOPPING.  Nothing orders the two, and between its look at `m_status`
and the session that it starts `server_thread` waits in `accept`.  So it matters where
`server_thread` stands when `stop` writes.
-/

namespace FtpsServer

open ByteString Cxx Machine

/-! ## 1. The threads -/

/-- `ftp_server_status_t`. -/
inductive FtpServerStatusT where
  | running
  | stopping
deriving DecidableEq, Repr

/-- Where `ftp_server::server_thread` stands, by what comes next. -/
inductive ServerThread where
  /-- `start` has not been called. -/
  | unborn
  /-- The listener is made and bound. -/
  | binding
  /-- `m_status` is set to RUNNING. -/
  | announcing
  /-- The condition of the loop reads `m_status`. -/
  | looping
  /-- `accept` returns. -/
  | accepting (clientConnection : TcpTransport)
  /-- The session is made and started. -/
  | starting (clientConnection : TcpTransport)
  | ended
deriving DecidableEq, Repr

def ServerThread.inLoop : ServerThread → Bool
  | .looping | .accepting _ | .starting _ => true
  | _ => false

/-- How far the call of `stop` is. -/
inductive StopCall where
  | uncalled
  /-- `m_status` is written, and `join` waits. -/
  | joining
  | returned
deriving DecidableEq, Repr

/-- What ends the process: `std::runtime_error` out of `server_thread`, `std::system_error`
    out of the `join` of a thread that was never started, or a session thread. -/
inductive ServerAbort where
  | runtimeError
  | systemError
  | session (e : Abort)
deriving DecidableEq, Repr

/-- An `ftp_server` with its sessions, and the two threads that work on it. -/
structure ServerProgram where
  server : FtpServer
  address : Bytes
  port : Int
  status : FtpServerStatusT
  thread : ServerThread
  stop : StopCall
  /-- How many sessions `server_thread` has started. -/
  started : Nat

inductive StatusStep where
  | start
  | stop
  | join
  /-- The next step of `server_thread`. -/
  | serverThread (env : Environment) (garbage : Uninitialised) (buffer : MessageBuffer)
  /-- A step of the thread of one session. -/
  | greet (session : Nat) (env : Environment)
  | turn (session : Nat) (turn : Turn)
  | finish (session : Nat) (ending : Received)

namespace FtpServer

/-- `m_control_channel` by the constructor of `ftp_server`. -/
def construct (p : Process) : FtpServer :=
  let (listener, p) := TcpListener.new true .listener p
  ⟨p, listener, []⟩

/-- `m_control_channel = tcp_listener(m_address, m_port, 10)`, and its bind. -/
def bind (env : Environment) (address : Bytes) (port : Int) (s : FtpServer) : Option FtpServer :=
  let (other, p) := TcpListener.ofAddress true .temporary address port 10 s.process
  let (listener, p) := TcpListener.moveAssign .listener .temporary s.controlChannel other p
  let (result, p) := listener.bind env .listener 0 p
  if result ≠ OPERATION_SUCCESS then none else some { s with process := p, controlChannel := listener }

/-- The local `client_connection`. -/
def openConnection (env : Environment) (s : FtpServer) : TcpTransport × FtpServer :=
  let (clientConnection, p) := TcpTransport.new (env.socket 0) .connection s.process
  (clientConnection, { s with process := p })

def accept (env : Environment) (clientConnection : TcpTransport) (s : FtpServer) :
    TcpTransport × FtpServer :=
  let (_, clientConnection, p) :=
    s.controlChannel.accept env .listener .connection clientConnection s.process
  (clientConnection, { s with process := p })

/-- A new session on the connection, and its `start`. -/
def startSession (env : Environment) (garbage : Uninitialised) (buffer : MessageBuffer)
    (clientConnection : TcpTransport) (s : FtpServer) : FtpServer :=
  let th :=
    FtpSession.construct (env.socket 1) s.clientSessions.length clientConnection garbage s.process
  { s with
    process := th.process
    clientSessions := s.clientSessions ++ [⟨th.session, buffer, .created⟩] }

/-- The end of `server_thread` destroys `client_sessions` and with it every session. -/
def dropSessions (s : FtpServer) : FtpServer :=
  let destroy (p : Process) (client : ClientSession) :=
    client.session.controlChannel.destruct (client.session.dataChannel.destruct p)
  { s with process := s.clientSessions.foldl destroy s.process, clientSessions := [] }

/-- The steps of `server_thread` up to the loop, one after another. -/
theorem start_eq (env : Environment) (address : Bytes) (port : Int) (p : Process) :
    start env address port p = (construct p).bind env address port := rfl

/-- The steps of one round of the loop, one after another. -/
theorem acceptRound_eq (env : Environment) (garbage : Uninitialised) (buffer : MessageBuffer)
    (s : FtpServer) :
    s.acceptRound env garbage buffer =
      ((s.openConnection env).2.accept env (s.openConnection env).1).2.startSession env garbage
        buffer ((s.openConnection env).2.accept env (s.openConnection env).1).1 := rfl

theorem bind_plain (address : Bytes) (port : Int) (s : FtpServer) :
    ∃ s', s.bind .plain address port = some s' := ⟨_, rfl⟩

end FtpServer

namespace ServerProgram

/-- `ftp_server::ftp_server(ipv4_address, port)`. -/
def construct (address : Bytes) (port : Int) (p : Process) : ServerProgram where
  server := FtpServer.construct p
  address := address
  port := port
  status := .stopping
  thread := .unborn
  stop := .uncalled
  started := 0

/-- `ftp_server::server_thread`, from where it stands to the next step. -/
def advance (env : Environment) (garbage : Uninitialised) (buffer : MessageBuffer)
    (s : ServerProgram) : Except ServerAbort ServerProgram :=
  match s.thread with
  | .unborn => .ok s
  | .binding =>
    match s.server.bind env s.address s.port with
    | none => .error .runtimeError
    | some server => .ok { s with server := server, thread := .announcing }
  | .announcing => .ok { s with status := .running, thread := .looping }
  | .looping =>
    if s.status = .running then
      let (clientConnection, server) := s.server.openConnection env
      .ok { s with server := server, thread := .accepting clientConnection }
    else .ok { s with server := s.server.dropSessions, thread := .ended }
  | .accepting clientConnection =>
    let (clientConnection, server) := s.server.accept env clientConnection
    .ok { s with server := server, thread := .starting clientConnection }
  | .starting clientConnection =>
    .ok { s with
      server := s.server.startSession env garbage buffer clientConnection
      thread := .looping
      started := s.started + 1 }
  | .ended => .ok s

/-- A step of a session thread. -/
def sessions (s : ServerProgram) (step : ServerStep) : Except ServerAbort ServerProgram :=
  match s.server.step step with
  | .ok server => .ok { s with server := server }
  | .error e => .error (.session e)

/-- One step of one thread.  There is one call of `start` and one of `stop`. -/
def step (s : ServerProgram) : StatusStep → Except ServerAbort ServerProgram
  | .start => if s.thread = .unborn then .ok { s with thread := .binding } else .ok s
  | .stop =>
    if s.stop = .uncalled then .ok { s with status := .stopping, stop := .joining } else .ok s
  | .join =>
    if s.stop = .joining then
      match s.thread with
      | .unborn => .error .systemError
      | .ended => .ok { s with stop := .returned }
      | _ => .ok s
    else .ok s
  | .serverThread env garbage buffer => s.advance env garbage buffer
  | .greet session env => s.sessions (.greet session env)
  | .turn session t => s.sessions (.turn session t)
  | .finish session ending => s.sessions (.finish session ending)

/-! ## 2. Stopping is final -/

/-- Whatever happens from `s` on, the status stays STOPPING and no session is started. -/
def Final (s : ServerProgram) : Prop :=
  ∀ steps s', run step s steps = .ok s' → s'.status = .stopping ∧ s'.started = s.started

/-- The write of `stop` is final. -/
def StopFinal (s : ServerProgram) (i : StatusStep) (s' : ServerProgram) : Prop :=
  i = .stop → s.stop = .uncalled → Final s'

/-- The write of `stop` comes when `server_thread` is about to look at the status. -/
def StopAtLook (s : ServerProgram) (i : StatusStep) (_ : ServerProgram) : Prop :=
  i = .stop → s.stop = .uncalled → s.thread = .looping

variable {s s' : ServerProgram} {i : StatusStep}

theorem sessions_ok {step : ServerStep} (h : s.sessions step = .ok s') :
    ∃ server, s' = { s with server := server } := by
  unfold sessions at h
  split at h
  · cases h
    exact ⟨_, rfl⟩
  · cases h

/-- `stop` has written, `server_thread` is about to look at the status or has ended, and `n`
    sessions were started. -/
structure Ending (n : Nat) (s : ServerProgram) : Prop where
  status : s.status = .stopping
  stop : s.stop ≠ .uncalled
  thread : s.thread = .looping ∨ s.thread = .ended
  started : s.started = n

theorem step_ending {n : Nat} (hending : Ending n s) (h : s.step i = .ok s') : Ending n s' := by
  rcases hending with ⟨hstatus, hstop, hthread, hstarted⟩
  cases i with
  | start =>
    have hborn : s.thread ≠ .unborn := by rcases hthread with heq | heq <;> simp [heq]
    simp only [step, if_neg hborn] at h
    cases h
    exact ⟨hstatus, hstop, hthread, hstarted⟩
  | stop =>
    simp only [step, if_neg hstop] at h
    cases h
    exact ⟨hstatus, hstop, hthread, hstarted⟩
  | join =>
    simp only [step] at h
    rcases hthread with heq | heq <;> rw [heq] at h <;> dsimp only at h <;> split at h <;> cases h
    · exact ⟨hstatus, hstop, Or.inl heq, hstarted⟩
    · exact ⟨hstatus, hstop, Or.inl heq, hstarted⟩
    · exact ⟨hstatus, by simp, Or.inr rfl, hstarted⟩
    · exact ⟨hstatus, hstop, Or.inr heq, hstarted⟩
  | serverThread env garbage buffer =>
    simp only [step, advance] at h
    rcases hthread with heq | heq
    · -- the look at the status ends the loop
      simp only [heq, hstatus] at h
      cases h
      exact ⟨rfl, hstop, Or.inr rfl, hstarted⟩
    · simp only [heq] at h
      cases h
      exact ⟨hstatus, hstop, Or.inr heq, hstarted⟩
  | greet session env =>
    rcases sessions_ok h with ⟨server, rfl⟩
    exact ⟨hstatus, hstop, hthread, hstarted⟩
  | turn session t =>
    rcases sessions_ok h with ⟨server, rfl⟩
    exact ⟨hstatus, hstop, hthread, hstarted⟩
  | finish session ending =>
    rcases sessions_ok h with ⟨server, rfl⟩
    exact ⟨hstatus, hstop, hthread, hstarted⟩

theorem final_of_ending {n : Nat} (h : Ending n s) : Final s := by
  intro steps s' hrun
  have hend := run_invariant (fun _ _ _ => step_ending) h hrun
  exact ⟨hend.status, hend.started.trans h.started.symm⟩

/-- Before `stop` is called, the status is RUNNING in the loop, and the loop does not end. -/
def InService (s : ServerProgram) : Prop :=
  s.stop = .uncalled → s.thread ≠ .ended ∧ (s.thread.inLoop = true → s.status = .running)

theorem step_inService (hservice : InService s) (h : s.step i = .ok s') : InService s' := by
  intro huncalled
  cases i with
  | start =>
    simp only [step] at h
    split at h <;> cases h
    · exact ⟨by simp, by simp [ServerThread.inLoop]⟩
    · exact hservice huncalled
  | stop =>
    simp only [step] at h
    split at h <;> cases h
    · cases huncalled
    · exact hservice huncalled
  | join =>
    simp only [step] at h
    split at h
    · split at h <;> cases h
      · cases huncalled
      · exact hservice huncalled
    · cases h
      exact hservice huncalled
  | serverThread env garbage buffer =>
    simp only [step, advance] at h
    cases hthread : s.thread <;> simp only [hthread] at h
    case unborn =>
      cases h
      exact hservice huncalled
    case binding =>
      split at h <;> cases h
      exact ⟨by simp, by simp [ServerThread.inLoop]⟩
    case announcing =>
      cases h
      exact ⟨by simp, fun _ => rfl⟩
    case looping =>
      have hrunning : s.status = .running := by
        split at h <;> cases h
        · assumption
        · exact (hservice huncalled).2 (by rw [hthread]; rfl)
      rw [if_pos hrunning] at h
      cases h
      exact ⟨by simp, fun _ => hrunning⟩
    case accepting clientConnection =>
      cases h
      exact ⟨by simp, fun _ => (hservice huncalled).2 (by rw [hthread]; rfl)⟩
    case starting clientConnection =>
      cases h
      exact ⟨by simp, fun _ => (hservice huncalled).2 (by rw [hthread]; rfl)⟩
    case ended =>
      cases h
      exact hservice huncalled
  | greet session env =>
    rcases sessions_ok h with ⟨server, rfl⟩
    exact hservice huncalled
  | turn session t =>
    rcases sessions_ok h with ⟨server, rfl⟩
    exact hservice huncalled
  | finish session ending =>
    rcases sessions_ok h with ⟨server, rfl⟩
    exact hservice huncalled

/-- A step of `server_thread` in which everything succeeds. -/
def turnServer : StatusStep := .serverThread .plain ⟨0, 0, .clear⟩ .zero

theorem Final.step (h : Final s) (hstep : s.step i = .ok s') : Final s' := by
  have hsame : s'.started = s.started :=
    (h [i] s' (run_cons_ok.mpr ⟨s', hstep, rfl⟩)).2
  intro steps last hrun
  rw [hsame]
  exact h (i :: steps) last (run_cons_ok.mpr ⟨s', hstep, hrun⟩)

theorem Final.status (h : Final s) : s.status = .stopping := (h [] s rfl).1

theorem Final.started (h : Final s) (hstep : s.step i = .ok s') : s'.started = s.started :=
  (h [i] s' (run_cons_ok.mpr ⟨s', hstep, rfl⟩)).2

theorem not_final_announcing (hthread : s.thread = .announcing) : ¬ Final s := by
  intro h
  have hstep : s.step turnServer = .ok { s with status := .running, thread := .looping } := by
    simp [step, turnServer, advance, hthread]
  cases (h.step hstep).status

theorem not_final_binding (hthread : s.thread = .binding) : ¬ Final s := by
  intro h
  rcases FtpServer.bind_plain s.address s.port s.server with ⟨server, hserver⟩
  have hstep : s.step turnServer = .ok { s with server := server, thread := .announcing } := by
    simp [step, turnServer, advance, hthread, hserver]
  exact not_final_announcing rfl (h.step hstep)

theorem not_final_unborn (hthread : s.thread = .unborn) : ¬ Final s := by
  intro h
  have hstep : s.step .start = .ok { s with thread := .binding } := by
    simp [step, hthread]
  exact not_final_binding rfl (h.step hstep)

theorem not_final_starting {clientConnection : TcpTransport}
    (hthread : s.thread = .starting clientConnection) : ¬ Final s := by
  intro h
  have hstep : s.step turnServer = .ok { s with
      server := s.server.startSession .plain ⟨0, 0, .clear⟩ .zero clientConnection
      thread := .looping
      started := s.started + 1 } := by
    simp [step, turnServer, advance, hthread]
  have hsame := h.started hstep
  dsimp only at hsame
  omega

theorem not_final_accepting {clientConnection : TcpTransport}
    (hthread : s.thread = .accepting clientConnection) : ¬ Final s := by
  intro h
  have hstep : s.step turnServer = .ok { s with
      server := (s.server.accept .plain clientConnection).2
      thread := .starting (s.server.accept .plain clientConnection).1 } := by
    simp [step, turnServer, advance, hthread]
  exact not_final_starting rfl (h.step hstep)

/-- The write of `stop` in a state in service. -/
theorem final_iff (hservice : InService s) (huncalled : s.stop = .uncalled)
    (h : s.step .stop = .ok s') : Final s' ↔ s.thread = .looping := by
  simp only [step, if_pos huncalled] at h
  cases h
  constructor
  · intro hfinal
    cases hthread : s.thread with
    | looping => rfl
    | unborn => exact absurd hfinal (not_final_unborn hthread)
    | binding => exact absurd hfinal (not_final_binding hthread)
    | announcing => exact absurd hfinal (not_final_announcing hthread)
    | accepting clientConnection => exact absurd hfinal (not_final_accepting hthread)
    | starting clientConnection => exact absurd hfinal (not_final_starting hthread)
    | ended => exact absurd hthread (hservice huncalled).1
  · intro hthread
    exact final_of_ending ⟨rfl, by simp, Or.inl hthread, rfl⟩

/-- **Stopping is final** exactly when `stop` writes while `server_thread` is about to look at
    the status. -/
theorem stop_final_iff (address : Bytes) (port : Int) (p : Process) (steps : List StatusStep) :
    EveryStep step StopFinal (construct address port p) steps ↔
      EveryStep step StopAtLook (construct address port p) steps := by
  apply everyStep_congr InService
  · exact fun _ _ _ hservice h => step_inService hservice h
  · intro s i s' hservice h
    unfold StopFinal StopAtLook
    constructor
    · rintro hfinal rfl huncalled
      exact (final_iff hservice huncalled h).mp (hfinal rfl huncalled)
    · rintro hlook rfl huncalled
      exact (final_iff hservice huncalled h).mpr (hlook rfl huncalled)
  · exact fun _ => ⟨by simp [construct], by simp [construct, ServerThread.inLoop]⟩

/-- `stop` behind `start`, before `server_thread` has come to its loop. -/
def hastyStop : List StatusStep := [.start, turnServer, .stop]

/-- The write of `server_thread` comes behind the one of `stop`. -/
theorem hastyStop_runs_on :
    ¬ EveryStep step StopFinal (construct (ascii "127.0.0.1") 21 (Process.initial .bare))
      hastyStop := by
  intro h
  have hthread : run step (construct (ascii "127.0.0.1") 21 (Process.initial .bare))
      [.start, turnServer] = .ok _ := rfl
  have hfinal := h [.start, turnServer] .stop [] _ _ rfl hthread rfl rfl rfl
  exact not_final_announcing rfl hfinal

end ServerProgram

end FtpsServer
