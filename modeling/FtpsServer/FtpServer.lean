import FtpsServer.SessionThread

/-!
# `ftp_server.cpp`: the accept loop and the sessions

The server is the process, the listening socket and the sessions it has started.  A
step is one round of the accept loop or one step of a session thread; a run is any
interleaving of them.
-/

namespace FtpsServer

open ByteString Cxx Machine

/-! ## 1. State -/

/-- Where a session thread stands. -/
inductive Phase where
  | created
  | looping
  | ended
deriving DecidableEq, Repr

structure ClientSession where
  session : FtpSession
  buffer : MessageBuffer
  phase : Phase

structure FtpServer where
  process : Process
  /-- `m_control_channel`. -/
  controlChannel : TcpListener
  /-- `client_sessions`. -/
  clientSessions : List ClientSession

/-- One step of a thread of the process. -/
inductive ServerStep where
  /-- One round of the accept loop; the session it creates finds `garbage` in the
      members it does not initialise, and its thread finds `buffer` on its stack. -/
  | accept (env : Environment) (garbage : Uninitialised) (buffer : MessageBuffer)
  | greet (session : Nat) (env : Environment)
  | turn (session : Nat) (turn : Turn)
  | finish (session : Nat) (ending : Received)

namespace FtpServer

/-! ## 2. Steps -/

/-- The `ftp_server` object and the first lines of `server_thread`; `none` is the
    exception that is thrown when the port cannot be bound.  Its two sockets open. -/
def start (env : Environment) (address : Bytes) (port : Int) (p : Process) : Option FtpServer :=
  let (listener, p) := TcpListener.new true .listener p
  let (other, p) := TcpListener.ofAddress true .temporary address port 10 p
  let (listener, p) := TcpListener.moveAssign .listener .temporary listener other p
  let (result, p) := listener.bind env .listener 0 p
  if result ≠ OPERATION_SUCCESS then none else some ⟨p, listener, []⟩

/-- The body of the accept loop.  The result of `accept` is ignored: when it fails,
    the session is created on the socket that `client_connection` opened. -/
def acceptRound (env : Environment) (garbage : Uninitialised) (buffer : MessageBuffer)
    (s : FtpServer) : FtpServer :=
  let (clientConnection, p) := TcpTransport.new (env.socket 0) .connection s.process
  let (_, clientConnection, p) :=
    s.controlChannel.accept env .listener .connection clientConnection p
  let th :=
    FtpSession.construct (env.socket 1) s.clientSessions.length clientConnection garbage p
  { s with
    process := th.process
    clientSessions := s.clientSessions ++ [⟨th.session, buffer, .created⟩] }

/-- A step of the thread of one session, which sees that session and the process. -/
def sessionStep (s : FtpServer) (session : Nat)
    (f : ClientSession → Process → Except Abort (ClientSession × Process)) :
    Except Abort FtpServer :=
  match s.clientSessions[session]? with
  | none => .ok s
  | some client => do
    let (client, p) ← f client s.process
    return { s with process := p, clientSessions := s.clientSessions.set session client }

def greet (env : Environment) (client : ClientSession) (p : Process) :
    Except Abort (ClientSession × Process) :=
  match client.phase with
  | .created => do
    let th ← SessionThread.start env ⟨client.session, p⟩
    return ({ client with session := th.session, phase := .looping }, th.process)
  | _ => .ok (client, p)

def turn (t : Turn) (client : ClientSession) (p : Process) :
    Except Abort (ClientSession × Process) :=
  match client.phase with
  | .looping => do
    let s ← SessionThread.step ⟨⟨client.session, p⟩, client.buffer⟩ t
    return ({ client with session := s.thread.session, buffer := s.buffer }, s.thread.process)
  | _ => .ok (client, p)

def finish (ending : Received) (client : ClientSession) (p : Process) :
    Except Abort (ClientSession × Process) :=
  match client.phase with
  | .looping => do
    let s ← SessionThread.finish ⟨⟨client.session, p⟩, client.buffer⟩ ending
    return ({ client with session := s.thread.session, phase := .ended }, s.thread.process)
  | _ => .ok (client, p)

/-- One step of the process; a step whose thread is not there changes nothing. -/
def step (s : FtpServer) : ServerStep → Except Abort FtpServer
  | .accept env garbage buffer => .ok (s.acceptRound env garbage buffer)
  | .greet session env => s.sessionStep session (greet env)
  | .turn session t => s.sessionStep session (turn t)
  | .finish session ending => s.sessionStep session (finish ending)

end FtpServer

end FtpsServer
