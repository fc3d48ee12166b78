import FtpsServer.Handlers

/-!
# `ftp_session::client_session_thread`

The thread of a session: a greeting, the loop that pulls a message, makes a C string
of the buffer and hands the command it parses to `process_command`, and the close
at the end.  The buffer is never cleared and never terminated: a message overwrites
the front of what is there, and the string goes on up to the first NUL, past the
end of the buffer if there is none in it.
-/

namespace FtpsServer

open ByteString Cxx Machine

/-! ## 1. The message buffer -/

/-- `char client_message[2000]`. -/
structure MessageBuffer where
  bytes : Bytes
  size : bytes.length = BUFFER_SIZE

namespace MessageBuffer

/-- `recv` into the buffer. -/
def receive (buffer : MessageBuffer) (message : Chunk) : MessageBuffer where
  bytes := message.bytes ++ buffer.bytes.drop message.bytes.length
  size := by
    have hfits := message.fits
    rw [List.length_append, List.length_drop, buffer.size]
    omega

/-- `std::string(client_message)`, with the bytes that lie behind the buffer. -/
def commandLine (buffer : MessageBuffer) (behind : Bytes) : Bytes :=
  cString (buffer.bytes ++ behind)

def zero : MessageBuffer := ⟨List.replicate BUFFER_SIZE NUL, List.length_replicate⟩

end MessageBuffer

/-! ## 2. The loop -/

/-- One turn of the loop: the message that is pulled, the stack behind the buffer at
    that moment, and what the environment decides while the command is processed. -/
structure Turn where
  message : Chunk
  behind : Bytes
  env : Environment

/-- A session thread in its loop. -/
structure SessionThread where
  thread : Thread
  buffer : MessageBuffer

namespace Thread

/-- `m_control_channel.pull`, when it returns `result`. -/
def controlPull (result : Received) (th : Thread) : Except Abort Thread := do
  let p ← th.session.controlChannel.pull (.control th.session.id) result th.process
  return { th with process := p }

end Thread

namespace SessionThread

/-- A turn that pulls one line, with nothing behind the buffer. -/
def lineTurn (env : Environment) (line : String) (h : ascii line ≠ [] ∧ (ascii line).length ≤ 2000) :
    Turn := ⟨⟨ascii line, h.1, h.2⟩, [], env⟩

/-- A PORT to 127.0.0.1, port 5001, that connects. -/
def portTurn : Turn := lineTurn .plain "PORT 127,0,0,1,19,137\r\n" (by decide)

def start (env : Environment) (th : Thread) : Except Abort Thread :=
  th.reply env (ascii "220 FTP server is ready\r\n")

/-- The command that is built when `message` has come into the buffer. -/
def command (buffer : MessageBuffer) (message : Chunk) (behind : Bytes) :
    Except StdException FtpCommand :=
  FtpCommand.ofCommandLine ((buffer.receive message).commandLine behind)

/-- The body of the loop. -/
def handle (s : SessionThread) (turn : Turn) : Except Abort SessionThread := do
  let th ← s.thread.controlPull (.bytes turn.message.bytes)
  let command ← raising (command s.buffer turn.message turn.behind)
  let th ← FtpSession.processCommand turn.env command th
  return ⟨th, s.buffer.receive turn.message⟩

/-- One turn of the loop, while its condition holds. -/
def step (s : SessionThread) (turn : Turn) : Except Abort SessionThread :=
  if s.thread.session.state = .terminated then .ok s else s.handle turn

/-- The pull that ends the loop, if the state does not. -/
def lastPull (s : SessionThread) (ending : Received) : Except Abort Thread :=
  if s.thread.session.state = .terminated then .ok s.thread else s.thread.controlPull ending

/-- What follows the loop: the close of the control channel. -/
def finish (s : SessionThread) (ending : Received) : Except Abort SessionThread := do
  let th ← s.lastPull ending
  let (channel, p) := th.session.controlChannel.close (.control th.session.id) th.process
  let session := { th.session with controlChannel := channel, state := .terminated }
  return { s with thread := ⟨session, p⟩ }

end SessionThread

/-! ## 3. Effects of a turn -/

theorem controlPull_ok {result : Received} {th th' : Thread} :
    th.controlPull result = .ok th' ↔
      ∃ via, th.session.controlChannel.via = .ok via ∧
        th' = { th with
          process := th.process.emit (.pull (.control th.session.id) via result) } := by
  simp only [Thread.controlPull, TcpTransport.pull, bind_ok_iff, pure_ok_iff]
  constructor
  · rintro ⟨a, ⟨via, hvia, rfl⟩, rfl⟩
    exact ⟨via, hvia, rfl⟩
  · rintro ⟨via, hvia, rfl⟩
    exact ⟨_, ⟨via, hvia, rfl⟩, rfl⟩

namespace SessionThread

/-- A turn that is handled: the pull, the command, and the command's step. -/
theorem handle_ok {s s' : SessionThread} {turn : Turn} (h : s.handle turn = .ok s') :
    ∃ via input th₁, s.thread.session.controlChannel.via = .ok via ∧
      command s.buffer turn.message turn.behind = .ok input ∧
      th₁ = { s.thread with
        process := s.thread.process.emit
          (.pull (.control s.thread.session.id) via (.bytes turn.message.bytes)) } ∧
      FtpSession.processCommand turn.env input th₁ = .ok s'.thread ∧
      s'.buffer = s.buffer.receive turn.message := by
  unfold handle at h
  rcases bind_ok_iff.mp h with ⟨th₁, hpull, h⟩
  rcases raising_bind_ok.mp h with ⟨input, hinput, h⟩
  rcases bind_ok_iff.mp h with ⟨th₂, hstep, h⟩
  obtain rfl := pure_ok_iff.mp h
  rcases controlPull_ok.mp hpull with ⟨via, hvia, hth₁⟩
  exact ⟨via, input, th₁, hvia, hinput, hth₁, hstep, rfl⟩

end SessionThread

end FtpsServer
