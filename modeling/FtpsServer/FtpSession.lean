import FtpsServer.TcpTransport
import FtpsServer.FtpCommand

/-!
# `ftp_session.cpp`: the command handlers

A session thread sees its session and the process it runs in (`Thread`).  Every
handler is a function from the thread before to the thread after, or to what ends
the process.  Replies are pushed on the control channel and their results ignored,
as in the source.
-/

namespace FtpsServer

open ByteString Cxx

/-! ## 1. Session state -/

/-- `ftp_session_state_t`. -/
inductive FtpSessionStateT where
  | authWaitLogin
  | authWaitPassword
  | authSuccess
  | dataAction
  | terminated
deriving DecidableEq, Repr

/-- `ftp_transfer_t`. -/
inductive FtpTransferT where
  | binary
  | ascii
deriving DecidableEq, Repr

/-- `ftp_protection_t`. -/
inductive FtpProtectionT where
  | clear
  | safe
  | confidential
  | private'
deriving DecidableEq, Repr

structure FtpSession where
  /-- Which session of the server this is; names its two channels. -/
  id : Nat
  user : FtpUser
  folder : Bytes
  transferType : FtpTransferT
  state : FtpSessionStateT
  argument : Bytes
  controlChannel : TcpTransport
  dataChannel : TcpTransport
  bufferFileSize : Int
  authAttempt : Int
  protectionBufferSize : Int
  protectionLevel : FtpProtectionT
deriving DecidableEq, Repr

/-- What a session thread can read and write. -/
structure Thread where
  session : FtpSession
  process : Process

/-- The members that the constructor leaves uninitialised. -/
structure Uninitialised where
  bufferFileSize : Int
  protectionBufferSize : Int
  protectionLevel : FtpProtectionT
deriving DecidableEq, Repr

namespace FtpSession

def MAX_AUTH_ATTEMPTS : Int := 3

/-- `ftp_session::ftp_session(client_control_channel, notifier)`: the control channel
    is moved from `client_connection`, the data channel opens a socket of its own. -/
def construct (opens : Bool) (id : Nat) (clientControlChannel : TcpTransport) (garbage : Uninitialised)
    (p : Process) : Thread :=
  let (controlChannel, _, p) :=
    TcpTransport.moveConstruct (.control id) .connection clientControlChannel p
  let (dataChannel, p) := TcpTransport.new opens (.data id) p
  { session :=
      { id := id
        user := .empty
        folder := []
        transferType := .binary
        state := .authWaitLogin
        argument := []
        controlChannel := controlChannel
        dataChannel := dataChannel
        bufferFileSize := garbage.bufferFileSize
        authAttempt := 0
        protectionBufferSize := garbage.protectionBufferSize
        protectionLevel := garbage.protectionLevel }
    process := p }

/-- The first session of a server on `t`.  The server listens on the descriptor 4, and 3 is
    the socket of the listener that it replaced; 6 is the connection, and 5 the socket of
    the `client_connection` that it replaced. -/
def first (t : Posix.FileTree) (garbage : Uninitialised) : Thread :=
  construct true 0 ⟨6, .null, false, ascii "127.0.0.1", 21⟩ garbage
    { Process.initial t with descriptors := ⟨[0, 1, 2, 3, 4, 5, 6]⟩ }

end FtpSession

/-! ## 2. The channels of a thread -/

namespace Thread

/-- `m_control_channel.push`. -/
def reply (env : Environment) (message : Bytes) (th : Thread) : Except Abort Thread := do
  let (_, p) ← th.session.controlChannel.push env (.control th.session.id) message th.process
  return { th with process := p }

/-- A reply that is pushed only under a condition. -/
def replyWhen (env : Environment) (condition : Bool) (message : Bytes) (th : Thread) :
    Except Abort Thread :=
  if condition then th.reply env message else .ok th

/-- `m_data_channel.push`. -/
def dataPush (env : Environment) (message : Bytes) (th : Thread) : Except Abort Thread := do
  let (_, p) ← th.session.dataChannel.push env (.data th.session.id) message th.process
  return { th with process := p }

/-- `m_data_channel.pull`, when it returns `result`. -/
def dataPull (result : Received) (th : Thread) : Except Abort Thread := do
  let p ← th.session.dataChannel.pull (.data th.session.id) result th.process
  return { th with process := p }

/-- `m_data_channel.close`. -/
def dataClose (th : Thread) : Thread :=
  let (channel, p) := th.session.dataChannel.close (.data th.session.id) th.process
  { session := { th.session with dataChannel := channel }, process := p }

/-- `m_notifier->notify_observers`. -/
def notify (event : FtpObserveEventT) (message : Bytes) (th : Thread) : Thread :=
  let signalled := th.process.observers.notifyObservers event
  { th with process :=
      { th.process with
        trace := th.process.trace ++ signalled.map fun observer => .notifySignal observer message } }

def setFileTree (th : Thread) (t : Posix.FileTree) : Thread :=
  { th with process := th.process.setFileTree t }

end Thread

/-! ## 3. The handlers -/

namespace FtpSession

open Thread

variable (env : Environment)

/-- `ftp_session::command_user`.  The refusal does not end the operation. -/
def commandUser (input : FtpCommand) (th : Thread) : Except Abort Thread := do
  let login ← raising (input.getArgument 0)
  let th ← th.replyWhen env (th.session.state ≠ .authWaitLogin)
    (ascii "500 USER incorrect command order\r\n")
  let th := { th with session := { th.session with
    user := th.session.user.setLogin login
    state := .authWaitPassword } }
  th.reply env (ascii "331 password is needed\r\n")

/-- `ftp_session::command_pass`. -/
def commandPass (input : FtpCommand) (th : Thread) : Except Abort Thread := do
  let password ← raising (input.getArgument 0)
  let th ← th.replyWhen env (th.session.state ≠ .authWaitPassword)
    (ascii "530 PASS incorrect command order\r\n")
  let user := th.session.user.setPassword password
  let (result, user) := FtpUserDatabase.get th.process.database user.login user.password user
  let th := { th with session := { th.session with user := user } }
  if result ≠ OPERATION_SUCCESS then do
    let th ← th.reply env (ascii "430 authentication failure\r\n")
    let authAttempt := increment th.session.authAttempt
    return { th with session := { th.session with
      authAttempt := authAttempt
      state := if authAttempt > MAX_AUTH_ATTEMPTS then .terminated else .authWaitLogin } }
  else do
    let th := { th with session := { th.session with folder := user.folder } }
    th.reply env (ascii "230 access is performed\r\n")

/-- `ftp_session::command_syst`. -/
def commandSyst (_input : FtpCommand) (th : Thread) : Except Abort Thread :=
  th.reply env (ascii "215 UNIX Type: L8\r\n")

/-- `ftp_session::command_pwd`. -/
def commandPwd (_input : FtpCommand) (th : Thread) : Except Abort Thread :=
  th.reply env (ascii "257 " ++ th.session.folder ++ ascii "\r\n")

/-- `ftp_session::command_port`.  The success reply is pushed in the branch and again
    after it. -/
def commandPort (input : FtpCommand) (th : Thread) : Except Abort Thread := do
  let address ← raising (input.getArgument 0)
  let port ← raising (do stoi (← input.getArgument 1))
  let (client, p) := TcpTransport.new (env.socket 0) .temporary th.process
  let (channel, _, p) :=
    TcpTransport.moveAssign (.data th.session.id) .temporary th.session.dataChannel client p
  let (result, channel, p) := channel.connect env (.data th.session.id) address port p
  let th : Thread := ⟨{ th.session with dataChannel := channel }, p⟩
  if result ≠ OPERATION_SUCCESS then
    th.reply env (ascii "520 PORT cannot create data channel\r\n")
  else do
    let th ← th.reply env (ascii "220 PORT command is accepted\r\n")
    th.reply env (ascii "220 PORT command is accepted\r\n")

/-- `ftp_session::command_list`. -/
def commandList (_input : FtpCommand) (th : Thread) : Except Abort Thread := do
  let (_, listFiles) := Directory.getFiles th.process.fileTree th.session.folder []
  let serverDataMessage := listFiles.flatMap fun file => file ++ ascii "\n"
  let th ← th.reply env (ascii "150 ASCII data connection\r\n")
  let th ← th.dataPush env serverDataMessage
  let th ← th.reply env (ascii "226 ASCII Transfer complete\r\n")
  return th.dataClose

/-- The path `command_cwd` resolves its argument to. -/
def pathFolder (session : FtpSession) (folder : Bytes) : Except StdException Bytes :=
  if Path.isPathRooted folder then .ok folder
  else if Path.isPathHomed folder then do
    let rest ← substr folder 2
    return session.user.folder ++ rest
  else .ok (session.folder ++ folder)

/-- `ftp_session::command_cwd`. -/
def commandCwd (input : FtpCommand) (th : Thread) : Except Abort Thread := do
  let folder ← raising (input.getArgument 0)
  let pathFolder ← raising (th.session.pathFolder folder)
  let canonicalFullPath := Path.canonical th.process.fileTree pathFolder
  if !Directory.exists' th.process.fileTree canonicalFullPath then
    th.reply env (ascii "553 CWD folder is not found\r\n")
  else
    let th := { th with session := { th.session with folder := canonicalFullPath } }
    th.reply env (ascii "250 CWD command is successful\r\n")

/-- How much of `bytes` a file takes that has room for `room` more. -/
def taken (room : Option Nat) (bytes : Bytes) : Bytes :=
  match room with
  | some n => bytes.take n
  | none => bytes

/-- The room that is left behind `bytes`: none when they did not fit, since the stream is
    bad from the first write on that fails. -/
def roomAfter (room : Option Nat) (bytes : Bytes) : Option Nat := room.map (· - bytes.length)

/-- `file_transfer.write`, whose failure nobody looks at: nothing is written when the file
    could not be opened. -/
def write (file : Option Posix.Location) (room : Option Nat) (bytes : Bytes) (th : Thread) :
    Thread :=
  match file with
  | some l => th.setFileTree (th.process.fileTree.append l (taken room bytes))
  | none => th

/-- How the stream ends, as `pull` reports it. -/
def endOfData : Received := if env.dataClosed then .closed else .failed

/-- The receive loop of `command_stor` when a size was allocated: the remaining size
    is looked at after the pull. -/
def receiveAllocated (file : Option Posix.Location) :
    Option Nat → List Chunk → Int → Thread → Except Abort Thread
  | _, [], _, th => th.dataPull (endOfData env)
  | room, chunk :: chunks, fileTotalSize, th => do
    let th ← th.dataPull (.bytes chunk.bytes)
    if fileTotalSize ≠ 0 then
      receiveAllocated file (roomAfter room chunk.bytes) chunks
        (fileTotalSize - chunk.bytes.length) (write file room chunk.bytes th)
    else return th

/-- The receive loop of `command_stor` up to the close by the client. -/
def receiveAll (file : Option Posix.Location) :
    Option Nat → List Chunk → Thread → Except Abort Thread
  | _, [], th => th.dataPull (endOfData env)
  | room, chunk :: chunks, th => do
    let th ← th.dataPull (.bytes chunk.bytes)
    receiveAll file (roomAfter room chunk.bytes) chunks (write file room chunk.bytes th)

/-- The loop that `m_buffer_file_size` chooses. -/
def receiveFile (file : Option Posix.Location) (th : Thread) : Except Abort Thread :=
  if th.session.bufferFileSize > 0 then
    receiveAllocated env file env.room env.data th.session.bufferFileSize th
  else receiveAll env file env.room env.data th

/-- `std::ofstream file_transfer(file_path, out | app)`; the binary flag of
    `m_transfer_type` has no meaning on POSIX. -/
def openTransfer (filePath : Bytes) (th : Thread) : Option Posix.Location × Thread :=
  match th.process.fileTree.openAppend filePath with
  | some (t, l) => (some l, th.setFileTree t)
  | none => (none, th)

/-- `ftp_session::command_stor`. -/
def commandStor (input : FtpCommand) (th : Thread) : Except Abort Thread := do
  let fileName ← raising (input.getArgument 0)
  let filePath := th.session.folder ++ fileName
  let (file, th) := openTransfer filePath th
  let th ← th.reply env (ascii "150 STOR file status is OK\r\n")
  let th ← receiveFile env file th
  let th := th.dataClose
  let th ← th.reply env (ascii "226 ASCII Transfer complete\r\n")
  return th.notify .filePut filePath

/-- `ftp_session::command_type`. -/
def commandType (input : FtpCommand) (th : Thread) : Except Abort Thread := do
  let type ← raising (input.getArgument 0)
  if type = ascii "I" then
    let th := { th with session := { th.session with transferType := .binary } }
    th.reply env (ascii "250 TYPE command is successful\r\n")
  else if type = ascii "A" then
    let th := { th with session := { th.session with transferType := .ascii } }
    th.reply env (ascii "250 TYPE command is successful\r\n")
  else th.reply env (ascii "500 TYPE specified type is not supported\r\n")

/-- `ftp_session::command_feat`. -/
def commandFeat (_input : FtpCommand) (th : Thread) : Except Abort Thread :=
  th.reply env (ascii "211 FEAT Extensions supported:\n AUTH TLS\n PBSZ\n PROT\n211 END\r\n")

/-- `ftp_session::command_auth`: the result of `set_tls` is ignored. -/
def commandAuth (input : FtpCommand) (th : Thread) : Except Abort Thread := do
  let service ← raising (input.getArgument 0)
  if service ≠ ascii "TLS" then
    th.reply env (ascii "500 AUTH specified service is not supported\r\n")
  else do
    let th ← th.reply env (ascii "234 AUTH TLS successful\r\n")
    let (_, channel, p) ←
      th.session.controlChannel.setTls env (.control th.session.id) th.process
    return ⟨{ th.session with controlChannel := channel }, p⟩

/-- `ftp_session::command_pbsz`. -/
def commandPbsz (input : FtpCommand) (th : Thread) : Except Abort Thread := do
  let size ← raising (do stoi (← input.getArgument 0))
  let th := { th with session := { th.session with protectionBufferSize := size } }
  th.reply env (ascii "200 PBSZ command is successful\r\n")

/-- The level a PROT argument names. -/
def protectionOf (levelProtection : Bytes) : Option FtpProtectionT :=
  if levelProtection = ascii "C" then some .clear
  else if levelProtection = ascii "S" then some .safe
  else if levelProtection = ascii "E" then some .confidential
  else if levelProtection = ascii "P" then some .private'
  else none

/-- `ftp_session::command_prot`: an unknown level is answered like a known one. -/
def commandProt (input : FtpCommand) (th : Thread) : Except Abort Thread := do
  let levelProtection ← raising (input.getArgument 0)
  let level := (protectionOf levelProtection).getD th.session.protectionLevel
  let th := { th with session := { th.session with protectionLevel := level } }
  th.reply env (ascii "200 PROT command is successful\r\n")

/-- `DATA_PORT_ALLOCATION++`. -/
def nextPort (p : Process) : Int × Process :=
  (p.dataPortAllocation, { p with dataPortAllocation := increment p.dataPortAllocation })

/-- The attempts of `command_pasv`: each replaces the listener, a failed bind takes
    the next port.  Returns `allocation_flag`, the listener and the port. -/
def allocateListener (id : Nat) (address : Bytes) :
    Nat → Nat → TcpListener → Int → Process → Bool × TcpListener × Int × Process
  | 0, _, listener, port, p => (false, listener, port, p)
  | attempts + 1, attempt, listener, port, p =>
    let (other, p) :=
      TcpListener.ofAddress (env.socket (attempt + 1)) .temporary address port 1 p
    let (listener, p) := TcpListener.moveAssign (.passive id) .temporary listener other p
    let (result, p) := listener.bind env (.passive id) attempt p
    if result ≠ OPERATION_SUCCESS then
      let (port, p) := nextPort p
      allocateListener id address attempts (attempt + 1) listener port p
    else (true, listener, port, p)

/-- The text of the 227 reply. -/
def passiveReply (address : Bytes) (port : Int) : Bytes :=
  let bits := BitVec.ofInt 32 port
  let highPortByte := ((bits &&& 0xFF00#32).sshiftRight 8).toInt
  let lowPortByte := (bits &&& 0x00FF#32).toInt
  let formaterAddress := address.map fun b => if b = DOT then COMMA else b
  ascii "227 Entering Passive Mode (" ++ formaterAddress ++ ascii "," ++ stdToString highPortByte ++
    ascii "," ++ stdToString lowPortByte ++ ascii ")\r\n"

/-- The TLS session that `command_pasv` creates for the data channel. -/
def secureData (th : Thread) : Except Abort Thread :=
  if th.session.controlChannel.secure && th.session.protectionLevel == .private' then do
    let (_, channel, p) ← th.session.dataChannel.setTls env (.data th.session.id) th.process
    return ⟨{ th.session with dataChannel := channel }, p⟩
  else .ok th

/-- The second half of `command_pasv`, after the 227 reply. -/
def acceptData (listener : TcpListener) (th : Thread) : Except Abort Thread := do
  let (_, channel, p) :=
    listener.accept env (.passive th.session.id) (.data th.session.id) th.session.dataChannel
      th.process
  let th ← secureData env ⟨{ th.session with dataChannel := channel }, p⟩
  let (transport, p) := listener.transport.close (.passive th.session.id) th.process
  return { th with process := transport.destruct p }

/-- `ftp_session::command_pasv`. -/
def commandPasv (_input : FtpCommand) (th : Thread) : Except Abort Thread := do
  let address := th.session.controlChannel.address
  let (port, p) := nextPort th.process
  let (listener, p) := TcpListener.new (env.socket 0) (.passive th.session.id) p
  let (allocationFlag, listener, port, p) :=
    allocateListener env th.session.id address 20 0 listener port p
  let th := { th with process := p }
  if !allocationFlag then do
    let th ← th.reply env (ascii "500 PASV command if failure")
    return { th with process := listener.transport.destruct th.process }
  else do
    let th ← th.reply env (passiveReply address port)
    acceptData env listener th

/-- `ftp_session::command_allo`. -/
def commandAllo (input : FtpCommand) (th : Thread) : Except Abort Thread := do
  let size ← raising (do stoi (← input.getArgument 0))
  let th := { th with session := { th.session with bufferFileSize := size } }
  th.reply env (ascii "200 ALLO command is successful\r\n")

/-- The path `command_dele` hands to `file::erase`: only a rooted argument is made
    canonical here. -/
def delePath (session : FtpSession) (t : Posix.FileTree) (path : Bytes) : Bytes :=
  if !Path.isPathRooted path then session.folder ++ path else Path.canonical t path

/-- `ftp_session::command_dele`: failure too is answered 250. -/
def commandDele (input : FtpCommand) (th : Thread) : Except Abort Thread := do
  let path ← raising (input.getArgument 0)
  let filePath := th.session.delePath th.process.fileTree path
  let (result, t) := File.erase th.process.fileTree filePath
  let th := th.setFileTree t
  if result ≠ OPERATION_SUCCESS then th.reply env (ascii "250 DELE command is failure\r\n")
  else th.reply env (ascii "250 DELE command is successful\r\n")

/-- The path `command_rnfr` and `command_rnto` make of their argument. -/
def renamePath (session : FtpSession) (path : Bytes) : Bytes :=
  if !Path.isPathRooted path then session.folder ++ path else path

/-- `ftp_session::command_rnfr`: the source is stored in every case. -/
def commandRnfr (input : FtpCommand) (th : Thread) : Except Abort Thread := do
  let inputOldPath ← raising (input.getArgument 0)
  let t := th.process.fileTree
  let canonicalOldPath := Path.canonical t (th.session.renamePath inputOldPath)
  let message :=
    if !File.exists' t canonicalOldPath && !Directory.exists' t canonicalOldPath then
      ascii "500 RNRF command is failure (specified file or directory does not exists)\r\n"
    else ascii "350 Requested file action pending further information\r\n"
  let th ← th.reply env message
  return { th with session := { th.session with argument := canonicalOldPath } }

/-- `ftp_session::command_rnto`. -/
def commandRnto (input : FtpCommand) (th : Thread) : Except Abort Thread := do
  let inputNewPath ← raising (input.getArgument 0)
  let t := th.process.fileTree
  let inputNewPath := th.session.renamePath inputNewPath
  if File.exists' t inputNewPath || Directory.exists' t inputNewPath then
    th.reply env
      (ascii "500 RNTO command is failure (specified file or directory already exists)\r\n")
  else
    let (result, t) := Path.move t th.session.argument inputNewPath
    let th := th.setFileTree t
    if result ≠ OPERATION_SUCCESS then
      th.reply env (ascii "500 RNTO command is failure (system error occurs)\r\n")
    else th.reply env (ascii "250 RNTO command is successful\r\n")

/-- `ftp_session::command_quit`: no reply. -/
def commandQuit (_input : FtpCommand) (th : Thread) : Except Abort Thread :=
  .ok { th with session := { th.session with state := .terminated } }

/-! ## 4. The dispatcher -/

/-- `ftp_session::process_command`. -/
def processCommand (input : FtpCommand) (th : Thread) : Except Abort Thread :=
  match input.command with
  | .user => commandUser env input th
  | .pass => commandPass env input th
  | .syst => commandSyst env input th
  | .pwd => commandPwd env input th
  | .cwd => commandCwd env input th
  | .port => commandPort env input th
  | .list => commandList env input th
  | .stor => commandStor env input th
  | .type => commandType env input th
  | .feat => commandFeat env input th
  | .auth => commandAuth env input th
  | .pbsz => commandPbsz env input th
  | .prot => commandProt env input th
  | .pasv => commandPasv env input th
  | .allo => commandAllo env input th
  | .dele => commandDele env input th
  | .rnfr => commandRnfr env input th
  | .rnto => commandRnto env input th
  | .quit => commandQuit input th
  | .incomplete => th.reply env (ascii "550 command is incomplete\r\n")
  | .siteUtime => th.reply env (ascii "202 command is not supported\r\n")
  | .unknown => th.reply env (ascii "500 command is unknown\r\n")

/-- One call of `process_command`: the command, and what the environment decides. -/
structure Call where
  env : Environment
  input : FtpCommand

/-- The machine whose runs are the sequences of calls on one session. -/
def call (th : Thread) (c : Call) : Except Abort Thread := processCommand c.env c.input th

section Dispatch

variable {c : Call} {th : Thread}

theorem call_user (h : c.input.command = .user) : call th c = commandUser c.env c.input th := by
  rw [call, processCommand, h]

theorem call_pass (h : c.input.command = .pass) : call th c = commandPass c.env c.input th := by
  rw [call, processCommand, h]

theorem call_cwd (h : c.input.command = .cwd) : call th c = commandCwd c.env c.input th := by
  rw [call, processCommand, h]

theorem call_port (h : c.input.command = .port) : call th c = commandPort c.env c.input th := by
  rw [call, processCommand, h]

theorem call_list (h : c.input.command = .list) : call th c = commandList c.env c.input th := by
  rw [call, processCommand, h]

theorem call_stor (h : c.input.command = .stor) : call th c = commandStor c.env c.input th := by
  rw [call, processCommand, h]

theorem call_type (h : c.input.command = .type) : call th c = commandType c.env c.input th := by
  rw [call, processCommand, h]

theorem call_prot (h : c.input.command = .prot) : call th c = commandProt c.env c.input th := by
  rw [call, processCommand, h]

theorem call_pasv (h : c.input.command = .pasv) : call th c = commandPasv c.env c.input th := by
  rw [call, processCommand, h]

theorem call_allo (h : c.input.command = .allo) : call th c = commandAllo c.env c.input th := by
  rw [call, processCommand, h]

theorem call_dele (h : c.input.command = .dele) : call th c = commandDele c.env c.input th := by
  rw [call, processCommand, h]

theorem call_rnfr (h : c.input.command = .rnfr) : call th c = commandRnfr c.env c.input th := by
  rw [call, processCommand, h]

theorem call_rnto (h : c.input.command = .rnto) : call th c = commandRnto c.env c.input th := by
  rw [call, processCommand, h]

theorem call_quit (h : c.input.command = .quit) : call th c = commandQuit c.input th := by
  rw [call, processCommand, h]

end Dispatch

end FtpSession

end FtpsServer
