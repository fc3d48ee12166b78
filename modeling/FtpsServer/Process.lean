import FtpsServer.UserDatabase
import FtpsServer.Lib.InputStream
import FtpsServer.Lib.Ownership

/-!
# The process: shared state, environment outcomes, events

Everything the session threads share (the file tree, the descriptor table, the
statics of the classes), what the environment decides during one command, and
the log of what the process did to the outside: every socket call with the C++
object that issued it, every call into gnutls, every signal to an observer.
-/

namespace FtpsServer

open ByteString Cxx

/-! ## 1. Objects and events -/

/-- The `tcp_transport` objects of the program, by where they live. -/
inductive Object where
  /-- `ftp_server::m_control_channel`, the listening socket. -/
  | listener
  /-- `client_connection` of `ftp_server::server_thread`. -/
  | connection
  /-- `m_control_channel` of a session. -/
  | control (session : Nat)
  /-- `m_data_channel` of a session. -/
  | data (session : Nat)
  /-- `listener` of `ftp_session::command_pasv`. -/
  | passive (session : Nat)
  /-- An unnamed temporary. -/
  | temporary
deriving DecidableEq, Repr

/-- A `gnutls_session_t`: its handle, and the descriptor it was bound to. -/
structure GnutlsSession where
  handle : Nat
  descriptor : Int
deriving DecidableEq, Repr

/-- The way bytes take: the socket itself, or a TLS session over it. -/
inductive Via where
  | plain (descriptor : Int)
  | tls (session : GnutlsSession)
deriving DecidableEq, Repr

def Via.isTls : Via → Bool
  | .tls _ => true
  | .plain _ => false

def Via.descriptor : Via → Int
  | .plain descriptor => descriptor
  | .tls session => session.descriptor

/-- What one `recv` or `gnutls_record_recv` returns: bytes, 0, or an error. -/
inductive Received where
  | bytes (message : Bytes)
  | closed
  | failed
deriving DecidableEq, Repr

/-- Calls into gnutls, by the handle they are given. -/
inductive GnutlsCall where
  | allocate (handle : Nat)
  | use (handle : Nat)
  | deinit (handle : Nat)
deriving DecidableEq, Repr

/-- A descriptor is an `int`: it is -1 in the transport whose `::socket` failed. -/
inductive Event where
  | socket (object : Object) (result : Option Int)
  | accept (object : Object) (descriptor : Int) (result : Option Int)
  | adopt (object : Object) (descriptor : Int)
  | move (source target : Object) (descriptor : Int)
  | connect (object : Object) (descriptor : Int) (address : Bytes) (port : Int) (success : Bool)
  | bind (object : Object) (descriptor : Int) (port : Option Nat)
  | close (object : Object) (descriptor : Int)
  | push (object : Object) (via : Via) (message : Bytes) (result : Int)
  | pull (object : Object) (via : Via) (result : Received)
  | handshake (object : Object) (session : GnutlsSession) (success : Bool)
  | gnutls (call : GnutlsCall)
  | notifySignal (observer : Nat) (info : Bytes)
deriving DecidableEq, Repr

/-! ## 2. The environment -/

/-- The receive buffers of the program have 2000 bytes. -/
def BUFFER_SIZE : Nat := 2000

/-- What a successful `pull(2000, buffer)` delivers. -/
structure Chunk where
  bytes : Bytes
  nonempty : bytes ≠ []
  fits : bytes.length ≤ BUFFER_SIZE

/-- What the environment decides during one command.  A call on a transport that has no
    socket fails. -/
structure Environment where
  /-- The n-th `::socket` of the command succeeds. -/
  socket : Nat → Bool
  /-- `::connect` succeeds. -/
  connect : Bool
  connect_socket : connect = true → socket 0 = true
  /-- The n-th `::bind` of the command succeeds.  PASV opens one socket before them. -/
  bind : Nat → Bool
  bind_socket : ∀ n, bind n = true → socket (n + 1) = true
  /-- The port the kernel picks for a bind to port 0. -/
  ephemeralPort : Nat
  /-- `::accept` succeeds. -/
  accept : Bool
  /-- `getsockname` on the accepted socket, when it succeeds. -/
  getsockname : Option (Bytes × Int)
  /-- `gnutls_certificate_set_x509_key_file` succeeds. -/
  keyFile : Bool
  /-- `gnutls_handshake` ends without a fatal error. -/
  handshake : Bool
  /-- What the data channel delivers, pull by pull. -/
  data : List Chunk
  /-- The stream ends orderly (pull returns 0) rather than with an error. -/
  dataClosed : Bool
  /-- The result of `send` or `gnutls_record_send`. -/
  send : Object → Bytes → Int
  /-- How many bytes of an upload the file system takes before a write to the file fails;
      with `none` every write succeeds. -/
  room : Option Nat

/-- Everything succeeds, and the peer of a data connection closes it at once. -/
def Environment.plain : Environment where
  socket := fun _ => true
  connect := true
  connect_socket := fun _ => rfl
  bind := fun _ => true
  bind_socket := fun _ _ => rfl
  ephemeralPort := 40000
  accept := true
  getsockname := some (ascii "127.0.0.1", 21)
  keyFile := true
  handshake := true
  data := []
  dataClosed := true
  send := fun _ message => message.length
  room := none

/-! ## 3. The process -/

structure Process where
  fileTree : Posix.FileTree
  descriptors : Ownership.Table
  database : FtpUserDatabase
  observers : FtpNotifier
  /-- `ftp_session::DATA_PORT_ALLOCATION`. -/
  dataPortAllocation : Int
  /-- The handle the next gnutls allocation returns. -/
  nextHandle : Nat
  trace : List Event

/-- What ends the process: a C++ exception that leaves a session thread, or gnutls
    being handed a NULL session. -/
inductive Abort where
  | exception (e : StdException)
  | nullSession
deriving DecidableEq, Repr

/-- Let an exception of a library function leave the thread. -/
def raising {α : Type} : Except StdException α → Except Abort α
  | .ok a => .ok a
  | .error e => .error (.exception e)

@[simp] theorem raising_ok {α : Type} (a : α) : raising (.ok a) = .ok a := rfl

@[simp] theorem raising_error {α : Type} (e : StdException) :
    raising (.error e : Except StdException α) = .error (.exception e) := rfl

theorem raising_eq_ok {α : Type} {x : Except StdException α} {a : α} :
    raising x = .ok a ↔ x = .ok a := by
  cases x <;> simp [raising]

namespace Process

def initial (t : Posix.FileTree) : Process where
  fileTree := t
  descriptors := ⟨[0, 1, 2]⟩
  database := FtpUserDatabase.initial
  observers := []
  dataPortAllocation := 40150
  nextHandle := 0
  trace := []

def emit (p : Process) (event : Event) : Process := { p with trace := p.trace ++ [event] }

def setFileTree (p : Process) (t : Posix.FileTree) : Process := { p with fileTree := t }

/-- What `::socket` returns: the lowest free descriptor, or -1. -/
def socket (p : Process) (opens : Bool) : Int := if opens then p.descriptors.lowestFree else -1

/-- `socket` or `accept`: the lowest free descriptor becomes open. -/
def open' (p : Process) : Process := { p with descriptors := p.descriptors.allocate }

def close (p : Process) (descriptor : Int) : Process :=
  { p with descriptors := p.descriptors.release descriptor }

def allocate (p : Process) : Nat × Process :=
  (p.nextHandle, { p with nextHandle := p.nextHandle + 1 }.emit (.gnutls (.allocate p.nextHandle)))

section Fields

variable (p : Process) (event : Event) (t : Posix.FileTree) (descriptor : Int)

@[simp] theorem emit_trace : (p.emit event).trace = p.trace ++ [event] := rfl
@[simp] theorem emit_fileTree : (p.emit event).fileTree = p.fileTree := rfl
@[simp] theorem emit_descriptors : (p.emit event).descriptors = p.descriptors := rfl
@[simp] theorem emit_database : (p.emit event).database = p.database := rfl
@[simp] theorem emit_observers : (p.emit event).observers = p.observers := rfl
@[simp] theorem emit_dataPortAllocation :
    (p.emit event).dataPortAllocation = p.dataPortAllocation := rfl
@[simp] theorem emit_nextHandle : (p.emit event).nextHandle = p.nextHandle := rfl

@[simp] theorem setFileTree_trace : (p.setFileTree t).trace = p.trace := rfl
@[simp] theorem setFileTree_fileTree : (p.setFileTree t).fileTree = t := rfl
@[simp] theorem setFileTree_descriptors : (p.setFileTree t).descriptors = p.descriptors := rfl

@[simp] theorem open_trace : p.open'.trace = p.trace := rfl
@[simp] theorem open_fileTree : p.open'.fileTree = p.fileTree := rfl
@[simp] theorem open_descriptors : p.open'.descriptors = p.descriptors.allocate := rfl

@[simp] theorem close_trace : (p.close descriptor).trace = p.trace := rfl
@[simp] theorem close_fileTree : (p.close descriptor).fileTree = p.fileTree := rfl
@[simp] theorem close_descriptors :
    (p.close descriptor).descriptors = p.descriptors.release descriptor := rfl

end Fields

end Process

end FtpsServer
