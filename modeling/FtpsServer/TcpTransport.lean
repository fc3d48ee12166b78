import FtpsServer.TlsSession

/-!
# `tcp_transport.cpp`, `tcp_listener.cpp` and `tcp_client.cpp`

A transport is a socket descriptor, a TLS session and the flag that chooses between
the two.  Member functions take the object they are called on, so that the log
knows which object issued a call; a moved-from or closed transport holds the
descriptor 0.
-/

namespace FtpsServer

open ByteString Cxx

/-! ## 1. `tcp_transport` -/

structure TcpTransport where
  socket : Int
  session : TlsSession
  secure : Bool
  address : Bytes
  port : Int
deriving DecidableEq, Repr

namespace TcpTransport

/-- `tcp_transport::tcp_transport(void)` opens a socket, and keeps the -1 of a `::socket`
    that fails. -/
def new (opens : Bool) (object : Object) (p : Process) : TcpTransport × Process :=
  (⟨p.socket opens, .null, false, [], 0⟩,
    if opens then p.open'.emit (.socket object (some p.descriptors.lowestFree))
    else p.emit (.socket object none))

/-- `tcp_transport::tcp_transport(const int)` takes over an accepted socket. -/
def ofSocket (env : Environment) (object : Object) (descriptor : Int) (p : Process) :
    TcpTransport × Process :=
  let p := p.emit (.adopt object descriptor)
  match env.getsockname with
  | some (address, port) => (⟨descriptor, .null, false, address, port⟩, p)
  | none => (⟨descriptor, .null, false, [], 0⟩, p)

/-- The move constructor: the new transport, and what is left of the other. -/
def moveConstruct (target source : Object) (other : TcpTransport) (p : Process) :
    TcpTransport × TcpTransport × Process :=
  (other, { other with socket := 0, session := .null, address := [] },
    p.emit (.move source target other.socket))

/-- `operator=(tcp_transport &&)`: the transport assigned to, and what is left of
    the other. -/
def moveAssign (target source : Object) (this other : TcpTransport) (p : Process) :
    TcpTransport × TcpTransport × Process :=
  if target = source then (this, other, p)
  else (other, ⟨0, .null, false, [], 0⟩, p.emit (.move source target other.socket))

/-- The branch `push` and `pull` take.  With `m_secure` set they hand the session
    to gnutls, NULL or not. -/
def via (t : TcpTransport) : Except Abort Via :=
  if t.secure then
    match t.session.session with
    | some session => .ok (.tls session)
    | none => .error .nullSession
  else .ok (.plain t.socket)

/-- `tcp_transport::push`.  The kernel also ends the process (SIGPIPE) when the socket is not
    connected, or its peer is gone; a run of the model goes on from there. -/
def push (env : Environment) (object : Object) (t : TcpTransport) (message : Bytes) (p : Process) :
    Except Abort (Int × Process) := do
  let via ← t.via
  let result := env.send object message
  return (result, p.emit (.push object via message result))

/-- `tcp_transport::pull`, when the call returns `result`. -/
def pull (object : Object) (t : TcpTransport) (result : Received) (p : Process) :
    Except Abort Process := do
  let via ← t.via
  return p.emit (.pull object via result)

/-- `tcp_transport::close`: the descriptor becomes 0, the flag stays. -/
def close (object : Object) (t : TcpTransport) (p : Process) : TcpTransport × Process :=
  let (session, p) := if t.secure then t.session.close p else (t.session, p)
  ({ t with socket := 0, session := session }, (p.close t.socket).emit (.close object t.socket))

def setTls (env : Environment) (object : Object) (t : TcpTransport) (p : Process) :
    Except Abort (Int × TcpTransport × Process) :=
  let (result, session, p) := t.session.bind env t.socket p
  if result ≠ OPERATION_SUCCESS then
    .ok (OPERATION_FAILURE, { t with session := session }, p)
  else do
    let (secure, session, p) ← session.handshake env object p
    return (if secure then 1 else 0, { t with session := session, secure := secure }, p)

def connect (env : Environment) (object : Object) (t : TcpTransport) (address : Bytes) (port : Int)
    (p : Process) : Int × TcpTransport × Process :=
  let p := p.emit (.connect object t.socket address port env.connect)
  if env.connect then (OPERATION_SUCCESS, { t with address := address, port := port }, p)
  else (OPERATION_FAILURE, t, p)

/-- The destructor runs the one of the TLS session and closes no socket. -/
def destruct (t : TcpTransport) (p : Process) : Process := (t.session.freeTlsSession p).2

end TcpTransport

/-! ## 2. `tcp_listener` -/

structure TcpListener where
  transport : TcpTransport
  queueSize : Int
deriving DecidableEq, Repr

namespace TcpListener

/-- `tcp_listener::tcp_listener(void)`. -/
def new (opens : Bool) (object : Object) (p : Process) : TcpListener × Process :=
  let (transport, p) := TcpTransport.new opens object p
  (⟨transport, 0⟩, p)

/-- `tcp_listener::tcp_listener(address, port, queue_size)`. -/
def ofAddress (opens : Bool) (object : Object) (address : Bytes) (port queueSize : Int)
    (p : Process) : TcpListener × Process :=
  let (transport, p) := TcpTransport.new opens object p
  (⟨{ transport with address := address, port := port }, queueSize⟩, p)

/-- `operator=(tcp_listener &&)` from a temporary. -/
def moveAssign (target source : Object) (this other : TcpListener) (p : Process) :
    TcpListener × Process :=
  let (transport, _, p) := TcpTransport.moveAssign target source this.transport other.transport p
  (⟨transport, other.queueSize⟩, p)

/-- `tcp_listener::bind`: `m_port` is cut to 16 bits, and port 0 lets the kernel choose. -/
def bind (env : Environment) (object : Object) (attempt : Nat) (listener : TcpListener)
    (p : Process) : Int × Process :=
  let requested := (BitVec.ofInt 16 listener.transport.port).toNat
  if env.bind attempt then
    let port := if requested = 0 then env.ephemeralPort else requested
    (OPERATION_SUCCESS, p.emit (.bind object listener.transport.socket (some port)))
  else (OPERATION_FAILURE, p.emit (.bind object listener.transport.socket none))

/-- `tcp_listener::accept`: on success `transport` is replaced by the new connection. -/
def accept (env : Environment) (object target : Object) (listener : TcpListener)
    (transport : TcpTransport) (p : Process) : Int × TcpTransport × Process :=
  if env.accept then
    let clientSocket := p.descriptors.lowestFree
    let p := p.open'.emit (.accept object listener.transport.socket (some clientSocket))
    let (client, p) := TcpTransport.ofSocket env .temporary clientSocket p
    let (transport, _, p) := TcpTransport.moveAssign target .temporary transport client p
    (OPERATION_SUCCESS, transport, p)
  else
    (OPERATION_FAILURE, transport, p.emit (.accept object listener.transport.socket none))

end TcpListener

end FtpsServer
