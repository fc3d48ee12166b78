import FtpsServer.Process
import FtpsServer.Lib.Runs

/-!
# `tls_session.cpp`

A `tls_session` holds three gnutls handles, each possibly NULL.  Allocation calls
are taken to succeed with a fresh handle; loading the key file and the handshake
end as the environment says.
-/

namespace FtpsServer

open ByteString Cxx

structure TlsSession where
  dhParameters : Option Nat
  credentials : Option Nat
  session : Option GnutlsSession
deriving DecidableEq, Repr

namespace TlsSession

/-- `tls_session::tls_session(void)`, and what a move leaves behind. -/
def null : TlsSession := ⟨none, none, none⟩

/-- The move constructor: the new session, and what is left of the other. -/
def moveConstruct (other : TlsSession) : TlsSession × TlsSession := (other, null)

/-- `operator=(tls_session &&)`: the session assigned to, and what is left of the other;
    `same` when both are one object. -/
def moveAssign (same : Bool) (this other : TlsSession) : TlsSession × TlsSession :=
  if same then (this, other) else (other, null)

def initializeCredentials (env : Environment) (s : TlsSession) (p : Process) :
    Int × TlsSession × Process :=
  let (handle, p) := p.allocate
  let p := p.emit (.gnutls (.use handle))
  (if env.keyFile then OPERATION_SUCCESS else OPERATION_FAILURE,
    { s with credentials := some handle }, p)

def initializeDhParameters (s : TlsSession) (p : Process) : Int × TlsSession × Process :=
  let (handle, p) := p.allocate
  let p := p.emit (.gnutls (.use handle))
  let p := match s.credentials with
    | some credentials => p.emit (.gnutls (.use credentials))
    | none => p
  (OPERATION_SUCCESS, { s with dhParameters := some handle }, p)

def initializeSession (descriptor : Int) (s : TlsSession) (p : Process) :
    Int × TlsSession × Process :=
  let (handle, p) := p.allocate
  let p := p.emit (.gnutls (.use handle))
  let p := match s.credentials with
    | some credentials => p.emit (.gnutls (.use credentials))
    | none => p
  (OPERATION_SUCCESS, { s with session := some ⟨handle, descriptor⟩ }, p)

/-- `tls_session::create_tls_session`: the three steps, up to the first that fails. -/
def createTlsSession (env : Environment) (descriptor : Int) (s : TlsSession) (p : Process) :
    Int × TlsSession × Process :=
  let (result, s, p) := s.initializeCredentials env p
  if result ≠ OPERATION_SUCCESS then (OPERATION_FAILURE, s, p)
  else
    let (result, s, p) := s.initializeDhParameters p
    if result ≠ OPERATION_SUCCESS then (OPERATION_FAILURE, s, p)
    else
      let (result, s, p) := s.initializeSession descriptor p
      if result ≠ OPERATION_SUCCESS then (OPERATION_FAILURE, s, p)
      else (OPERATION_SUCCESS, s, p)

def bind (env : Environment) (descriptor : Int) (s : TlsSession) (p : Process) :
    Int × TlsSession × Process :=
  s.createTlsSession env descriptor p

/-- `tls_session::handshake`: after a fatal error the session is gone. -/
def handshake (env : Environment) (object : Object) (s : TlsSession) (p : Process) :
    Except Abort (Bool × TlsSession × Process) :=
  match s.session with
  | none => .error .nullSession
  | some session =>
    let p := p.emit (.gnutls (.use session.handle))
    let p := p.emit (.handshake object session env.handshake)
    if env.handshake then .ok (true, s, p)
    else .ok (false, { s with session := none }, p.emit (.gnutls (.deinit session.handle)))

/-- `tls_session::push` and `tls_session::pull`: the session is handed to gnutls. -/
def record (s : TlsSession) (p : Process) : Except Abort Process :=
  match s.session with
  | none => .error .nullSession
  | some session => .ok (p.emit (.gnutls (.use session.handle)))

/-- `tls_session::free_tls_session`, which the destructor calls too. -/
def freeTlsSession (s : TlsSession) (p : Process) : TlsSession × Process :=
  let p := match s.session with
    | some session => p.emit (.gnutls (.deinit session.handle))
    | none => p
  let p := match s.dhParameters with
    | some handle => p.emit (.gnutls (.deinit handle))
    | none => p
  let p := match s.credentials with
    | some handle => p.emit (.gnutls (.deinit handle))
    | none => p
  (null, p)

def close (s : TlsSession) (p : Process) : TlsSession × Process :=
  let p := match s.session with
    | some session => p.emit (.gnutls (.use session.handle))
    | none => p
  s.freeTlsSession p

end TlsSession

end FtpsServer
