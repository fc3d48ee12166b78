import FtpsServer.ServerRuns
import FtpsServer.SideBySide
import FtpsServer.Renaming
import FtpsServer.Lib.FileContents

/-!
# What is in the files stays there

There is no RETR: the commands write to files and read none, and `tls_session.cpp` reads
`server.cert` and `server.key` alone.  Whether gnutls takes these two, and how a handshake
with them ends, is given from outside in a step.  Two servers that run on trees with the
same objects and other contents in the files do the same, event by event, for any number
of sessions and any interleaving of the same steps: beyond the key files nobody learns from
the server what is in a file.
-/

namespace FtpsServer

open ByteString Cxx Machine Posix

/-! ## 1. The classes of `file_system.cpp` -/

section FileSystem

variable {t t' : FileTree} (h : t.SameShape t')
include h

theorem Directory.isFileType_sameShape (fileName : Bytes) (fileType : FileT) :
    Directory.isFileType t' fileName fileType = Directory.isFileType t fileName fileType := by
  unfold Directory.isFileType
  rcases h.lstat fileName with heq | ⟨mode, content, content', hold, hnew⟩
  · rw [heq]
  · rw [hold, hnew]
    cases fileType <;> rfl

theorem Directory.exists_sameShape (path : Bytes) :
    Directory.exists' t' path = Directory.exists' t path := by
  unfold Directory.exists'
  simp only [h.realpath, Directory.isFileType_sameShape h]

theorem Path.canonical_sameShape (path : Bytes) : Path.canonical t' path = Path.canonical t path := by
  unfold Path.canonical Path.getCanonicalFullPath
  simp only [h.realpath, Directory.exists_sameShape h]

theorem Directory.getFiles_sameShape (path : Bytes) (files : List Bytes) :
    Directory.getFiles t' path files = Directory.getFiles t path files := by
  unfold Directory.getFiles Directory.getSpecifyFiles
  simp only [Path.canonical_sameShape h, h.opendir, h.entries, Directory.isFileType_sameShape h]

theorem File.erase_sameShape (path : Bytes) :
    (File.erase t' path).1 = (File.erase t path).1 ∧
      (File.erase t path).2.SameShape (File.erase t' path).2 := by
  unfold File.erase
  rw [Path.canonical_sameShape h]
  rcases h.remove (Path.canonical t path) with ⟨hold, hnew⟩ | ⟨u, u', hold, hnew, hshape⟩
  · rw [hold, hnew]
    exact ⟨rfl, h⟩
  · rw [hold, hnew]
    exact ⟨rfl, hshape⟩

theorem Path.move_sameShape (oldPath newPath : Bytes) :
    (Path.move t' oldPath newPath).1 = (Path.move t oldPath newPath).1 ∧
      (Path.move t oldPath newPath).2.SameShape (Path.move t' oldPath newPath).2 := by
  unfold Path.move
  rw [Path.canonical_sameShape h]
  rcases h.rename (Path.canonical t oldPath) newPath with ⟨hold, hnew⟩ | ⟨u, u', hold, hnew, hshape⟩
  · rw [hold, hnew]
    exact ⟨rfl, h⟩
  · rw [hold, hnew]
    exact ⟨rfl, hshape⟩

end FileSystem

/-! ## 2. Transports over another tree -/

namespace Process

variable (t : FileTree) (env : Environment) (object : Object) (p : Process)

theorem new_setFileTree (opens : Bool) :
    TcpTransport.new opens object (p.setFileTree t) =
      ((TcpTransport.new opens object p).1,
        (TcpTransport.new opens object p).2.setFileTree t) := by
  cases opens <;> rfl

theorem freeTlsSession_setFileTree (s : TlsSession) :
    s.freeTlsSession (p.setFileTree t) =
      ((s.freeTlsSession p).1, (s.freeTlsSession p).2.setFileTree t) := by
  unfold TlsSession.freeTlsSession
  cases s.session <;> cases s.dhParameters <;> cases s.credentials <;> rfl

theorem close_setFileTree (channel : TcpTransport) :
    channel.close object (p.setFileTree t) =
      ((channel.close object p).1, (channel.close object p).2.setFileTree t) := by
  unfold TcpTransport.close TlsSession.close
  cases channel.secure with
  | false => rfl
  | true =>
    cases channel.session.session with
    | none =>
      dsimp only
      simp only [if_true, freeTlsSession_setFileTree]
      rfl
    | some session =>
      have hused : (p.setFileTree t).emit (.gnutls (.use session.handle)) =
        (p.emit (.gnutls (.use session.handle))).setFileTree t := rfl
      dsimp only
      simp only [if_true, hused, freeTlsSession_setFileTree]
      rfl

theorem destruct_setFileTree (channel : TcpTransport) :
    channel.destruct (p.setFileTree t) = (channel.destruct p).setFileTree t := by
  unfold TcpTransport.destruct
  rw [freeTlsSession_setFileTree]

theorem setTls_setFileTree (channel : TcpTransport) :
    channel.setTls env object (p.setFileTree t) =
      (channel.setTls env object p).map fun r => (r.1, r.2.1, r.2.2.setFileTree t) := by
  unfold TcpTransport.setTls TlsSession.bind TlsSession.createTlsSession
    TlsSession.initializeCredentials TlsSession.initializeDhParameters
    TlsSession.initializeSession TlsSession.handshake
  cases env.keyFile with
  | false => rfl
  | true => cases env.handshake <;> rfl

theorem bind_setFileTree (attempt : Nat) (listener : TcpListener) :
    listener.bind env object attempt (p.setFileTree t) =
      ((listener.bind env object attempt p).1,
        (listener.bind env object attempt p).2.setFileTree t) := by
  unfold TcpListener.bind
  cases env.bind attempt <;> rfl

theorem accept_setFileTree (target : Object) (htarget : target ≠ .temporary)
    (listener : TcpListener) (channel : TcpTransport) :
    listener.accept env object target channel (p.setFileTree t) =
      ((listener.accept env object target channel p).1,
        (listener.accept env object target channel p).2.1,
        (listener.accept env object target channel p).2.2.setFileTree t) := by
  unfold TcpListener.accept TcpTransport.ofSocket
  simp only [TcpTransport.moveAssign_of_ne htarget]
  cases env.accept with
  | false => rfl
  | true => cases env.getsockname <;> rfl

end Process

theorem FtpSession.allocateListener_setFileTree (t : FileTree) (env : Environment) (id : Nat)
    (address : Bytes) (attempts attempt : Nat) (listener : TcpListener) (port : Int) (p : Process) :
    allocateListener env id address attempts attempt listener port (p.setFileTree t) =
      let r := allocateListener env id address attempts attempt listener port p
      (r.1, r.2.1, r.2.2.1, r.2.2.2.setFileTree t) := by
  induction attempts generalizing attempt listener port p with
  | zero => rfl
  | succ attempts ih =>
    have hmoved : ∀ (other : TcpListener) (q : Process),
        TcpListener.moveAssign (.passive id) .temporary listener other (q.setFileTree t) =
          ((TcpListener.moveAssign (.passive id) .temporary listener other q).1,
            (TcpListener.moveAssign (.passive id) .temporary listener other q).2.setFileTree t) := by
      intro other q
      unfold TcpListener.moveAssign
      rw [TcpTransport.moveAssign_of_ne (by simp), TcpTransport.moveAssign_of_ne (by simp)]
      rfl
    have hother : TcpListener.ofAddress (env.socket (attempt + 1)) .temporary address port 1
          (p.setFileTree t) =
        ((TcpListener.ofAddress (env.socket (attempt + 1)) .temporary address port 1 p).1,
          (TcpListener.ofAddress (env.socket (attempt + 1)) .temporary address port 1 p).2.setFileTree
            t) := by
      unfold TcpListener.ofAddress
      rw [Process.new_setFileTree]
    have hnext : ∀ q : Process, nextPort (q.setFileTree t) =
        ((nextPort q).1, (nextPort q).2.setFileTree t) := fun _ => rfl
    unfold allocateListener
    simp only [hother, hmoved, Process.bind_setFileTree, hnext]
    split
    · rw [ih]
    · rfl

theorem FtpSession.construct_setFileTree (t : FileTree) (opens : Bool) (id : Nat)
    (connection : TcpTransport) (garbage : Uninitialised) (p : Process) :
    construct opens id connection garbage (p.setFileTree t) =
      (construct opens id connection garbage p).setFileTree t := by
  cases opens <;> rfl

/-! ## 3. Threads over another tree -/

/-- Two threads that differ in the contents of files only. -/
def OtherContents (th th' : Thread) : Prop :=
  ∃ t, th.process.fileTree.SameShape t ∧ th' = th.setFileTree t

namespace OtherContents

variable {th th' : Thread} {env : Environment}

theorem session (h : OtherContents th th') : th'.session = th.session := by
  rcases h with ⟨t, -, rfl⟩
  rfl

theorem fileTree (h : OtherContents th th') :
    th.process.fileTree.SameShape th'.process.fileTree := by
  rcases h with ⟨t, hshape, rfl⟩
  exact hshape

theorem database (h : OtherContents th th') : th'.process.database = th.process.database := by
  rcases h with ⟨t, -, rfl⟩
  rfl

theorem trace (h : OtherContents th th') : th'.process.trace = th.process.trace := by
  rcases h with ⟨t, -, rfl⟩
  rfl

theorem setSession (h : OtherContents th th') (session : FtpSession) :
    OtherContents { th with session := session } { th' with session := session } := by
  rcases h with ⟨t, hshape, rfl⟩
  exact ⟨t, hshape, rfl⟩

theorem setFileTree (h : OtherContents th th') {u u' : FileTree} (hshape : u.SameShape u') :
    OtherContents (th.setFileTree u) (th'.setFileTree u') := by
  rcases h with ⟨t, -, rfl⟩
  exact ⟨u', hshape, rfl⟩

theorem reply (h : OtherContents th th') (message : Bytes) :
    Related OtherContents (th.reply env message) (th'.reply env message) := by
  rcases h with ⟨t, hshape, rfl⟩
  have hvia' : (th.setFileTree t).session.controlChannel.via =
    th.session.controlChannel.via := rfl
  unfold Thread.reply TcpTransport.push
  rw [hvia']
  cases th.session.controlChannel.via with
  | error e => rfl
  | ok via => exact ⟨t, hshape, rfl⟩

theorem replyWhen (h : OtherContents th th') (condition : Bool) (message : Bytes) :
    Related OtherContents (th.replyWhen env condition message)
      (th'.replyWhen env condition message) := by
  cases condition with
  | false => exact h
  | true => exact h.reply message

theorem dataPush (h : OtherContents th th') (message : Bytes) :
    Related OtherContents (th.dataPush env message) (th'.dataPush env message) := by
  rcases h with ⟨t, hshape, rfl⟩
  have hvia' : (th.setFileTree t).session.dataChannel.via = th.session.dataChannel.via := rfl
  unfold Thread.dataPush TcpTransport.push
  rw [hvia']
  cases th.session.dataChannel.via with
  | error e => rfl
  | ok via => exact ⟨t, hshape, rfl⟩

theorem controlPull (h : OtherContents th th') (result : Received) :
    Related OtherContents (th.controlPull result) (th'.controlPull result) := by
  rcases h with ⟨t, hshape, rfl⟩
  have hvia' : (th.setFileTree t).session.controlChannel.via =
    th.session.controlChannel.via := rfl
  unfold Thread.controlPull TcpTransport.pull
  rw [hvia']
  cases th.session.controlChannel.via with
  | error e => rfl
  | ok via => exact ⟨t, hshape, rfl⟩

theorem dataClose (h : OtherContents th th') : OtherContents th.dataClose th'.dataClose := by
  rcases h with ⟨t, hshape, rfl⟩
  have htree : th.dataClose.process.fileTree = th.process.fileTree :=
    (TcpTransport.close_quiet _ th.session.dataChannel th.process).fileTree
  refine ⟨t, htree ▸ hshape, ?_⟩
  unfold Thread.dataClose Thread.setFileTree
  dsimp only
  rw [Process.close_setFileTree]

theorem notify (h : OtherContents th th') (event : FtpObserveEventT) (message : Bytes) :
    OtherContents (th.notify event message) (th'.notify event message) := by
  rcases h with ⟨t, hshape, rfl⟩
  exact ⟨t, hshape, rfl⟩

/-- The receive loop appends the same to both files. -/
theorem receiveFile (h : OtherContents th th') (file : Option Location) :
    Related OtherContents (FtpSession.receiveFile env file th)
      (FtpSession.receiveFile env file th') := by
  rcases h with ⟨t, hshape, rfl⟩
  cases hvia : th.session.dataChannel.via with
  | error e =>
    have hvia' : (th.setFileTree t).session.dataChannel.via = .error e := hvia
    rw [FtpSession.receiveFile_error hvia, FtpSession.receiveFile_error hvia']
    rfl
  | ok via =>
    have hvia' : (th.setFileTree t).session.dataChannel.via = .ok via := hvia
    rw [FtpSession.receiveFile_eq hvia, FtpSession.receiveFile_eq hvia']
    refine ⟨_, ?_, rfl⟩
    cases file with
    | none => exact hshape
    | some l => exact hshape.append l _ _

end OtherContents

namespace FtpSession

/-! ## 4. Handlers -/

variable {th th' : Thread} {env : Environment} {input : FtpCommand}

theorem commandUser_contents (h : OtherContents th th') :
    Related OtherContents (commandUser env input th) (commandUser env input th') := by
  unfold commandUser
  apply Related.same
  intro login
  rw [h.session]
  apply (h.replyWhen _ _).bind
  intro a b hab
  rw [hab.session]
  exact (hab.setSession _).reply _

theorem commandPass_contents (h : OtherContents th th') :
    Related OtherContents (commandPass env input th) (commandPass env input th') := by
  unfold commandPass
  apply Related.same
  intro password
  rw [h.session]
  apply (h.replyWhen _ _).bind
  intro a b hab
  dsimp only
  rw [hab.session, hab.database]
  apply Related.ite
  · intro _
    apply ((hab.setSession _).reply _).bind
    intro c d hcd
    rw [hcd.session]
    exact hcd.setSession _
  · intro _
    exact (hab.setSession _).reply _

theorem commandCwd_contents (h : OtherContents th th') :
    Related OtherContents (commandCwd env input th) (commandCwd env input th') := by
  unfold commandCwd
  rw [h.session]
  apply Related.same
  intro argument
  apply Related.same
  intro folder
  simp only [Path.canonical_sameShape h.fileTree, Directory.exists_sameShape h.fileTree]
  apply Related.ite
  · intro _
    exact h.reply _
  · intro _
    exact (h.setSession _).reply _

theorem commandPort_contents (h : OtherContents th th') :
    Related OtherContents (commandPort env input th) (commandPort env input th') := by
  rcases h with ⟨t, hshape, rfl⟩
  unfold commandPort
  apply Related.same
  intro address
  apply Related.same
  intro port
  dsimp only
  rw [TcpTransport.moveAssign_of_ne (by simp), TcpTransport.moveAssign_of_ne (by simp)]
  have hnew : TcpTransport.new (env.socket 0) .temporary (th.setFileTree t).process =
      ((TcpTransport.new (env.socket 0) .temporary th.process).1,
        (TcpTransport.new (env.socket 0) .temporary th.process).2.setFileTree t) :=
    Process.new_setFileTree t .temporary th.process (env.socket 0)
  have hopened : (TcpTransport.new (env.socket 0) .temporary th.process).2.fileTree.SameShape t := by
    rw [(TcpTransport.new_quiet (env.socket 0) .temporary th.process).fileTree]
    exact hshape
  rw [hnew]
  unfold TcpTransport.connect
  cases env.connect with
  | false => exact OtherContents.reply ⟨t, by exact hopened, rfl⟩ _
  | true =>
    apply Related.bind (R := OtherContents) (OtherContents.reply ⟨t, by exact hopened, rfl⟩ _)
    intro a b hab
    exact hab.reply _

theorem commandList_contents (h : OtherContents th th') :
    Related OtherContents (commandList env input th) (commandList env input th') := by
  unfold commandList
  rw [h.session, Directory.getFiles_sameShape h.fileTree]
  apply (h.reply _).bind
  intro a b hab
  apply (hab.dataPush _).bind
  intro c d hcd
  apply (hcd.reply _).bind
  intro e f hef
  exact hef.dataClose

theorem openTransfer_contents (h : OtherContents th th') (filePath : Bytes) :
    (openTransfer filePath th').1 = (openTransfer filePath th).1 ∧
      OtherContents (openTransfer filePath th).2 (openTransfer filePath th').2 := by
  unfold openTransfer
  rcases h.fileTree.openAppend filePath with ⟨hold, hnew⟩ | ⟨u, u', l, hold, hnew, hshape⟩
  · rw [hold, hnew]
    exact ⟨rfl, h⟩
  · rw [hold, hnew]
    exact ⟨rfl, h.setFileTree hshape⟩

theorem commandStor_contents (h : OtherContents th th') :
    Related OtherContents (commandStor env input th) (commandStor env input th') := by
  unfold commandStor
  rw [h.session]
  apply Related.same
  intro fileName
  rcases openTransfer_contents h (th.session.folder ++ fileName) with ⟨hfile, hopened⟩
  dsimp only
  rw [hfile]
  apply (hopened.reply _).bind
  intro a b hab
  apply (hab.receiveFile _).bind
  intro c d hcd
  apply (hcd.dataClose.reply _).bind
  intro e f hef
  exact hef.notify _ _

theorem commandType_contents (h : OtherContents th th') :
    Related OtherContents (commandType env input th) (commandType env input th') := by
  unfold commandType
  rw [h.session]
  apply Related.same
  intro type
  apply Related.ite
  · intro _
    exact (h.setSession _).reply _
  · intro _
    apply Related.ite
    · intro _
      exact (h.setSession _).reply _
    · intro _
      exact h.reply _

theorem commandAuth_contents (h : OtherContents th th') :
    Related OtherContents (commandAuth env input th) (commandAuth env input th') := by
  unfold commandAuth
  apply Related.same
  intro service
  apply Related.ite
  · intro _
    exact h.reply _
  · intro _
    apply (h.reply _).bind
    rintro a _ ⟨t, hshape, rfl⟩
    rcases TcpTransport.setTls_ok env (.control a.session.id) a.session.controlChannel a.process
      with ⟨result, channel, p, hset, hshaken, -⟩
    have hset' : TcpTransport.setTls env (.control a.session.id) a.session.controlChannel
        (a.process.setFileTree t) = .ok (result, channel, p.setFileTree t) := by
      rw [Process.setTls_setFileTree, hset]
      rfl
    simp only [Thread.setFileTree, hset, hset', ok_bind]
    exact ⟨t, hshaken.quiet.fileTree ▸ hshape, rfl⟩

theorem commandDele_contents (h : OtherContents th th') :
    Related OtherContents (commandDele env input th) (commandDele env input th') := by
  unfold commandDele
  apply Related.same
  intro path
  have hpath : th'.session.delePath th'.process.fileTree path =
      th.session.delePath th.process.fileTree path := by
    unfold delePath
    rw [h.session, Path.canonical_sameShape h.fileTree]
  rcases File.erase_sameShape h.fileTree (th.session.delePath th.process.fileTree path) with
    ⟨hresult, hshape⟩
  dsimp only
  rw [hpath, hresult]
  apply Related.ite
  · intro _
    exact (h.setFileTree hshape).reply _
  · intro _
    exact (h.setFileTree hshape).reply _

theorem commandRnfr_contents (h : OtherContents th th') :
    Related OtherContents (commandRnfr env input th) (commandRnfr env input th') := by
  unfold commandRnfr
  rw [h.session]
  apply Related.same
  intro path
  simp only [File.exists_eq_false, Path.canonical_sameShape h.fileTree,
    Directory.exists_sameShape h.fileTree]
  apply (h.reply _).bind
  intro a b hab
  rw [hab.session]
  exact hab.setSession _

theorem commandRnto_contents (h : OtherContents th th') :
    Related OtherContents (commandRnto env input th) (commandRnto env input th') := by
  unfold commandRnto
  rw [h.session]
  apply Related.same
  intro path
  rcases Path.move_sameShape h.fileTree th.session.argument (th.session.renamePath path) with
    ⟨hresult, hshape⟩
  dsimp only
  rw [File.exists_eq_false, File.exists_eq_false, Directory.exists_sameShape h.fileTree, hresult]
  apply Related.ite
  · intro _
    exact h.reply _
  · intro _
    apply Related.ite
    · intro _
      exact (h.setFileTree hshape).reply _
    · intro _
      exact (h.setFileTree hshape).reply _

theorem secureData_contents (h : OtherContents th th') :
    Related OtherContents (secureData env th) (secureData env th') := by
  rcases h with ⟨t, hshape, rfl⟩
  apply Related.ite
  · intro _
    rcases TcpTransport.setTls_ok env (.data th.session.id) th.session.dataChannel th.process
      with ⟨result, channel, p, hset, hshaken, -⟩
    have hset' : TcpTransport.setTls env (.data th.session.id) th.session.dataChannel
        (th.process.setFileTree t) = .ok (result, channel, p.setFileTree t) := by
      rw [Process.setTls_setFileTree, hset]
      rfl
    simp only [Thread.setFileTree, hset, hset', ok_bind]
    exact ⟨t, hshaken.quiet.fileTree ▸ hshape, rfl⟩
  · intro _
    exact ⟨t, hshape, rfl⟩

theorem acceptData_contents (h : OtherContents th th') (listener : TcpListener) :
    Related OtherContents (acceptData env listener th) (acceptData env listener th') := by
  rcases h with ⟨t, hshape, rfl⟩
  have haccepted := (TcpListener.accept_quiet env (.passive th.session.id) (.data th.session.id)
    listener th.session.dataChannel th.process).fileTree
  unfold acceptData
  dsimp only
  simp only [Thread.setFileTree, Process.accept_setFileTree t env (.passive th.session.id)
    th.process (.data th.session.id) (by simp)]
  apply (secureData_contents ⟨t, haccepted ▸ hshape, rfl⟩).bind
  rintro a _ ⟨u, hu, rfl⟩
  have hclosed := (listener.transport.close_quiet (.passive a.session.id) a.process).trans
    (TcpTransport.destruct_quiet (listener.transport.close (.passive a.session.id) a.process).1 _)
  refine ⟨u, hclosed.fileTree ▸ hu, ?_⟩
  simp only [Thread.setFileTree, Process.close_setFileTree, Process.destruct_setFileTree]

theorem commandPasv_contents (h : OtherContents th th') :
    Related OtherContents (commandPasv env input th) (commandPasv env input th') := by
  rcases h with ⟨t, hshape, rfl⟩
  have hnext : nextPort (th.process.setFileTree t) =
      ((nextPort th.process).1, (nextPort th.process).2.setFileTree t) := rfl
  have hnew : ∀ q : Process,
      TcpListener.new (env.socket 0) (.passive th.session.id) (q.setFileTree t) =
        ((TcpListener.new (env.socket 0) (.passive th.session.id) q).1,
          (TcpListener.new (env.socket 0) (.passive th.session.id) q).2.setFileTree t) := by
    intro q
    unfold TcpListener.new
    rw [Process.new_setFileTree]
  have hlistening : listening env ⟨th.session, th.process.setFileTree t⟩ =
      ((listening env th).1, (listening env th).2.1, (listening env th).2.2.1,
        (listening env th).2.2.2.setFileTree t) := by
    unfold listening
    simp only [hnext, hnew, allocateListener_setFileTree]
  have htree := (listening_spec env th).2
  rw [commandPasv_eq, commandPasv_eq, Thread.setFileTree, hlistening]
  have hallocated : OtherContents ⟨th.session, (listening env th).2.2.2⟩
      ⟨th.session, (listening env th).2.2.2.setFileTree t⟩ := ⟨t, htree.fileTree ▸ hshape, rfl⟩
  apply Related.ite
  · intro _
    apply (hallocated.reply _).bind
    rintro a _ ⟨u, hu, rfl⟩
    refine ⟨u, ?_, ?_⟩
    · change (TcpTransport.destruct _ _).fileTree.SameShape u
      rw [(TcpTransport.destruct_quiet _ _).fileTree]
      exact hu
    · simp only [Thread.setFileTree, Process.destruct_setFileTree]
  · intro _
    apply (hallocated.reply _).bind
    intro a b hab
    exact acceptData_contents hab _

/-- **A call over other contents** goes the same way. -/
theorem processCommand_contents (h : OtherContents th th') :
    Related OtherContents (processCommand env input th) (processCommand env input th') := by
  have hnumber : ∀ (x : Except Abort Int) (f : Int → FtpSession → FtpSession) (message : Bytes),
      Related OtherContents
        (x >>= fun n => ({ th with session := f n th.session } : Thread).reply env message)
        (x >>= fun n => ({ th' with session := f n th'.session } : Thread).reply env message) := by
    intro x f message
    apply Related.same
    intro n
    rw [h.session]
    exact (h.setSession _).reply _
  unfold processCommand
  cases input.command
  case user => exact commandUser_contents h
  case pass => exact commandPass_contents h
  case pwd =>
    unfold commandPwd
    rw [h.session]
    exact h.reply _
  case cwd => exact commandCwd_contents h
  case port => exact commandPort_contents h
  case list => exact commandList_contents h
  case stor => exact commandStor_contents h
  case type => exact commandType_contents h
  case auth => exact commandAuth_contents h
  case pbsz => exact hnumber _ (fun n session => { session with protectionBufferSize := n }) _
  case prot =>
    apply Related.same
    intro level
    rw [h.session]
    exact (h.setSession _).reply _
  case pasv => exact commandPasv_contents h
  case allo => exact hnumber _ (fun n session => { session with bufferFileSize := n }) _
  case dele => exact commandDele_contents h
  case rnfr => exact commandRnfr_contents h
  case rnto => exact commandRnto_contents h
  case quit =>
    unfold commandQuit
    rw [h.session]
    exact h.setSession _
  all_goals exact h.reply _

end FtpSession

/-! ## 5. The server -/

namespace SessionThread

variable {th th' : Thread} {buffer : MessageBuffer}

/-- Two session threads that differ in the contents of files only. -/
def OtherContents (s s' : SessionThread) : Prop :=
  FtpsServer.OtherContents s.thread s'.thread ∧ s'.buffer = s.buffer

theorem step_contents (h : FtpsServer.OtherContents th th') (turn : Turn) :
    Related OtherContents (step ⟨th, buffer⟩ turn) (step ⟨th', buffer⟩ turn) := by
  unfold step
  rw [h.session]
  apply Related.ite
  · intro _
    exact ⟨h, rfl⟩
  · intro _
    unfold handle
    apply (h.controlPull _).bind
    intro a b hab
    apply Related.same
    intro input
    apply (FtpSession.processCommand_contents hab).bind
    intro c d hcd
    exact ⟨hcd, rfl⟩

theorem finish_contents (h : FtpsServer.OtherContents th th') (ending : Received) :
    Related OtherContents (finish ⟨th, buffer⟩ ending) (finish ⟨th', buffer⟩ ending) := by
  have hlast : Related FtpsServer.OtherContents (lastPull ⟨th, buffer⟩ ending)
      (lastPull ⟨th', buffer⟩ ending) := by
    unfold lastPull
    rw [h.session]
    apply Related.ite
    · intro _
      exact h
    · intro _
      exact h.controlPull ending
  unfold finish
  apply hlast.bind
  rintro a _ ⟨t, hshape, rfl⟩
  have hclosed := (a.session.controlChannel.close_quiet (.control a.session.id) a.process).fileTree
  simp only [Thread.setFileTree, Process.close_setFileTree]
  exact ⟨⟨t, hclosed ▸ hshape, rfl⟩, rfl⟩

end SessionThread

namespace FtpServer

/-- The server on another tree. -/
def setFileTree (s : FtpServer) (t : FileTree) : FtpServer :=
  { s with process := s.process.setFileTree t }

/-- Two servers that differ in the contents of files only. -/
def OtherContents (s s' : FtpServer) : Prop :=
  ∃ t, s.process.fileTree.SameShape t ∧ s' = s.setFileTree t

theorem acceptRound_setFileTree (env : Environment) (garbage : Uninitialised) (buffer : MessageBuffer)
    (s : FtpServer) (t : FileTree) :
    (s.setFileTree t).acceptRound env garbage buffer =
      (s.acceptRound env garbage buffer).setFileTree t := by
  unfold acceptRound setFileTree
  simp only [Process.new_setFileTree, Process.accept_setFileTree t env .listener _ .connection
    (by simp), FtpSession.construct_setFileTree]
  rfl

theorem act_contents (a : ClientStep) (client : ClientSession) {p : Process} {t : FileTree}
    (hshape : p.fileTree.SameShape t) :
    Related (fun r r' => r'.1 = r.1 ∧ ∃ u, r.2.fileTree.SameShape u ∧ r'.2 = r.2.setFileTree u)
      (act a client p) (act a client (p.setFileTree t)) := by
  have hthread : FtpsServer.OtherContents ⟨client.session, p⟩ ⟨client.session, p.setFileTree t⟩ :=
    ⟨t, hshape, rfl⟩
  have hstays : Related (fun r r' : ClientSession × Process =>
      r'.1 = r.1 ∧ ∃ u, r.2.fileTree.SameShape u ∧ r'.2 = r.2.setFileTree u)
      (.ok (client, p) : Except Abort _) (.ok (client, p.setFileTree t)) := ⟨rfl, t, hshape, rfl⟩
  cases a with
  | greet env =>
    change Related _ (greet env client p) (greet env client (p.setFileTree t))
    unfold greet
    cases client.phase with
    | created =>
      apply (hthread.reply _).bind
      rintro a _ ⟨u, hu, rfl⟩
      exact ⟨rfl, u, hu, rfl⟩
    | looping => exact hstays
    | ended => exact hstays
  | turn turn =>
    change Related _ (FtpServer.turn turn client p) (FtpServer.turn turn client (p.setFileTree t))
    unfold FtpServer.turn
    cases client.phase with
    | looping =>
      apply (SessionThread.step_contents hthread turn).bind
      rintro a b ⟨⟨u, hu, hthread⟩, hbuffer⟩
      rw [hthread, hbuffer]
      exact ⟨rfl, u, hu, rfl⟩
    | created => exact hstays
    | ended => exact hstays
  | finish ending =>
    change Related _ (FtpServer.finish ending client p)
      (FtpServer.finish ending client (p.setFileTree t))
    unfold FtpServer.finish
    cases client.phase with
    | looping =>
      apply (SessionThread.finish_contents hthread ending).bind
      rintro a b ⟨⟨u, hu, hthread⟩, hbuffer⟩
      rw [hthread]
      exact ⟨rfl, u, hu, rfl⟩
    | created => exact hstays
    | ended => exact hstays

/-- **One step over other contents.** -/
theorem step_contents {s s' : FtpServer} (h : OtherContents s s') (i : ServerStep) :
    Related OtherContents (s.step i) (s'.step i) := by
  rcases h with ⟨t, hshape, rfl⟩
  have hsession : ∀ k a, Related OtherContents (s.sessionStep k (act a))
      ((s.setFileTree t).sessionStep k (act a)) := by
    intro k a
    unfold sessionStep
    have hclients : (s.setFileTree t).clientSessions = s.clientSessions := rfl
    rw [hclients]
    cases s.clientSessions[k]? with
    | none => exact ⟨t, hshape, rfl⟩
    | some client =>
      apply (act_contents a client hshape).bind
      rintro ⟨client₁, p⟩ ⟨client₂, q⟩ ⟨hclient, u, hu, hq⟩
      dsimp only at hclient hu hq
      subst hclient hq
      exact ⟨u, hu, rfl⟩
  cases i with
  | accept env garbage buffer =>
    refine ⟨t, ?_, acceptRound_setFileTree env garbage buffer s t⟩
    rw [(acceptRound_quiet env garbage buffer s).fileTree]
    exact hshape
  | greet session env => exact hsession session (.greet env)
  | turn session turn => exact hsession session (.turn turn)
  | finish session ending => exact hsession session (.finish ending)

/-- The same log, the same sessions with all their members, and trees of one shape. -/
structure Indistinct (s s' : FtpServer) : Prop where
  trace : s'.process.trace = s.process.trace
  clientSessions : s'.clientSessions = s.clientSessions
  fileTree : s.process.fileTree.SameShape s'.process.fileTree

/-- **What is in the files stays there.**  Run the server over two trees that differ in the
    contents of regular files only, with the same outcomes of loading the key files, of
    handshakes and of writes.  For every interleaving of any number of sessions, after every
    step, the two have logged the same calls and sent the same bytes on every channel, their
    sessions are the same, and the trees still differ in contents only; and if one of them
    aborts so does the other, in the same way. -/
theorem contents_hidden {s : FtpServer} {t : FileTree} (h : s.process.fileTree.SameShape t)
    (steps : List ServerStep) : Abreast Indistinct step step s (s.setFileTree t) steps := by
  have habreast : ∀ {steps : List ServerStep} {s s' : FtpServer}, OtherContents s s' →
      Abreast OtherContents step step s s' steps := by
    intro steps
    induction steps with
    | nil =>
      intro s s' h
      exact abreast_nil.mpr h
    | cons i steps ih =>
      intro s s' h
      exact abreast_cons.mpr ⟨h, (step_contents h i).mono fun _ _ hnext => ih hnext⟩
  intro before hbefore
  apply (habreast ⟨t, h, rfl⟩ before hbefore).mono
  rintro a _ ⟨u, hu, rfl⟩
  exact ⟨rfl, rfl, hu⟩

/-- A server on a tree with two files. -/
def ofTwoFiles : FtpServer :=
  (start .plain (ascii "127.0.0.1") 21 (Process.initial FtpSession.twoFiles)).get rfl

theorem contents_hidden_list :
    FtpSession.twoFiles.setContent [ascii "a"] (ascii "secret") ≠ FtpSession.twoFiles ∧
      Abreast Indistinct step step ofTwoFiles
        (ofTwoFiles.setFileTree (FtpSession.twoFiles.setContent [ascii "a"] (ascii "secret")))
        [.accept .plain ⟨0, 0, .clear⟩ .zero, .greet 0 .plain,
          .turn 0 SessionThread.portTurn,
          .turn 0 (SessionThread.lineTurn .plain "LIST\r\n" (by decide))] := by
  refine ⟨?_, contents_hidden (FileTree.SameShape.setContent FtpSession.twoFiles _ _) _⟩
  intro heq
  exact absurd (congrFun (congrArg FileTree.node heq) [ascii "a"]) (by decide +kernel)

end FtpServer

end FtpsServer
