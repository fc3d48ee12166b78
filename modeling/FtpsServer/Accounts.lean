import FtpsServer.LoginOrder
import FtpsServer.SideBySide

/-!
# What a session shows of the accounts

The user database is read in one place, `ftp_user_database::get` in `command_pass`, and
what comes out of it is seen only when the password is right.  Two sessions over
different users, in which no PASS succeeds, run side by side and show the same.
-/

namespace FtpsServer

open ByteString Cxx Machine

/-! ## 1. Processes with other users -/

namespace Process

def withUsers (p : Process) (database : FtpUserDatabase) : Process := { p with database := database }

variable (database : FtpUserDatabase) (env : Environment) (object : Object) (p : Process)

theorem new_withUsers (opens : Bool) :
    TcpTransport.new opens object (p.withUsers database) =
      ((TcpTransport.new opens object p).1,
        (TcpTransport.new opens object p).2.withUsers database) := by
  cases opens <;> rfl

theorem freeTlsSession_withUsers (s : TlsSession) :
    s.freeTlsSession (p.withUsers database) =
      ((s.freeTlsSession p).1, (s.freeTlsSession p).2.withUsers database) := by
  unfold TlsSession.freeTlsSession
  cases s.session <;> cases s.dhParameters <;> cases s.credentials <;> rfl

theorem close_withUsers (t : TcpTransport) :
    t.close object (p.withUsers database) =
      ((t.close object p).1, (t.close object p).2.withUsers database) := by
  unfold TcpTransport.close TlsSession.close
  cases t.secure with
  | false => rfl
  | true =>
    cases t.session.session with
    | none =>
      dsimp only
      simp only [if_true, freeTlsSession_withUsers]
      rfl
    | some session =>
      have hused : (p.withUsers database).emit (.gnutls (.use session.handle)) =
        (p.emit (.gnutls (.use session.handle))).withUsers database := rfl
      dsimp only
      simp only [if_true, hused, freeTlsSession_withUsers]
      rfl

theorem destruct_withUsers (t : TcpTransport) :
    t.destruct (p.withUsers database) = (t.destruct p).withUsers database := by
  unfold TcpTransport.destruct
  rw [freeTlsSession_withUsers]

theorem setTls_withUsers (t : TcpTransport) :
    t.setTls env object (p.withUsers database) =
      (t.setTls env object p).map fun r => (r.1, r.2.1, r.2.2.withUsers database) := by
  unfold TcpTransport.setTls TlsSession.bind TlsSession.createTlsSession
    TlsSession.initializeCredentials TlsSession.initializeDhParameters
    TlsSession.initializeSession TlsSession.handshake
  cases env.keyFile with
  | false => rfl
  | true => cases env.handshake <;> rfl

theorem bind_withUsers (attempt : Nat) (listener : TcpListener) :
    listener.bind env object attempt (p.withUsers database) =
      ((listener.bind env object attempt p).1,
        (listener.bind env object attempt p).2.withUsers database) := by
  unfold TcpListener.bind
  cases env.bind attempt <;> rfl

theorem accept_withUsers (target : Object) (htarget : target ≠ .temporary)
    (listener : TcpListener) (t : TcpTransport) :
    listener.accept env object target t (p.withUsers database) =
      ((listener.accept env object target t p).1, (listener.accept env object target t p).2.1,
        (listener.accept env object target t p).2.2.withUsers database) := by
  unfold TcpListener.accept TcpTransport.ofSocket
  simp only [TcpTransport.moveAssign_of_ne htarget]
  cases env.accept with
  | false => rfl
  | true => cases env.getsockname <;> rfl

end Process

theorem FtpSession.allocateListener_withUsers (database : FtpUserDatabase) (env : Environment)
    (id : Nat) (address : Bytes) (attempts attempt : Nat) (listener : TcpListener) (port : Int)
    (p : Process) :
    allocateListener env id address attempts attempt listener port (p.withUsers database) =
      let r := allocateListener env id address attempts attempt listener port p
      (r.1, r.2.1, r.2.2.1, r.2.2.2.withUsers database) := by
  induction attempts generalizing attempt listener port p with
  | zero => rfl
  | succ attempts ih =>
    have hmoved : ∀ (other : TcpListener) (q : Process),
        TcpListener.moveAssign (.passive id) .temporary listener other (q.withUsers database) =
          ((TcpListener.moveAssign (.passive id) .temporary listener other q).1,
            (TcpListener.moveAssign (.passive id) .temporary listener other q).2.withUsers
              database) := by
      intro other q
      unfold TcpListener.moveAssign
      rw [TcpTransport.moveAssign_of_ne (by simp), TcpTransport.moveAssign_of_ne (by simp)]
      rfl
    have hother : TcpListener.ofAddress (env.socket (attempt + 1)) .temporary address port 1
          (p.withUsers database) =
        ((TcpListener.ofAddress (env.socket (attempt + 1)) .temporary address port 1 p).1,
          (TcpListener.ofAddress (env.socket (attempt + 1)) .temporary address port 1 p).2.withUsers
            database) := by
      unfold TcpListener.ofAddress
      rw [Process.new_withUsers]
    have hnext : ∀ q : Process, nextPort (q.withUsers database) =
        ((nextPort q).1, (nextPort q).2.withUsers database) := fun _ => rfl
    unfold allocateListener
    simp only [hother, hmoved, Process.bind_withUsers, hnext]
    split
    · rw [ih]
    · rfl

/-! ## 2. Threads with other users -/

def Thread.withUsers (th : Thread) (database : FtpUserDatabase) : Thread :=
  { th with process := th.process.withUsers database }

/-- Two threads that differ in the users only. -/
def OtherUsers (th th' : Thread) : Prop := ∃ database, th' = th.withUsers database

namespace OtherUsers

variable {th th' : Thread} {env : Environment}

theorem reply (h : OtherUsers th th') (message : Bytes) :
    Related OtherUsers (th.reply env message) (th'.reply env message) := by
  rcases h with ⟨database, rfl⟩
  cases hvia : th.session.controlChannel.via with
  | error e =>
    have hvia' : (th.withUsers database).session.controlChannel.via = .error e := hvia
    rw [reply_error hvia, reply_error hvia']
    rfl
  | ok via =>
    have hvia' : (th.withUsers database).session.controlChannel.via = .ok via := hvia
    rw [reply_eq th hvia, reply_eq _ hvia']
    exact ⟨database, rfl⟩

theorem replyWhen (h : OtherUsers th th') (condition : Bool) (message : Bytes) :
    Related OtherUsers (th.replyWhen env condition message)
      (th'.replyWhen env condition message) := by
  cases condition with
  | false => exact h
  | true => exact h.reply message

theorem dataPush (h : OtherUsers th th') (message : Bytes) :
    Related OtherUsers (th.dataPush env message) (th'.dataPush env message) := by
  rcases h with ⟨database, rfl⟩
  cases hvia : th.session.dataChannel.via with
  | error e =>
    have hvia' : (th.withUsers database).session.dataChannel.via = .error e := hvia
    rw [dataPush_error hvia, dataPush_error hvia']
    rfl
  | ok via =>
    have hvia' : (th.withUsers database).session.dataChannel.via = .ok via := hvia
    rw [dataPush_ok.mpr ⟨via, hvia, rfl⟩, dataPush_ok.mpr ⟨via, hvia', rfl⟩]
    exact ⟨database, rfl⟩

theorem dataClose (h : OtherUsers th th') : OtherUsers th.dataClose th'.dataClose := by
  rcases h with ⟨database, rfl⟩
  refine ⟨database, ?_⟩
  unfold Thread.dataClose
  simp only [Thread.withUsers, Process.close_withUsers]

theorem controlPull (h : OtherUsers th th') (result : Received) :
    Related OtherUsers (th.controlPull result) (th'.controlPull result) := by
  rcases h with ⟨database, rfl⟩
  have hvia' : (th.withUsers database).session.controlChannel.via =
      th.session.controlChannel.via := rfl
  unfold Thread.controlPull TcpTransport.pull
  rw [hvia']
  cases th.session.controlChannel.via with
  | error e => rfl
  | ok via => exact ⟨database, rfl⟩

theorem receiveFile (h : OtherUsers th th') (file : Option Posix.Location) :
    Related OtherUsers (FtpSession.receiveFile env file th)
      (FtpSession.receiveFile env file th') := by
  rcases h with ⟨database, rfl⟩
  cases hvia : th.session.dataChannel.via with
  | error e =>
    have hvia' : (th.withUsers database).session.dataChannel.via = .error e := hvia
    rw [FtpSession.receiveFile_error hvia, FtpSession.receiveFile_error hvia']
    rfl
  | ok via =>
    have hvia' : (th.withUsers database).session.dataChannel.via = .ok via := hvia
    rw [FtpSession.receiveFile_eq hvia, FtpSession.receiveFile_eq hvia']
    exact ⟨database, rfl⟩

end OtherUsers

namespace FtpSession

/-! ## 3. Handlers -/

variable {th th' : Thread} {env : Environment} {input : FtpCommand}

theorem commandUser_users (h : OtherUsers th th') :
    Related OtherUsers (commandUser env input th) (commandUser env input th') := by
  have hstate : th'.session.state = th.session.state := by
    rcases h with ⟨database, rfl⟩
    rfl
  unfold commandUser
  apply Related.same
  intro login
  rw [hstate]
  apply (h.replyWhen _ _).bind
  rintro a _ ⟨database, rfl⟩
  exact OtherUsers.reply ⟨database, rfl⟩ _

theorem commandCwd_users (h : OtherUsers th th') :
    Related OtherUsers (commandCwd env input th) (commandCwd env input th') := by
  rcases h with ⟨database, rfl⟩
  unfold commandCwd
  apply Related.same
  intro argument
  apply Related.same
  intro folder
  apply Related.ite
  · intro _
    exact OtherUsers.reply ⟨database, rfl⟩ _
  · intro _
    exact OtherUsers.reply ⟨database, rfl⟩ _

theorem commandPort_users (h : OtherUsers th th') :
    Related OtherUsers (commandPort env input th) (commandPort env input th') := by
  rcases h with ⟨database, rfl⟩
  unfold commandPort
  apply Related.same
  intro address
  apply Related.same
  intro port
  dsimp only
  rw [TcpTransport.moveAssign_of_ne (by simp), TcpTransport.moveAssign_of_ne (by simp)]
  have hnew : TcpTransport.new (env.socket 0) .temporary (th.withUsers database).process =
      ((TcpTransport.new (env.socket 0) .temporary th.process).1,
        (TcpTransport.new (env.socket 0) .temporary th.process).2.withUsers database) :=
    Process.new_withUsers database .temporary th.process (env.socket 0)
  rw [hnew]
  unfold TcpTransport.connect
  cases env.connect with
  | false => exact OtherUsers.reply ⟨database, rfl⟩ _
  | true =>
    apply Related.bind (R := OtherUsers) (OtherUsers.reply ⟨database, rfl⟩ _)
    intro a b hab
    exact hab.reply _

theorem commandList_users (h : OtherUsers th th') :
    Related OtherUsers (commandList env input th) (commandList env input th') := by
  have hfiles : (Directory.getFiles th'.process.fileTree th'.session.folder []).2 =
      (Directory.getFiles th.process.fileTree th.session.folder []).2 := by
    rcases h with ⟨database, rfl⟩
    rfl
  unfold commandList
  dsimp only
  rw [hfiles]
  apply (h.reply _).bind
  intro a b hab
  apply (hab.dataPush _).bind
  intro c d hcd
  apply (hcd.reply _).bind
  intro e f hef
  exact hef.dataClose

theorem commandStor_users (h : OtherUsers th th') :
    Related OtherUsers (commandStor env input th) (commandStor env input th') := by
  rcases h with ⟨database, rfl⟩
  unfold commandStor
  apply Related.same
  intro fileName
  have hopened : (openTransfer (th.session.folder ++ fileName) (th.withUsers database)).1 =
        (openTransfer (th.session.folder ++ fileName) th).1 ∧
      OtherUsers (openTransfer (th.session.folder ++ fileName) th).2
        (openTransfer (th.session.folder ++ fileName) (th.withUsers database)).2 := by
    unfold openTransfer
    have htree : (th.withUsers database).process.fileTree = th.process.fileTree := rfl
    rw [htree]
    cases th.process.fileTree.openAppend (th.session.folder ++ fileName) with
    | none => exact ⟨rfl, database, rfl⟩
    | some opened => exact ⟨rfl, database, rfl⟩
  have hfolder : (th.withUsers database).session.folder = th.session.folder := rfl
  dsimp only
  rw [hfolder, hopened.1]
  apply (hopened.2.reply _).bind
  intro a b hab
  apply (hab.receiveFile _).bind
  intro c d hcd
  apply (hcd.dataClose.reply _).bind
  rintro e _ ⟨database', rfl⟩
  exact ⟨database', rfl⟩

theorem commandType_users (h : OtherUsers th th') :
    Related OtherUsers (commandType env input th) (commandType env input th') := by
  rcases h with ⟨database, rfl⟩
  unfold commandType
  apply Related.same
  intro type
  apply Related.ite
  · intro _
    exact OtherUsers.reply ⟨database, rfl⟩ _
  · intro _
    apply Related.ite
    · intro _
      exact OtherUsers.reply ⟨database, rfl⟩ _
    · intro _
      exact OtherUsers.reply ⟨database, rfl⟩ _

theorem commandAuth_users (h : OtherUsers th th') :
    Related OtherUsers (commandAuth env input th) (commandAuth env input th') := by
  unfold commandAuth
  apply Related.same
  intro service
  apply Related.ite
  · intro _
    exact h.reply _
  · intro _
    apply (h.reply _).bind
    rintro a _ ⟨database, rfl⟩
    rcases TcpTransport.setTls_ok env (.control a.session.id) a.session.controlChannel a.process
      with ⟨result, channel, p, hset, -, -⟩
    have hset' : TcpTransport.setTls env (.control a.session.id) a.session.controlChannel
        (a.process.withUsers database) = .ok (result, channel, p.withUsers database) := by
      rw [Process.setTls_withUsers, hset]
      rfl
    simp only [Thread.withUsers, hset, hset', ok_bind]
    exact ⟨database, rfl⟩

theorem commandPbsz_users (h : OtherUsers th th') :
    Related OtherUsers (commandPbsz env input th) (commandPbsz env input th') := by
  rcases h with ⟨database, rfl⟩
  apply Related.same
  intro size
  exact OtherUsers.reply ⟨database, rfl⟩ _

theorem commandProt_users (h : OtherUsers th th') :
    Related OtherUsers (commandProt env input th) (commandProt env input th') := by
  rcases h with ⟨database, rfl⟩
  apply Related.same
  intro level
  exact OtherUsers.reply ⟨database, rfl⟩ _

theorem commandAllo_users (h : OtherUsers th th') :
    Related OtherUsers (commandAllo env input th) (commandAllo env input th') := by
  rcases h with ⟨database, rfl⟩
  apply Related.same
  intro size
  exact OtherUsers.reply ⟨database, rfl⟩ _

theorem commandDele_users (h : OtherUsers th th') :
    Related OtherUsers (commandDele env input th) (commandDele env input th') := by
  rcases h with ⟨database, rfl⟩
  apply Related.same
  intro path
  apply Related.ite
  · intro _
    exact OtherUsers.reply ⟨database, rfl⟩ _
  · intro _
    exact OtherUsers.reply ⟨database, rfl⟩ _

theorem commandRnfr_users (h : OtherUsers th th') :
    Related OtherUsers (commandRnfr env input th) (commandRnfr env input th') := by
  rcases h with ⟨database, rfl⟩
  apply Related.same
  intro path
  apply Related.bind (R := OtherUsers) (OtherUsers.reply ⟨database, rfl⟩ _)
  rintro a _ ⟨database', rfl⟩
  exact ⟨database', rfl⟩

theorem commandRnto_users (h : OtherUsers th th') :
    Related OtherUsers (commandRnto env input th) (commandRnto env input th') := by
  rcases h with ⟨database, rfl⟩
  apply Related.same
  intro path
  apply Related.ite
  · intro _
    exact OtherUsers.reply ⟨database, rfl⟩ _
  · intro _
    apply Related.ite
    · intro _
      exact OtherUsers.reply ⟨database, rfl⟩ _
    · intro _
      exact OtherUsers.reply ⟨database, rfl⟩ _

theorem secureData_users (h : OtherUsers th th') :
    Related OtherUsers (secureData env th) (secureData env th') := by
  rcases h with ⟨database, rfl⟩
  apply Related.ite
  · intro _
    rcases TcpTransport.setTls_ok env (.data th.session.id) th.session.dataChannel th.process
      with ⟨result, channel, p, hset, -, -⟩
    have hset' : TcpTransport.setTls env (.data th.session.id) th.session.dataChannel
        (th.process.withUsers database) = .ok (result, channel, p.withUsers database) := by
      rw [Process.setTls_withUsers, hset]
      rfl
    simp only [Thread.withUsers, hset, hset', ok_bind]
    exact ⟨database, rfl⟩
  · intro _
    exact ⟨database, rfl⟩

theorem acceptData_users (h : OtherUsers th th') (listener : TcpListener) :
    Related OtherUsers (acceptData env listener th) (acceptData env listener th') := by
  rcases h with ⟨database, rfl⟩
  unfold acceptData
  dsimp only
  simp only [Thread.withUsers, Process.accept_withUsers database env (.passive th.session.id)
    th.process (.data th.session.id) (by simp)]
  apply (secureData_users ⟨database, rfl⟩).bind
  rintro a _ ⟨database', rfl⟩
  refine ⟨database', ?_⟩
  simp only [Thread.withUsers, Process.close_withUsers, Process.destruct_withUsers]

theorem commandPasv_users (h : OtherUsers th th') :
    Related OtherUsers (commandPasv env input th) (commandPasv env input th') := by
  rcases h with ⟨database, rfl⟩
  have hnext : nextPort (th.process.withUsers database) =
      ((nextPort th.process).1, (nextPort th.process).2.withUsers database) := rfl
  have hnew : ∀ q : Process,
      TcpListener.new (env.socket 0) (.passive th.session.id) (q.withUsers database) =
        ((TcpListener.new (env.socket 0) (.passive th.session.id) q).1,
          (TcpListener.new (env.socket 0) (.passive th.session.id) q).2.withUsers database) := by
    intro q
    unfold TcpListener.new
    rw [Process.new_withUsers]
  unfold commandPasv
  simp only [Thread.withUsers, hnext, hnew, allocateListener_withUsers]
  apply Related.ite
  · intro _
    apply Related.bind (R := OtherUsers) (OtherUsers.reply ⟨database, rfl⟩ _)
    rintro a _ ⟨database', rfl⟩
    refine ⟨database', ?_⟩
    simp only [Thread.withUsers, Process.destruct_withUsers]
  · intro _
    apply Related.bind (R := OtherUsers) (OtherUsers.reply ⟨database, rfl⟩ _)
    intro a b hab
    exact acceptData_users hab _

/-- A PASS that is not answered 230 matched nothing. -/
theorem unmatched_of_no_access {password : Bytes} {via : Via}
    (hpassword : input.getArgument 0 = .ok password)
    (hvia : th.session.controlChannel.via = .ok via)
    (hno : ∀ a, commandPass env input th = .ok a → ¬ Accesses th a) :
    th.process.database.matching th.session.user.login password = none := by
  obtain ⟨a, ha⟩ : ∃ a, commandPass env input th = .ok a := commandPass_returns hpassword hvia
  rcases commandPass_did ha with ⟨password', _, hpassword', _, ⟨entry, _, hdid⟩ | ⟨hmatch, _⟩⟩
  · refine absurd ⟨_, hdid.replied, ?_⟩ (hno a ha)
    simp [ACCESS]
  · rw [hpassword] at hpassword'
    cases hpassword'
    exact hmatch

theorem commandPass_error {password : Bytes} {e : Abort}
    (hpassword : input.getArgument 0 = .ok password)
    (hvia : th.session.controlChannel.via = .error e) : commandPass env input th = .error e := by
  have hreply : ∀ (session : FtpSession) (p : Process) (message : Bytes),
      session.controlChannel = th.session.controlChannel →
        Thread.reply env message ⟨session, p⟩ = .error e := by
    intro session p message hchannel
    apply reply_error
    rw [hchannel]
    exact hvia
  unfold commandPass Thread.replyWhen
  rw [hpassword, raising_ok, ok_bind]
  by_cases hstate : th.session.state = .authWaitPassword
  · rw [if_neg (by simp [hstate]), ok_bind]
    dsimp only
    split
    · exact bind_error_iff.mpr (Or.inl (hreply _ _ _ rfl))
    · exact hreply _ _ _ rfl
  · rw [if_pos (by simp [hstate]), reply_error hvia]
    rfl

/-- **A PASS that fails over both users** shows nothing of them. -/
theorem commandPass_users (h : OtherUsers th th')
    (hno : ∀ a, commandPass env input th = .ok a → ¬ Accesses th a)
    (hno' : ∀ a, commandPass env input th' = .ok a → ¬ Accesses th' a) :
    Related OtherUsers (commandPass env input th) (commandPass env input th') := by
  rcases h with ⟨database, rfl⟩
  cases hpassword : input.getArgument 0 with
  | error e =>
    unfold commandPass
    rw [hpassword]
    rfl
  | ok password =>
    cases hvia : th.session.controlChannel.via with
    | error e =>
      have hvia' : (th.withUsers database).session.controlChannel.via = .error e := hvia
      rw [commandPass_error hpassword hvia, commandPass_error hpassword hvia']
      rfl
    | ok via =>
      have hvia' : (th.withUsers database).session.controlChannel.via = .ok via := hvia
      have hmatch := unmatched_of_no_access hpassword hvia hno
      have hmatch' := unmatched_of_no_access hpassword hvia' hno'
      -- the refusal leaves the users as they are
      obtain ⟨p, hp, hfirst, hfirst'⟩ : ∃ p : Process, p.database = th.process.database ∧
          th.replyWhen env (th.session.state ≠ .authWaitPassword)
            (ascii "530 PASS incorrect command order\r\n") = .ok ⟨th.session, p⟩ ∧
          (th.withUsers database).replyWhen env (th.session.state ≠ .authWaitPassword)
            (ascii "530 PASS incorrect command order\r\n") =
              .ok ⟨th.session, p.withUsers database⟩ := by
        unfold Thread.replyWhen
        split
        · refine ⟨th.process.emit (replyEvent env th.session.id via _), rfl, reply_eq th hvia, ?_⟩
          exact reply_eq (th.withUsers database) hvia'
        · exact ⟨th.process, rfl, rfl, rfl⟩
      have hmiss : p.database.matching (th.session.user.setPassword password).login
          (th.session.user.setPassword password).password = none := by
        rw [hp]
        exact hmatch
      have hmiss' : (p.withUsers database).database.matching
          (th.session.user.setPassword password).login
          (th.session.user.setPassword password).password = none := hmatch'
      have hstate : (th.withUsers database).session.state = th.session.state := rfl
      unfold commandPass
      rw [hpassword, hstate, hfirst, hfirst']
      simp only [raising_ok, ok_bind, FtpUserDatabase.get_eq, hmiss, hmiss']
      rw [if_pos (by decide), if_pos (by decide)]
      apply Related.bind (R := OtherUsers) (OtherUsers.reply ⟨database, rfl⟩ _)
      rintro a _ ⟨database', rfl⟩
      exact ⟨database', rfl⟩

/-- **A call over other users** goes the same way, unless a PASS succeeds. -/
theorem call_users {c : Call} (h : OtherUsers th th')
    (hno : ∀ a, call th c = .ok a → ¬ Accesses th a)
    (hno' : ∀ a, call th' c = .ok a → ¬ Accesses th' a) :
    Related OtherUsers (call th c) (call th' c) := by
  rcases c with ⟨env, input⟩
  unfold call processCommand at hno hno' ⊢
  dsimp only at hno hno' ⊢
  cases hcommand : input.command <;> rw [hcommand] at hno hno' <;> dsimp only at hno hno' ⊢
  case user => exact commandUser_users h
  case pass => exact commandPass_users h hno hno'
  case pwd =>
    rcases h with ⟨database, rfl⟩
    exact OtherUsers.reply ⟨database, rfl⟩ _
  case cwd => exact commandCwd_users h
  case port => exact commandPort_users h
  case list => exact commandList_users h
  case stor => exact commandStor_users h
  case type => exact commandType_users h
  case auth => exact commandAuth_users h
  case pbsz => exact commandPbsz_users h
  case prot => exact commandProt_users h
  case pasv => exact commandPasv_users h
  case allo => exact commandAllo_users h
  case dele => exact commandDele_users h
  case rnfr => exact commandRnfr_users h
  case rnto => exact commandRnto_users h
  case quit =>
    rcases h with ⟨database, rfl⟩
    exact ⟨database, rfl⟩
  all_goals exact h.reply _

end FtpSession

/-! ## 4. Session threads -/

namespace SessionThread

variable {s s' : SessionThread} {turn : Turn}

/-- Two session threads that differ in the users only. -/
def OtherUsers (s s' : SessionThread) : Prop :=
  FtpsServer.OtherUsers s.thread s'.thread ∧ s'.buffer = s.buffer

/-- The thread that has pulled its message. -/
def pulled (th : Thread) (via : Via) (turn : Turn) : Thread :=
  ⟨th.session,
    th.process.emit (.pull (.control th.session.id) via (.bytes turn.message.bytes))⟩

/-- What the turn does once its message is read. -/
theorem handle_of_input {th : Thread} {buffer : MessageBuffer} {via : Via} {input : FtpCommand}
    (hvia : th.session.controlChannel.via = .ok via)
    (hinput : command buffer turn.message turn.behind = .ok input) :
    handle ⟨th, buffer⟩ turn = FtpSession.call (pulled th via turn) ⟨turn.env, input⟩ >>=
      fun a => .ok ⟨a, buffer.receive turn.message⟩ := by
  unfold handle
  rw [controlPull_ok.mpr ⟨via, hvia, rfl⟩, ok_bind, hinput]
  rfl

theorem no_access_behind_pull {th : Thread} {buffer : MessageBuffer} {via : Via}
    {input : FtpCommand} (hvia : th.session.controlChannel.via = .ok via)
    (hinput : command buffer turn.message turn.behind = .ok input)
    (hno : ∀ next, handle ⟨th, buffer⟩ turn = .ok next → ¬ Accesses th next.thread) :
    ∀ a, FtpSession.call (pulled th via turn) ⟨turn.env, input⟩ = .ok a →
      ¬ Accesses (pulled th via turn) a := by
  rintro a ha ⟨new, hnew, hmem⟩
  have hhandled : handle ⟨th, buffer⟩ turn = .ok ⟨a, buffer.receive turn.message⟩ := by
    rw [handle_of_input hvia hinput, ha, ok_bind]
  refine hno _ hhandled ⟨new, ?_, hmem⟩
  unfold Replied pulled at hnew
  unfold Replied
  rw [hnew]
  simp [replies, replyOf]

theorem handle_users (h : OtherUsers s s')
    (hno : ∀ next, s.handle turn = .ok next → ¬ Accesses s.thread next.thread)
    (hno' : ∀ next, s'.handle turn = .ok next → ¬ Accesses s'.thread next.thread) :
    Related OtherUsers (s.handle turn) (s'.handle turn) := by
  rcases s with ⟨th, buffer⟩
  rcases s' with ⟨th', buffer'⟩
  rcases h with ⟨⟨database, hthread⟩, hbuffer⟩
  dsimp only at hthread hbuffer
  subst hthread
  subst hbuffer
  cases hvia : th.session.controlChannel.via with
  | error e =>
    have hpull : ∀ th₁ : Thread, th₁.session.controlChannel.via = .error e →
        th₁.controlPull (.bytes turn.message.bytes) = .error e := by
      intro th₁ hth₁
      unfold Thread.controlPull TcpTransport.pull
      rw [hth₁]
      rfl
    have hvia' : (th.withUsers database).session.controlChannel.via = .error e := hvia
    unfold handle
    rw [hpull _ hvia, hpull _ hvia']
    rfl
  | ok via =>
    have hvia' : (th.withUsers database).session.controlChannel.via = .ok via := hvia
    cases hinput : command buffer' turn.message turn.behind with
    | error e =>
      unfold handle
      rw [controlPull_ok.mpr ⟨via, hvia, rfl⟩, controlPull_ok.mpr ⟨via, hvia', rfl⟩, ok_bind,
        ok_bind, hinput]
      rfl
    | ok input =>
      have hcall := no_access_behind_pull hvia hinput hno
      have hcall' := no_access_behind_pull hvia' hinput hno'
      have hpulled : FtpsServer.OtherUsers (pulled th via turn)
          (pulled (th.withUsers database) via turn) := ⟨database, rfl⟩
      rw [handle_of_input hvia hinput, handle_of_input hvia' hinput]
      apply (FtpSession.call_users hpulled hcall hcall').bind
      intro a b hab
      exact ⟨hab, rfl⟩

theorem step_users (h : OtherUsers s s')
    (hno : ∀ next, s.step turn = .ok next → ¬ Accesses s.thread next.thread)
    (hno' : ∀ next, s'.step turn = .ok next → ¬ Accesses s'.thread next.thread) :
    Related OtherUsers (s.step turn) (s'.step turn) := by
  have hstate : s'.thread.session.state = s.thread.session.state := by
    rcases h.1 with ⟨database, hthread⟩
    rw [hthread]
    rfl
  unfold step at hno hno' ⊢
  rw [hstate] at hno' ⊢
  by_cases hended : s.thread.session.state = .terminated
  · rw [if_pos hended, if_pos hended]
    exact h
  · rw [if_neg hended] at hno hno'
    rw [if_neg hended, if_neg hended]
    exact handle_users h hno hno'

/-- No PASS of the run is answered 230. -/
def NoAccess (s : SessionThread) (turns : List Turn) : Prop :=
  EveryStep step (fun s _ next => ¬ Accesses s.thread next.thread) s turns

theorem abreast_users {turns : List Turn} (h : OtherUsers s s') (hno : NoAccess s turns)
    (hno' : NoAccess s' turns) : Abreast OtherUsers step step s s' turns := by
  induction turns generalizing s s' with
  | nil => exact abreast_nil.mpr h
  | cons turn turns ih =>
    have hstep := step_users h (fun next hnext => ((everyStep_cons hnext).mp hno).1)
      (fun next hnext => ((everyStep_cons hnext).mp hno').1)
    refine abreast_cons.mpr ⟨h, ?_⟩
    cases hs : s.step turn with
    | error e =>
      rw [hs] at hstep
      rw [hstep.of_error_left]
      rfl
    | ok next =>
      rw [hs] at hstep
      rcases hstep.of_ok_left with ⟨next', hs', hnext⟩
      rw [hs']
      exact ih hnext ((everyStep_cons hs).mp hno).2 ((everyStep_cons hs').mp hno').2

theorem finish_users {ending : Received} (h : OtherUsers s s') :
    Related OtherUsers (s.finish ending) (s'.finish ending) := by
  have hlast : Related FtpsServer.OtherUsers (s.lastPull ending) (s'.lastPull ending) := by
    have hstate : s'.thread.session.state = s.thread.session.state := by
      rcases h.1 with ⟨database, hthread⟩
      rw [hthread]
      rfl
    unfold lastPull
    rw [hstate]
    split
    · exact h.1
    · exact h.1.controlPull ending
  unfold finish
  apply hlast.bind
  rintro a _ ⟨database, rfl⟩
  simp only [Thread.withUsers, Process.close_withUsers]
  exact ⟨⟨database, rfl⟩, h.2⟩

/-- A session thread from its greeting to its end. -/
def serve (env : Environment) (th : Thread) (buffer : MessageBuffer) (turns : List Turn)
    (ending : Received) : Except Abort SessionThread := do
  let th ← start env th
  let s ← run step ⟨th, buffer⟩ turns
  s.finish ending

/-- The same log, byte for byte, the same files, and the same session: the state that ends
    the loop, too. -/
structure Indistinguishable (s s' : SessionThread) : Prop where
  trace : s'.thread.process.trace = s.thread.process.trace
  fileTree : s'.thread.process.fileTree = s.thread.process.fileTree
  session : s'.thread.session = s.thread.session

theorem OtherUsers.indistinguishable (h : OtherUsers s s') : Indistinguishable s s' := by
  rcases h.1 with ⟨database, hthread⟩
  refine ⟨?_, ?_, ?_⟩
  · rw [hthread]
    rfl
  · rw [hthread]
    rfl
  · rw [hthread]
    rfl

theorem construct_withUsers (opens : Bool) (id : Nat) (connection : TcpTransport)
    (garbage : Uninitialised) (p : Process) (database : FtpUserDatabase) :
    FtpSession.construct opens id connection garbage (p.withUsers database) =
      (FtpSession.construct opens id connection garbage p).withUsers database := by
  cases opens <;> rfl

/-- **Accounts are hidden.**  Two threads of a session over any two user databases, with the
    same files, the same network and the same messages, in which no PASS is answered
    230, push the same bytes on both channels, do the same to the files and end at the
    same point. -/
theorem accounts_hidden (opens : Bool) (id : Nat) (connection : TcpTransport)
    (garbage : Uninitialised) (p : Process) (database database' : FtpUserDatabase)
    (env : Environment) (buffer : MessageBuffer) (turns : List Turn) (ending : Received)
    (hno : ∀ th, start env
      (FtpSession.construct opens id connection garbage (p.withUsers database)) = .ok th →
        NoAccess ⟨th, buffer⟩ turns)
    (hno' : ∀ th, start env
      (FtpSession.construct opens id connection garbage (p.withUsers database')) = .ok th →
        NoAccess ⟨th, buffer⟩ turns) :
    Related (fun th th' => Abreast Indistinguishable step step ⟨th, buffer⟩ ⟨th', buffer⟩ turns)
        (start env (FtpSession.construct opens id connection garbage (p.withUsers database)))
        (start env (FtpSession.construct opens id connection garbage (p.withUsers database'))) ∧
      Related Indistinguishable
        (serve env (FtpSession.construct opens id connection garbage (p.withUsers database)) buffer
          turns ending)
        (serve env (FtpSession.construct opens id connection garbage (p.withUsers database')) buffer
          turns ending) := by
  have hfresh : FtpsServer.OtherUsers
      (FtpSession.construct opens id connection garbage (p.withUsers database))
      (FtpSession.construct opens id connection garbage (p.withUsers database')) := by
    rw [construct_withUsers, construct_withUsers]
    exact ⟨database', rfl⟩
  have hstart : Related FtpsServer.OtherUsers
      (start env (FtpSession.construct opens id connection garbage (p.withUsers database)))
      (start env (FtpSession.construct opens id connection garbage (p.withUsers database'))) :=
    hfresh.reply _
  unfold serve
  cases hth : start env
      (FtpSession.construct opens id connection garbage (p.withUsers database)) with
  | error e =>
    rw [hth] at hstart
    rw [hstart.of_error_left]
    exact ⟨rfl, rfl⟩
  | ok th =>
    rw [hth] at hstart
    rcases hstart.of_ok_left with ⟨th', hth', husers⟩
    have habreast : Abreast OtherUsers step step ⟨th, buffer⟩ ⟨th', buffer⟩ turns :=
      abreast_users ⟨husers, rfl⟩ (hno th hth) (hno' th' hth')
    rw [hth']
    constructor
    · intro before hbefore
      apply (habreast before hbefore).mono
      intro s s' h
      exact h.indistinguishable
    · have hended : Related OtherUsers
          (run step ⟨th, buffer⟩ turns >>= fun s => s.finish ending)
          (run step ⟨th', buffer⟩ turns >>= fun s => s.finish ending) :=
        (habreast turns (List.prefix_refl turns)).bind fun s s' h => finish_users h
      apply hended.mono
      intro s s' h
      exact h.indistinguishable

def wrongPassword : List Turn :=
  [lineTurn .plain "USER annoviko\r\n" (by decide), lineTurn .plain "PASS 54321\r\n" (by decide)]

/-- The turn leaves no 230 in the log. -/
def silentAccess (s : SessionThread) (turn : Turn) : Bool :=
  match s.step turn with
  | .ok next => !(replies s.thread.session.id next.thread.process.trace).contains ACCESS
  | .error _ => true

theorem noAccess_of_silent {turns : List Turn} (h : allSteps step silentAccess s turns = true) :
    NoAccess s turns := by
  intro before turn after mid next heq hrun hnext
  have hsilent : silentAccess mid turn = true :=
    everyStep_of_allSteps h before turn after mid next heq hrun hnext
  simp only [silentAccess, hnext, Bool.not_eq_true', List.contains_eq_mem,
    decide_eq_false_iff_not] at hsilent
  rintro ⟨new, hnew, hmem⟩
  apply hsilent
  rw [hnew]
  exact List.mem_append_right _ hmem

theorem accounts_hidden_wrong_password :
    Related Indistinguishable
      (serve .plain (FtpSession.construct true 0 ⟨6, .null, false, ascii "127.0.0.1", 21⟩
        ⟨0, 0, .clear⟩ ((Process.initial .bare).withUsers .initial)) .zero wrongPassword .closed)
      (serve .plain (FtpSession.construct true 0 ⟨6, .null, false, ascii "127.0.0.1", 21⟩
        ⟨0, 0, .clear⟩ ((Process.initial .bare).withUsers fun _ => none)) .zero wrongPassword
        .closed) := by
  refine (accounts_hidden _ _ _ _ _ _ _ _ _ _ _ ?_ ?_).2
  · intro th hth
    cases hth
    exact noAccess_of_silent (by decide +kernel)
  · intro th hth
    cases hth
    exact noAccess_of_silent (by decide +kernel)

end SessionThread

end FtpsServer
