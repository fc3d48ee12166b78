import FtpsServer.Traffic

/-!
# What the handlers do

One lemma for each handler of `ftp_session.cpp`: from a call that returns, the
session after it, the file tree after it, and the traffic in between.  The
theorems about runs use these and never open a handler again.
-/

namespace FtpsServer

open ByteString Cxx Machine

/-! ## 1. Effects of a call -/

/-- From `th` to `th'`: the session is `session`, the tree is `fileTree`, and the
    traffic in between is `sent`. -/
structure Did (th th' : Thread) (session : FtpSession) (fileTree : Posix.FileTree)
    (sent : List Event) : Prop where
  session : th'.session = session
  fileTree : th'.process.fileTree = fileTree
  database : th'.process.database = th.process.database
  observers : th'.process.observers = th.process.observers
  traffic : traffic th'.process.trace = traffic th.process.trace ++ sent

/-- A push on the control channel. -/
def replyEvent (env : Environment) (id : Nat) (via : Via) (message : Bytes) : Event :=
  .push (.control id) via message (env.send (.control id) message)

/-- A push on the data channel. -/
def dataPushEvent (env : Environment) (id : Nat) (via : Via) (message : Bytes) : Event :=
  .push (.data id) via message (env.send (.data id) message)

theorem reply_ok {env : Environment} {message : Bytes} {th th' : Thread} :
    th.reply env message = .ok th' ↔
      ∃ via, th.session.controlChannel.via = .ok via ∧
        th' = { th with process := th.process.emit (replyEvent env th.session.id via message) } := by
  simp only [Thread.reply, TcpTransport.push, bind_ok_iff, pure_ok_iff]
  constructor
  · rintro ⟨a, ⟨via, hvia, rfl⟩, rfl⟩
    exact ⟨via, hvia, rfl⟩
  · rintro ⟨via, hvia, rfl⟩
    exact ⟨_, ⟨via, hvia, rfl⟩, rfl⟩

theorem reply_eq {env : Environment} {message : Bytes} (th : Thread) {via : Via}
    (h : th.session.controlChannel.via = .ok via) :
    th.reply env message =
      .ok { th with process := th.process.emit (replyEvent env th.session.id via message) } :=
  reply_ok.mpr ⟨via, h, rfl⟩

theorem dataPush_ok {env : Environment} {message : Bytes} {th th' : Thread} :
    th.dataPush env message = .ok th' ↔
      ∃ via, th.session.dataChannel.via = .ok via ∧
        th' = { th with
          process := th.process.emit (dataPushEvent env th.session.id via message) } := by
  simp only [Thread.dataPush, TcpTransport.push, bind_ok_iff, pure_ok_iff]
  constructor
  · rintro ⟨a, ⟨via, hvia, rfl⟩, rfl⟩
    exact ⟨via, hvia, rfl⟩
  · rintro ⟨via, hvia, rfl⟩
    exact ⟨_, ⟨via, hvia, rfl⟩, rfl⟩

theorem dataPull_ok {result : Received} {th th' : Thread} :
    th.dataPull result = .ok th' ↔
      ∃ via, th.session.dataChannel.via = .ok via ∧
        th' = { th with process := th.process.emit (.pull (.data th.session.id) via result) } := by
  simp only [Thread.dataPull, TcpTransport.pull, bind_ok_iff, pure_ok_iff]
  constructor
  · rintro ⟨a, ⟨via, hvia, rfl⟩, rfl⟩
    exact ⟨via, hvia, rfl⟩
  · rintro ⟨via, hvia, rfl⟩
    exact ⟨_, ⟨via, hvia, rfl⟩, rfl⟩

namespace Did

variable {th th₁ th' : Thread} {session : FtpSession} {fileTree : Posix.FileTree}
  {sent : List Event} {env : Environment} {message : Bytes} {via : Via}

theorem refl (th : Thread) : Did th th th.session th.process.fileTree [] :=
  ⟨rfl, rfl, rfl, rfl, by simp⟩

theorem setSession (h : Did th th₁ session fileTree sent) (session' : FtpSession) :
    Did th { th₁ with session := session' } session' fileTree sent :=
  ⟨rfl, h.fileTree, h.database, h.observers, h.traffic⟩

theorem setFileTree (h : Did th th₁ session fileTree sent) (t : Posix.FileTree) :
    Did th (th₁.setFileTree t) session t sent :=
  ⟨h.session, rfl, h.database, h.observers, h.traffic⟩

theorem quiet (h : Did th th₁ session fileTree sent) {p : Process} (hp : Quiet th₁.process p) :
    Did th { th₁ with process := p } session fileTree sent :=
  ⟨h.session, hp.fileTree.trans h.fileTree, hp.database.trans h.database,
    hp.observers.trans h.observers, hp.traffic.trans h.traffic⟩

theorem emit (h : Did th th₁ session fileTree sent) {e : Event} (he : e.isTraffic = true) :
    Did th { th₁ with process := th₁.process.emit e } session fileTree (sent ++ [e]) :=
  ⟨h.session, h.fileTree, h.database, h.observers, by simp [he, h.traffic]⟩

theorem reply (h : Did th th₁ session fileTree sent) (hreply : th₁.reply env message = .ok th')
    (hvia : session.controlChannel.via = .ok via) :
    Did th th' session fileTree (sent ++ [replyEvent env session.id via message]) := by
  obtain ⟨via', hvia', rfl⟩ := reply_ok.mp hreply
  rw [h.session, hvia] at hvia'
  cases hvia'
  rw [← h.session]
  exact (h.session ▸ h).emit rfl

theorem dataPush (h : Did th th₁ session fileTree sent)
    (hpush : th₁.dataPush env message = .ok th') (hvia : session.dataChannel.via = .ok via) :
    Did th th' session fileTree (sent ++ [dataPushEvent env session.id via message]) := by
  obtain ⟨via', hvia', rfl⟩ := dataPush_ok.mp hpush
  rw [h.session, hvia] at hvia'
  cases hvia'
  rw [← h.session]
  exact (h.session ▸ h).emit rfl

theorem dataPull (h : Did th th₁ session fileTree sent) {result : Received}
    (hpull : th₁.dataPull result = .ok th') (hvia : session.dataChannel.via = .ok via) :
    Did th th' session fileTree (sent ++ [.pull (.data session.id) via result]) := by
  obtain ⟨via', hvia', rfl⟩ := dataPull_ok.mp hpull
  rw [h.session, hvia] at hvia'
  cases hvia'
  rw [← h.session]
  exact (h.session ▸ h).emit rfl

theorem dataClose (h : Did th th₁ session fileTree sent) :
    Did th th₁.dataClose { session with dataChannel := session.dataChannel.closed } fileTree
      sent := by
  have hquiet := th₁.session.dataChannel.close_quiet (.data th₁.session.id) th₁.process
  have hclosed := TcpTransport.close_fst (.data th₁.session.id) th₁.session.dataChannel th₁.process
  obtain rfl := h.session
  rw [← hclosed]
  exact (h.quiet hquiet).setSession _

theorem congr (h : Did th th' session fileTree sent) {session' : FtpSession}
    {sent' : List Event} (hsession : session = session') (hsent : sent = sent') :
    Did th th' session' fileTree sent' := hsession ▸ hsent ▸ h

end Did

theorem via_of_reply {env : Environment} {message : Bytes} {th th' : Thread}
    (h : th.reply env message = .ok th') : ∃ via, th.session.controlChannel.via = .ok via :=
  let ⟨via, hvia, _⟩ := reply_ok.mp h
  ⟨via, hvia⟩

theorem reply_did {env : Environment} {message : Bytes} {th th' : Thread}
    (h : th.reply env message = .ok th') :
    ∃ via, th.session.controlChannel.via = .ok via ∧
      Did th th' th.session th.process.fileTree [replyEvent env th.session.id via message] := by
  obtain ⟨via, hvia⟩ := via_of_reply h
  exact ⟨via, hvia, (Did.refl th).reply h hvia⟩

/-- Exceptions of the library and of `get_argument`. -/
theorem raising_bind_ok {α β : Type} {x : Except StdException α} {f : α → Except Abort β}
    {b : β} :
    (raising x >>= f) = .ok b ↔ ∃ a, x = .ok a ∧ f a = .ok b := by
  rw [bind_ok_iff]
  simp only [raising_eq_ok]

theorem reply_session_did {env : Environment} {message : Bytes} {th th' : Thread}
    {session : FtpSession}
    (h : ({ session := session, process := th.process } : Thread).reply env message = .ok th') :
    ∃ via, session.controlChannel.via = .ok via ∧
      Did th th' session th.process.fileTree [replyEvent env session.id via message] := by
  obtain ⟨via, hvia⟩ := via_of_reply h
  exact ⟨via, hvia, ((Did.refl th).setSession session).reply h hvia⟩

theorem replyWhen_did {env : Environment} {condition : Bool} {message : Bytes} {th th' : Thread}
    (h : th.replyWhen env condition message = .ok th') {via : Via}
    (hvia : condition = true → th.session.controlChannel.via = .ok via) :
    Did th th' th.session th.process.fileTree
      (if condition then [replyEvent env th.session.id via message] else []) := by
  cases condition with
  | false =>
    cases h
    exact Did.refl th
  | true =>
    obtain ⟨via', hvia', hdid⟩ := reply_did h
    rw [hvia rfl] at hvia'
    cases hvia'
    exact hdid

namespace FtpSession

variable {env : Environment} {input : FtpCommand} {th th' : Thread} {message : Bytes}

/-! ## 2. Authentication -/

theorem commandUser_did (h : commandUser env input th = .ok th') :
    ∃ login via, input.getArgument 0 = .ok login ∧ th.session.controlChannel.via = .ok via ∧
      Did th th'
        { th.session with user := th.session.user.setLogin login, state := .authWaitPassword }
        th.process.fileTree
        ((if th.session.state ≠ .authWaitLogin then
            [replyEvent env th.session.id via (ascii "500 USER incorrect command order\r\n")]
          else []) ++
          [replyEvent env th.session.id via (ascii "331 password is needed\r\n")]) := by
  unfold commandUser at h
  obtain ⟨login, hlogin, h⟩ := raising_bind_ok.mp h
  obtain ⟨th₁, hfirst, h⟩ := bind_ok_iff.mp h
  obtain ⟨via, hvia⟩ := via_of_reply h
  have hsame : th₁.session = th.session := by
    unfold Thread.replyWhen at hfirst
    split at hfirst
    · obtain ⟨_, _, rfl⟩ := reply_ok.mp hfirst
      rfl
    · cases hfirst
      rfl
  dsimp only at hvia
  rw [hsame] at hvia h
  have hdid := replyWhen_did hfirst fun _ => hvia
  refine ⟨login, via, hlogin, hvia, ((hdid.setSession _).reply h hvia).congr rfl ?_⟩
  simp

/-- What PASS replies before it asks the database. -/
def passRefusal (env : Environment) (session : FtpSession) (via : Via) : List Event :=
  if session.state ≠ .authWaitPassword then
    [replyEvent env session.id via (ascii "530 PASS incorrect command order\r\n")]
  else []

/-- The session after a PASS that matched `entry`. -/
def admitted (session : FtpSession) (entry : FtpUser) : FtpSession :=
  { session with user := entry, folder := entry.folder }

/-- The session after a PASS that matched nothing. -/
def rejected (session : FtpSession) (password : Bytes) : FtpSession :=
  { session with
    user := session.user.setPassword password
    authAttempt := increment session.authAttempt
    state := if increment session.authAttempt > MAX_AUTH_ATTEMPTS then .terminated
      else .authWaitLogin }

theorem commandPass_did (h : commandPass env input th = .ok th') :
    ∃ password via, input.getArgument 0 = .ok password ∧
      th.session.controlChannel.via = .ok via ∧
      ((∃ entry, th.process.database.matching th.session.user.login password = some entry ∧
        Did th th' (th.session.admitted entry) th.process.fileTree
          (passRefusal env th.session via ++
            [replyEvent env th.session.id via (ascii "230 access is performed\r\n")])) ∨
      (th.process.database.matching th.session.user.login password = none ∧
        Did th th' (th.session.rejected password) th.process.fileTree
          (passRefusal env th.session via ++
            [replyEvent env th.session.id via (ascii "430 authentication failure\r\n")]))) := by
  unfold commandPass at h
  obtain ⟨password, hpassword, h⟩ := raising_bind_ok.mp h
  obtain ⟨th₁, hfirst, h⟩ := bind_ok_iff.mp h
  have hsame : th₁.session = th.session ∧ th₁.process.database = th.process.database := by
    unfold Thread.replyWhen at hfirst
    split at hfirst
    · obtain ⟨_, _, rfl⟩ := reply_ok.mp hfirst
      exact ⟨rfl, rfl⟩
    · cases hfirst
      exact ⟨rfl, rfl⟩
  dsimp only at h
  rw [hsame.1, hsame.2, FtpUserDatabase.get_eq] at h
  have hlogin : (th.session.user.setPassword password).login = th.session.user.login := rfl
  have hself : (th.session.user.setPassword password).password = password := rfl
  rw [hlogin, hself] at h
  refine ⟨password, ?_⟩
  cases hmatch : th.process.database.matching th.session.user.login password with
  | some entry =>
    rw [hmatch] at h
    dsimp only at h
    rw [if_neg (by simp)] at h
    obtain ⟨via, hvia⟩ := via_of_reply h
    have hdid := replyWhen_did hfirst fun _ => hvia
    refine ⟨via, hpassword, hvia, Or.inl ⟨entry, rfl, ((hdid.setSession _).reply h hvia).congr rfl ?_⟩⟩
    simp [passRefusal]
  | none =>
    rw [hmatch] at h
    dsimp only at h
    rw [if_pos (by decide)] at h
    obtain ⟨th₂, hsecond, hlast⟩ := bind_ok_iff.mp h
    obtain rfl := pure_ok_iff.mp hlast
    obtain ⟨via, hvia⟩ := via_of_reply hsecond
    have hdid := replyWhen_did hfirst fun _ => hvia
    have hdid₂ := (hdid.setSession _).reply hsecond hvia
    refine ⟨via, hpassword, hvia, Or.inr ⟨rfl, (hdid₂.setSession _).congr ?_ ?_⟩⟩
    · rw [hdid₂.session]
      rfl
    · simp [passRefusal]

/-- A PASS with an argument ends the process only through a NULL session. -/
theorem commandPass_returns {password : Bytes} {via : Via}
    (hpassword : input.getArgument 0 = .ok password)
    (hvia : th.session.controlChannel.via = .ok via) :
    ∃ th', commandPass env input th = .ok th' := by
  have hreply : ∀ (session : FtpSession) (p : Process) (message : Bytes),
      session.controlChannel = th.session.controlChannel →
        ∃ th', Thread.reply env message ⟨session, p⟩ = .ok th' := by
    intro session p message hchannel
    exact ⟨_, reply_ok.mpr ⟨via, by rw [hchannel]; exact hvia, rfl⟩⟩
  obtain ⟨p, hfirst⟩ : ∃ p, th.replyWhen env (th.session.state ≠ .authWaitPassword)
      (ascii "530 PASS incorrect command order\r\n") = .ok ⟨th.session, p⟩ := by
    unfold Thread.replyWhen
    split
    · exact ⟨_, reply_ok.mpr ⟨via, hvia, rfl⟩⟩
    · exact ⟨th.process, rfl⟩
  unfold commandPass
  rw [hpassword, hfirst]
  simp only [raising_ok, ok_bind, FtpUserDatabase.get_eq]
  cases p.database.matching (th.session.user.setPassword password).login
      (th.session.user.setPassword password).password with
  | none =>
    dsimp only
    rw [if_pos (by decide)]
    rcases hreply { th.session with user := th.session.user.setPassword password } p
      (ascii "430 authentication failure\r\n") rfl with ⟨th₁, hfailure⟩
    exact ⟨_, bind_ok_iff.mpr ⟨th₁, hfailure, rfl⟩⟩
  | some entry =>
    dsimp only
    rw [if_neg (by simp)]
    exact hreply (th.session.admitted entry) p _ rfl

/-! ## 3. Session members -/

theorem commandType_did (h : commandType env input th = .ok th') :
    ∃ transferType message via, th.session.controlChannel.via = .ok via ∧
      (message = ascii "250 TYPE command is successful\r\n" ∨
        message = ascii "500 TYPE specified type is not supported\r\n") ∧
      Did th th' { th.session with transferType := transferType } th.process.fileTree
        [replyEvent env th.session.id via message] := by
  unfold commandType at h
  obtain ⟨type, -, h⟩ := raising_bind_ok.mp h
  split at h
  · obtain ⟨via, hvia, hdid⟩ := reply_session_did h
    exact ⟨.binary, _, via, hvia, Or.inl rfl, hdid⟩
  · split at h
    · obtain ⟨via, hvia, hdid⟩ := reply_session_did h
      exact ⟨.ascii, _, via, hvia, Or.inl rfl, hdid⟩
    · obtain ⟨via, hvia, hdid⟩ := reply_did h
      exact ⟨th.session.transferType, _, via, hvia, Or.inr rfl, hdid⟩

theorem commandPbsz_did (h : commandPbsz env input th = .ok th') :
    ∃ text size via, input.getArgument 0 = .ok text ∧ stoi text = .ok size ∧
      th.session.controlChannel.via = .ok via ∧
      Did th th' { th.session with protectionBufferSize := size } th.process.fileTree
        [replyEvent env th.session.id via (ascii "200 PBSZ command is successful\r\n")] := by
  unfold commandPbsz at h
  obtain ⟨size, hsize, h⟩ := raising_bind_ok.mp h
  obtain ⟨text, htext, hstoi⟩ := bind_ok_iff.mp hsize
  obtain ⟨via, hvia, hdid⟩ := reply_session_did h
  exact ⟨text, size, via, htext, hstoi, hvia, hdid⟩

theorem commandAllo_did (h : commandAllo env input th = .ok th') :
    ∃ text size via, input.getArgument 0 = .ok text ∧ stoi text = .ok size ∧
      th.session.controlChannel.via = .ok via ∧
      Did th th' { th.session with bufferFileSize := size } th.process.fileTree
        [replyEvent env th.session.id via (ascii "200 ALLO command is successful\r\n")] := by
  unfold commandAllo at h
  obtain ⟨size, hsize, h⟩ := raising_bind_ok.mp h
  obtain ⟨text, htext, hstoi⟩ := bind_ok_iff.mp hsize
  obtain ⟨via, hvia, hdid⟩ := reply_session_did h
  exact ⟨text, size, via, htext, hstoi, hvia, hdid⟩

theorem commandProt_did (h : commandProt env input th = .ok th') :
    ∃ text via, input.getArgument 0 = .ok text ∧ th.session.controlChannel.via = .ok via ∧
      Did th th'
        { th.session with protectionLevel := (protectionOf text).getD th.session.protectionLevel }
        th.process.fileTree
        [replyEvent env th.session.id via (ascii "200 PROT command is successful\r\n")] := by
  unfold commandProt at h
  obtain ⟨text, htext, h⟩ := raising_bind_ok.mp h
  obtain ⟨via, hvia, hdid⟩ := reply_session_did h
  exact ⟨text, via, htext, hvia, hdid⟩

theorem commandQuit_did (h : commandQuit input th = .ok th') :
    Did th th' { th.session with state := .terminated } th.process.fileTree [] := by
  cases h
  exact (Did.refl th).setSession _

/-! ## 4. Paths and files -/

theorem commandCwd_did (h : commandCwd env input th = .ok th') :
    ∃ argument folder via, input.getArgument 0 = .ok argument ∧
      th.session.pathFolder argument = .ok folder ∧
      th.session.controlChannel.via = .ok via ∧
      let canonical := Path.canonical th.process.fileTree folder
      let found := Directory.exists' th.process.fileTree canonical
      Did th th' { th.session with folder := if found then canonical else th.session.folder }
        th.process.fileTree
        [replyEvent env th.session.id via
          (if found then ascii "250 CWD command is successful\r\n"
            else ascii "553 CWD folder is not found\r\n")] := by
  unfold commandCwd at h
  obtain ⟨argument, hargument, h⟩ := raising_bind_ok.mp h
  obtain ⟨folder, hfolder, h⟩ := raising_bind_ok.mp h
  refine ⟨argument, folder, ?_⟩
  dsimp only at h ⊢
  cases hfound : Directory.exists' th.process.fileTree (Path.canonical th.process.fileTree folder) with
  | false =>
    rw [hfound] at h
    obtain ⟨via, hvia, hdid⟩ := reply_did h
    exact ⟨via, hargument, hfolder, hvia, hdid⟩
  | true =>
    rw [hfound] at h
    obtain ⟨via, hvia, hdid⟩ := reply_session_did h
    exact ⟨via, hargument, hfolder, hvia, hdid⟩

theorem commandDele_did (h : commandDele env input th = .ok th') :
    ∃ path message via, input.getArgument 0 = .ok path ∧
      (message = ascii "250 DELE command is failure\r\n" ∨
        message = ascii "250 DELE command is successful\r\n") ∧
      th.session.controlChannel.via = .ok via ∧
      Did th th' th.session
        (File.erase th.process.fileTree (th.session.delePath th.process.fileTree path)).2
        [replyEvent env th.session.id via message] := by
  unfold commandDele at h
  obtain ⟨path, hpath, h⟩ := raising_bind_ok.mp h
  dsimp only at h
  split at h
  · obtain ⟨via, hvia⟩ := via_of_reply h
    have hdid := ((Did.refl th).setFileTree _).reply h hvia
    exact ⟨path, _, via, hpath, Or.inl rfl, hvia, hdid⟩
  · obtain ⟨via, hvia⟩ := via_of_reply h
    have hdid := ((Did.refl th).setFileTree _).reply h hvia
    exact ⟨path, _, via, hpath, Or.inr rfl, hvia, hdid⟩

theorem commandRnfr_did (h : commandRnfr env input th = .ok th') :
    ∃ path via, input.getArgument 0 = .ok path ∧ th.session.controlChannel.via = .ok via ∧
      let canonical := Path.canonical th.process.fileTree (th.session.renamePath path)
      Did th th' { th.session with argument := canonical } th.process.fileTree
        [replyEvent env th.session.id via
          (if Directory.exists' th.process.fileTree canonical then
            ascii "350 Requested file action pending further information\r\n"
          else
            ascii "500 RNRF command is failure (specified file or directory does not exists)\r\n")] := by
  unfold commandRnfr at h
  obtain ⟨path, hpath, h⟩ := raising_bind_ok.mp h
  dsimp only at h
  rw [File.exists_eq_false] at h
  obtain ⟨th₁, hreply, hlast⟩ := bind_ok_iff.mp h
  obtain rfl := pure_ok_iff.mp hlast
  obtain ⟨via, hvia⟩ := via_of_reply hreply
  have hdid := (Did.refl th).reply hreply hvia
  rw [hdid.session]
  refine ⟨path, via, hpath, hvia, (hdid.setSession _).congr rfl ?_⟩
  cases Directory.exists' th.process.fileTree
    (Path.canonical th.process.fileTree (th.session.renamePath path)) <;> rfl

theorem commandRnto_did (h : commandRnto env input th = .ok th') :
    ∃ path via, input.getArgument 0 = .ok path ∧ th.session.controlChannel.via = .ok via ∧
      let t := th.process.fileTree
      let target := th.session.renamePath path
      let source := Path.canonical t th.session.argument
      Did th th' th.session
        (if Directory.exists' t target then t else (t.rename source target).getD t)
        [replyEvent env th.session.id via
          (if Directory.exists' t target then
            ascii "500 RNTO command is failure (specified file or directory already exists)\r\n"
          else if (t.rename source target).isSome then
            ascii "250 RNTO command is successful\r\n"
          else ascii "500 RNTO command is failure (system error occurs)\r\n")] := by
  unfold commandRnto at h
  obtain ⟨path, hpath, h⟩ := raising_bind_ok.mp h
  dsimp only at h
  rw [File.exists_eq_false, Bool.false_or] at h
  refine ⟨path, ?_⟩
  dsimp only
  cases hexists : Directory.exists' th.process.fileTree (th.session.renamePath path) with
  | true =>
    rw [hexists] at h
    obtain ⟨via, hvia, hdid⟩ := reply_did h
    exact ⟨via, hpath, hvia, hdid⟩
  | false =>
    rw [hexists] at h
    unfold Path.move at h
    cases hrename : th.process.fileTree.rename
        (Path.canonical th.process.fileTree th.session.argument) (th.session.renamePath path) with
    | none =>
      rw [hrename] at h
      obtain ⟨via, hvia⟩ := via_of_reply h
      have hdid := ((Did.refl th).setFileTree _).reply h hvia
      exact ⟨via, hpath, hvia, hdid⟩
    | some t' =>
      rw [hrename] at h
      obtain ⟨via, hvia⟩ := via_of_reply h
      have hdid := ((Did.refl th).setFileTree _).reply h hvia
      exact ⟨via, hpath, hvia, hdid⟩

/-! ## 5. LIST and STOR -/

/-- The listing that LIST sends. -/
def listing (t : Posix.FileTree) (folder : Bytes) : Bytes :=
  (Directory.getFiles t folder []).2.flatMap fun file => file ++ ascii "\n"

theorem commandList_did (h : commandList env input th = .ok th') :
    ∃ via dataVia, th.session.controlChannel.via = .ok via ∧
      th.session.dataChannel.via = .ok dataVia ∧
      Did th th' { th.session with dataChannel := th.session.dataChannel.closed }
        th.process.fileTree
        [replyEvent env th.session.id via (ascii "150 ASCII data connection\r\n"),
          dataPushEvent env th.session.id dataVia (listing th.process.fileTree th.session.folder),
          replyEvent env th.session.id via (ascii "226 ASCII Transfer complete\r\n")] := by
  unfold commandList at h
  obtain ⟨th₁, h₁, h⟩ := bind_ok_iff.mp h
  obtain ⟨th₂, h₂, h⟩ := bind_ok_iff.mp h
  obtain ⟨th₃, h₃, h⟩ := bind_ok_iff.mp h
  obtain rfl := pure_ok_iff.mp h
  obtain ⟨via, hvia⟩ := via_of_reply h₁
  have hdid₁ := (Did.refl th).reply h₁ hvia
  obtain ⟨dataVia, hdata, -⟩ := dataPush_ok.mp h₂
  rw [hdid₁.session] at hdata
  have hdid₃ := (hdid₁.dataPush h₂ hdata).reply h₃ hvia
  exact ⟨via, dataVia, hvia, hdata, hdid₃.dataClose⟩

/-- What the receive loop is given, pull by pull: with an allocated size it stops at
    the first pull after the size has come down to 0 exactly. -/
def pulledAllocated (env : Environment) : List Chunk → Int → List Received
  | [], _ => [endOfData env]
  | chunk :: chunks, fileTotalSize =>
    .bytes chunk.bytes ::
      if fileTotalSize ≠ 0 then pulledAllocated env chunks (fileTotalSize - chunk.bytes.length)
      else []

/-- What the receive loop hands to the stream of the file. -/
def handedAllocated : List Chunk → Int → Bytes
  | [], _ => []
  | chunk :: chunks, fileTotalSize =>
    if fileTotalSize ≠ 0 then
      chunk.bytes ++ handedAllocated chunks (fileTotalSize - chunk.bytes.length)
    else []

/-- The pulls of STOR, for the value `m_buffer_file_size` has. -/
def pulled (env : Environment) (bufferFileSize : Int) : List Received :=
  if bufferFileSize > 0 then pulledAllocated env env.data bufferFileSize
  else env.data.map (fun chunk => Received.bytes chunk.bytes) ++ [endOfData env]

/-- The bytes STOR hands on, for the value `m_buffer_file_size` has. -/
def handed (env : Environment) (bufferFileSize : Int) : Bytes :=
  if bufferFileSize > 0 then handedAllocated env.data bufferFileSize
  else env.data.flatMap Chunk.bytes

/-- The bytes that come into the file: those that it has room for. -/
def written (env : Environment) (bufferFileSize : Int) : Bytes :=
  taken env.room (handed env bufferFileSize)

@[simp] theorem taken_none (bytes : Bytes) : taken none bytes = bytes := rfl

@[simp] theorem taken_nil (room : Option Nat) : taken room [] = [] := by
  cases room with
  | none => rfl
  | some n => exact List.take_nil

theorem taken_eq_nil_iff (room : Option Nat) (bytes : Bytes) :
    taken room bytes = [] ↔ room = some 0 ∨ bytes = [] := by
  cases room with
  | none => simp
  | some n => simp [taken]

theorem taken_append (room : Option Nat) (front back : Bytes) :
    taken room (front ++ back) = taken room front ++ taken (roomAfter room front) back := by
  cases room with
  | none => rfl
  | some n => exact List.take_append

/-- The tree after `bytes` went to the file, if it was opened. -/
def stored (t : Posix.FileTree) (file : Option Posix.Location) (bytes : Bytes) : Posix.FileTree :=
  match file with
  | some l => t.append l bytes
  | none => t

theorem stored_nil (t : Posix.FileTree) (file : Option Posix.Location) : stored t file [] = t := by
  cases file with
  | none => rfl
  | some l => exact t.append_nil l

theorem stored_append (t : Posix.FileTree) (file : Option Posix.Location) (front back : Bytes) :
    stored (stored t file front) file back = stored t file (front ++ back) := by
  cases file with
  | none => rfl
  | some l => exact t.append_append l front back

/-- A pull on the data channel. -/
def pullEvent (id : Nat) (via : Via) (result : Received) : Event := .pull (.data id) via result

section Receiving

variable {via : Via} {file : Option Posix.Location}

/-- The process after pulls that made the tree `t`. -/
def received (p : Process) (t : Posix.FileTree) (pulls : List Event) : Process :=
  { p with fileTree := t, trace := p.trace ++ pulls }

theorem write_eq (file : Option Posix.Location) (room : Option Nat) (bytes : Bytes) (th : Thread) :
    write file room bytes th =
      { th with process :=
          { th.process with fileTree := stored th.process.fileTree file (taken room bytes) } } := by
  cases file <;> rfl

theorem dataPull_eq (hvia : th.session.dataChannel.via = .ok via) (result : Received) :
    th.dataPull result =
      .ok { th with process := th.process.emit (pullEvent th.session.id via result) } :=
  dataPull_ok.mpr ⟨via, hvia, rfl⟩

theorem receiveAllocated_eq (hvia : th.session.dataChannel.via = .ok via) (room : Option Nat)
    (chunks : List Chunk) (fileTotalSize : Int) :
    receiveAllocated env file room chunks fileTotalSize th =
      .ok ⟨th.session, received th.process
        (stored th.process.fileTree file (taken room (handedAllocated chunks fileTotalSize)))
        ((pulledAllocated env chunks fileTotalSize).map (pullEvent th.session.id via))⟩ := by
  induction chunks generalizing room fileTotalSize th with
  | nil =>
    rw [receiveAllocated, dataPull_eq hvia, handedAllocated, taken_nil, stored_nil]
    rfl
  | cons chunk chunks ih =>
    rw [receiveAllocated, dataPull_eq hvia, ok_bind, pulledAllocated, handedAllocated]
    by_cases hsize : fileTotalSize ≠ 0
    · simp only [if_pos hsize, write_eq]
      apply (ih (by exact hvia) _ _).trans
      simp only [received, taken_append, stored_append, Process.emit, List.map_cons,
        List.append_assoc, List.singleton_append]
    · simp only [if_neg hsize, taken_nil, stored_nil]
      rfl

theorem receiveAll_eq (hvia : th.session.dataChannel.via = .ok via) (room : Option Nat)
    (chunks : List Chunk) :
    receiveAll env file room chunks th =
      .ok ⟨th.session, received th.process
        (stored th.process.fileTree file (taken room (chunks.flatMap Chunk.bytes)))
        ((chunks.map (fun chunk => Received.bytes chunk.bytes) ++ [endOfData env]).map
          (pullEvent th.session.id via))⟩ := by
  induction chunks generalizing room th with
  | nil =>
    rw [receiveAll, dataPull_eq hvia, List.flatMap_nil, taken_nil, stored_nil]
    rfl
  | cons chunk chunks ih =>
    rw [receiveAll, dataPull_eq hvia, ok_bind, write_eq]
    apply (ih (by exact hvia) _).trans
    simp only [received, taken_append, stored_append, Process.emit, List.map_cons, List.append_assoc,
      List.flatMap_cons, List.cons_append, List.nil_append]

/-- **The receive loop** pulls what `m_buffer_file_size` makes of the stream, and what of it
    the file has room for is written. -/
theorem receiveFile_eq (hvia : th.session.dataChannel.via = .ok via) :
    receiveFile env file th =
      .ok ⟨th.session, received th.process
        (stored th.process.fileTree file (written env th.session.bufferFileSize))
        ((pulled env th.session.bufferFileSize).map (pullEvent th.session.id via))⟩ := by
  unfold receiveFile written handed pulled
  split
  · exact receiveAllocated_eq hvia _ _ _
  · exact receiveAll_eq hvia _ _

/-- The receive loop pulls at least once. -/
theorem receiveFile_error {e : Abort} (hvia : th.session.dataChannel.via = .error e) :
    receiveFile env file th = .error e := by
  have hpull : ∀ result, th.dataPull result = .error e := by
    intro result
    unfold Thread.dataPull TcpTransport.pull
    rw [hvia]
    rfl
  unfold receiveFile
  cases env.data with
  | nil => simp only [receiveAllocated, receiveAll, hpull, ite_self]
  | cons chunk chunks => simp only [receiveAllocated, receiveAll, hpull, error_bind, ite_self]

theorem receiveFile_did {th₁ : Thread} {session : FtpSession} {t : Posix.FileTree}
    {sent : List Event} (h : Did th th₁ session t sent) (hreceive : receiveFile env file th₁ = .ok th') :
    ∃ via, session.dataChannel.via = .ok via ∧
      Did th th' session (stored t file (written env session.bufferFileSize))
        (sent ++ (pulled env session.bufferFileSize).map (pullEvent session.id via)) := by
  obtain rfl := h.session
  obtain rfl := h.fileTree
  cases hvia : th₁.session.dataChannel.via with
  | error e =>
    rw [receiveFile_error hvia] at hreceive
    cases hreceive
  | ok via =>
    rw [receiveFile_eq hvia] at hreceive
    cases hreceive
    have hpulls : ∀ e ∈ (pulled env th₁.session.bufferFileSize).map
        (pullEvent th₁.session.id via), e.isTraffic = true := by
      intro e he
      obtain ⟨result, -, rfl⟩ := List.mem_map.mp he
      rfl
    refine ⟨via, rfl, rfl, rfl, h.database, h.observers, ?_⟩
    simp only [received, traffic_append, h.traffic, traffic_eq_self hpulls, List.append_assoc]

end Receiving

/-- The file STOR writes to, if it can be opened. -/
def transferFile (t : Posix.FileTree) (filePath : Bytes) : Option Posix.Location :=
  (t.openAppend filePath).map Prod.snd

/-- The tree once STOR has opened its file. -/
def transferTree (t : Posix.FileTree) (filePath : Bytes) : Posix.FileTree :=
  ((t.openAppend filePath).map Prod.fst).getD t

theorem openTransfer_did (filePath : Bytes) (th : Thread) :
    (openTransfer filePath th).1 = transferFile th.process.fileTree filePath ∧
      Did th (openTransfer filePath th).2 th.session
        (transferTree th.process.fileTree filePath) [] := by
  unfold openTransfer transferFile transferTree
  cases th.process.fileTree.openAppend filePath with
  | none => exact ⟨rfl, Did.refl th⟩
  | some opened => exact ⟨rfl, (Did.refl th).setFileTree _⟩

/-- The signals to the observers of a finished upload. -/
def signals (observers : FtpNotifier) (filePath : Bytes) : List Event :=
  (observers.notifyObservers .filePut).map fun observer => .notifySignal observer filePath

theorem commandStor_did (h : commandStor env input th = .ok th') :
    ∃ fileName via dataVia, input.getArgument 0 = .ok fileName ∧
      th.session.controlChannel.via = .ok via ∧ th.session.dataChannel.via = .ok dataVia ∧
      let filePath := th.session.folder ++ fileName
      let t := th.process.fileTree
      Did th th' { th.session with dataChannel := th.session.dataChannel.closed }
        (stored (transferTree t filePath) (transferFile t filePath)
          (written env th.session.bufferFileSize))
        ([replyEvent env th.session.id via (ascii "150 STOR file status is OK\r\n")] ++
          (pulled env th.session.bufferFileSize).map (pullEvent th.session.id dataVia) ++
          [replyEvent env th.session.id via (ascii "226 ASCII Transfer complete\r\n")] ++
          signals th.process.observers filePath) := by
  unfold commandStor at h
  obtain ⟨fileName, hname, h⟩ := raising_bind_ok.mp h
  dsimp only at h
  obtain ⟨hfile, hopened⟩ := openTransfer_did (th.session.folder ++ fileName) th
  rw [hfile] at h
  obtain ⟨th₁, h₁, h⟩ := bind_ok_iff.mp h
  obtain ⟨th₂, h₂, h⟩ := bind_ok_iff.mp h
  obtain ⟨th₃, h₃, h⟩ := bind_ok_iff.mp h
  obtain rfl := pure_ok_iff.mp h
  obtain ⟨via, hvia⟩ := via_of_reply h₁
  rw [hopened.session] at hvia
  have hdid₁ := hopened.reply h₁ hvia
  obtain ⟨dataVia, hdata, hdid₂⟩ := receiveFile_did hdid₁ h₂
  have hdid₃ := hdid₂.dataClose.reply h₃ hvia
  refine ⟨fileName, via, dataVia, hname, hvia, hdata, ?_⟩
  refine ⟨hdid₃.session, hdid₃.fileTree, hdid₃.database, hdid₃.observers, ?_⟩
  have hsignals : ∀ e ∈ signals th.process.observers (th.session.folder ++ fileName),
      e.isTraffic = true := by
    intro e he
    obtain ⟨observer, -, rfl⟩ := List.mem_map.mp he
    rfl
  have htrace : (th₃.notify .filePut (th.session.folder ++ fileName)).process.trace =
      th₃.process.trace ++ signals th.process.observers (th.session.folder ++ fileName) := by
    simp only [Thread.notify, signals, hdid₃.observers]
  rw [htrace, traffic_append, hdid₃.traffic, traffic_eq_self hsignals]
  simp

/-- A STOR with an argument ends the process only through a NULL session. -/
theorem commandStor_returns (env : Environment) {fileName : Bytes} {via dataVia : Via}
    (hname : input.getArgument 0 = .ok fileName)
    (hvia : th.session.controlChannel.via = .ok via)
    (hdata : th.session.dataChannel.via = .ok dataVia) :
    ∃ next, commandStor env input th = .ok next := by
  have hopened := (openTransfer_did (th.session.folder ++ fileName) th).2.session
  unfold commandStor
  rw [hname, raising_ok, ok_bind]
  dsimp only
  generalize openTransfer (th.session.folder ++ fileName) th = opened at hopened ⊢
  rcases opened with ⟨file, session, p⟩
  obtain rfl := hopened
  dsimp only
  rw [reply_eq ⟨th.session, p⟩ hvia, ok_bind, receiveFile_eq (by exact hdata), ok_bind,
    reply_eq _ (by exact hvia)]
  exact ⟨_, rfl⟩

/-! ## 6. PORT, AUTH and PASV -/

theorem commandPort_did (h : commandPort env input th = .ok th') :
    ∃ address text port via channel, input.getArgument 0 = .ok address ∧
      input.getArgument 1 = .ok text ∧ stoi text = .ok port ∧
      th.session.controlChannel.via = .ok via ∧
      channel = ⟨th.process.socket (env.socket 0), .null, false,
        if env.connect then address else [], if env.connect then port else 0⟩ ∧
      Did th th' { th.session with dataChannel := channel } th.process.fileTree
        (if env.connect then
          [replyEvent env th.session.id via (ascii "220 PORT command is accepted\r\n"),
            replyEvent env th.session.id via (ascii "220 PORT command is accepted\r\n")]
        else [replyEvent env th.session.id via (ascii "520 PORT cannot create data channel\r\n")]) := by
  unfold commandPort at h
  obtain ⟨address, haddress, h⟩ := raising_bind_ok.mp h
  obtain ⟨port, hport, h⟩ := raising_bind_ok.mp h
  obtain ⟨text, htext, hstoi⟩ := bind_ok_iff.mp hport
  refine ⟨address, text, port, ?_⟩
  have hnew := TcpTransport.new_quiet (env.socket 0) .temporary th.process
  have hmove := TcpTransport.moveAssign_quiet (.data th.session.id) .temporary
    th.session.dataChannel (TcpTransport.new (env.socket 0) .temporary th.process).1
    (TcpTransport.new (env.socket 0) .temporary th.process).2
  rw [TcpTransport.moveAssign_of_ne (by simp)] at hmove
  dsimp only at h hmove
  rw [TcpTransport.moveAssign_of_ne (by simp)] at h
  have hconnect := TcpTransport.connect_quiet env (.data th.session.id)
    (TcpTransport.new (env.socket 0) .temporary th.process).1 address port
    ((TcpTransport.new (env.socket 0) .temporary th.process).2.emit
      (.move .temporary (.data th.session.id) (TcpTransport.new (env.socket 0) .temporary th.process).1.socket))
  have hdid := ((Did.refl th).quiet ((hnew.trans hmove).trans hconnect)).setSession
    { th.session with dataChannel :=
      ((TcpTransport.new (env.socket 0) .temporary th.process).1.connect env (.data th.session.id) address port
        ((TcpTransport.new (env.socket 0) .temporary th.process).2.emit
          (.move .temporary (.data th.session.id)
            (TcpTransport.new (env.socket 0) .temporary th.process).1.socket))).2.1 }
  dsimp only at h
  cases hcase : env.connect with
  | false =>
    unfold TcpTransport.connect at h hdid
    simp only [hcase, Bool.false_eq_true, if_false] at h hdid
    rw [if_pos (by decide)] at h
    obtain ⟨via, hvia⟩ := via_of_reply h
    exact ⟨via, _, haddress, htext, hstoi, hvia, rfl, hdid.reply h hvia⟩
  | true =>
    unfold TcpTransport.connect at h hdid
    simp only [hcase, if_true] at h hdid
    rw [if_neg (by decide)] at h
    obtain ⟨th₁, h₁, h₂⟩ := bind_ok_iff.mp h
    obtain ⟨via, hvia⟩ := via_of_reply h₁
    exact ⟨via, _, haddress, htext, hstoi, hvia, rfl, (hdid.reply h₁ hvia).reply h₂ hvia⟩

theorem commandAuth_did (h : commandAuth env input th = .ok th') :
    ∃ service via, input.getArgument 0 = .ok service ∧ th.session.controlChannel.via = .ok via ∧
      ((service ≠ ascii "TLS" ∧
        Did th th' th.session th.process.fileTree
          [replyEvent env th.session.id via
            (ascii "500 AUTH specified service is not supported\r\n")]) ∨
      (service = ascii "TLS" ∧ ∃ channel, th.session.controlChannel.Bound env channel ∧
        Did th th' { th.session with controlChannel := channel } th.process.fileTree
          [replyEvent env th.session.id via (ascii "234 AUTH TLS successful\r\n")])) := by
  unfold commandAuth at h
  obtain ⟨service, hservice, h⟩ := raising_bind_ok.mp h
  refine ⟨service, ?_⟩
  by_cases htls : service = ascii "TLS"
  · rw [if_neg (by simpa using htls)] at h
    obtain ⟨th₁, h₁, h⟩ := bind_ok_iff.mp h
    obtain ⟨⟨result, channel, p⟩, h₂, h⟩ := bind_ok_iff.mp h
    obtain rfl := pure_ok_iff.mp h
    obtain ⟨via, hvia, hdid⟩ := reply_did h₁
    rw [hdid.session] at h₂ ⊢
    obtain ⟨result', channel', p', heq, hshaken, hbound⟩ :=
      TcpTransport.setTls_ok env (.control th.session.id) th.session.controlChannel th₁.process
    rw [heq] at h₂
    cases h₂
    exact ⟨via, hservice, hvia, Or.inr ⟨htls, channel, hbound, (hdid.quiet hshaken.quiet).setSession _⟩⟩
  · rw [if_pos (by simpa using htls)] at h
    obtain ⟨via, hvia, hdid⟩ := reply_did h
    exact ⟨via, hservice, hvia, Or.inl ⟨htls, hdid⟩⟩

/-- A bind succeeds within the attempts that are left. -/
def BindsWithin (env : Environment) (attempt attempts : Nat) : Prop :=
  ∃ n < attempts, env.bind (attempt + n) = true

instance (env : Environment) (attempt attempts : Nat) :
    Decidable (BindsWithin env attempt attempts) := by
  unfold BindsWithin; infer_instance

theorem nextPort_quiet (p : Process) : Quiet p (nextPort p).2 := ⟨rfl, rfl, rfl, rfl⟩

theorem allocateListener_spec (env : Environment) (id : Nat) (address : Bytes) (attempts attempt : Nat)
    (listener : TcpListener) (port : Int) (p : Process) :
    ((allocateListener env id address attempts attempt listener port p).1 = true ↔
        BindsWithin env attempt attempts) ∧
      Quiet p (allocateListener env id address attempts attempt listener port p).2.2.2 := by
  induction attempts generalizing attempt listener port p with
  | zero => simp [allocateListener, BindsWithin, Quiet.refl]
  | succ attempts ih =>
    have hother :=
      TcpListener.ofAddress_quiet (env.socket (attempt + 1)) .temporary address port 1 p
    have hmove := TcpListener.moveAssign_quiet (.passive id) .temporary listener
      (TcpListener.ofAddress (env.socket (attempt + 1)) .temporary address port 1 p).1
      (TcpListener.ofAddress (env.socket (attempt + 1)) .temporary address port 1 p).2
    unfold allocateListener
    dsimp only
    generalize TcpListener.moveAssign (.passive id) .temporary listener
      (TcpListener.ofAddress (env.socket (attempt + 1)) .temporary address port 1 p).1
      (TcpListener.ofAddress (env.socket (attempt + 1)) .temporary address port 1 p).2 = moved at hmove ⊢
    have hbind := TcpListener.bind_quiet env (.passive id) attempt moved.1 moved.2
    have hquiet := (hother.trans hmove).trans hbind
    rw [TcpListener.bind_fst]
    cases hcase : env.bind attempt with
    | true =>
      simp only [if_true]
      rw [if_neg (by decide)]
      exact ⟨by simpa [BindsWithin] using ⟨0, by omega, hcase⟩, hquiet⟩
    | false =>
      simp only [Bool.false_eq_true, if_false]
      rw [if_pos (by decide)]
      obtain ⟨hflag, hrest⟩ := ih (attempt + 1) moved.1
        (nextPort (moved.1.bind env (.passive id) attempt moved.2).2).1
        (nextPort (moved.1.bind env (.passive id) attempt moved.2).2).2
      refine ⟨hflag.trans ?_, (hquiet.trans (nextPort_quiet _)).trans hrest⟩
      constructor
      · rintro ⟨n, hn, hb⟩
        exact ⟨n + 1, by omega, by rw [← hb]; congr 1; omega⟩
      · rintro ⟨n, hn, hb⟩
        cases n with
        | zero => simp [hcase] at hb
        | succ n => exact ⟨n, by omega, by rw [← hb]; congr 1; omega⟩

/-- What `accept` makes of the data channel. -/
def Accepted (env : Environment) (t t' : TcpTransport) : Prop :=
  if env.accept then t'.secure = false ∧ t'.session = .null ∧ 0 ≤ t'.socket else t' = t

/-- `command_pasv` makes a TLS session for the data channel. -/
def protectsData (session : FtpSession) : Bool :=
  session.controlChannel.secure && session.protectionLevel == .private'

theorem secureData_did (h : secureData env th = .ok th') :
    ∃ channel, (if th.session.protectsData then th.session.dataChannel.Bound env channel
        else channel = th.session.dataChannel) ∧
      Did th th' { th.session with dataChannel := channel } th.process.fileTree [] := by
  unfold secureData at h
  unfold protectsData
  split at h
  · next hprotects =>
    obtain ⟨⟨result, channel, p⟩, h₁, h⟩ := bind_ok_iff.mp h
    obtain rfl := pure_ok_iff.mp h
    obtain ⟨result', channel', p', heq, hshaken, hbound⟩ :=
      TcpTransport.setTls_ok env (.data th.session.id) th.session.dataChannel th.process
    rw [heq] at h₁
    cases h₁
    exact ⟨channel, by rwa [if_pos hprotects], ((Did.refl th).quiet hshaken.quiet).setSession _⟩
  · next hclear =>
    cases h
    exact ⟨_, by rw [if_neg hclear], Did.refl th⟩

theorem acceptData_did {listener : TcpListener} (h : acceptData env listener th = .ok th') :
    ∃ accepted channel, Accepted env th.session.dataChannel accepted ∧
      (if th.session.protectsData then accepted.Bound env channel else channel = accepted) ∧
      Did th th' { th.session with dataChannel := channel } th.process.fileTree [] := by
  unfold acceptData at h
  dsimp only at h
  obtain ⟨th₁, h₁, h⟩ := bind_ok_iff.mp h
  obtain rfl := pure_ok_iff.mp h
  have hquiet := TcpListener.accept_quiet env (.passive th.session.id) (.data th.session.id)
    listener th.session.dataChannel th.process
  have htransport := TcpListener.accept_transport env (.passive th.session.id)
    (.data th.session.id) (by simp) listener th.session.dataChannel th.process
  obtain ⟨channel, hchannel, hdid⟩ := secureData_did h₁
  have haccepted : Accepted env th.session.dataChannel
      (listener.accept env (.passive th.session.id) (.data th.session.id) th.session.dataChannel
        th.process).2.1 := by
    rw [htransport]
    unfold Accepted
    split
    · exact ⟨rfl, rfl, Ownership.Table.lowestFree_nonneg _⟩
    · rfl
  refine ⟨_, channel, haccepted, hchannel, ?_⟩
  have hstart := ((Did.refl th).quiet hquiet).setSession { th.session with dataChannel := channel }
  have hclose := (listener.transport.close_quiet (.passive th₁.session.id) th₁.process).trans
    (TcpTransport.destruct_quiet
      (listener.transport.close (.passive th₁.session.id) th₁.process).1 _)
  have hmiddle : Did th th₁ { th.session with dataChannel := channel } th.process.fileTree [] :=
    ⟨hdid.session, hdid.fileTree.trans hstart.fileTree, hdid.database.trans hstart.database,
      hdid.observers.trans hstart.observers, by rw [hdid.traffic, List.append_nil]; exact hstart.traffic⟩
  exact hmiddle.quiet hclose

/-- What the attempts of `command_pasv` come to. -/
def listening (env : Environment) (th : Thread) : Bool × TcpListener × Int × Process :=
  let (port, p) := nextPort th.process
  let (listener, p) := TcpListener.new (env.socket 0) (.passive th.session.id) p
  allocateListener env th.session.id th.session.controlChannel.address 20 0 listener port p

theorem listening_spec (env : Environment) (th : Thread) :
    ((listening env th).1 = true ↔ BindsWithin env 0 20) ∧
      Quiet th.process (listening env th).2.2.2 := by
  obtain ⟨hflag, hallocate⟩ := allocateListener_spec env th.session.id
    th.session.controlChannel.address 20 0
    (TcpListener.new (env.socket 0) (.passive th.session.id) (nextPort th.process).2).1
    (nextPort th.process).1
    (TcpListener.new (env.socket 0) (.passive th.session.id) (nextPort th.process).2).2
  exact ⟨hflag, ((nextPort_quiet th.process).trans (TcpListener.new_quiet _ _ _)).trans hallocate⟩

theorem commandPasv_eq (env : Environment) (input : FtpCommand) (th : Thread) :
    commandPasv env input th =
      if !(listening env th).1 then do
        let th' ← Thread.reply env (ascii "500 PASV command if failure")
          ⟨th.session, (listening env th).2.2.2⟩
        return { th' with process := (listening env th).2.1.transport.destruct th'.process }
      else
        Thread.reply env
            (passiveReply th.session.controlChannel.address (listening env th).2.2.1)
            ⟨th.session, (listening env th).2.2.2⟩ >>=
          acceptData env (listening env th).2.1 := rfl

theorem commandPasv_did (h : commandPasv env input th = .ok th') :
    ∃ via, th.session.controlChannel.via = .ok via ∧
      ((¬ BindsWithin env 0 20 ∧
        Did th th' th.session th.process.fileTree
          [replyEvent env th.session.id via (ascii "500 PASV command if failure")]) ∨
      (BindsWithin env 0 20 ∧ ∃ port accepted channel,
        Accepted env th.session.dataChannel accepted ∧
        (if th.session.protectsData then accepted.Bound env channel else channel = accepted) ∧
        Did th th' { th.session with dataChannel := channel } th.process.fileTree
          [replyEvent env th.session.id via
            (passiveReply th.session.controlChannel.address port)])) := by
  rcases listening_spec env th with ⟨hflag, hquiet⟩
  have hdid := (Did.refl th).quiet hquiet
  rw [commandPasv_eq] at h
  generalize listening env th = allocated at h hflag hdid
  rcases allocated with ⟨allocationFlag, listener, port, p⟩
  dsimp only at h hflag hdid
  cases hcase : allocationFlag with
  | false =>
    rw [hcase] at h hflag
    simp only [Bool.not_false, if_true] at h
    obtain ⟨th₁, h₁, h⟩ := bind_ok_iff.mp h
    obtain rfl := pure_ok_iff.mp h
    obtain ⟨via, hvia⟩ := via_of_reply h₁
    exact ⟨via, hvia, Or.inl ⟨by simpa using hflag,
      (hdid.reply h₁ hvia).quiet (TcpTransport.destruct_quiet _ _)⟩⟩
  | true =>
    rw [hcase] at h hflag
    simp only [Bool.not_true, Bool.false_eq_true, if_false] at h
    obtain ⟨th₁, h₁, h⟩ := bind_ok_iff.mp h
    obtain ⟨via, hvia⟩ := via_of_reply h₁
    have hreplied := hdid.reply h₁ hvia
    obtain ⟨accepted, channel, haccepted, hchannel, hrest⟩ := acceptData_did h
    rw [hreplied.session] at haccepted hchannel hrest
    refine ⟨via, hvia, Or.inr ⟨by simpa using hflag, port, accepted, channel, haccepted, hchannel,
      hrest.session, hrest.fileTree.trans hreplied.fileTree, hrest.database.trans hreplied.database,
      hrest.observers.trans hreplied.observers, ?_⟩⟩
    rw [hrest.traffic, hreplied.traffic]
    simp

/-! ## 7. What no other command touches -/

/-- The parts of the thread, each with the commands that may change it. -/
structure Frame (command : FtpCommandT) (session session' : FtpSession) (t t' : Posix.FileTree) :
    Prop where
  id : session'.id = session.id
  state : command ∉ [.user, .pass, .quit] → session'.state = session.state
  folder : command ∉ [.pass, .cwd] → session'.folder = session.folder
  controlChannel : command ≠ .auth → session'.controlChannel = session.controlChannel
  dataChannel : command ∉ [.port, .list, .stor, .pasv] → session'.dataChannel = session.dataChannel
  bufferFileSize : command ≠ .allo → session'.bufferFileSize = session.bufferFileSize
  protectionLevel : command ≠ .prot → session'.protectionLevel = session.protectionLevel
  fileTree : command ∉ [.stor, .dele, .rnto] → t' = t

/-- The members behind login and renaming, each with the commands that may change it. -/
structure MemberFrame (command : FtpCommandT) (session session' : FtpSession) : Prop where
  user : command ∉ [.user, .pass] → session'.user = session.user
  authAttempt : command ≠ .pass → session'.authAttempt = session.authAttempt
  argument : command ≠ .rnfr → session'.argument = session.argument

theorem processCommand_parts (h : processCommand env input th = .ok th') :
    Frame input.command th.session th'.session th.process.fileTree th'.process.fileTree ∧
      MemberFrame input.command th.session th'.session ∧
      ∃ sent, Did th th' th'.session th'.process.fileTree sent := by
  have hparts : ∀ {session t sent}, Did th th' session t sent →
      Frame input.command th.session session th.process.fileTree t →
      MemberFrame input.command th.session session →
      Frame input.command th.session th'.session th.process.fileTree th'.process.fileTree ∧
        MemberFrame input.command th.session th'.session ∧
        ∃ sent, Did th th' th'.session th'.process.fileTree sent := by
    intro session t sent hdid hframe hmembers
    obtain rfl := hdid.session
    obtain rfl := hdid.fileTree
    exact ⟨hframe, hmembers, sent, hdid⟩
  unfold processCommand at h
  cases hcommand : input.command <;> rw [hcommand] at h hparts <;> dsimp only at h
  case user =>
    rcases commandUser_did h with ⟨_, _, _, _, hdid⟩
    exact hparts hdid (by constructor <;> simp) (by constructor <;> simp)
  case pass =>
    rcases commandPass_did h with ⟨_, _, _, _, ⟨_, _, hdid⟩ | ⟨_, hdid⟩⟩
    · exact hparts hdid (by constructor <;> simp [admitted]) (by constructor <;> simp [admitted])
    · exact hparts hdid (by constructor <;> simp [rejected]) (by constructor <;> simp [rejected])
  case cwd =>
    rcases commandCwd_did h with ⟨_, _, _, _, _, _, hdid⟩
    exact hparts hdid (by constructor <;> simp) (by constructor <;> simp)
  case port =>
    rcases commandPort_did h with ⟨_, _, _, _, _, _, _, _, _, _, hdid⟩
    exact hparts hdid (by constructor <;> simp) (by constructor <;> simp)
  case list =>
    rcases commandList_did h with ⟨_, _, _, _, hdid⟩
    exact hparts hdid (by constructor <;> simp) (by constructor <;> simp)
  case stor =>
    rcases commandStor_did h with ⟨_, _, _, _, _, _, hdid⟩
    exact hparts hdid (by constructor <;> simp) (by constructor <;> simp)
  case type =>
    rcases commandType_did h with ⟨_, _, _, _, _, hdid⟩
    exact hparts hdid (by constructor <;> simp) (by constructor <;> simp)
  case auth =>
    rcases commandAuth_did h with ⟨_, _, _, _, ⟨_, hdid⟩ | ⟨_, _, _, hdid⟩⟩
    · exact hparts hdid (by constructor <;> simp) (by constructor <;> simp)
    · exact hparts hdid (by constructor <;> simp) (by constructor <;> simp)
  case pbsz =>
    rcases commandPbsz_did h with ⟨_, _, _, _, _, _, hdid⟩
    exact hparts hdid (by constructor <;> simp) (by constructor <;> simp)
  case prot =>
    rcases commandProt_did h with ⟨_, _, _, _, hdid⟩
    exact hparts hdid (by constructor <;> simp) (by constructor <;> simp)
  case pasv =>
    rcases commandPasv_did h with ⟨_, _, ⟨_, hdid⟩ | ⟨_, _, _, _, _, _, hdid⟩⟩
    · exact hparts hdid (by constructor <;> simp) (by constructor <;> simp)
    · exact hparts hdid (by constructor <;> simp) (by constructor <;> simp)
  case allo =>
    rcases commandAllo_did h with ⟨_, _, _, _, _, _, hdid⟩
    exact hparts hdid (by constructor <;> simp) (by constructor <;> simp)
  case dele =>
    rcases commandDele_did h with ⟨_, _, _, _, _, _, hdid⟩
    exact hparts hdid (by constructor <;> simp) (by constructor <;> simp)
  case rnfr =>
    rcases commandRnfr_did h with ⟨_, _, _, _, hdid⟩
    exact hparts hdid (by constructor <;> simp) (by constructor <;> simp)
  case rnto =>
    rcases commandRnto_did h with ⟨_, _, _, _, hdid⟩
    exact hparts hdid (by constructor <;> simp) (by constructor <;> simp)
  case quit =>
    exact hparts (commandQuit_did h) (by constructor <;> simp) (by constructor <;> simp)
  all_goals
    rcases reply_did h with ⟨_, _, hdid⟩
    exact hparts hdid (by constructor <;> simp) (by constructor <;> simp)

/-- **The frame of a call**; its traffic only adds to the log. -/
theorem processCommand_frame (h : processCommand env input th = .ok th') :
    Frame input.command th.session th'.session th.process.fileTree th'.process.fileTree ∧
      ∃ sent, Did th th' th'.session th'.process.fileTree sent :=
  let ⟨hframe, _, hsent⟩ := processCommand_parts h
  ⟨hframe, hsent⟩

theorem processCommand_members (h : processCommand env input th = .ok th') :
    MemberFrame input.command th.session th'.session := (processCommand_parts h).2.1

/-- No call exchanges the control channel: AUTH TLS binds a TLS session to the one there is. -/
theorem processCommand_controlChannel (h : processCommand env input th = .ok th') :
    th'.session.controlChannel = th.session.controlChannel ∨
      th.session.controlChannel.Bound env th'.session.controlChannel := by
  by_cases hauth : input.command = .auth
  · unfold processCommand at h
    rw [hauth] at h
    rcases commandAuth_did h with ⟨_, _, _, _, ⟨_, hdid⟩ | ⟨_, channel, hbound, hdid⟩⟩
    · exact Or.inl (by rw [hdid.session])
    · exact Or.inr (by rw [hdid.session]; exact hbound)
  · exact Or.inl ((processCommand_frame h).1.controlChannel hauth)

end FtpSession

end FtpsServer
