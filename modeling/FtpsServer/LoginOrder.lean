import FtpsServer.Authentication

/-!
# The order of USER and PASS

A USER is expected in the state `FTP_SESSION_AUTH_WAIT_LOGIN` and a PASS in
`FTP_SESSION_AUTH_WAIT_PASSWORD`.  In any other state both handlers push a refusal and
then go on as if nothing had happened.
-/

namespace FtpsServer

open ByteString Cxx Machine

/-! ## 1. Refusals -/

/-- `m_user`, `m_folder`, `m_state` and `m_auth_attempt` are the same. -/
structure SameLogin (session session' : FtpSession) : Prop where
  user : session'.user = session.user
  folder : session'.folder = session.folder
  state : session'.state = session.state
  authAttempt : session'.authAttempt = session.authAttempt

/-- The command is answered by `message` only, and has no effect on the login. -/
def Rejected (message : Bytes) (th th' : Thread) : Prop :=
  Replied th th' [message] ∧ SameLogin th.session th'.session

/-- A PASS is answered 230. -/
def Accesses (th th' : Thread) : Prop := ∃ new, Replied th th' new ∧ ACCESS ∈ new

namespace FtpSession

/-- The last USER or PASS among the calls. -/
def lastLogin (calls : List Call) : Option FtpCommandT :=
  ((calls.map fun c => c.input.command).filter fun command =>
    command == .user || command == .pass).getLast?

/-- What the order of commands promises of one call, behind the calls `before`. -/
structure Orderly (before : List Call) (th : Thread) (c : Call) (th' : Thread) : Prop where
  user : c.input.command = .user → th.session.state ≠ .authWaitLogin →
    Rejected (ascii "500 USER incorrect command order\r\n") th th'
  pass : c.input.command = .pass → th.session.state ≠ .authWaitPassword →
    Rejected (ascii "530 PASS incorrect command order\r\n") th th'
  access : c.input.command = .pass → Accesses th th' → lastLogin before = some .user

/-- **A call in order**: USER and PASS are expected, and a PASS whose password is right
    comes directly behind a USER. -/
structure InOrder (before : List Call) (th : Thread) (c : Call) : Prop where
  user : c.input.command = .user → th.session.state = .authWaitLogin
  pass : c.input.command = .pass → th.session.state = .authWaitPassword
  access : c.input.command = .pass → ∀ password, c.input.getArgument 0 = .ok password →
    (th.process.database.matching th.session.user.login password).isSome = true →
      lastLogin before = some .user

/-! ## 2. One call -/

variable {c : Call} {th th' : Thread}

/-- A USER says at least 331. -/
theorem user_not_rejected (hcommand : c.input.command = .user) (h : call th c = .ok th')
    (hstate : th.session.state ≠ .authWaitLogin) (message : Bytes) : ¬ Rejected message th th' := by
  rintro ⟨hreplied, -⟩
  rw [call_user hcommand] at h
  rcases commandUser_did h with ⟨_, via, _, _, hdid⟩
  have hboth := hreplied.unique hdid.replied
  rw [if_pos hstate] at hboth
  simp at hboth

theorem pass_accesses_iff (hcommand : c.input.command = .pass) (h : call th c = .ok th')
    {password : Bytes} (hpassword : c.input.getArgument 0 = .ok password) :
    Accesses th th' ↔
      (th.process.database.matching th.session.user.login password).isSome = true := by
  rw [call_pass hcommand] at h
  rcases commandPass_did h with ⟨password', via, hpassword', _, hcases⟩
  rw [hpassword] at hpassword'
  cases hpassword'
  rcases hcases with ⟨entry, hmatch, hdid⟩ | ⟨hmatch, hdid⟩
  · rw [hmatch]
    refine iff_of_true ⟨_, hdid.replied, ?_⟩ rfl
    simp [ACCESS]
  · rw [hmatch]
    refine iff_of_false ?_ (by simp)
    rintro ⟨new, hnew, hmem⟩
    rw [hnew.unique hdid.replied, replies_append] at hmem
    unfold passRefusal at hmem
    revert hmem
    split <;> simp only [replies_replyEvent, replies_nil] <;> decide

/-- A PASS says 230 or 430 last. -/
theorem pass_not_rejected (hcommand : c.input.command = .pass) (h : call th c = .ok th')
    (hstate : th.session.state ≠ .authWaitPassword) (message : Bytes) :
    ¬ Rejected message th th' := by
  rintro ⟨hreplied, -⟩
  rw [call_pass hcommand] at h
  rcases commandPass_did h with ⟨_, via, _, _, ⟨_, _, hdid⟩ | ⟨_, hdid⟩⟩
  · have hboth := hreplied.unique hdid.replied
    simp [passRefusal, hstate] at hboth
  · have hboth := hreplied.unique hdid.replied
    simp [passRefusal, hstate] at hboth

theorem orderly_iff {before : List Call} (h : call th c = .ok th') :
    Orderly before th c th' ↔ InOrder before th c := by
  constructor
  · intro horderly
    refine ⟨?_, ?_, ?_⟩
    · intro hcommand
      by_contra hstate
      exact user_not_rejected hcommand h hstate _ (horderly.user hcommand hstate)
    · intro hcommand
      by_contra hstate
      exact pass_not_rejected hcommand h hstate _ (horderly.pass hcommand hstate)
    · intro hcommand password hpassword hmatch
      exact horderly.access hcommand ((pass_accesses_iff hcommand h hpassword).mpr hmatch)
  · intro horder
    refine ⟨?_, ?_, ?_⟩
    · intro hcommand hstate
      exact absurd (horder.user hcommand) hstate
    · intro hcommand hstate
      exact absurd (horder.pass hcommand) hstate
    · intro hcommand haccess
      have hpass := h
      rw [call_pass hcommand] at hpass
      rcases commandPass_did hpass with ⟨password, _, hpassword, _⟩
      exact horder.access hcommand password hpassword
        ((pass_accesses_iff hcommand h hpassword).mp haccess)

/-! ## 3. Runs -/

/-- **The order of authentication.**  In a run from a constructed session, USER and PASS in
    the wrong order are rejected without effect, and only a PASS directly behind a
    USER logs in, exactly when every call comes in order. -/
theorem login_order (opens : Bool) (id : Nat) (connection : TcpTransport) (garbage : Uninitialised)
    (p : Process) (calls : List Call) :
    EveryStepAfter call Orderly (construct opens id connection garbage p) calls ↔
      EveryStepAfter call (fun before mid c _ => InOrder before mid c)
        (construct opens id connection garbage p) calls := by
  apply everyStepAfter_congr (fun _ _ => True)
  · intro before mid c next _ _
    trivial
  · trivial
  · intro before mid c next _ hcall
    exact orderly_iff hcall

/-- The second USER is refused, and accepted. -/
theorem second_user_accepted :
    ¬ EveryStepAfter call Orderly (first .bare ⟨0, 0, .clear⟩)
      [⟨.plain, ⟨.user, [ascii "admin"]⟩⟩, ⟨.plain, ⟨.user, [ascii "admin"]⟩⟩] := by
  intro h
  have horderly := h [⟨.plain, ⟨.user, [ascii "admin"]⟩⟩] ⟨.plain, ⟨.user, [ascii "admin"]⟩⟩ [] _ _
    rfl rfl rfl
  have horder := (orderly_iff rfl).mp horderly
  exact absurd (horder.user rfl) (by decide)

end FtpSession

end FtpsServer
