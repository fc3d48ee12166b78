import FtpsServer.Replies

/-!
# The limit on failed logins

`command_pass` counts its failures in `m_auth_attempt` and ends the session when the
count is above `MAX_AUTH_ATTEMPTS`, which is one failure too late.  Nothing else
moves the counter, and nothing is handled behind the end.
-/

namespace FtpsServer

open ByteString Cxx Machine

/-- The reply to a PASS that matched nothing. -/
def FAILURE : Bytes := ascii "430 authentication failure\r\n"

namespace FtpSession

variable {c : Call} {th th' : Thread}

/-! ## 1. One call -/

/-- Only PASS says 430. -/
theorem count_failure {messages : List Bytes} (h : Says th c messages)
    (hcommand : c.input.command ≠ .pass) : messages.count FAILURE = 0 := by
  rw [List.count_eq_zero]
  intro hmem
  have hcode := h.code FAILURE hmem
  rw [FAILURE, replyCode_ascii] at hcode
  revert hcode hcommand
  cases c.input.command <;> decide

/-- A PASS that fails: it says 430 once, counts, and ends the session above the limit. -/
structure Fails (th : Thread) (c : Call) (new : List Bytes) (th' : Thread) : Prop where
  command : c.input.command = .pass
  unmatched : ∀ password, c.input.getArgument 0 = .ok password →
    th.process.database.matching th.session.user.login password = none
  once : new.count FAILURE = 1
  authAttempt : th'.session.authAttempt = increment th.session.authAttempt
  state : th'.session.state =
    if increment th.session.authAttempt > MAX_AUTH_ATTEMPTS then .terminated else .authWaitLogin

/-- A call that fails no login: it does not say 430 and does not count. -/
structure Passes (th : Thread) (c : Call) (new : List Bytes) (th' : Thread) : Prop where
  matched : c.input.command = .pass → ∀ password, c.input.getArgument 0 = .ok password →
    (th.process.database.matching th.session.user.login password).isSome = true
  never : new.count FAILURE = 0
  authAttempt : th'.session.authAttempt = th.session.authAttempt

theorem call_counts (h : call th c = .ok th') :
    ∃ new, Replied th th' new ∧ (Fails th c new th' ∨ Passes th c new th') := by
  by_cases hcommand : c.input.command = .pass
  · have hpass := h
    rw [call_pass hcommand] at hpass
    rcases commandPass_did hpass with ⟨password, via, hpassword, _, hcases⟩
    have hsame : ∀ password', c.input.getArgument 0 = .ok password' → password' = password := by
      intro password' hpassword'
      rw [hpassword] at hpassword'
      exact (Except.ok.inj hpassword').symm
    rcases hcases with ⟨entry, hmatch, hdid⟩ | ⟨hmatch, hdid⟩
    · refine ⟨_, hdid.replied, Or.inr ⟨?_, ?_, ?_⟩⟩
      · intro _ password' hpassword'
        rw [hsame password' hpassword', hmatch]
        rfl
      · rw [replies_append]
        unfold passRefusal
        split <;> simp only [replies_replyEvent, replies_nil] <;> decide
      · rw [hdid.session]
        rfl
    · refine ⟨_, hdid.replied, Or.inl ⟨hcommand, ?_, ?_, ?_, ?_⟩⟩
      · intro password' hpassword'
        rw [hsame password' hpassword', hmatch]
      · rw [replies_append]
        unfold passRefusal
        split <;> simp only [replies_replyEvent, replies_nil] <;> decide
      · rw [hdid.session]
        rfl
      · rw [hdid.session]
        rfl
  · rcases processCommand_says h with ⟨new, hspeaks, hsays⟩
    refine ⟨new, hspeaks.replied, Or.inr ⟨?_, ?_, ?_⟩⟩
    · intro hpass
      exact absurd hpass hcommand
    · exact count_failure hsays hcommand
    · exact (processCommand_members h).authAttempt hcommand

end FtpSession

/-! ## 2. One turn -/

namespace SessionThread

variable {s s' : SessionThread} {turn : Turn}

theorem start_replied {env : Environment} {th th' : Thread} (h : start env th = .ok th') :
    th'.session = th.session ∧ Replied th th' [ascii "220 FTP server is ready\r\n"] := by
  unfold start at h
  rcases reply_did h with ⟨via, _, hdid⟩
  exact ⟨hdid.session, by simpa using hdid.replied⟩

/-- A turn that is handled is a call behind a pull that says nothing. -/
theorem handle_call (h : s.handle turn = .ok s') :
    ∃ input th₁, command s.buffer turn.message turn.behind = .ok input ∧
      th₁.session = s.thread.session ∧ th₁.process.database = s.thread.process.database ∧
      Replied s.thread th₁ [] ∧ FtpSession.call th₁ ⟨turn.env, input⟩ = .ok s'.thread := by
  rcases handle_ok h with ⟨via, input, th₁, _, hinput, hth₁, hcall, _⟩
  refine ⟨input, th₁, hinput, ?_, ?_, ?_, hcall⟩
  · rw [hth₁]
  · rw [hth₁]
    rfl
  · rw [hth₁]
    simp [Replied, replies, replyOf]

/-! ## 3. Runs -/

/-- What the limit promises of a session that was `fresh`. -/
structure Lockout (fresh : Thread) (s : SessionThread) : Prop where
  attempts : ∃ new, Replied fresh s.thread new ∧
    s.thread.session.authAttempt = new.count FAILURE
  bounded : s.thread.session.authAttempt ≤ FtpSession.MAX_AUTH_ATTEMPTS
  ends : s.thread.session.state = .terminated → ∀ turn, s.step turn = .ok s

/-- A PASS that comes at the limit has to be right. -/
def LastGuess (s : SessionThread) (turn : Turn) : Prop :=
  s.thread.session.state ≠ .terminated →
    s.thread.session.authAttempt = FtpSession.MAX_AUTH_ATTEMPTS →
      ∀ input password, command s.buffer turn.message turn.behind = .ok input →
        input.command = .pass → input.getArgument 0 = .ok password →
          (s.thread.process.database.matching s.thread.session.user.login password).isSome = true

/-- The same as a test. -/
def lastGuess (s : SessionThread) (turn : Turn) : Bool :=
  s.thread.session.state == .terminated ||
    s.thread.session.authAttempt != FtpSession.MAX_AUTH_ATTEMPTS ||
      match command s.buffer turn.message turn.behind with
      | .error _ => true
      | .ok input =>
        input.command != .pass ||
          match input.getArgument 0 with
          | .error _ => true
          | .ok password =>
            (s.thread.process.database.matching s.thread.session.user.login password).isSome

theorem lastGuess_of_test {s : SessionThread} {turn : Turn} (h : lastGuess s turn = true) :
    LastGuess s turn := by
  intro hstate hlimit input password hcommand hpass hpassword
  simpa [lastGuess, hstate, hlimit, hcommand, hpass, hpassword] using h

/-- What holds in every state: the count is right, and it is above the limit only in a
    session that has ended. -/
structure Counting (fresh : Thread) (s : SessionThread) : Prop where
  id : s.thread.session.id = fresh.session.id
  attempts : ∃ new, Replied fresh s.thread new ∧
    s.thread.session.authAttempt = new.count FAILURE
  limit : s.thread.session.authAttempt ≤ FtpSession.MAX_AUTH_ATTEMPTS ∨
    s.thread.session.state = .terminated

theorem counting_increment {fresh : Thread} (h : Counting fresh s)
    (hbounded : s.thread.session.authAttempt ≤ FtpSession.MAX_AUTH_ATTEMPTS) :
    increment s.thread.session.authAttempt = s.thread.session.authAttempt + 1 := by
  rcases h.attempts with ⟨new, -, hcount⟩
  unfold FtpSession.MAX_AUTH_ATTEMPTS at hbounded
  apply increment_eq
  · unfold INT_MIN
    omega
  · unfold INT_MAX
    omega

theorem counting_step {fresh : Thread} (h : Counting fresh s) (hstep : s.step turn = .ok s') :
    Counting fresh s' := by
  unfold step at hstep
  split at hstep
  · cases hstep
    exact h
  · next hgoes =>
    have hbounded := h.limit.resolve_right hgoes
    rcases h.attempts with ⟨new, hnew, hcount⟩
    rcases handle_call hstep with ⟨input, th₁, _, hsession, hdatabase, hsilent, hcall⟩
    rcases FtpSession.call_counts hcall with ⟨more, hmore, hcases⟩
    have hid : th₁.session.id = fresh.session.id := by rw [hsession, h.id]
    have hreplied : Replied fresh s'.thread (new ++ more) := by
      have hbefore := FtpSession.replied_trans hnew h.id hsilent
      rw [List.append_nil] at hbefore
      exact FtpSession.replied_trans hbefore hid hmore
    rcases hcases with hfails | hpasses
    · have hone := hfails.authAttempt
      rw [hsession, counting_increment h hbounded] at hone
      refine ⟨(FtpSession.call_id hcall).trans hid, ⟨_, hreplied, ?_⟩, ?_⟩
      · rw [hone, List.count_append, hfails.once, hcount]
        rfl
      · have hstate := hfails.state
        rw [hsession, counting_increment h hbounded] at hstate
        by_cases hmax : s.thread.session.authAttempt + 1 > FtpSession.MAX_AUTH_ATTEMPTS
        · rw [if_pos hmax] at hstate
          exact Or.inr hstate
        · left
          omega
    · have hsame := hpasses.authAttempt
      rw [hsession] at hsame
      refine ⟨(FtpSession.call_id hcall).trans hid, ⟨_, hreplied, ?_⟩, Or.inl ?_⟩
      · rw [hsame, List.count_append, hpasses.never, hcount]
        rfl
      · rw [hsame]
        exact hbounded

/-- From a count within the limit, a step goes above it exactly when it is a PASS at the
    limit that is wrong. -/
theorem bounded_step_iff {fresh : Thread} (h : Counting fresh s) (hstep : s.step turn = .ok s')
    (hbounded : s.thread.session.authAttempt ≤ FtpSession.MAX_AUTH_ATTEMPTS) :
    s'.thread.session.authAttempt ≤ FtpSession.MAX_AUTH_ATTEMPTS ↔ LastGuess s turn := by
  unfold step at hstep
  split at hstep
  · next hended =>
    cases hstep
    apply iff_of_true hbounded
    intro hgoes
    exact absurd hended hgoes
  · next hgoes =>
    rcases handle_call hstep with ⟨input, th₁, hinput, hsession, hdatabase, _, hcall⟩
    rcases FtpSession.call_counts hcall with ⟨more, hmore, hfails | hpasses⟩
    · have hone := hfails.authAttempt
      rw [hsession, counting_increment h hbounded] at hone
      have hpass := hcall
      unfold FtpSession.call FtpSession.processCommand at hpass
      rw [hfails.command] at hpass
      rcases FtpSession.commandPass_did hpass with ⟨password, _, hpassword, _⟩
      have hwrong := hfails.unmatched password hpassword
      rw [hsession, hdatabase] at hwrong
      constructor
      · intro hmax _ hlimit
        omega
      · intro hlast
        by_contra hmax
        have hright := hlast hgoes (by omega) input password hinput hfails.command hpassword
        rw [hwrong] at hright
        cases hright
    · have hsame := hpasses.authAttempt
      rw [hsession] at hsame
      apply iff_of_true (by omega)
      intro _ _ input' password hinput' hcommand hpassword
      rw [hinput] at hinput'
      cases hinput'
      have hright := hpasses.matched hcommand password hpassword
      rwa [hsession, hdatabase] at hright

theorem lockout_of_counting {fresh : Thread} (h : Counting fresh s)
    (hbounded : s.thread.session.authAttempt ≤ FtpSession.MAX_AUTH_ATTEMPTS) :
    Lockout fresh s := by
  refine ⟨h.attempts, hbounded, ?_⟩
  intro hended turn
  rw [step, if_pos hended]

/-- **The limit on guesses.**  Whatever comes into a session thread, in every state it
    reaches the counter is the number of its 430 replies, at most `MAX_AUTH_ATTEMPTS`,
    and a session that has ended handles nothing, exactly when every PASS that comes
    at the limit is right. -/
theorem lockout_iff (opens : Bool) (id : Nat) (connection : TcpTransport) (garbage : Uninitialised)
    (p : Process) (env : Environment) (buffer : MessageBuffer) (turns : List Turn) {th : Thread}
    (hstart : start env (FtpSession.construct opens id connection garbage p) = .ok th) :
    EveryState step (Lockout (FtpSession.construct opens id connection garbage p)) ⟨th, buffer⟩ turns ↔
      EveryStep step (fun s turn _ => LastGuess s turn) ⟨th, buffer⟩ turns := by
  have hzero : th.session.authAttempt ≤ FtpSession.MAX_AUTH_ATTEMPTS := by
    rw [(start_replied hstart).1]
    exact (show (0 : Int) ≤ 3 by decide)
  have hfresh : Counting (FtpSession.construct opens id connection garbage p) ⟨th, buffer⟩ := by
    rcases start_replied hstart with ⟨hsession, hreplied⟩
    refine ⟨?_, ⟨_, hreplied, ?_⟩, Or.inl hzero⟩
    · rw [hsession]
    · have hnone : [ascii "220 FTP server is ready\r\n"].count FAILURE = 0 := by decide
      rw [hsession, hnone]
      rfl
  apply everyState_iff_everyStep (Counting (FtpSession.construct opens id connection garbage p))
  · intro s turn s' hs hstep
    exact counting_step hs hstep
  · intro s turn s' hs hlockout hstep
    rw [← bounded_step_iff hs hstep hlockout.bounded]
    constructor
    · exact Lockout.bounded
    · exact lockout_of_counting (counting_step hs hstep)
  · exact hfresh
  · exact lockout_of_counting hfresh hzero

/-- Logins as `admin` with the wrong password. -/
def guesses (n : Nat) : List Turn :=
  (List.replicate n [lineTurn .plain "USER admin\r\n" (by decide),
    lineTurn .plain "PASS x\r\n" (by decide)]).flatten

/-- Three wrong passwords, then the right one, and a command behind it. -/
def lastGuessRight : List Turn :=
  guesses 3 ++ [lineTurn .plain "USER admin\r\n" (by decide),
    lineTurn .plain "PASS admin\r\n" (by decide), lineTurn .plain "FEAT\r\n" (by decide)]

theorem lockout_iff_last_guess :
    ∃ th, start .plain (FtpSession.first .bare ⟨0, 0, .clear⟩) = .ok th ∧
      EveryState step (Lockout (FtpSession.first .bare ⟨0, 0, .clear⟩)) ⟨th, .zero⟩
        lastGuessRight := by
  refine ⟨_, rfl, (lockout_iff _ _ _ _ _ _ _ _ rfl).mpr ?_⟩
  intro before turn after mid next heq hrun hstep
  apply lastGuess_of_test
  exact everyStep_of_allSteps (P := lastGuess) (by decide +kernel) before turn after mid next heq
    hrun hstep

/-- The fourth wrong password is answered and counted. -/
theorem fourth_guess_counted :
    ¬ ∀ th, start .plain (FtpSession.first .bare ⟨0, 0, .clear⟩) = .ok th →
      EveryState step (Lockout (FtpSession.first .bare ⟨0, 0, .clear⟩)) ⟨th, .zero⟩ (guesses 4) := by
  intro h
  obtain ⟨th, hstart⟩ : ∃ th, start .plain (FtpSession.first .bare ⟨0, 0, .clear⟩) = .ok th :=
    ⟨_, rfl⟩
  have hreaches : reaches step ⟨th, .zero⟩ (guesses 4)
      (fun s => s.thread.session.authAttempt == 4) = true := by
    cases hstart
    decide +kernel
  rcases exists_of_reaches _ _ _ hreaches with ⟨s, hrun, hfour⟩
  have hbounded := (h th hstart (guesses 4) s (List.prefix_refl _) hrun).bounded
  rw [eq_of_beq hfour] at hbounded
  exact absurd hbounded (by decide)

end SessionThread

end FtpsServer
