import FtpsServer.LoginOrder
import FtpsServer.Lockout
import FtpsServer.ControlProtection

/-!
# Logins and passwords

`command_user` and `command_pass` write the fields of `m_user` one by one, and
`ftp_user_database::get` reads its key from the object it overwrites.  The key is the
argument of the last USER all the same.  What is in `m_user` behind a login that is
tried again is another matter.
-/

namespace FtpsServer

open ByteString Cxx Machine

/-! ## 1. A session among others -/

/-- What happens while a session runs: one of its calls, or the rest of the program at work,
    which changes the user database by `add` and `erase` only. -/
inductive Action where
  | call (c : FtpSession.Call)
  | elsewhere (p : Process) (updates : List FtpUserDatabase.Update)

namespace FtpSession

def act (th : Thread) : Action → Except Abort Thread
  | .call c => call th c
  | .elsewhere p updates =>
    .ok { th with process := { p with database := th.process.database.applyAll updates } }

/-- The argument of a USER. -/
def userArgument : Action → Option Bytes
  | .call c => if c.input.command = .user then (c.input.getArgument 0).toOption else none
  | .elsewhere _ _ => none

/-- The argument of the last USER. -/
def lastUser (actions : List Action) : Option Bytes := (actions.filterMap userArgument).getLast?

theorem lastUser_append (before : List Action) (a : Action) :
    lastUser (before ++ [a]) = (userArgument a).or (lastUser before) := by
  unfold lastUser
  rw [List.filterMap_append, List.getLast?_append]
  cases ha : userArgument a <;> simp [ha]

variable {c : Call} {th th' : Thread}

theorem call_database (h : call th c = .ok th') : th'.process.database = th.process.database :=
  let ⟨_, hdid⟩ := (processCommand_frame h).2
  hdid.database

theorem keyed_call (hkeyed : th.process.database.Keyed) (h : call th c = .ok th') :
    th'.process.database.Keyed := by
  rw [call_database h]
  exact hkeyed

/-- What a session knows when it waits for a password: the login of `m_user` is the argument
    of the last USER. -/
structure Named (actions : List Action) (th : Thread) : Prop where
  keyed : th.process.database.Keyed
  live : th.session.controlChannel.Live
  login : th.session.state = .authWaitPassword → lastUser actions = some th.session.user.login

theorem named_user {before : List Action} (hcommand : c.input.command = .user)
    (h : call th c = .ok th') :
    lastUser (before ++ [.call c]) = some th'.session.user.login := by
  rw [call_user hcommand] at h
  rcases commandUser_did h with ⟨login, _, hlogin, _, hdid⟩
  rw [lastUser_append, userArgument, if_pos hcommand, hlogin, hdid.session]
  rfl

/-- A PASS that matches finds an entry with the login that is there. -/
theorem pass_login (hkeyed : th.process.database.Keyed) (hcommand : c.input.command = .pass)
    (h : call th c = .ok th') : th'.session.user.login = th.session.user.login := by
  rw [call_pass hcommand] at h
  rcases commandPass_did h with ⟨_, _, _, _, ⟨entry, hmatch, hdid⟩ | ⟨_, hdid⟩⟩
  · rw [hdid.session]
    exact hkeyed _ _ (FtpUserDatabase.matching_eq_some hmatch).1
  · rw [hdid.session]
    rfl

/-- A PASS leads to no state in which another PASS is expected, but the one it is in. -/
theorem pass_state (hcommand : c.input.command = .pass) (h : call th c = .ok th')
    (hstate : th'.session.state = .authWaitPassword) : th.session.state = .authWaitPassword := by
  rw [call_pass hcommand] at h
  rcases commandPass_did h with ⟨_, _, _, _, ⟨_, _, hdid⟩ | ⟨_, hdid⟩⟩
  · rw [hdid.session] at hstate
    exact hstate
  · rw [hdid.session, rejected] at hstate
    split at hstate <;> cases hstate

theorem named_step {before : List Action} {a : Action} {mid next : Thread}
    (hmid : Named before mid) (h : act mid a = .ok next) : Named (before ++ [a]) next := by
  cases a with
  | elsewhere p updates =>
    cases h
    refine ⟨hmid.keyed.applyAll updates, hmid.live, ?_⟩
    rw [lastUser_append]
    exact hmid.login
  | call c =>
    refine ⟨keyed_call hmid.keyed h, (controlChannel_secure h).2.2 hmid.live, ?_⟩
    intro hstate
    by_cases huser : c.input.command = .user
    · exact named_user huser h
    · rw [lastUser_append, userArgument, if_neg huser, Option.none_or]
      by_cases hpass : c.input.command = .pass
      · rw [pass_login hmid.keyed hpass h]
        exact hmid.login (pass_state hpass h hstate)
      · by_cases hquit : c.input.command = .quit
        · have hended : commandQuit c.input mid = .ok next := (call_quit hquit).symm.trans h
          rw [(commandQuit_did hended).session] at hstate
          cases hstate
        · rw [(processCommand_members h).user (by simp [huser, hpass])]
          apply hmid.login
          rw [← (processCommand_frame h).1.state (by simp [huser, hpass, hquit])]
          exact hstate

theorem keyed_construct (opens : Bool) (id : Nat) (connection : TcpTransport)
    (garbage : Uninitialised) {p : Process} (hkeyed : p.database.Keyed) :
    (construct opens id connection garbage p).process.database.Keyed := by
  rw [(construct_quiet opens id connection garbage p).database]
  exact hkeyed

theorem named_construct (opens : Bool) (id : Nat) (socket : Int) (address : Bytes) (port : Int)
    (garbage : Uninitialised) {p : Process} (hkeyed : p.database.Keyed) :
    Named [] (construct opens id ⟨socket, .null, false, address, port⟩ garbage p) := by
  refine ⟨keyed_construct opens id _ garbage hkeyed, TcpTransport.live_of_clear rfl, ?_⟩
  intro hstate
  cases hstate

/-! ## 2. What PASS decides -/

/-- **What PASS decides.**  Whatever a session and the users have been through, a PASS that
    is expected is answered 230 exactly when the database binds the argument of the last
    USER to an entry with that password.  Then `m_user` is the entry and `m_folder` its
    folder, and otherwise the answer is 430 and neither folder changes. -/
theorem pass_decides (opens : Bool) (id : Nat) (socket : Int) (address : Bytes) (port : Int)
    (garbage : Uninitialised) (p : Process) (updates : List FtpUserDatabase.Update)
    (hdatabase : p.database = FtpUserDatabase.initial.applyAll updates) (actions : List Action)
    {th : Thread}
    (hrun : run act (construct opens id ⟨socket, .null, false, address, port⟩ garbage p) actions =
      .ok th)
    (hstate : th.session.state = .authWaitPassword) (c : Call)
    (hcommand : c.input.command = .pass) {password : Bytes}
    (hpassword : c.input.getArgument 0 = .ok password) :
    ∃ login th', lastUser actions = some login ∧ call th c = .ok th' ∧
      (Replied th th' [ACCESS] ↔
        ∃ entry, th.process.database login = some entry ∧ entry.password = password) ∧
      (Replied th th' [ACCESS] →
        ∃ entry, th.process.database login = some entry ∧ th'.session.user = entry ∧
          th'.session.folder = entry.folder) ∧
      (¬ Replied th th' [ACCESS] →
        Replied th th' [FAILURE] ∧ th'.session.folder = th.session.folder ∧
          th'.session.user.folder = th.session.user.folder) := by
  have hkeyed : p.database.Keyed := by
    rw [hdatabase]
    exact FtpUserDatabase.keyed_initial.applyAll updates
  have hth := run_history (fun _ _ _ _ => named_step) (named_construct opens id _ _ _ _ hkeyed) hrun
  obtain ⟨via, hvia⟩ := hth.live.exists_via
  obtain ⟨th', hcall⟩ : ∃ th', call th c = .ok th' := by
    rw [call_pass hcommand]
    exact commandPass_returns hpassword hvia
  refine ⟨th.session.user.login, th', hth.login hstate, hcall, ?_⟩
  have hpass := hcall
  rw [call_pass hcommand] at hpass
  rcases commandPass_did hpass with ⟨password', via, hpassword', _, hcases⟩
  rw [hpassword] at hpassword'
  cases hpassword'
  rw [← FtpUserDatabase.matching_isSome_iff]
  unfold passRefusal at hcases
  rw [if_neg (by simp [hstate])] at hcases
  rcases hcases with ⟨entry, hmatch, hdid⟩ | ⟨hmatch, hdid⟩
  · have haccess : Replied th th' [ACCESS] := by simpa [ACCESS] using hdid.replied
    refine ⟨iff_of_true haccess (by rw [hmatch]; rfl), ?_, ?_⟩
    · intro _
      refine ⟨entry, (FtpUserDatabase.matching_eq_some hmatch).1, ?_, ?_⟩
      · rw [hdid.session]
        rfl
      · rw [hdid.session]
        rfl
    · intro hnot
      exact absurd haccess hnot
  · have hfailure : Replied th th' [FAILURE] := by simpa [FAILURE] using hdid.replied
    have hnot : ¬ Replied th th' [ACCESS] := by
      intro haccess
      exact absurd (hfailure.unique haccess) (by decide)
    refine ⟨iff_of_false hnot (by simp [hmatch]), ?_, ?_⟩
    · intro haccess
      exact absurd haccess hnot
    · intro _
      refine ⟨hfailure, ?_, ?_⟩
      · rw [hdid.session]
        rfl
      · rw [hdid.session]
        rfl

theorem pass_decides_admin :
    ∃ th login th', run act (first .bare ⟨0, 0, .clear⟩) [.call ⟨.plain, ⟨.user, [ascii "admin"]⟩⟩] =
        .ok th ∧
      lastUser [.call ⟨.plain, ⟨.user, [ascii "admin"]⟩⟩] = some login ∧
      call th ⟨.plain, ⟨.pass, [ascii "admin"]⟩⟩ = .ok th' ∧
      (Replied th th' [ACCESS] ↔
        ∃ entry, th.process.database login = some entry ∧ entry.password = ascii "admin") := by
  obtain ⟨th, hrun, hstate⟩ := exists_of_reaches (first .bare ⟨0, 0, .clear⟩)
    [.call ⟨.plain, ⟨.user, [ascii "admin"]⟩⟩] (fun th => th.session.state == .authWaitPassword)
    (show reaches act _ _ _ = true by decide)
  rcases pass_decides _ _ _ _ _ _ _ [] rfl _ hrun (eq_of_beq hstate)
    ⟨.plain, ⟨.pass, [ascii "admin"]⟩⟩ rfl rfl with ⟨login, th', hlogin, hcall, hiff, -⟩
  exact ⟨th, login, th', hrun, hlogin, hcall, hiff⟩

/-! ## 3. Identity -/

/-- `m_user` names no folder, or it is an entry of the database. -/
def Consistent (th : Thread) : Prop :=
  th.session.user.folder ≠ [] → ∃ key, th.process.database key = some th.session.user

/-- **A call that keeps the identity**: a USER whose login makes another entry of `m_user`,
    a PASS that matches. -/
structure KeepsIdentity (th : Thread) (c : Call) : Prop where
  user : c.input.command = .user → ∀ login, c.input.getArgument 0 = .ok login →
    ∃ key, th.process.database key = some (th.session.user.setLogin login)
  pass : c.input.command = .pass → ∀ password, c.input.getArgument 0 = .ok password →
    (th.process.database.matching th.session.user.login password).isSome = true

theorem user_consistent_iff (hcommand : c.input.command = .user) (h : call th c = .ok th') :
    Consistent th' ↔ (th.session.user.folder ≠ [] → KeepsIdentity th c) := by
  have huser := h
  rw [call_user hcommand] at huser
  rcases commandUser_did huser with ⟨login, _, hlogin, _, hdid⟩
  unfold Consistent
  rw [hdid.session, hdid.database]
  constructor
  · intro hconsistent hfolder
    refine ⟨?_, ?_⟩
    · intro _ login' hlogin'
      rw [hlogin] at hlogin'
      cases hlogin'
      exact hconsistent hfolder
    · intro hpass
      rw [hcommand] at hpass
      cases hpass
  · intro hkeeps hfolder
    exact (hkeeps hfolder).user hcommand login hlogin

/-- Behind a PASS that matched nothing, `m_user` has a password that its login has not. -/
theorem pass_consistent_iff (hkeyed : th.process.database.Keyed)
    (hcommand : c.input.command = .pass) (h : call th c = .ok th') :
    Consistent th' ↔ (th.session.user.folder ≠ [] → KeepsIdentity th c) := by
  have hpass := h
  rw [call_pass hcommand] at hpass
  rcases commandPass_did hpass with ⟨password, _, hpassword, _, hcases⟩
  have hkeeps : KeepsIdentity th c ↔
      (th.process.database.matching th.session.user.login password).isSome = true := by
    constructor
    · intro hkeeps
      exact hkeeps.pass hcommand password hpassword
    · intro hmatch
      refine ⟨?_, ?_⟩
      · intro huser
        rw [hcommand] at huser
        cases huser
      · intro _ password' hpassword'
        rw [hpassword] at hpassword'
        cases hpassword'
        exact hmatch
  rw [hkeeps]
  unfold Consistent
  rcases hcases with ⟨entry, hmatch, hdid⟩ | ⟨hmatch, hdid⟩
  · rw [hdid.session, hdid.database, hmatch]
    apply iff_of_true
    · intro _
      exact ⟨_, (FtpUserDatabase.matching_eq_some hmatch).1⟩
    · intro _
      rfl
  · rw [hdid.session, hdid.database, hmatch]
    have hwrong : ¬ ∃ key,
        th.process.database key = some (th.session.user.setPassword password) := by
      rintro ⟨key, hentry⟩
      obtain rfl := hkeyed key (th.session.user.setPassword password) hentry
      have hright : (th.process.database.matching th.session.user.login password).isSome = true :=
        (FtpUserDatabase.matching_isSome_iff _ _ _).mpr ⟨_, hentry, rfl⟩
      rw [hmatch] at hright
      cases hright
    constructor
    · intro hconsistent hfolder
      exact absurd (hconsistent hfolder) hwrong
    · intro hnot hfolder
      exact absurd (hnot hfolder) (by simp)

theorem consistent_step_iff (hkeyed : th.process.database.Keyed) (hth : Consistent th)
    (h : call th c = .ok th') :
    Consistent th' ↔ (th.session.user.folder ≠ [] → KeepsIdentity th c) := by
  by_cases huser : c.input.command = .user
  · exact user_consistent_iff huser h
  · by_cases hpass : c.input.command = .pass
    · exact pass_consistent_iff hkeyed hpass h
    · apply iff_of_true
      · unfold Consistent
        rw [call_database h, (processCommand_members h).user (by simp [huser, hpass])]
        exact hth
      · intro _
        refine ⟨?_, ?_⟩
        · intro hcommand
          exact absurd hcommand huser
        · intro hcommand
          exact absurd hcommand hpass

/-- **The identity of a session.**  With users that were added and erased in any way before
    the session, `m_user` is an entry of the database in every state in which it has a
    folder, exactly when every USER and PASS that finds such a state keeps the
    identity. -/
theorem identity_iff (opens : Bool) (id : Nat) (connection : TcpTransport) (garbage : Uninitialised)
    (p : Process) (updates : List FtpUserDatabase.Update) (calls : List Call) :
    let fresh := construct opens id connection garbage
      { p with database := FtpUserDatabase.initial.applyAll updates }
    EveryState call Consistent fresh calls ↔
      EveryStep call (fun th c _ => th.session.user.folder ≠ [] → KeepsIdentity th c) fresh
        calls := by
  intro fresh
  apply everyState_iff_everyStep fun th => th.process.database.Keyed
  · intro mid c next hkeyed hcall
    exact keyed_call hkeyed hcall
  · intro mid c next hkeyed hmid hcall
    exact consistent_step_iff hkeyed hmid hcall
  · exact keyed_construct opens id connection garbage
      (FtpUserDatabase.keyed_initial.applyAll updates)
  · intro hfolder
    exact absurd rfl hfolder

def relogin : List Call :=
  [⟨.plain, ⟨.user, [ascii "admin"]⟩⟩, ⟨.plain, ⟨.pass, [ascii "admin"]⟩⟩,
    ⟨.plain, ⟨.user, [ascii "annoviko"]⟩⟩]

/-- Behind a login as `admin`, a USER makes `annoviko` of it with the password and the folder
    of `admin`. -/
theorem relogin_mixes_users :
    ¬ EveryState call Consistent (first .bare ⟨0, 0, .clear⟩) relogin := by
  intro h
  obtain ⟨th, hrun, hmixed⟩ := exists_of_reaches (first .bare ⟨0, 0, .clear⟩) relogin
    (fun th => th.session.user == ⟨ascii "annoviko", ascii "admin", ascii "/home/"⟩)
    (show reaches call _ _ _ = true by decide)
  have hdatabase : th.process.database = FtpUserDatabase.initial := by
    have hstep : ∀ mid c next, mid.process.database = FtpUserDatabase.initial →
        call mid c = .ok next → next.process.database = FtpUserDatabase.initial := by
      intro mid c next hmid hcall
      rw [call_database hcall, hmid]
    exact run_invariant hstep rfl hrun
  have hconsistent := h relogin th (List.prefix_refl relogin) hrun
  unfold Consistent at hconsistent
  rw [eq_of_beq hmixed, hdatabase] at hconsistent
  rcases hconsistent (by decide) with ⟨key, hentry⟩
  obtain rfl : ascii "annoviko" = key := FtpUserDatabase.keyed_initial _ _ hentry
  revert hentry
  decide

end FtpSession

end FtpsServer
