import FtpsServer.ControlProtection

/-!
# NULL sessions in the hands of gnutls

`push` and `pull` hand gnutls whatever session a secure transport has.  The control
channel of a session always has one behind its flag.  So a handler hands gnutls NULL
only where it uses the data channel: in LIST and in STOR.
-/

namespace FtpsServer

open ByteString Cxx Machine

/-! ## 1. Computations that hand over no NULL session -/

theorem TcpTransport.via_null_iff {t : TcpTransport} : t.via = .error .nullSession ↔ ¬ t.Live := by
  constructor
  · intro h hlive
    rcases hlive.exists_via with ⟨via, hvia⟩
    rw [h] at hvia
    cases hvia
  · intro h
    unfold TcpTransport.Live at h
    push Not at h
    rcases h with ⟨hsecure, hnone⟩
    unfold TcpTransport.via
    rw [if_pos hsecure, Option.eq_none_iff_forall_ne_some.mpr hnone]

theorem TcpTransport.live_of_via {t : TcpTransport} {via : Via} (h : t.via = .ok via) : t.Live := by
  by_contra hnull
  rw [via_null_iff.mpr hnull] at h
  cases h

/-- The computation hands gnutls no NULL session, and the thread it ends in has the
    control channel `channel`. -/
structure Guarded (channel : TcpTransport) (x : Except Abort Thread) : Prop where
  ne : x ≠ .error .nullSession
  keeps : ∀ th', x = .ok th' → th'.session.controlChannel = channel

section Guarded

variable {channel : TcpTransport} {th : Thread} {x y : Except Abort Thread}

theorem guarded_ok (h : th.session.controlChannel = channel) : Guarded channel (.ok th) where
  ne h := nomatch h
  keeps := ensures_ok h

theorem guarded_bind {f : Thread → Except Abort Thread} (hx : Guarded channel x)
    (hf : ∀ th, th.session.controlChannel = channel → Guarded channel (f th)) :
    Guarded channel (x >>= f) := by
  constructor
  · intro h
    rcases bind_error_iff.mp h with hfirst | ⟨th, hth, hlast⟩
    · exact hx.ne hfirst
    · exact (hf th (hx.keeps th hth)).ne hlast
  · exact ensures_bind hx.keeps fun th h => (hf th h).keeps

/-- An exception is no NULL session. -/
theorem guarded_raising {α : Type} {x : Except StdException α} {f : α → Except Abort Thread}
    (hf : ∀ a, Guarded channel (f a)) : Guarded channel (raising x >>= f) := by
  cases x with
  | ok a => exact hf a
  | error e => exact ⟨by simp, by simp⟩

theorem guarded_ite {c : Prop} [Decidable c] (hx : Guarded channel x) (hy : Guarded channel y) :
    Guarded channel (if c then x else y) := by
  split
  · exact hx
  · exact hy

theorem guarded_reply (hlive : channel.Live) (h : th.session.controlChannel = channel)
    (env : Environment) (message : Bytes) : Guarded channel (th.reply env message) := by
  rcases hlive.exists_via with ⟨via, hvia⟩
  rw [reply_ok.mpr ⟨via, by rw [h]; exact hvia, rfl⟩]
  exact guarded_ok h

theorem guarded_replyWhen (hlive : channel.Live) (h : th.session.controlChannel = channel)
    (env : Environment) (condition : Bool) (message : Bytes) :
    Guarded channel (th.replyWhen env condition message) :=
  guarded_ite (guarded_reply hlive h env message) (guarded_ok h)

end Guarded

/-! ## 2. The handlers -/

namespace FtpSession

variable {env : Environment} {input : FtpCommand} {th : Thread}

theorem secureData_guarded {channel : TcpTransport} (h : th.session.controlChannel = channel) :
    Guarded channel (secureData env th) := by
  refine guarded_ite ?_ (guarded_ok h)
  rcases TcpTransport.setTls_ok env (.data th.session.id) th.session.dataChannel th.process with
    ⟨_, _, _, heq, -, -⟩
  rw [heq]
  exact guarded_ok h

section Replying

variable (hlive : th.session.controlChannel.Live)

include hlive

theorem commandUser_guarded : Guarded th.session.controlChannel (commandUser env input th) :=
  guarded_raising fun _ => guarded_bind (guarded_replyWhen hlive rfl ..) fun _ h =>
    guarded_reply hlive (by exact h) ..

theorem commandPass_guarded : Guarded th.session.controlChannel (commandPass env input th) := by
  refine guarded_raising fun _ => guarded_bind (guarded_replyWhen hlive rfl ..) fun _ h => ?_
  refine guarded_ite (guarded_bind (guarded_reply hlive (by exact h) ..) fun _ h' => guarded_ok (by exact h')) ?_
  exact guarded_reply hlive (by exact h) ..

theorem commandPort_guarded : Guarded th.session.controlChannel (commandPort env input th) := by
  refine guarded_raising fun _ => guarded_raising fun _ => guarded_ite (guarded_reply hlive (by exact rfl) ..) ?_
  exact guarded_bind (guarded_reply hlive (by exact rfl) ..) fun _ h => guarded_reply hlive (by exact h) ..

theorem commandCwd_guarded : Guarded th.session.controlChannel (commandCwd env input th) :=
  guarded_raising fun _ => guarded_raising fun _ =>
    guarded_ite (guarded_reply hlive (by exact rfl) ..) (guarded_reply hlive (by exact rfl) ..)

theorem commandType_guarded : Guarded th.session.controlChannel (commandType env input th) :=
  guarded_raising fun _ => guarded_ite (guarded_reply hlive (by exact rfl) ..)
    (guarded_ite (guarded_reply hlive (by exact rfl) ..) (guarded_reply hlive (by exact rfl) ..))

/-- The channel is another one after AUTH TLS. -/
theorem commandAuth_ne_null : commandAuth env input th ≠ .error .nullSession := by
  unfold commandAuth
  intro h
  rcases bind_error_iff.mp h with hargument | ⟨service, -, h⟩
  · cases hservice : input.getArgument 0 <;> simp [hservice] at hargument
  · split at h
    · exact (guarded_reply hlive (by exact rfl) ..).ne h
    · rcases bind_error_iff.mp h with hreply | ⟨th₁, -, h⟩
      · exact (guarded_reply hlive (by exact rfl) ..).ne hreply
      · rcases TcpTransport.setTls_ok env (.control th₁.session.id) th₁.session.controlChannel
          th₁.process with ⟨_, _, _, heq, -, -⟩
        rw [heq] at h
        cases h

theorem commandPasv_guarded : Guarded th.session.controlChannel (commandPasv env input th) := by
  unfold commandPasv
  dsimp only
  refine guarded_ite (guarded_bind (guarded_reply hlive (by exact rfl) ..) fun _ h => guarded_ok (by exact h)) ?_
  refine guarded_bind (guarded_reply hlive (by exact rfl) ..) fun th₁ h => ?_
  exact guarded_bind (secureData_guarded (by exact h)) fun _ h' => guarded_ok (by exact h')

theorem commandDele_guarded : Guarded th.session.controlChannel (commandDele env input th) :=
  guarded_raising fun _ => guarded_ite (guarded_reply hlive (by exact rfl) ..) (guarded_reply hlive (by exact rfl) ..)

theorem commandRnfr_guarded : Guarded th.session.controlChannel (commandRnfr env input th) :=
  guarded_raising fun _ => guarded_bind (guarded_reply hlive (by exact rfl) ..) fun _ h => guarded_ok (by exact h)

theorem commandRnto_guarded : Guarded th.session.controlChannel (commandRnto env input th) :=
  guarded_raising fun _ => guarded_ite (guarded_reply hlive (by exact rfl) ..)
    (guarded_ite (guarded_reply hlive (by exact rfl) ..) (guarded_reply hlive (by exact rfl) ..))

/-- LIST pushes on the data channel. -/
theorem commandList_null_iff :
    commandList env input th = .error .nullSession ↔ ¬ th.session.dataChannel.Live := by
  rcases hlive.exists_via with ⟨via, hvia⟩
  rw [← TcpTransport.via_null_iff]
  unfold commandList
  dsimp only
  rw [reply_ok.mpr ⟨via, hvia, rfl⟩, ok_bind]
  cases hdata : th.session.dataChannel.via with
  | error e =>
    unfold Thread.dataPush TcpTransport.push
    dsimp only
    rw [hdata]
    simp
  | ok dataVia =>
    rw [dataPush_ok.mpr ⟨dataVia, by exact hdata, rfl⟩, ok_bind]
    dsimp only
    rw [reply_ok.mpr ⟨via, by exact hvia, rfl⟩]
    simp

/-- STOR pulls from the data channel, if it has an argument. -/
theorem commandStor_null_iff :
    commandStor env input th = .error .nullSession ↔
      (∃ fileName, input.getArgument 0 = .ok fileName) ∧ ¬ th.session.dataChannel.Live := by
  rcases hlive.exists_via with ⟨via, hvia⟩
  cases hname : input.getArgument 0 with
  | error e =>
    unfold commandStor
    simp [hname]
  | ok fileName =>
    by_cases hdata : th.session.dataChannel.Live
    · rcases hdata.exists_via with ⟨dataVia, hdataVia⟩
      rcases commandStor_returns env hname hvia hdataVia with ⟨th', h⟩
      rw [h]
      simp [hdata]
    · refine iff_of_true ?_ ⟨⟨fileName, rfl⟩, hdata⟩
      have hopened := (openTransfer_did (th.session.folder ++ fileName) th).2.session
      unfold commandStor
      rw [hname, raising_ok, ok_bind]
      dsimp only
      rw [reply_eq _ (by rw [hopened]; exact hvia), ok_bind]
      rw [receiveFile_error (e := .nullSession) ?_, error_bind]
      dsimp only
      rw [hopened]
      exact TcpTransport.via_null_iff.mpr hdata

end Replying

end FtpSession

/-! ## 3. Calls -/

/-- The command comes to the data channel. -/
def FtpCommand.UsesData (input : FtpCommand) : Prop :=
  input.command = .list ∨ input.command = .stor ∧ ∃ fileName, input.getArgument 0 = .ok fileName

namespace FtpSession

/-- **A call hands gnutls a NULL session** exactly when it uses a data channel whose flag
    is up with no session behind it. -/
theorem call_null_iff {th : Thread} {c : Call} (hlive : th.session.controlChannel.Live) :
    call th c = .error .nullSession ↔ c.input.UsesData ∧ ¬ th.session.dataChannel.Live := by
  have hother : c.input.command ∉ [.list, .stor] →
      processCommand c.env c.input th ≠ .error .nullSession →
        (call th c = .error .nullSession ↔ c.input.UsesData ∧ ¬ th.session.dataChannel.Live) := by
    intro hcommand hne
    refine iff_of_false hne ?_
    rintro ⟨hlist | ⟨hstor, -⟩, -⟩
    · simp [hlist] at hcommand
    · simp [hstor] at hcommand
  have hreply : ∀ message, th.reply c.env message ≠ .error .nullSession :=
    fun message => (guarded_reply hlive (by exact rfl) ..).ne
  unfold processCommand at hother
  cases hcommand : c.input.command <;> rw [hcommand] at hother <;> dsimp only at hother
  case user => exact hother (by simp) (commandUser_guarded hlive).ne
  case pass => exact hother (by simp) (commandPass_guarded hlive).ne
  case port => exact hother (by simp) (commandPort_guarded hlive).ne
  case cwd => exact hother (by simp) (commandCwd_guarded hlive).ne
  case type => exact hother (by simp) (commandType_guarded hlive).ne
  case auth => exact hother (by simp) (commandAuth_ne_null hlive)
  case pasv => exact hother (by simp) (commandPasv_guarded hlive).ne
  case dele => exact hother (by simp) (commandDele_guarded hlive).ne
  case rnfr => exact hother (by simp) (commandRnfr_guarded hlive).ne
  case rnto => exact hother (by simp) (commandRnto_guarded hlive).ne
  case pbsz => exact hother (by simp) (guarded_raising fun _ => guarded_reply hlive (by exact rfl) ..).ne
  case prot => exact hother (by simp) (guarded_raising fun _ => guarded_reply hlive (by exact rfl) ..).ne
  case allo => exact hother (by simp) (guarded_raising fun _ => guarded_reply hlive (by exact rfl) ..).ne
  case quit => exact hother (by simp) (guarded_ok rfl).ne
  case list =>
    rw [call_list hcommand, commandList_null_iff hlive]
    simp [FtpCommand.UsesData, hcommand]
  case stor =>
    rw [call_stor hcommand, commandStor_null_iff hlive]
    simp [FtpCommand.UsesData, hcommand]
  all_goals exact hother (by simp) (hreply _)

theorem call_live {th th' : Thread} {c : Call} (hlive : th.session.controlChannel.Live)
    (h : call th c = .ok th') : th'.session.controlChannel.Live := (controlChannel_secure h).2.2 hlive

end FtpSession

end FtpsServer
