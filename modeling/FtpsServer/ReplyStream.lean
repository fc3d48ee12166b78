import FtpsServer.Lockout
import FtpsServer.PassiveAddress
import FtpsServer.Lib.Lines

/-!
# The stream of replies

A client gets one stream of bytes and cuts it behind each CRLF.  Nearly all replies
are fixed texts.  The two that matter are the 257, which has the working folder in it,
and the 500 of a PASV for which no port could be bound, which has no CRLF.
-/

namespace FtpsServer

open ByteString Cxx Machine Lines

/-! ## 1. Messages -/

def END_OF_LINE : Mark UInt8 := ⟨13, 10, by decide⟩

/-- The message starts with three digits and a blank. -/
def isCoded : Bytes → Bool
  | first :: second :: third :: b :: _ => isDigit first && isDigit second && isDigit third && b == 32
  | _ => false

/-- The stream of the messages, cut behind each CRLF, is the messages, and each of them has
    its code. -/
def Decodes (messages : List Bytes) : Prop :=
  END_OF_LINE.cut messages.flatten = (messages, []) ∧ ∀ message ∈ messages, isCoded message = true

/-- One CRLF, at the end, and a code in front. -/
def WellFormed (message : Bytes) : Prop := END_OF_LINE.IsLine message ∧ isCoded message = true

instance (message : Bytes) : Decidable (WellFormed message) := by
  unfold WellFormed; infer_instance

theorem decodes_iff {messages : List Bytes} :
    Decodes messages ↔ ∀ message ∈ messages, WellFormed message := by
  unfold Decodes WellFormed
  rw [Mark.cut_flatten_iff, ← forall₂_and]

theorem decodes_append {front back : List Bytes} :
    Decodes (front ++ back) ↔ Decodes front ∧ Decodes back := by
  simp only [decodes_iff, List.forall_mem_append]

theorem decodes_nil : Decodes [] := decodes_iff.mpr (List.forall_mem_nil _)

/-- The working folder stands between the code and the CRLF. -/
theorem wellFormed_pwd_iff (folder : Bytes) :
    WellFormed (ascii "257 " ++ folder ++ ascii "\r\n") ↔ ¬ END_OF_LINE.symbols <:+: folder := by
  have hcoded : isCoded (ascii "257 " ++ folder ++ ascii "\r\n") = true := rfl
  unfold WellFormed
  rw [and_iff_left hcoded, show ascii "\r\n" = END_OF_LINE.symbols from by decide,
    Mark.isLine_append_iff, Mark.infix_append_iff (by decide)]

theorem cr_not_mem_stdToString (n : Int) : (13 : UInt8) ∉ stdToString n :=
  not_mem_stdToString (by decide) (by decide) n

theorem wellFormed_passiveReply {address : Bytes} (h : (13 : UInt8) ∉ address) (port : Int) :
    WellFormed (FtpSession.passiveReply address port) := by
  have hformatted : (13 : UInt8) ∉ address.map fun b => if b = DOT then COMMA else b := by
    intro hmem
    rcases List.mem_map.mp hmem with ⟨b, hb, heq⟩
    split at heq
    · cases heq
    · exact h (heq ▸ hb)
  refine ⟨?_, rfl⟩
  unfold FtpSession.passiveReply
  dsimp only
  rw [show ascii ")\r\n" = ascii ")" ++ END_OF_LINE.symbols from by decide, ← List.append_assoc,
    Mark.isLine_append_iff]
  apply Mark.not_infix_of_not_mem
  simp only [List.mem_append, not_or]
  exact ⟨⟨⟨⟨⟨⟨by decide, hformatted⟩, by decide⟩, cr_not_mem_stdToString _⟩, by decide⟩,
    cr_not_mem_stdToString _⟩, by decide⟩

theorem failure_not_wellFormed : ¬ WellFormed (ascii "500 PASV command if failure") := by
  decide +kernel

/-! ## 2. One call -/

namespace FtpSession

/-- The reply to this command ends where it should: the folder that PWD answers with has no
    CRLF in it, and PASV finds a port. -/
def Terminates (session : FtpSession) (c : Call) : Prop :=
  (c.input.command = .pwd → ¬ END_OF_LINE.symbols <:+: session.folder) ∧
    (c.input.command = .pasv → BindsWithin c.env 0 20)

theorem says_wellFormed {th : Thread} {c : Call} {messages : List Bytes} (h : Says th c messages)
    (hpwd : c.input.command ≠ .pwd) (hpasv : c.input.command ≠ .pasv) :
    ∀ message ∈ messages, WellFormed message := by
  unfold Says at h
  cases hcommand : c.input.command <;> rw [hcommand] at h hpwd hpasv <;> dsimp only at h
  case user =>
    subst h
    split <;> decide +kernel
  case pass =>
    rcases h with ⟨last, rfl | rfl, rfl⟩ <;> split <;> decide +kernel
  case pwd => exact absurd rfl hpwd
  case port =>
    subst h
    split <;> decide +kernel
  case auth => rcases h with ⟨-, rfl⟩ | ⟨-, rfl⟩ <;> decide +kernel
  case pasv => exact absurd rfl hpasv
  case rnto => rcases h with rfl | rfl | rfl <;> decide +kernel
  case cwd | type | dele | rnfr => rcases h with rfl | rfl <;> decide +kernel
  all_goals
    subst h
    decide +kernel

variable {th th' : Thread} {c : Call}

/-- **What a call replies can be decoded** exactly when it `Terminates`. -/
theorem call_decodes_iff (haddress : (13 : UInt8) ∉ th.session.controlChannel.address)
    (h : call th c = .ok th') :
    ∃ new, Replied th th' new ∧ (Decodes new ↔ Terminates th.session c) := by
  rcases processCommand_says h with ⟨messages, hspeaks, hanswer⟩
  by_cases hpasv : c.input.command = .pasv
  · rw [call_pasv hpasv] at h
    have hfree : Terminates th.session c ↔ BindsWithin c.env 0 20 := by
      simp [Terminates, hpasv]
    rw [hfree]
    rcases pasv_says h with ⟨hbinds, hreplied⟩ | ⟨n, hn, hfirst, hreplied, -⟩
    · refine ⟨_, hreplied, iff_of_false ?_ hbinds⟩
      rw [decodes_iff, List.forall_mem_singleton]
      exact failure_not_wellFormed
    · refine ⟨_, hreplied, iff_of_true ?_ ⟨n, hn, hfirst.1⟩⟩
      rw [decodes_iff, List.forall_mem_singleton]
      exact wellFormed_passiveReply haddress _
  · refine ⟨messages, hspeaks.replied, ?_⟩
    by_cases hpwd : c.input.command = .pwd
    · have hfolder : Terminates th.session c ↔ ¬ END_OF_LINE.symbols <:+: th.session.folder := by
        simp [Terminates, hpwd]
      unfold Says at hanswer
      rw [hpwd] at hanswer
      dsimp only at hanswer
      rw [hanswer, decodes_iff, List.forall_mem_singleton, wellFormed_pwd_iff, hfolder]
    · refine iff_of_true (decodes_iff.mpr (says_wellFormed hanswer hpwd hpasv)) ?_
      exact ⟨fun hcommand => absurd hcommand hpwd, fun hcommand => absurd hcommand hpasv⟩

/-- `set_tls` does not touch the address of the connection. -/
theorem call_address (h : call th c = .ok th') :
    th'.session.controlChannel.address = th.session.controlChannel.address := by
  rcases processCommand_controlChannel h with hsame | hbound
  · rw [hsame]
  · exact hbound.address

end FtpSession

/-! ## 3. A session thread among others -/

/-- A turn of the thread, or other threads at work: they change the process in any way and
    log whatever they do, nothing of it on the control channel of this session. -/
inductive ThreadAction where
  | turn (t : Turn)
  | elsewhere (p : Process)

namespace SessionThread

def act (s : SessionThread) : ThreadAction → Except Abort SessionThread
  | .turn t => s.step t
  | .elsewhere p =>
    let others := p.trace.filter fun e => !e.onControl s.thread.session.id
    .ok { s with thread := { s.thread with
      process := { p with trace := s.thread.process.trace ++ others } } }

/-- What the session has replied since it was `fresh` can be decoded. -/
def StreamDecodes (fresh : Thread) (s : SessionThread) : Prop :=
  ∃ new, Replied fresh s.thread new ∧ Decodes new

/-- The command that the turn brings, if it is processed, is answered with a reply that ends
    where it should. -/
def TurnTerminates (s : SessionThread) (a : ThreadAction) (_ : SessionThread) : Prop :=
  ∀ t input, a = .turn t → s.thread.session.state ≠ .terminated →
    command s.buffer t.message t.behind = .ok input →
      FtpSession.Terminates s.thread.session ⟨t.env, input⟩

variable {s s' : SessionThread} {a : ThreadAction}

theorem replies_elsewhere (id : Nat) (events : List Event) :
    replies id (events.filter fun e => !e.onControl id) = [] := by
  rw [replies, List.filterMap_eq_nil_iff]
  intro e he
  have hother := (List.mem_filter.mp he).2
  cases e with
  | push object via message accepted =>
    cases object <;> first | rfl | simpa [replyOf, Event.onControl] using hother
  | _ => rfl

/-- What one action adds to the stream. -/
theorem act_decodes_iff (haddress : (13 : UInt8) ∉ s.thread.session.controlChannel.address)
    (h : s.act a = .ok s') :
    s'.thread.session.id = s.thread.session.id ∧
      s'.thread.session.controlChannel.address = s.thread.session.controlChannel.address ∧
      ∃ new, Replied s.thread s'.thread new ∧ (Decodes new ↔ TurnTerminates s a s') := by
  cases a with
  | elsewhere p =>
    cases h
    refine ⟨rfl, rfl, [], ?_, iff_of_true decodes_nil ?_⟩
    · simp [Replied, replies_elsewhere]
    · rintro t input ⟨⟩
  | turn t =>
    unfold act step at h
    dsimp only at h
    split at h
    · next hended =>
      cases h
      refine ⟨rfl, rfl, [], by simp [Replied], iff_of_true decodes_nil ?_⟩
      rintro t' input - hgoes
      exact absurd hended hgoes
    · next hgoes =>
      rcases handle_call h with ⟨input, th₁, hinput, hsession, -, hsilent, hcall⟩
      rcases FtpSession.call_decodes_iff (by rw [hsession]; exact haddress) hcall with
        ⟨new, hnew, hiff⟩
      rw [hsession] at hiff
      refine ⟨?_, ?_, new, ?_, hiff.trans ?_⟩
      · rw [FtpSession.call_id hcall, hsession]
      · rw [FtpSession.call_address hcall, hsession]
      · exact FtpSession.replied_trans hsilent (by rw [hsession]) hnew
      · constructor
        · rintro hterminates t' input' ⟨⟩ - hinput'
          rw [hinput] at hinput'
          cases hinput'
          exact hterminates
        · intro hterminates
          exact hterminates t input rfl hgoes hinput

/-- The session of `fresh`, over a connection whose address has no CR. -/
structure Connected (fresh : Thread) (s : SessionThread) : Prop where
  id : s.thread.session.id = fresh.session.id
  address : (13 : UInt8) ∉ s.thread.session.controlChannel.address

theorem act_connected {fresh : Thread} (hs : Connected fresh s) (h : s.act a = .ok s') :
    Connected fresh s' := by
  rcases act_decodes_iff hs.address h with ⟨hid, haddress, -⟩
  exact ⟨hid.trans hs.id, by rw [haddress]; exact hs.address⟩

theorem streamDecodes_act_iff {fresh : Thread} (hs : Connected fresh s)
    (hdecodes : StreamDecodes fresh s) (h : s.act a = .ok s') :
    StreamDecodes fresh s' ↔ TurnTerminates s a s' := by
  rcases hdecodes with ⟨front, hfront, hdecodes⟩
  rcases act_decodes_iff hs.address h with ⟨-, -, new, hnew, hiff⟩
  have hreplied := FtpSession.replied_trans hfront hs.id hnew
  rw [← hiff]
  constructor
  · rintro ⟨whole, hwhole, hall⟩
    rw [hwhole.unique hreplied, decodes_append] at hall
    exact hall.2
  · intro hlast
    exact ⟨_, hreplied, decodes_append.mpr ⟨hdecodes, hlast⟩⟩

theorem cr_not_mem_dotted (a : Ipv4Address) : (13 : UInt8) ∉ a.dotted := by
  have hnumber : ∀ n, (13 : UInt8) ∉ decimal n := fun n => not_mem_decimal (by decide) n
  simp only [Ipv4Address.dotted, Ipv4Address.joined, List.mem_append, List.mem_cons, not_or]
  exact ⟨hnumber _, by decide, hnumber _, by decide, hnumber _, by decide, hnumber _⟩

/-- **The reply stream.**  In every state of a session thread, whatever the other threads do,
    cutting what it has replied behind each CRLF gives its replies, exactly when no PWD comes
    with a CRLF in `m_folder` and every PASV finds a port. -/
theorem reply_stream_iff (opens : Bool) (id : Nat) (descriptor : Int)
    (address : Option Ipv4Address) (port : Int) (garbage : Uninitialised) (p : Process)
    (env : Environment) (buffer : MessageBuffer) (actions : List ThreadAction) :
    let connection : TcpTransport :=
      ⟨descriptor, .null, false, (address.map Ipv4Address.dotted).getD [], port⟩
    let fresh := FtpSession.construct opens id connection garbage p
    ∃ th, start env fresh = .ok th ∧
      (EveryState act (StreamDecodes fresh) ⟨th, buffer⟩ actions ↔
        EveryStep act TurnTerminates ⟨th, buffer⟩ actions) := by
  intro connection fresh
  have hstart : start env fresh = .ok _ := reply_ok.mpr ⟨.plain descriptor, rfl, rfl⟩
  rcases start_replied hstart with ⟨hsession, hgreeting⟩
  refine ⟨_, hstart, everyState_iff_everyStep (Connected fresh) ?_ ?_ ?_ ?_ actions⟩
  · exact fun _ _ _ hs h => act_connected hs h
  · exact fun _ _ _ hs hdecodes h => streamDecodes_act_iff hs hdecodes h
  · refine ⟨by rw [hsession], ?_⟩
    rw [hsession]
    show (13 : UInt8) ∉ (address.map Ipv4Address.dotted).getD []
    cases address with
    | none => simp
    | some a => exact cr_not_mem_dotted a
  · exact ⟨_, hgreeting, decodes_iff.mpr (by decide +kernel)⟩

/-- A PASV for which no bind succeeds. -/
def deafPasv : Turn :=
  lineTurn { Environment.plain with bind := fun _ => false, bind_socket := nofun } "PASV\r\n"
    (by decide)

theorem pwd_fits : ascii "PWD\r\n" ≠ [] ∧ (ascii "PWD\r\n").length ≤ 2000 := by decide

def deafPasvPwd : List ThreadAction := [.turn deafPasv, .turn (lineTurn .plain "PWD\r\n" pwd_fits)]

/-- The 500 of the PASV and the 257 of the PWD come as one line. -/
theorem failed_pasv_merges :
    ∃ th, start .plain (FtpSession.first .bare ⟨0, 0, .clear⟩) = .ok th ∧
      ¬ EveryState act (StreamDecodes (FtpSession.first .bare ⟨0, 0, .clear⟩)) ⟨th, .zero⟩
        deafPasvPwd := by
  obtain ⟨th, hstart⟩ : ∃ th, start .plain (FtpSession.first .bare ⟨0, 0, .clear⟩) = .ok th :=
    ⟨_, rfl⟩
  refine ⟨th, hstart, fun h => ?_⟩
  obtain ⟨mid, hrun, -⟩ := exists_of_reaches ⟨th, .zero⟩ (deafPasvPwd.take 1) (fun _ => true)
    (show reaches act _ _ _ = true by cases hstart; decide +kernel)
  rcases run_cons_ok.mp hrun with ⟨next, hnext, hend⟩
  cases hend
  rcases start_replied hstart with ⟨hsession, hgreeting⟩
  have hconnected : Connected (FtpSession.first .bare ⟨0, 0, .clear⟩) ⟨th, .zero⟩ :=
    ⟨by rw [hsession], by rw [hsession]; decide⟩
  have hgreeted : StreamDecodes (FtpSession.first .bare ⟨0, 0, .clear⟩) ⟨th, .zero⟩ :=
    ⟨_, hgreeting, decodes_iff.mpr (by decide +kernel)⟩
  have hdecodes := h (deafPasvPwd.take 1) mid (List.take_prefix 1 deafPasvPwd) hrun
  have hterminates := (streamDecodes_act_iff hconnected hgreeted hnext).mp hdecodes
  have hcommand : command .zero deafPasv.message deafPasv.behind = .ok ⟨.pasv, []⟩ := by
    decide +kernel
  exact absurd ((hterminates _ _ rfl (by rw [hsession]; decide) hcommand).2 rfl) (by decide)

end SessionThread

end FtpsServer
