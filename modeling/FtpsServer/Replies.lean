import FtpsServer.SessionThread

/-!
# The replies of a session

What a client reads on the control channel: the texts the session pushes, in order.
A client that counts expects one completion reply for every command, behind at most
one preliminary reply.
-/

namespace FtpsServer

open ByteString Cxx Machine

/-! ## 1. Reply codes -/

/-- The text of a push on the control channel of session `id`. -/
def replyOf (id : Nat) : Event → Option Bytes
  | .push (.control session) _ message _ => if session = id then some message else none
  | _ => none

/-- The texts that session `id` pushed on its control channel. -/
def replies (id : Nat) (events : List Event) : List Bytes := events.filterMap (replyOf id)

/-- The three digits a reply begins with. -/
def replyCode (message : Bytes) : Nat := digitsValue (message.take 3)

/-- The code of a reply is in the first three characters of its text. -/
theorem replyCode_ascii (first second third : Char) (text : List Char) :
    replyCode (ascii (String.ofList (first :: second :: third :: text))) =
      digitsValue [first.toNat.toUInt8, second.toNat.toUInt8, third.toNat.toUInt8] := by
  simp [replyCode, ascii]

theorem replyCode_mem {first second third : Char} {text : List Char} {codes : List Nat}
    (h : digitsValue [first.toNat.toUInt8, second.toNat.toUInt8, third.toNat.toUInt8] ∈ codes) :
    replyCode (ascii (String.ofList (first :: second :: third :: text))) ∈ codes := by
  rwa [replyCode_ascii]

def isPreliminary (message : Bytes) : Bool := 100 ≤ replyCode message && replyCode message < 200

def isCompletion (message : Bytes) : Bool := 200 ≤ replyCode message && replyCode message < 600

theorem isCompletion_iff (message : Bytes) :
    isCompletion message = true ↔ 200 ≤ replyCode message ∧ replyCode message < 600 := by
  simp [isCompletion]

theorem isPreliminary_iff (message : Bytes) :
    isPreliminary message = true ↔ 100 ≤ replyCode message ∧ replyCode message < 200 := by
  simp [isPreliminary]

theorem not_completion_of_preliminary {message : Bytes} (h : isPreliminary message = true) :
    isCompletion message ≠ true := by
  rw [isPreliminary_iff] at h
  rw [Ne, isCompletion_iff]
  omega

/-- **One completion reply**, behind at most one preliminary one. -/
def OneCompletion (messages : List Bytes) : Prop :=
  ∃ front completion, messages = front ++ [completion] ∧ isCompletion completion = true ∧
    front.length ≤ 1 ∧ ∀ message ∈ front, isPreliminary message = true

@[simp] theorem not_oneCompletion_nil : ¬ OneCompletion [] := by
  rintro ⟨front, completion, heq, -⟩
  simp at heq

/-- Where every reply is a completion there is one exactly when it stands alone. -/
theorem oneCompletion_iff_length {messages : List Bytes}
    (h : ∀ message ∈ messages, isCompletion message = true) :
    OneCompletion messages ↔ messages.length = 1 := by
  constructor
  · rintro ⟨front, completion, rfl, -, -, hfront⟩
    cases front with
    | nil => rfl
    | cons message front =>
      exact absurd (h message (by simp)) (not_completion_of_preliminary (hfront message (by simp)))
  · intro hlength
    obtain ⟨message, rfl⟩ := List.length_eq_one_iff.mp hlength
    exact ⟨[], message, rfl, h message (by simp), by simp, by simp⟩

@[simp] theorem oneCompletion_pair (first second : Bytes) :
    OneCompletion [first, second] ↔ isPreliminary first = true ∧ isCompletion second = true := by
  constructor
  · rintro ⟨front, completion, heq, hcompletion, hlength, hfront⟩
    obtain ⟨rfl, hlast⟩ := List.append_inj' (show [first] ++ [second] = front ++ [completion] from heq) rfl
    obtain rfl : second = completion := by simpa using hlast
    exact ⟨hfront first (by simp), hcompletion⟩
  · rintro ⟨hfirst, hsecond⟩
    exact ⟨[first], second, rfl, hsecond, by simp, by simpa using hfirst⟩

@[simp] theorem replies_nil (id : Nat) : replies id [] = [] := rfl

@[simp] theorem replies_append (id : Nat) (front back : List Event) :
    replies id (front ++ back) = replies id front ++ replies id back := List.filterMap_append

theorem replies_traffic (id : Nat) (events : List Event) :
    replies id (traffic events) = replies id events := by
  induction events with
  | nil => rfl
  | cons e events ih =>
    have hquiet : e.isTraffic = false → replyOf id e = none := by
      cases e <;> simp [Event.isTraffic, replyOf]
    unfold replies at ih ⊢
    cases he : e.isTraffic with
    | true => rw [traffic_cons, if_pos he, List.filterMap_cons, List.filterMap_cons, ih]
    | false => rw [traffic_cons, if_neg (by simp [he]), List.filterMap_cons, hquiet he, ih]

@[simp] theorem replies_replyEvent (env : Environment) (id : Nat) (via : Via) (message : Bytes)
    (events : List Event) :
    replies id (replyEvent env id via message :: events) = message :: replies id events := by
  simp [replies, replyOf, replyEvent]

@[simp] theorem replies_pulls (id session : Nat) (via : Via) (results : List Received) :
    replies id (results.map (FtpSession.pullEvent session via)) = [] := by
  simp [replies, replyOf, FtpSession.pullEvent, Function.comp_def]

/-! ## 2. What a call says -/

/-- A push or a pull on the control channel of session `id`. -/
def Event.onControl (id : Nat) : Event → Bool
  | .push (.control session) _ _ _ => session == id
  | .pull (.control session) _ _ => session == id
  | _ => false

theorem replies_filter_onControl (id : Nat) (events : List Event) :
    replies id (events.filter (Event.onControl id)) = replies id events := by
  unfold replies
  rw [List.filterMap_filter]
  apply List.filterMap_congr
  intro e _
  cases e with
  | push object via message accepted => cases object <;> simp [Event.onControl, replyOf]
  | pull object via result => cases object <;> simp [Event.onControl, replyOf]
  | _ => rfl

theorem replies_map_replyEvent (env : Environment) (id : Nat) (via : Via) (messages : List Bytes) :
    replies id (messages.map (replyEvent env id via)) = messages := by
  induction messages with
  | nil => rfl
  | cons message messages ih => rw [List.map_cons, replies_replyEvent, ih]

/-- From `th` to `th'` the control channel carries the replies `messages`, by the way it has
    in `th`, and nothing else. -/
def Speaks (env : Environment) (th th' : Thread) (messages : List Bytes) : Prop :=
  ∃ via sent, traffic th'.process.trace = traffic th.process.trace ++ sent ∧
    (messages ≠ [] → th.session.controlChannel.via = .ok via) ∧
    sent.filter (Event.onControl th.session.id) = messages.map (replyEvent env th.session.id via)

/-- **The replies of every command.** -/
def Says (th : Thread) (c : FtpSession.Call) (messages : List Bytes) : Prop :=
  match c.input.command with
  | .user => messages =
      (if th.session.state ≠ .authWaitLogin then [ascii "500 USER incorrect command order\r\n"]
        else []) ++ [ascii "331 password is needed\r\n"]
  | .pass => ∃ last,
      (last = ascii "230 access is performed\r\n" ∨ last = ascii "430 authentication failure\r\n") ∧
        messages =
          (if th.session.state ≠ .authWaitPassword then
            [ascii "530 PASS incorrect command order\r\n"] else []) ++ [last]
  | .syst => messages = [ascii "215 UNIX Type: L8\r\n"]
  | .pwd => messages = [ascii "257 " ++ th.session.folder ++ ascii "\r\n"]
  | .cwd => messages = [ascii "250 CWD command is successful\r\n"] ∨
      messages = [ascii "553 CWD folder is not found\r\n"]
  | .port => messages = if c.env.connect then
      [ascii "220 PORT command is accepted\r\n", ascii "220 PORT command is accepted\r\n"]
      else [ascii "520 PORT cannot create data channel\r\n"]
  | .list => messages =
      [ascii "150 ASCII data connection\r\n", ascii "226 ASCII Transfer complete\r\n"]
  | .stor => messages =
      [ascii "150 STOR file status is OK\r\n", ascii "226 ASCII Transfer complete\r\n"]
  | .type => messages = [ascii "250 TYPE command is successful\r\n"] ∨
      messages = [ascii "500 TYPE specified type is not supported\r\n"]
  | .feat => messages =
      [ascii "211 FEAT Extensions supported:\n AUTH TLS\n PBSZ\n PROT\n211 END\r\n"]
  | .auth => c.input.getArgument 0 ≠ .ok (ascii "TLS") ∧
        messages = [ascii "500 AUTH specified service is not supported\r\n"] ∨
      c.input.getArgument 0 = .ok (ascii "TLS") ∧ messages = [ascii "234 AUTH TLS successful\r\n"]
  | .pbsz => messages = [ascii "200 PBSZ command is successful\r\n"]
  | .prot => messages = [ascii "200 PROT command is successful\r\n"]
  | .pasv => messages = [ascii "500 PASV command if failure"] ∨
      ∃ port, messages = [FtpSession.passiveReply th.session.controlChannel.address port]
  | .allo => messages = [ascii "200 ALLO command is successful\r\n"]
  | .dele => messages = [ascii "250 DELE command is failure\r\n"] ∨
      messages = [ascii "250 DELE command is successful\r\n"]
  | .rnfr => messages =
        [ascii "500 RNRF command is failure (specified file or directory does not exists)\r\n"] ∨
      messages = [ascii "350 Requested file action pending further information\r\n"]
  | .rnto => messages =
        [ascii "500 RNTO command is failure (specified file or directory already exists)\r\n"] ∨
      messages = [ascii "250 RNTO command is successful\r\n"] ∨
      messages = [ascii "500 RNTO command is failure (system error occurs)\r\n"]
  | .quit => messages = []
  | .incomplete => messages = [ascii "550 command is incomplete\r\n"]
  | .siteUtime => messages = [ascii "202 command is not supported\r\n"]
  | .unknown => messages = [ascii "500 command is unknown\r\n"]

/-- The codes of the replies of a command. -/
def replyCodes : FtpCommandT → List Nat
  | .user => [500, 331]
  | .pass => [530, 230, 430]
  | .syst => [215]
  | .pwd => [257]
  | .cwd => [250, 553]
  | .port => [220, 520]
  | .list | .stor => [150, 226]
  | .type => [250, 500]
  | .feat => [211]
  | .auth => [500, 234]
  | .pbsz | .prot | .allo => [200]
  | .pasv => [500, 227]
  | .dele => [250]
  | .rnfr => [500, 350]
  | .rnto => [500, 250]
  | .quit => []
  | .incomplete => [550]
  | .siteUtime => [202]
  | .unknown => [500]

/-- The codes of the table are those of its texts. -/
theorem Says.code {th : Thread} {c : FtpSession.Call} {messages : List Bytes}
    (h : Says th c messages) :
    ∀ message ∈ messages, replyCode message ∈ replyCodes c.input.command := by
  unfold Says at h
  cases hcommand : c.input.command <;> rw [hcommand] at h <;> dsimp only at h
  case user =>
    subst h
    rw [List.forall_mem_append, List.forall_mem_singleton]
    refine ⟨?_, replyCode_mem (by decide)⟩
    split
    · exact List.forall_mem_singleton.mpr (replyCode_mem (by decide))
    · exact List.forall_mem_nil _
  case pass =>
    rcases h with ⟨last, hlast, rfl⟩
    rw [List.forall_mem_append, List.forall_mem_singleton]
    constructor
    · split
      · exact List.forall_mem_singleton.mpr (replyCode_mem (by decide))
      · exact List.forall_mem_nil _
    · rcases hlast with rfl | rfl <;> exact replyCode_mem (by decide)
  case pwd =>
    subst h
    exact List.forall_mem_singleton.mpr (List.mem_singleton.mpr rfl)
  case port =>
    subst h
    split
    · exact List.forall_mem_cons.mpr ⟨replyCode_mem (by decide),
        List.forall_mem_singleton.mpr (replyCode_mem (by decide))⟩
    · exact List.forall_mem_singleton.mpr (replyCode_mem (by decide))
  case list | stor =>
    subst h
    exact List.forall_mem_cons.mpr ⟨replyCode_mem (by decide),
      List.forall_mem_singleton.mpr (replyCode_mem (by decide))⟩
  case auth =>
    rcases h with ⟨-, rfl⟩ | ⟨-, rfl⟩ <;>
      exact List.forall_mem_singleton.mpr (replyCode_mem (by decide))
  case pasv =>
    rcases h with rfl | ⟨port, rfl⟩
    · exact List.forall_mem_singleton.mpr (replyCode_mem (by decide))
    · exact List.forall_mem_singleton.mpr (List.mem_cons_of_mem _ (List.mem_singleton.mpr rfl))
  case rnto =>
    rcases h with rfl | rfl | rfl <;>
      exact List.forall_mem_singleton.mpr (replyCode_mem (by decide))
  case quit =>
    subst h
    exact List.forall_mem_nil _
  case cwd | type | dele | rnfr =>
    rcases h with rfl | rfl <;> exact List.forall_mem_singleton.mpr (replyCode_mem (by decide))
  all_goals
    subst h
    exact List.forall_mem_singleton.mpr (replyCode_mem (by decide))

/-- Outside a transfer every reply is a completion. -/
theorem Says.completion {th : Thread} {c : FtpSession.Call} {messages : List Bytes}
    (h : Says th c messages) (hlist : c.input.command ≠ .list) (hstor : c.input.command ≠ .stor) :
    ∀ message ∈ messages, isCompletion message = true := by
  have hcodes : ∀ code ∈ replyCodes c.input.command, 200 ≤ code ∧ code < 600 := by
    revert hlist hstor
    cases c.input.command <;> decide
  intro message hmem
  exact (isCompletion_iff message).mpr (hcodes _ (h.code message hmem))

/-- A transfer says 150, then 226. -/
theorem Says.transfer {th : Thread} {c : FtpSession.Call} {messages : List Bytes}
    (h : Says th c messages) (htransfer : c.input.command = .list ∨ c.input.command = .stor) :
    OneCompletion messages := by
  unfold Says at h
  rcases htransfer with hcommand | hcommand <;> rw [hcommand] at h <;> subst h <;>
    rw [oneCompletion_pair, isPreliminary_iff, isCompletion_iff, replyCode_ascii, replyCode_ascii] <;>
    decide

/-- From `th` to `th'` the client gets the replies `new`. -/
def Replied (th th' : Thread) (new : List Bytes) : Prop :=
  replies th.session.id th'.process.trace = replies th.session.id th.process.trace ++ new

theorem Replied.unique {th th' : Thread} {new new' : List Bytes} (h : Replied th th' new)
    (h' : Replied th th' new') : new = new' :=
  List.append_cancel_left (h.symm.trans h')

theorem Did.replied {th th' : Thread} {session : FtpSession} {t : Posix.FileTree}
    {sent : List Event} (h : Did th th' session t sent) :
    Replied th th' (replies th.session.id sent) := by
  unfold Replied
  rw [← replies_traffic, h.traffic, replies_append, replies_traffic]

@[simp] theorem filter_replyEvent (env : Environment) (id : Nat) (via : Via) (message : Bytes)
    (events : List Event) :
    (replyEvent env id via message :: events).filter (Event.onControl id) =
      replyEvent env id via message :: events.filter (Event.onControl id) := by
  simp [replyEvent, Event.onControl]

@[simp] theorem filter_dataPushEvent (env : Environment) (id : Nat) (via : Via) (message : Bytes)
    (events : List Event) :
    (dataPushEvent env id via message :: events).filter (Event.onControl id) =
      events.filter (Event.onControl id) := rfl

@[simp] theorem filter_pulls (id : Nat) (via : Via) (results : List Received) :
    (results.map (FtpSession.pullEvent id via)).filter (Event.onControl id) = [] := by
  simp [FtpSession.pullEvent, Event.onControl]

@[simp] theorem filter_signals (id : Nat) (observers : FtpNotifier) (filePath : Bytes) :
    (FtpSession.signals observers filePath).filter (Event.onControl id) = [] := by
  simp [FtpSession.signals, Event.onControl]

theorem Did.speaks {env : Environment} {th th' : Thread} {session : FtpSession}
    {t : Posix.FileTree} {sent : List Event} {messages : List Bytes} {via : Via}
    (h : Did th th' session t sent) (hvia : messages ≠ [] → th.session.controlChannel.via = .ok via)
    (hsent : sent.filter (Event.onControl th.session.id) =
      messages.map (replyEvent env th.session.id via)) : Speaks env th th' messages :=
  ⟨via, sent, h.traffic, hvia, hsent⟩

theorem Did.speaks_one {env : Environment} {th th' : Thread} {session : FtpSession}
    {t : Posix.FileTree} {message : Bytes} {via : Via}
    (h : Did th th' session t [replyEvent env th.session.id via message])
    (hvia : th.session.controlChannel.via = .ok via) : Speaks env th th' [message] :=
  h.speaks (fun _ => hvia) (by simp)

theorem Speaks.replied {env : Environment} {th th' : Thread} {messages : List Bytes}
    (h : Speaks env th th' messages) : Replied th th' messages := by
  rcases h with ⟨via, sent, htraffic, -, hsent⟩
  unfold Replied
  rw [← replies_traffic, htraffic, replies_append, replies_traffic, ← replies_filter_onControl _ sent,
    hsent, replies_map_replyEvent]

namespace FtpSession

/-- **What a call says** is in the table. -/
theorem processCommand_says {env : Environment} {input : FtpCommand} {th th' : Thread}
    (h : processCommand env input th = .ok th') :
    ∃ messages, Speaks env th th' messages ∧ Says th ⟨env, input⟩ messages := by
  unfold processCommand at h
  unfold Says
  dsimp only
  cases hcommand : input.command <;> rw [hcommand] at h <;> dsimp only at h ⊢
  case user =>
    rcases commandUser_did h with ⟨_, via, _, hvia, hdid⟩
    refine ⟨_, hdid.speaks (fun _ => hvia) ?_, rfl⟩
    split <;> simp
  case pass =>
    rcases commandPass_did h with ⟨_, via, _, hvia, ⟨_, _, hdid⟩ | ⟨_, hdid⟩⟩
    · refine ⟨_, hdid.speaks (fun _ => hvia) ?_, _, Or.inl rfl, rfl⟩
      unfold passRefusal
      split <;> simp
    · refine ⟨_, hdid.speaks (fun _ => hvia) ?_, _, Or.inr rfl, rfl⟩
      unfold passRefusal
      split <;> simp
  case cwd =>
    rcases commandCwd_did h with ⟨_, _, via, _, _, hvia, hdid⟩
    refine ⟨_, hdid.speaks_one hvia, ?_⟩
    split
    · exact Or.inl rfl
    · exact Or.inr rfl
  case port =>
    rcases commandPort_did h with ⟨_, _, _, via, _, _, _, _, hvia, _, hdid⟩
    refine ⟨_, hdid.speaks (fun _ => hvia) ?_, rfl⟩
    split <;> simp
  case list =>
    rcases commandList_did h with ⟨via, _, hvia, _, hdid⟩
    exact ⟨_, hdid.speaks (fun _ => hvia) (by simp), rfl⟩
  case stor =>
    rcases commandStor_did h with ⟨_, via, _, _, hvia, _, hdid⟩
    exact ⟨_, hdid.speaks (fun _ => hvia) (by simp), rfl⟩
  case type =>
    rcases commandType_did h with ⟨_, message, via, hvia, hmessage, hdid⟩
    refine ⟨_, hdid.speaks_one hvia, ?_⟩
    rcases hmessage with rfl | rfl
    · exact Or.inl rfl
    · exact Or.inr rfl
  case auth =>
    rcases commandAuth_did h with ⟨_, via, hservice, hvia, ⟨hother, hdid⟩ | ⟨htls, _, _, hdid⟩⟩
    · refine ⟨_, hdid.speaks_one hvia, Or.inl ⟨?_, rfl⟩⟩
      rw [hservice]
      intro heq
      exact hother (Except.ok.inj heq)
    · exact ⟨_, hdid.speaks_one hvia, Or.inr ⟨htls ▸ hservice, rfl⟩⟩
  case pbsz =>
    rcases commandPbsz_did h with ⟨_, _, via, _, _, hvia, hdid⟩
    exact ⟨_, hdid.speaks_one hvia, rfl⟩
  case prot =>
    rcases commandProt_did h with ⟨_, via, _, hvia, hdid⟩
    exact ⟨_, hdid.speaks_one hvia, rfl⟩
  case pasv =>
    rcases commandPasv_did h with ⟨via, hvia, ⟨_, hdid⟩ | ⟨_, port, _, _, _, _, hdid⟩⟩
    · exact ⟨_, hdid.speaks_one hvia, Or.inl rfl⟩
    · exact ⟨_, hdid.speaks_one hvia, Or.inr ⟨port, rfl⟩⟩
  case allo =>
    rcases commandAllo_did h with ⟨_, _, via, _, _, hvia, hdid⟩
    exact ⟨_, hdid.speaks_one hvia, rfl⟩
  case dele =>
    rcases commandDele_did h with ⟨_, message, via, _, hmessage, hvia, hdid⟩
    refine ⟨_, hdid.speaks_one hvia, ?_⟩
    rcases hmessage with rfl | rfl
    · exact Or.inl rfl
    · exact Or.inr rfl
  case rnfr =>
    rcases commandRnfr_did h with ⟨_, via, _, hvia, hdid⟩
    refine ⟨_, hdid.speaks_one hvia, ?_⟩
    split
    · exact Or.inr rfl
    · exact Or.inl rfl
  case rnto =>
    rcases commandRnto_did h with ⟨_, via, _, hvia, hdid⟩
    refine ⟨_, hdid.speaks_one hvia, ?_⟩
    split
    · exact Or.inl rfl
    · split
      · exact Or.inr (Or.inl rfl)
      · exact Or.inr (Or.inr rfl)
  case quit =>
    exact ⟨[], ⟨.plain 0, [], (commandQuit_did h).traffic, fun hne => absurd rfl hne, rfl⟩, rfl⟩
  all_goals
    rcases reply_did h with ⟨via, hvia, hdid⟩
    exact ⟨_, hdid.speaks_one hvia, rfl⟩

end FtpSession

/-! ## 3. One call -/

def Answered (th th' : Thread) : Prop := ∃ new, Replied th th' new ∧ OneCompletion new

/-- **When a call answers**: USER and PASS are expected, PORT finds nobody to
    connect to, and nobody quits. -/
def Answers (th : Thread) (c : FtpSession.Call) : Prop :=
  match c.input.command with
  | .user => th.session.state = .authWaitLogin
  | .pass => th.session.state = .authWaitPassword
  | .port => c.env.connect = false
  | .quit => False
  | _ => True

namespace FtpSession

theorem answered_iff {env : Environment} {th th' : Thread} {messages : List Bytes}
    (h : Speaks env th th' messages) : Answered th th' ↔ OneCompletion messages := by
  constructor
  · rintro ⟨new, hreplied, hone⟩
    rwa [h.replied.unique hreplied]
  · intro hone
    exact ⟨_, h.replied, hone⟩

/-- The table has one completion reply exactly where `Answers` holds. -/
theorem oneCompletion_iff_answers {th : Thread} {c : Call} {messages : List Bytes}
    (h : Says th c messages) : OneCompletion messages ↔ Answers th c := by
  by_cases htransfer : c.input.command = .list ∨ c.input.command = .stor
  · refine iff_of_true (h.transfer htransfer) ?_
    unfold Answers
    rcases htransfer with hcommand | hcommand <;> rw [hcommand] <;> trivial
  · rw [not_or] at htransfer
    rw [oneCompletion_iff_length (h.completion htransfer.1 htransfer.2)]
    unfold Says at h
    unfold Answers
    cases hcommand : c.input.command <;> rw [hcommand] at h htransfer <;> dsimp only at h ⊢
    case user =>
      subst h
      by_cases hstate : th.session.state = .authWaitLogin <;> simp [hstate]
    case pass =>
      rcases h with ⟨last, -, rfl⟩
      by_cases hstate : th.session.state = .authWaitPassword <;> simp [hstate]
    case port =>
      subst h
      cases hconnect : c.env.connect <;> simp
    case list => exact absurd rfl htransfer.1
    case stor => exact absurd rfl htransfer.2
    case auth => rcases h with ⟨-, rfl⟩ | ⟨-, rfl⟩ <;> exact iff_of_true rfl trivial
    case pasv => rcases h with rfl | ⟨port, rfl⟩ <;> exact iff_of_true rfl trivial
    case rnto => rcases h with rfl | rfl | rfl <;> exact iff_of_true rfl trivial
    case quit =>
      subst h
      exact iff_of_false (by simp) not_false
    case cwd | type | dele | rnfr => rcases h with rfl | rfl <;> exact iff_of_true rfl trivial
    all_goals
      subst h
      exact iff_of_true rfl trivial

/-- **A call that returns has answered exactly when `Answers` holds before it.** -/
theorem call_answered_iff {c : Call} {th th' : Thread} (h : call th c = .ok th') :
    Answered th th' ↔ Answers th c := by
  rcases processCommand_says h with ⟨messages, hspeaks, hsays⟩
  exact (answered_iff hspeaks).trans (oneCompletion_iff_answers hsays)

/-! ## 4. Runs -/

theorem countP_oneCompletion {new : List Bytes} (h : OneCompletion new) :
    new.countP isCompletion = 1 := by
  rcases h with ⟨front, completion, rfl, hcompletion, -, hfront⟩
  have hzero : front.countP isCompletion = 0 := by
    rw [List.countP_eq_zero]
    intro message hmem
    exact not_completion_of_preliminary (hfront message hmem)
  simp [hzero, hcompletion]

theorem call_id {c : Call} {th th' : Thread} (h : call th c = .ok th') :
    th'.session.id = th.session.id := (processCommand_frame h).1.id

theorem call_replied {c : Call} {th th' : Thread} (h : call th c = .ok th') :
    ∃ new, Replied th th' new :=
  let ⟨_, hdid⟩ := (processCommand_frame h).2
  ⟨_, hdid.replied⟩

theorem replied_trans {th mid th' : Thread} {front back : List Bytes} (h : Replied th mid front)
    (hid : mid.session.id = th.session.id) (h' : Replied mid th' back) :
    Replied th th' (front ++ back) := by
  unfold Replied at h h' ⊢
  rw [hid] at h'
  rw [h', h, List.append_assoc]

theorem completions_of_answered {th th' : Thread} {calls : List Call}
    (hanswered : EveryStep call (fun mid _ next => Answered mid next) th calls)
    (hrun : run call th calls = .ok th') :
    ∃ new, Replied th th' new ∧ new.countP isCompletion = calls.length := by
  induction calls generalizing th with
  | nil =>
    cases hrun
    exact ⟨[], by simp [Replied], rfl⟩
  | cons c calls ih =>
    rcases run_cons_ok.mp hrun with ⟨mid, hmid, hrest⟩
    obtain ⟨⟨front, hfront, hone⟩, hlater⟩ := (everyStep_cons hmid).mp hanswered
    rcases ih hlater hrest with ⟨back, hback, hcount⟩
    refine ⟨front ++ back, replied_trans hfront (call_id hmid) hback, ?_⟩
    rw [List.countP_append, countP_oneCompletion hone, hcount, List.length_cons, Nat.add_comm]

/-- **Reply discipline.**  In every run from a constructed session, the calls that
    answer with one completion reply are exactly those before which `Answers`
    holds; if it holds before all of them, the client has as many completion
    replies as commands. -/
theorem reply_discipline (opens : Bool) (id : Nat) (connection : TcpTransport)
    (garbage : Uninitialised) (p : Process) (calls : List Call) {th' : Thread}
    (hrun : run call (construct opens id connection garbage p) calls = .ok th') :
    (EveryStep call (fun mid _ next => Answered mid next)
        (construct opens id connection garbage p) calls ↔
      EveryStep call (fun mid c _ => Answers mid c)
        (construct opens id connection garbage p) calls) ∧
    (EveryStep call (fun mid c _ => Answers mid c) (construct opens id connection garbage p) calls →
      ∃ new, Replied (construct opens id connection garbage p) th' new ∧
        new.countP isCompletion = calls.length) := by
  have hiff : EveryStep call (fun mid _ next => Answered mid next)
        (construct opens id connection garbage p) calls ↔
      EveryStep call (fun mid c _ => Answers mid c)
        (construct opens id connection garbage p) calls := by
    refine everyStep_congr (fun _ => True) ?_ ?_ trivial
    · intro mid c next _ _
      trivial
    · intro mid c next _ hcall
      exact call_answered_iff hcall
  exact ⟨hiff, fun hanswers => completions_of_answered (hiff.mpr hanswers) hrun⟩

instance (th : Thread) (c : Call) : Decidable (Answers th c) := by
  unfold Answers
  cases c.input.command <;> dsimp only <;> infer_instance

/-- A login, a PORT that nobody answers, a question and a command that is not known. -/
def answeredCalls : List Call :=
  [⟨.plain, ⟨.user, [ascii "admin"]⟩⟩, ⟨.plain, ⟨.pass, [ascii "admin"]⟩⟩,
    ⟨{ Environment.plain with connect := false, connect_socket := nofun },
      ⟨.port, [ascii "127.0.0.1", ascii "5001"]⟩⟩,
    ⟨.plain, ⟨.pwd, []⟩⟩, ⟨.plain, ⟨.unknown, []⟩⟩]

theorem reply_discipline_login :
    ∃ th' new, run call (first .bare ⟨0, 0, .clear⟩) answeredCalls = .ok th' ∧
      Replied (first .bare ⟨0, 0, .clear⟩) th' new ∧ new.countP isCompletion = 5 := by
  obtain ⟨th', hrun, -⟩ := exists_of_reaches (first .bare ⟨0, 0, .clear⟩) answeredCalls
    (fun _ => true) (show reaches call _ _ _ = true by decide +kernel)
  have hanswers := everyStep_of_allSteps
    (show allSteps call (fun mid c => decide (Answers mid c)) (first .bare ⟨0, 0, .clear⟩)
      answeredCalls = true by decide +kernel)
  simp only [decide_eq_true_eq] at hanswers
  obtain ⟨new, hreplied, hcount⟩ := (reply_discipline _ _ _ _ _ _ hrun).2 hanswers
  exact ⟨th', new, hrun, hreplied, hcount⟩

/-- A session that is told to quit says nothing. -/
theorem quit_not_answered :
    ¬ EveryStep call (fun mid _ next => Answered mid next) (first .bare ⟨0, 0, .clear⟩)
      [⟨.plain, ⟨.quit, []⟩⟩] := by
  intro h
  obtain ⟨⟨new, hreplied, hone⟩, -⟩ := (everyStep_cons rfl).mp h
  have hnil : new = [] := List.append_right_eq_self.mp hreplied.symm
  exact not_oneCompletion_nil (hnil ▸ hone)

end FtpSession

end FtpsServer
