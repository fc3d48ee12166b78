import FtpsServer.ServerRuns

/-!
# The conversation on a control connection

What a client and its session say to each other follows a protocol: a greeting, then
message and answer in turns, and an end.  It does so on every control connection, whatever
the other sessions do in between: a session pushes and pulls on no channels but its own.
The answers are those of the turns that the thread of the session takes, each from the
buffer and the state that the turns before have left.
-/

namespace FtpsServer

open ByteString Cxx Machine

/-! ## 1. The protocol -/

/-- What passes on a control connection, as the server sees it. -/
inductive Utterance where
  | said (message : Bytes)
  | heard (message : Bytes)
  /-- The pull that returns 0 or an error. -/
  | hungUp
deriving DecidableEq, Repr

/-- What an event is on the control connection of session `id`. -/
def utterance (id : Nat) : Event → Option Utterance
  | .push (.control session) _ message _ => if session = id then some (.said message) else none
  | .pull (.control session) _ result =>
    if session = id then
      match result with
      | .bytes message => some (.heard message)
      | _ => some .hungUp
    else none
  | _ => none

def utterances (id : Nat) (events : List Event) : List Utterance := events.filterMap (utterance id)

/-- The last word: QUIT, or a PASS that is refused. -/
def LastWord (input : FtpCommand) (messages : List Bytes) : Prop :=
  input.command = .quit ∨
    input.command = .pass ∧ ascii "430 authentication failure\r\n" ∈ messages

/-- A turn of the loop of a session, with the session and the process that it finds. -/
structure TurnTaken where
  client : ClientSession
  process : Process
  turn : Turn

/-- `messages` is what `process_command` replies to the command that is made of the message,
    with what the buffer has behind it; `final` says if the session is terminated then. -/
def Answer (taken : TurnTaken) (messages : List Bytes) (final : Bool) : Prop :=
  ∃ (input : FtpCommand) (pulled th : Thread),
    SessionThread.command taken.client.buffer taken.turn.message taken.turn.behind = .ok input ∧
    Thread.controlPull (.bytes taken.turn.message.bytes) ⟨taken.client.session, taken.process⟩ =
      .ok pulled ∧
    FtpSession.processCommand taken.turn.env input pulled = .ok th ∧
    Replied pulled th messages ∧ Says pulled ⟨taken.turn.env, input⟩ messages ∧
    (final = true ↔ th.session.state = .terminated) ∧
    (input.command = .quit → final = true) ∧ (final = true → LastWord input messages)

/-- **The protocol**: the conversations in which a session that stands at a phase can have
    taken part, with the turns it took.  The flag says that the session has come to its last
    word. -/
inductive Conversation : Phase → Bool → List TurnTaken → List Utterance → Prop where
  | silent : Conversation .created false [] []
  | greeted : Conversation .looping false [] [.said (ascii "220 FTP server is ready\r\n")]
  | exchange {turns : List TurnTaken} {front : List Utterance} {taken : TurnTaken}
      {messages : List Bytes} {final : Bool} :
      Conversation .looping false turns front → Answer taken messages final →
      Conversation .looping final (turns ++ [taken])
        (front ++ .heard taken.turn.message.bytes :: messages.map .said)
  | left {turns : List TurnTaken} {front : List Utterance} :
      Conversation .looping true turns front → Conversation .ended true turns front
  | abandoned {turns : List TurnTaken} {front : List Utterance} :
      Conversation .looping false turns front → Conversation .ended true turns (front ++ [.hungUp])

/-! ## 2. Who says what -/

@[simp] theorem utterances_nil (id : Nat) : utterances id [] = [] := rfl

@[simp] theorem utterances_append (id : Nat) (front back : List Event) :
    utterances id (front ++ back) = utterances id front ++ utterances id back :=
  List.filterMap_append

theorem utterances_traffic (id : Nat) (events : List Event) :
    utterances id (traffic events) = utterances id events := by
  unfold utterances traffic
  rw [List.filterMap_filter]
  apply List.filterMap_congr
  intro e _
  cases e <;> rfl

theorem utterances_onControl (id : Nat) (events : List Event) :
    utterances id (events.filter (Event.onControl id)) = utterances id events := by
  unfold utterances
  rw [List.filterMap_filter]
  apply List.filterMap_congr
  intro e _
  cases e with
  | push object via message result => cases object <;> simp [Event.onControl, utterance]
  | pull object via result =>
    cases object with
    | control session =>
      by_cases hid : session = id
      · simp [Event.onControl, hid]
      · simp [Event.onControl, utterance, hid]
    | _ => rfl
  | _ => rfl

theorem utterances_replies (env : Environment) (id : Nat) (via : Via) (messages : List Bytes) :
    utterances id (messages.map (replyEvent env id via)) = messages.map .said := by
  induction messages with
  | nil => rfl
  | cons message messages ih =>
    rw [List.map_cons, List.map_cons, ← ih]
    simp [utterances, utterance, replyEvent]

/-- Traffic on the two channels of session `id`, or a signal to an observer. -/
def Event.byThread (id : Nat) : Event → Bool
  | .push (.control session) _ _ _ => session == id
  | .push (.data session) _ _ _ => session == id
  | .pull (.control session) _ _ => session == id
  | .pull (.data session) _ _ => session == id
  | .notifySignal _ _ => true
  | _ => false

theorem utterances_byThread {id other : Nat} {events : List Event}
    (h : ∀ e ∈ events, e.byThread id = true) (hne : other ≠ id) : utterances other events = [] := by
  unfold utterances
  rw [List.filterMap_eq_nil_iff]
  intro e he
  have hid := h e he
  cases e with
  | push object via message result =>
    cases object with
    | control session =>
      obtain rfl : session = id := by simpa [Event.byThread] using hid
      simp [utterance, Ne.symm hne]
    | _ => rfl
  | pull object via result =>
    cases object with
    | control session =>
      obtain rfl : session = id := by simpa [Event.byThread] using hid
      simp [utterance, Ne.symm hne]
    | _ => rfl
  | _ => rfl

/-- From `p` to `p'` there is traffic of session `id` only. -/
def KeepsToItself (id : Nat) (p p' : Process) (sent : List Event) : Prop :=
  traffic p'.trace = traffic p.trace ++ sent ∧ ∀ e ∈ sent, e.byThread id = true

theorem keepsToItself_reply {env : Environment} {message : Bytes} {th th' : Thread}
    (h : th.reply env message = .ok th') :
    ∃ via, KeepsToItself th.session.id th.process th'.process
      [replyEvent env th.session.id via message] := by
  rcases reply_did h with ⟨via, -, hdid⟩
  exact ⟨via, hdid.traffic, by simp [Event.byThread, replyEvent]⟩

namespace FtpSession

variable {env : Environment} {input : FtpCommand} {th th' : Thread}

/-- **A command keeps to the channels of its session.** -/
theorem processCommand_keepsToItself (h : processCommand env input th = .ok th') :
    ∃ sent, KeepsToItself th.session.id th.process th'.process sent := by
  have hreplies : ∀ {session : FtpSession} {t : Posix.FileTree} {via : Via} {messages : List Bytes},
      Did th th' session t (messages.map (replyEvent env th.session.id via)) →
      ∃ sent, KeepsToItself th.session.id th.process th'.process sent := by
    intro session t via messages hdid
    refine ⟨_, hdid.traffic, ?_⟩
    intro e he
    rcases List.mem_map.mp he with ⟨message, -, rfl⟩
    simp [Event.byThread, replyEvent]
  have hone : ∀ {session : FtpSession} {t : Posix.FileTree} {via : Via} {message : Bytes},
      Did th th' session t [replyEvent env th.session.id via message] →
      ∃ sent, KeepsToItself th.session.id th.process th'.process sent :=
    fun hdid => ⟨_, hdid.traffic, by simp [Event.byThread, replyEvent]⟩
  unfold processCommand at h
  cases hcommand : input.command <;> rw [hcommand] at h <;> dsimp only at h
  case user =>
    rcases commandUser_did h with ⟨_, via, _, _, hdid⟩
    refine ⟨_, hdid.traffic, ?_⟩
    split <;> simp [Event.byThread, replyEvent]
  case pass =>
    rcases commandPass_did h with ⟨_, via, _, _, ⟨_, _, hdid⟩ | ⟨_, hdid⟩⟩ <;>
      refine ⟨_, hdid.traffic, ?_⟩ <;> unfold passRefusal <;> split <;>
        simp [Event.byThread, replyEvent]
  case cwd =>
    rcases commandCwd_did h with ⟨_, _, _, _, _, _, hdid⟩
    exact hone hdid
  case port =>
    rcases commandPort_did h with ⟨_, _, _, via, _, _, _, _, _, _, hdid⟩
    refine ⟨_, hdid.traffic, ?_⟩
    split <;> simp [Event.byThread, replyEvent]
  case list =>
    rcases commandList_did h with ⟨_, _, _, _, hdid⟩
    exact ⟨_, hdid.traffic, by simp [Event.byThread, replyEvent, dataPushEvent]⟩
  case stor =>
    rcases commandStor_did h with ⟨_, _, _, _, _, _, hdid⟩
    refine ⟨_, hdid.traffic, ?_⟩
    simp only [List.forall_mem_append, List.forall_mem_singleton, List.forall_mem_map, signals]
    simp [Event.byThread, replyEvent, pullEvent]
  case type =>
    rcases commandType_did h with ⟨_, _, _, _, _, hdid⟩
    exact hone hdid
  case auth =>
    rcases commandAuth_did h with ⟨_, _, _, _, ⟨_, hdid⟩ | ⟨_, _, _, hdid⟩⟩
    · exact hone hdid
    · exact hone hdid
  case pbsz =>
    rcases commandPbsz_did h with ⟨_, _, _, _, _, _, hdid⟩
    exact hone hdid
  case prot =>
    rcases commandProt_did h with ⟨_, _, _, _, hdid⟩
    exact hone hdid
  case pasv =>
    rcases commandPasv_did h with ⟨_, _, ⟨_, hdid⟩ | ⟨_, _, _, _, _, _, hdid⟩⟩
    · exact hone hdid
    · exact hone hdid
  case allo =>
    rcases commandAllo_did h with ⟨_, _, _, _, _, _, hdid⟩
    exact hone hdid
  case dele =>
    rcases commandDele_did h with ⟨_, _, _, _, _, _, hdid⟩
    exact hone hdid
  case rnfr =>
    rcases commandRnfr_did h with ⟨_, _, _, _, hdid⟩
    exact hone hdid
  case rnto =>
    rcases commandRnto_did h with ⟨_, _, _, _, hdid⟩
    exact hone hdid
  case quit => exact ⟨_, (commandQuit_did h).traffic, by simp⟩
  all_goals
    rcases reply_did h with ⟨_, _, hdid⟩
    exact hone hdid

/-- What ends a session is its last word. -/
theorem lastWord_of_terminated {messages : List Bytes} (h : processCommand env input th = .ok th')
    (hlive : th.session.state ≠ .terminated) (hreplied : Replied th th' messages)
    (hended : th'.session.state = .terminated) : LastWord input messages := by
  by_cases hquit : input.command = .quit
  · exact Or.inl hquit
  · by_cases hpass : input.command = .pass
    · refine Or.inr ⟨hpass, ?_⟩
      rw [processCommand, hpass] at h
      rcases commandPass_did h with ⟨_, via, _, _, ⟨_, _, hdid⟩ | ⟨_, hdid⟩⟩
      · rw [hdid.session] at hended
        exact absurd hended hlive
      · rw [hreplied.unique hdid.replied]
        simp
    · by_cases huser : input.command = .user
      · rw [processCommand, huser] at h
        rcases commandUser_did h with ⟨_, _, _, _, hdid⟩
        rw [hdid.session] at hended
        cases hended
      · rw [(processCommand_frame h).1.state (by simp [hquit, hpass, huser])] at hended
        exact absurd hended hlive

end FtpSession

/-! ## 3. One step of a session -/

namespace FtpServer

/-- The turn that the thread of session `k` takes in a step, if its loop goes on. -/
def turnAt (k : Nat) (s : FtpServer) : ServerStep → Option TurnTaken
  | .turn j t =>
    if j = k then
      (s.clientSessions[k]?).bind fun client =>
        if client.phase = .looping ∧ client.session.state ≠ .terminated then
          some ⟨client, s.process, t⟩
        else none
    else none
  | _ => none

/-- The turns that the thread of session `k` takes in a run, in order. -/
def turnsOf (k : Nat) : FtpServer → List ServerStep → List TurnTaken
  | _, [] => []
  | s, i :: steps =>
    (s.turnAt k i).toList ++
      match s.step i with
      | .ok s' => turnsOf k s' steps
      | .error _ => []

theorem turnsOf_concat {s mid next : FtpServer} {before : List ServerStep} {i : ServerStep}
    (hrun : run step s before = .ok mid) (hstep : mid.step i = .ok next) (k : Nat) :
    turnsOf k s (before ++ [i]) = turnsOf k s before ++ (mid.turnAt k i).toList := by
  induction before generalizing s with
  | nil =>
    cases hrun
    simp [turnsOf, hstep]
  | cons j before ih =>
    rcases run_cons_ok.mp hrun with ⟨after, hafter, hrest⟩
    rw [List.cons_append, turnsOf, turnsOf, hafter]
    dsimp only
    rw [ih hrest, List.append_assoc]

/-- Sessions are not taken out of the list. -/
theorem length_mono {s s' : FtpServer} {i : ServerStep} (h : s.step i = .ok s') :
    s.clientSessions.length ≤ s'.clientSessions.length := by
  rcases step_acted h with ⟨env, garbage, buffer, -, rfl⟩ |
    ⟨_, _, -, ⟨-, rfl⟩ | ⟨_, _, _, -, -, rfl⟩⟩
  · change _ ≤ (s.clientSessions ++ [_]).length
    rw [List.length_append]
    exact Nat.le_add_right _ _
  · exact Nat.le_refl _
  · rw [List.length_set]

/-- A session that is still to come has taken no turn. -/
theorem turnsOf_eq_nil {s s' : FtpServer} {steps : List ServerStep} (hrun : run step s steps = .ok s')
    {k : Nat} (hk : s'.clientSessions.length ≤ k) : turnsOf k s steps = [] := by
  induction steps using List.reverseRecOn generalizing s' with
  | nil => rfl
  | append_singleton before i ih =>
    rcases run_concat_ok.mp hrun with ⟨mid, hmid, hstep⟩
    have hmidk := (length_mono hstep).trans hk
    rw [turnsOf_concat hmid hstep, ih hmid hmidk, List.nil_append]
    cases i with
    | turn j t =>
      rw [turnAt, List.getElem?_eq_none hmidk]
      split <;> rfl
    | _ => rfl

/-- Other threads take no turn of session `k`. -/
theorem turnAt_eq_none {s : FtpServer} {k : Nat} {i : ServerStep}
    (h : ∀ a, clientStep i ≠ some (k, a)) : s.turnAt k i = none := by
  cases i with
  | turn j t =>
    have hne : j ≠ k := by
      rintro rfl
      exact h (.turn t) rfl
    rw [turnAt, if_neg hne]
  | _ => rfl

/-- What the session has said and heard, and whether it has come to its last word. -/
def Converses (turns : List TurnTaken) (client : ClientSession) (spoken : List Utterance) : Prop :=
  ∃ final, Conversation client.phase final turns spoken ∧
    (client.phase ≠ .ended → (final = true ↔ client.session.state = .terminated))

/-- The end of a loop is a pull that returns no bytes. -/
def EndsLoop : ServerStep → Prop
  | .finish _ (.bytes _) => False
  | _ => True

/-- **The turn of a session** adds one exchange, on its own connection. -/
theorem handle_exchange {client : ClientSession} {p : Process} {t : Turn} {s : SessionThread}
    {turns : List TurnTaken} {spoken : List Utterance} (hlooping : client.phase = .looping)
    (hlive : client.session.state ≠ .terminated)
    (h : SessionThread.handle ⟨⟨client.session, p⟩, client.buffer⟩ t = .ok s)
    (hspoken : Converses turns client spoken) :
    s.thread.session.id = client.session.id ∧ ∃ sent,
      KeepsToItself client.session.id p s.thread.process sent ∧
      Converses (turns ++ [⟨client, p, t⟩])
        { client with session := s.thread.session, buffer := s.buffer }
        (spoken ++ utterances client.session.id sent) := by
  rcases SessionThread.handle_ok h with ⟨via, input, th₁, hvia₁, hinput, rfl, hcall, -⟩
  dsimp only at hcall hinput hvia₁
  have hpull : Thread.controlPull (.bytes t.message.bytes) ⟨client.session, p⟩ = .ok _ :=
    controlPull_ok.mpr ⟨via, hvia₁, rfl⟩
  rcases FtpSession.processCommand_says hcall with ⟨messages, hspeaks, hsays⟩
  rcases FtpSession.processCommand_keepsToItself hcall with ⟨sent, htraffic, hown⟩
  rcases hspeaks with ⟨via', sent', htraffic', hvia, hfilter⟩
  have hreplied : Replied _ s.thread messages :=
    Speaks.replied ⟨via', sent', htraffic', hvia, hfilter⟩
  obtain rfl : sent' = sent := List.append_cancel_left (htraffic'.symm.trans htraffic)
  dsimp only at htraffic hown hfilter
  rcases hspoken with ⟨final, hconversation, hfinal⟩
  have hnot : final = false := by
    cases final with
    | false => rfl
    | true => exact absurd ((hfinal (by simp [hlooping])).mp rfl) hlive
  rw [hnot, hlooping] at hconversation
  refine ⟨(FtpSession.processCommand_frame hcall).1.id,
    .pull (.control client.session.id) via (.bytes t.message.bytes) :: sent', ⟨?_, ?_⟩,
    decide (s.thread.session.state = .terminated), ?_, fun _ => decide_eq_true_iff⟩
  · rw [htraffic]
    simp [Event.isTraffic]
  · simpa [Event.byThread] using hown
  · have hheard : utterances client.session.id
        (.pull (.control client.session.id) via (.bytes t.message.bytes) :: sent') =
          .heard t.message.bytes :: messages.map .said := by
      rw [← utterances_replies t.env client.session.id via', ← hfilter, utterances_onControl]
      simp [utterances, utterance]
    rw [hheard]
    dsimp only
    rw [hlooping]
    have hanswer : Answer ⟨client, p, t⟩ messages (decide (s.thread.session.state = .terminated)) := by
      refine ⟨input, _, s.thread, hinput, hpull, hcall, hreplied, hsays, decide_eq_true_iff, ?_, ?_⟩
      · intro hquit
        rw [FtpSession.processCommand, hquit] at hcall
        rw [(FtpSession.commandQuit_did hcall).session]
        rfl
      · intro hended
        exact FtpSession.lastWord_of_terminated hcall hlive hreplied (of_decide_eq_true hended)
    exact hconversation.exchange hanswer

/-- **The end of a session** is the end of its conversation. -/
theorem finish_conversation {client : ClientSession} {p : Process} {ending : Received}
    {s : SessionThread} {turns : List TurnTaken} {spoken : List Utterance}
    (hlooping : client.phase = .looping) (hending : ∀ message, ending ≠ .bytes message)
    (h : SessionThread.finish ⟨⟨client.session, p⟩, client.buffer⟩ ending = .ok s)
    (hspoken : Converses turns client spoken) :
    s.thread.session.id = client.session.id ∧ ∃ sent,
      KeepsToItself client.session.id p s.thread.process sent ∧
      Converses turns { client with session := s.thread.session, phase := .ended }
        (spoken ++ utterances client.session.id sent) := by
  rcases hspoken with ⟨final, hconversation, hfinal⟩
  have hstate := hfinal (by simp [hlooping])
  rw [hlooping] at hconversation
  rcases bind_ok_iff.mp h with ⟨th, hpull, hlast⟩
  obtain rfl := pure_ok_iff.mp hlast
  have hclosed := th.session.controlChannel.close_quiet (.control th.session.id) th.process
  unfold SessionThread.lastPull at hpull
  dsimp only at hpull
  split at hpull
  · next hended =>
    cases hpull
    refine ⟨rfl, [], ⟨hclosed.traffic.trans (List.append_nil _).symm, by simp⟩, true, ?_, by simp⟩
    rw [hstate.mpr hended] at hconversation
    rw [utterances_nil, List.append_nil]
    exact hconversation.left
  · next hlive =>
    rcases controlPull_ok.mp hpull with ⟨via, -, rfl⟩
    refine ⟨rfl, [.pull (.control client.session.id) via ending],
      ⟨hclosed.traffic.trans (by simp [Event.isTraffic]), by simp [Event.byThread]⟩, true, ?_,
      by simp⟩
    have hnot : final = false := Bool.eq_false_iff.mpr fun htrue => hlive (hstate.mp htrue)
    rw [hnot] at hconversation
    have hhung : utterances client.session.id [.pull (.control client.session.id) via ending] =
        [.hungUp] := by
      cases ending with
      | bytes message => exact absurd rfl (hending message)
      | closed => simp [utterances, utterance]
      | failed => simp [utterances, utterance]
    rw [hhung]
    exact hconversation.abandoned

/-- The turn that a step of its own thread adds. -/
def turnIn (client : ClientSession) (p : Process) : ClientStep → Option TurnTaken
  | .turn t =>
    if client.phase = .looping ∧ client.session.state ≠ .terminated then some ⟨client, p, t⟩
    else none
  | _ => none

theorem turnAt_of_clientStep {s : FtpServer} {k : Nat} {i : ServerStep} {a : ClientStep}
    {client : ClientSession} (hi : clientStep i = some (k, a))
    (hclient : s.clientSessions[k]? = some client) : s.turnAt k i = turnIn client s.process a := by
  cases i with
  | accept env garbage buffer => cases hi
  | turn j t =>
    cases hi
    rw [turnAt, if_pos rfl, hclient]
    rfl
  | greet j env =>
    cases hi
    rfl
  | finish j ending =>
    cases hi
    rfl

/-- **A step of a session** goes on with its conversation, and is heard on no other
    connection. -/
theorem acted_converses {a : ClientStep} {client client' : ClientSession} {p p' : Process}
    {turns : List TurnTaken} {spoken : List Utterance}
    (hends : ∀ message, a ≠ .finish (.bytes message))
    (h : Acted a client p client' p') (hspoken : Converses turns client spoken) :
    client'.session.id = client.session.id ∧ ∃ sent,
      KeepsToItself client.session.id p p' sent ∧
      Converses (turns ++ (turnIn client p a).toList) client'
        (spoken ++ utterances client.session.id sent) := by
  cases h with
  | stays hstays =>
    have hnone : turnIn client p a = none := by
      cases a with
      | turn t => exact if_neg fun hgoes => hgoes.2 (hstays t rfl hgoes.1)
      | _ => rfl
    rw [hnone]
    exact ⟨rfl, [], ⟨by simp, by simp⟩, by simpa using hspoken⟩
  | handles hlooping hlive hhandle =>
    rw [turnIn, if_pos ⟨hlooping, hlive⟩]
    exact handle_exchange hlooping hlive hhandle hspoken
  | ends hlooping hfinish =>
    simp only [turnIn, Option.toList_none, List.append_nil]
    refine finish_conversation hlooping ?_ hfinish hspoken
    rintro message rfl
    exact hends message rfl
  | @greets env _ _ th hcreated hstart =>
    simp only [turnIn, Option.toList_none, List.append_nil]
    rcases keepsToItself_reply hstart with ⟨via, hkeeps⟩
    rcases reply_ok.mp hstart with ⟨_, _, rfl⟩
    refine ⟨rfl, _, hkeeps, ?_⟩
    rcases hspoken with ⟨final, hconversation, hfinal⟩
    have hstate := hfinal (by simp [hcreated])
    rw [hcreated] at hconversation
    cases hconversation with
    | silent =>
      have hgreeting : utterances client.session.id
          [replyEvent env client.session.id via (ascii "220 FTP server is ready\r\n")] =
            [.said (ascii "220 FTP server is ready\r\n")] := utterances_replies env _ via [_]
      refine ⟨false, ?_, fun _ => hstate⟩
      dsimp only
      rw [List.nil_append, hgreeting]
      exact .greeted

/-! ## 4. Runs -/

theorem utterances_of_traffic {p p' : Process} {sent : List Event}
    (h : traffic p'.trace = traffic p.trace ++ sent) (id : Nat) :
    utterances id p'.trace = utterances id p.trace ++ utterances id sent := by
  rw [← utterances_traffic, h, utterances_append, utterances_traffic]

theorem leaves_of_quiet {p p' : Process} (h : Quiet p p') (k : Nat) : Leaves utterance k p p' [] := by
  have hsame : ∀ j, utterances j p'.trace = utterances j p.trace := by
    intro j
    rw [← utterances_traffic, h.traffic, utterances_traffic]
  exact ⟨(hsame k).trans (List.append_nil _).symm, fun j _ => hsame j⟩

theorem leaves_of_keepsToItself {k : Nat} {p p' : Process} {sent : List Event}
    (h : KeepsToItself k p p' sent) : Leaves utterance k p p' (utterances k sent) := by
  refine ⟨utterances_of_traffic h.1 k, fun j hne => ?_⟩
  have hmore := utterances_of_traffic h.1 j
  rw [utterances_byThread h.2 hne, List.append_nil] at hmore
  exact hmore

/-- Each session has had the conversation of the turns it took in the steps `before`. -/
def Conversing (start : FtpServer) (before : List ServerStep) (s : FtpServer) : Prop :=
  Viewing utterance (fun client => Converses (turnsOf client.session.id start before) client) s

/-- **One step** of any thread of the process. -/
theorem step_conversing {first s s' : FtpServer} {before : List ServerStep} {i : ServerStep}
    (hends : EndsLoop i) (hrun : run step first before = .ok s) (h : Conversing first before s)
    (hstep : s.step i = .ok s') : Conversing first (before ++ [i]) s' := by
  refine viewing_step h hstep ?_ ?_ ?_
  · intro client front hnot hspoken
    rwa [turnsOf_concat hrun hstep, turnAt_eq_none hnot, Option.toList_none, List.append_nil]
  · rintro env garbage buffer rfl
    refine ⟨_, [], rfl, rfl, leaves_of_quiet (acceptRound_quiet env garbage buffer s) _, false, ?_,
      fun _ => iff_of_false (by simp) (fun hstate => by cases hstate)⟩
    have hnone :
        turnsOf s.clientSessions.length first (before ++ [.accept env garbage buffer]) = [] := by
      rw [turnsOf_concat hrun hstep, turnsOf_eq_nil hrun (Nat.le_refl _)]
      rfl
    change Conversation .created false (turnsOf s.clientSessions.length first _) []
    rw [hnone]
    exact .silent
  · intro k a client client' p' front hi hid hclient hacted hspoken
    have hno : ∀ message, a ≠ .finish (.bytes message) := by
      rintro message rfl
      cases i with
      | finish session ending =>
        obtain ⟨rfl, hending⟩ : session = k ∧ ending = .bytes message := by
          simpa [clientStep] using hi
        rw [hending] at hends
        exact hends
      | _ => simp [clientStep] at hi
    rcases acted_converses hno hacted hspoken with ⟨hsame, sent, hkeeps, hconverses⟩
    rw [hid] at hsame hkeeps hconverses
    refine ⟨hsame, _, leaves_of_keepsToItself hkeeps, ?_⟩
    rwa [hsame, turnsOf_concat hrun hstep, turnAt_of_clientStep hi hclient]

theorem start_conversing {env : Environment} {address : Bytes} {port : Int} {t : Posix.FileTree}
    {s : FtpServer} (hstart : start env address port (Process.initial t) = some s) :
    Conversing s [] s := by
  rcases start_quiet hstart with ⟨hquiet, hnone⟩
  constructor
  · intro k client hclient
    rw [hnone] at hclient
    cases hclient
  · intro k _
    exact (leaves_of_quiet hquiet k).own

/-- **The conversation on a control connection.**  In every run of the server, for any number
    of sessions and any interleaving, what each session and its client have said to each
    other is a conversation of the protocol, on the turns that the session's own thread took
    in the run: a greeting, then for every message of the client what `process_command`
    replies to the command that is made of it, and nothing behind the last word, be it
    QUIT, a refused PASS or the client's silence. -/
theorem conversations {env : Environment} {address : Bytes} {port : Int} {t : Posix.FileTree}
    {steps : List ServerStep} {s s' : FtpServer}
    (hstart : start env address port (Process.initial t) = some s)
    (hends : ∀ i ∈ steps, EndsLoop i) (hrun : run step s steps = .ok s') :
    ∀ k client, s'.clientSessions[k]? = some client →
      ∃ final, Conversation client.phase final (turnsOf k s steps) (utterances k s'.process.trace) := by
  have hkept : ∀ (before : List ServerStep) (mid : FtpServer) (i : ServerStep) (next : FtpServer),
      (run step s before = .ok mid ∧ ((∀ j ∈ before, EndsLoop j) → Conversing s before mid)) →
        mid.step i = .ok next →
        run step s (before ++ [i]) = .ok next ∧
          ((∀ j ∈ before ++ [i], EndsLoop j) → Conversing s (before ++ [i]) next) := by
    rintro before mid i next ⟨hmid, hconversing⟩ hstep
    refine ⟨run_concat_ok.mpr ⟨mid, hmid, hstep⟩, fun hdone => ?_⟩
    rw [List.forall_mem_append, List.forall_mem_singleton] at hdone
    exact step_conversing hdone.2 hmid (hconversing hdone.1) hstep
  have hconversing : Conversing s steps s' :=
    (run_history hkept ⟨rfl, fun _ => start_conversing hstart⟩ hrun).2 hends
  intro k client hclient
  rcases hconversing.sessions k client hclient with ⟨rfl, final, hconversation, -⟩
  exact ⟨final, hconversation⟩

/-- A connection, a wrong PASS, and a client that quits. -/
def passAndQuit : List ServerStep :=
  [.accept .plain ⟨0, 0, .clear⟩ .zero, .greet 0 .plain,
    .turn 0 (SessionThread.lineTurn .plain "PASS ftp\r\n" (by decide)),
    .turn 0 (SessionThread.lineTurn .plain "QUIT\r\n" (by decide)), .finish 0 .closed]

theorem conversations_quit :
    ∃ s s' client final, start .plain (ascii "127.0.0.1") 21 (Process.initial .bare) = some s ∧
      run step s passAndQuit = .ok s' ∧ s'.clientSessions[0]? = some client ∧
      (turnsOf 0 s passAndQuit).length = 2 ∧
      Conversation client.phase final (turnsOf 0 s passAndQuit)
        (utterances 0 s'.process.trace) := by
  obtain ⟨s', hrun, hone⟩ := exists_of_reaches _ passAndQuit
    (fun s => (s.clientSessions[0]?).isSome)
    (show reaches step ((start .plain (ascii "127.0.0.1") 21 (Process.initial .bare)).get rfl)
      passAndQuit _ = true by decide +kernel)
  obtain ⟨client, hclient⟩ := Option.isSome_iff_exists.mp hone
  obtain ⟨final, hconversation⟩ := conversations (Option.some_get _).symm
    (by simp [passAndQuit, EndsLoop]) hrun 0 client hclient
  exact ⟨_, s', client, final, (Option.some_get _).symm, hrun, hclient, by decide +kernel,
    hconversation⟩

end FtpServer

end FtpsServer
