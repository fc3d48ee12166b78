import FtpsServer.FileRequests
import FtpsServer.FileHistory

/-!
# The server as a store of files

The files of the tree are a map from places to contents.  Whatever the sessions do with
files, in any interleaving, the server is one store with many clients: the files are those
of the store after their requests, and what the clients are told is what it answers.  What
STOR puts is what its handler writes, up to the first write that fails.
-/

namespace FtpsServer

open ByteString Cxx Machine Posix KeyedStore

/-! ## 1. What the clients are told -/

/-- The reply of DELE or RNTO, which says if a file was removed or renamed. -/
def tellsOutcome (message : Bytes) : Bool :=
  [ascii "250 DELE", ascii "250 RNTO", ascii "500 RNTO"].contains (message.take 8)

/-- Such a reply, or a listing, with its session. -/
def telling : Event → Option (Nat × Bytes)
  | .push (.control id) _ message _ => if tellsOutcome message then some (id, message) else none
  | .push (.data id) _ message _ => some (id, message)
  | _ => none

def tellings (events : List Event) : List (Nat × Bytes) := events.filterMap telling

@[simp] theorem tellings_append (front back : List Event) :
    tellings (front ++ back) = tellings front ++ tellings back := List.filterMap_append

theorem tellings_traffic (events : List Event) : tellings (traffic events) = tellings events := by
  unfold tellings traffic
  rw [List.filterMap_filter]
  apply List.filterMap_congr
  intro e _
  cases e <;> rfl

theorem tellings_of_traffic {p p' : Process} {sent : List Event}
    (h : traffic p'.trace = traffic p.trace ++ sent) :
    tellings p'.trace = tellings p.trace ++ tellings sent := by
  rw [← tellings_traffic, h, tellings_append, tellings_traffic]

theorem tellings_eq_nil {events : List Event} (h : ∀ e ∈ events, telling e = none) :
    tellings events = [] := List.filterMap_eq_nil_iff.mpr h

/-- What the client is told is the answer of the store. -/
def Tells (t : FileTree) (exchange : Nat × FileRequest × KeyedStore.Answer Location)
    (told : Nat × Bytes) : Prop :=
  told.1 = exchange.1 ∧
    match exchange.2 with
    | (_, .dropped done) =>
      told.2 = if done then ascii "250 DELE command is successful\r\n"
        else ascii "250 DELE command is failure\r\n"
    | (_, .moved done) =>
      if done then told.2 = ascii "250 RNTO command is successful\r\n"
      else
        told.2 = ascii "500 RNTO command is failure (specified file or directory already exists)\r\n" ∨
          told.2 = ascii "500 RNTO command is failure (system error occurs)\r\n"
    | (.look folder, .seen places) => Shows t folder places told.2
    | _ => False

/-- The commands between `p` and `q` are requests to the store on `t`, and their answers are
    what the clients are told. -/
structure Served (t : FileTree) (cs : List Handled) (p q : Process) : Prop where
  sameFixtures : FileTree.SameFixtures t q.fileTree
  files : q.fileTree.fileAt = afterAll (storeOf t) p.fileTree.fileAt (requests t cs)
  told : ∃ sent, tellings q.trace = tellings p.trace ++ sent ∧
    List.Forall₂ (Tells t) (exchanges (storeOf t) p.fileTree.fileAt (requests t cs)) sent

namespace Served

variable {t : FileTree} {cs ds : List Handled} {p q r : Process}

theorem requests_append (t : FileTree) (front back : List Handled) :
    requests t (front ++ back) = requests t front ++ requests t back := List.filterMap_append

theorem trans (h : Served t cs p q) (h' : Served t ds q r) : Served t (cs ++ ds) p r := by
  obtain ⟨sent, htold, hsent⟩ := h.told
  obtain ⟨sent', htold', hsent'⟩ := h'.told
  refine ⟨h'.sameFixtures, ?_, sent ++ sent', ?_, ?_⟩
  · rw [h'.files, h.files, requests_append, afterAll_append]
  · rw [htold', htold, List.append_assoc]
  · rw [requests_append, exchanges_append, ← h.files]
    exact List.rel_append hsent hsent'

/-- The files are the same, and nobody is told anything of them. -/
theorem of_silent (hsame : FileTree.SameFixtures t p.fileTree) (htree : q.fileTree = p.fileTree)
    (htold : tellings q.trace = tellings p.trace) (hnone : requests t cs = []) : Served t cs p q := by
  refine ⟨htree ▸ hsame, ?_, [], by rw [htold, List.append_nil], ?_⟩
  · rw [hnone, htree]
    rfl
  · rw [hnone]
    exact .nil

/-- One request that has an answer. -/
theorem of_request {c : Handled} {request : FileRequest} {a : KeyedStore.Answer Location} (message : Bytes)
    (hsame : FileTree.SameFixtures t p.fileTree) (hrequest : requestOf t c = some request)
    (hdoes : Does t p.fileTree q.fileTree request)
    (hanswer : answer (storeOf t) p.fileTree.fileAt request = some a)
    (htold : tellings q.trace = tellings p.trace ++ [(c.session.id, message)])
    (htells : Tells t (c.session.id, request, a) (c.session.id, message)) : Served t [c] p q := by
  have hone : requests t [c] = [(c.session.id, request)] := by
    rw [requests, List.filterMap_cons, hrequest]
    rfl
  refine ⟨hsame.trans hdoes.sameFixtures, ?_, _, htold, ?_⟩
  · rw [hone]
    exact hdoes.files
  · rw [hone, exchanges, hanswer]
    exact .cons htells .nil

end Served

/-! ## 2. Commands -/

section Commands

variable {t : FileTree} {k : Nat} {call : FtpSession.Call} {th th' : Thread}

@[simp] theorem tellings_nil : tellings [] = [] := rfl

@[simp] theorem tellings_reply (env : Environment) (id : Nat) (via : Via) (message : Bytes)
    (events : List Event) :
    tellings (replyEvent env id via message :: events) =
      (if tellsOutcome message then [(id, message)] else []) ++ tellings events := by
  unfold tellings
  rw [List.filterMap_cons, replyEvent]
  cases htells : tellsOutcome message <;> simp [telling, htells]

@[simp] theorem tellings_dataPush (env : Environment) (id : Nat) (via : Via) (message : Bytes)
    (events : List Event) :
    tellings (dataPushEvent env id via message :: events) = (id, message) :: tellings events := rfl

theorem replyCode_of_tellsOutcome {message : Bytes} (h : tellsOutcome message = true) :
    replyCode message = 250 ∨ replyCode message = 500 := by
  have hcode : replyCode message = digitsValue ((message.take 8).take 3) := by
    rw [replyCode, List.take_take]
    rfl
  simp only [tellsOutcome, List.contains_cons, List.contains_nil, Bool.or_false, Bool.or_eq_true,
    beq_iff_eq] at h
  rw [hcode]
  rcases h with h | h | h <;> rw [h] <;> decide

/-- The replies of the commands that ask the store for nothing tell nothing of it. -/
theorem tellsOutcome_of_says {messages : List Bytes} (h : Says th call messages)
    (hdele : call.input.command ≠ .dele) (hrnto : call.input.command ≠ .rnto) :
    ∀ message ∈ messages, tellsOutcome message = false := by
  -- most commands have other codes
  have hcodes : ∀ message ∈ messages, replyCode message ≠ 250 → replyCode message ≠ 500 →
      tellsOutcome message = false := by
    intro message _ hsuccess hfailure
    rw [Bool.eq_false_iff]
    intro htells
    rcases replyCode_of_tellsOutcome htells with h250 | h500
    · exact hsuccess h250
    · exact hfailure h500
  have hother : (∀ code ∈ replyCodes call.input.command, code ≠ 250 ∧ code ≠ 500) →
      ∀ message ∈ messages, tellsOutcome message = false := by
    intro hne message hmem
    rcases hne _ (h.code message hmem) with ⟨hsuccess, hfailure⟩
    exact hcodes message hmem hsuccess hfailure
  unfold Says at h
  cases hcommand : call.input.command <;> rw [hcommand] at h hother <;> dsimp only at h
  case dele => exact absurd hcommand hdele
  case rnto => exact absurd hcommand hrnto
  case user =>
    subst h
    rw [List.forall_mem_append, List.forall_mem_singleton]
    refine ⟨?_, by decide⟩
    split
    · exact List.forall_mem_singleton.mpr (by decide)
    · exact List.forall_mem_nil _
  case cwd | type | rnfr =>
    rcases h with rfl | rfl <;> exact List.forall_mem_singleton.mpr (by decide)
  case auth =>
    rcases h with ⟨-, rfl⟩ | ⟨-, rfl⟩ <;> exact List.forall_mem_singleton.mpr (by decide)
  case pasv =>
    rcases h with rfl | ⟨port, rfl⟩
    · exact List.forall_mem_singleton.mpr (by decide)
    · have hcode : replyCode (FtpSession.passiveReply th.session.controlChannel.address port) = 227 := rfl
      rw [List.forall_mem_singleton]
      exact hcodes _ (List.mem_singleton.mpr rfl) (by simp [hcode]) (by simp [hcode])
  case unknown =>
    subst h
    exact List.forall_mem_singleton.mpr (by decide)
  all_goals exact hother (by decide)

/-- The call, as the thread makes it. -/
abbrev handledCall (k : Nat) (th : Thread) (call : FtpSession.Call) : Handled := ⟨k, th.session, call⟩

theorem stor_served (hsame : FileTree.SameFixtures t th.process.fileTree)
    (hcommand : call.input.command = .stor)
    (h : FtpSession.commandStor call.env call.input th = .ok th') :
    Served t [handledCall k th call] th.process th'.process := by
  rcases FtpSession.commandStor_did h with ⟨path, via, dataVia, hpath, -, -, hdid⟩
  have hrequest : requests t [handledCall k th call] = [(th.session.id,
      .put (t.locate false (th.session.folder ++ path))
        (FtpSession.written call.env th.session.bufferFileSize))] := by
    simp [requests, requestOf, hcommand, hpath]
  have hdoes := stored_does hsame (th.session.folder ++ path)
    (FtpSession.written call.env th.session.bufferFileSize)
  rw [← hdid.fileTree] at hdoes
  have hpulls : ∀ results : List Received,
      tellings (results.map (FtpSession.pullEvent th.session.id dataVia)) = [] := by
    intro results
    apply tellings_eq_nil
    intro e he
    obtain ⟨result, -, rfl⟩ := List.mem_map.mp he
    rfl
  have hsignals : tellings (FtpSession.signals th.process.observers (th.session.folder ++ path)) = [] := by
    apply tellings_eq_nil
    intro e he
    obtain ⟨observer, -, rfl⟩ := List.mem_map.mp he
    rfl
  have hfirst : tellsOutcome (ascii "150 STOR file status is OK\r\n") = false := by decide
  have hlast : tellsOutcome (ascii "226 ASCII Transfer complete\r\n") = false := by decide
  refine ⟨hsame.trans hdoes.sameFixtures, ?_, [], ?_, ?_⟩
  · rw [hrequest]
    exact hdoes.files
  · rw [tellings_of_traffic hdid.traffic]
    simp [hpulls, hsignals, hfirst, hlast]
  · rw [hrequest]
    exact .nil

theorem dele_served (hsame : FileTree.SameFixtures t th.process.fileTree)
    (hkeeps : keepsToFiles t (handledCall k th call) = true) (hcommand : call.input.command = .dele)
    (h : FtpSession.commandDele call.env call.input th = .ok th') :
    Served t [handledCall k th call] th.process th'.process := by
  rcases FtpSession.commandDele_told h with ⟨path, via, hpath, hdid⟩
  simp only [keepsToFiles, hcommand, hpath, Option.all_eq_true, Option.isNone_iff_eq_none] at hkeeps
  rcases erase_does hsame th.session hkeeps with ⟨hdoes, hdone⟩
  rw [← hdid.fileTree] at hdoes
  have htext : ∀ done : Bool, tellsOutcome (if done then ascii "250 DELE command is successful\r\n"
      else ascii "250 DELE command is failure\r\n") = true := by decide
  refine Served.of_request _ hsame (by simp [requestOf, hcommand, hpath]) hdoes rfl ?_ ⟨rfl, rfl⟩
  rw [tellings_of_traffic hdid.traffic, tellings_reply, ite_not, if_congr hdone rfl rfl, htext]
  rfl

theorem rnto_served (hground : t.Grounded) (hsame : FileTree.SameFixtures t th.process.fileTree)
    (hkeeps : keepsToFiles t (handledCall k th call) = true) (hcommand : call.input.command = .rnto)
    (h : FtpSession.commandRnto call.env call.input th = .ok th') :
    Served t [handledCall k th call] th.process th'.process := by
  rcases FtpSession.commandRnto_did h with ⟨path, via, hpath, -, hdid⟩
  simp only [keepsToFiles, hcommand, hpath, Bool.and_eq_true, Option.all_eq_true, Bool.or_eq_true,
    Option.isNone_iff_eq_none] at hkeeps
  rcases rename_does hground hsame hkeeps.1 hkeeps.2 with ⟨hdoes, hdone⟩
  dsimp only at hdid
  rw [← hdid.fileTree] at hdoes
  have htraffic := hdid.traffic
  cases hexists : Directory.exists' th.process.fileTree (th.session.renamePath path) with
  | true =>
    simp only [hexists, Bool.true_eq_false, false_and, false_iff, Bool.not_eq_true] at hdone
    rw [hexists, if_pos rfl] at htraffic
    refine Served.of_request
      (ascii "500 RNTO command is failure (specified file or directory already exists)\r\n") hsame
      (by simp [requestOf, hcommand, hpath]) hdoes rfl ?_ ⟨rfl, by rw [hdone]; exact Or.inl rfl⟩
    rw [tellings_of_traffic htraffic, tellings_reply, if_pos (by decide)]
    rfl
  | false =>
    rw [hexists, if_neg (by decide)] at htraffic
    simp only [hexists, true_and] at hdone
    cases hrenamed : (th.process.fileTree.rename
        (Path.canonical th.process.fileTree th.session.argument) (th.session.renamePath path)).isSome with
    | true =>
      rw [hrenamed, if_pos rfl] at htraffic
      simp only [hrenamed, true_iff] at hdone
      refine Served.of_request (ascii "250 RNTO command is successful\r\n") hsame
        (by simp [requestOf, hcommand, hpath]) hdoes rfl ?_ ⟨rfl, by rw [hdone]; rfl⟩
      rw [tellings_of_traffic htraffic, tellings_reply, if_pos (by decide)]
      rfl
    | false =>
      rw [hrenamed, if_neg (by decide)] at htraffic
      simp only [hrenamed, Bool.false_eq_true, false_iff, Bool.not_eq_true] at hdone
      refine Served.of_request (ascii "500 RNTO command is failure (system error occurs)\r\n") hsame
        (by simp [requestOf, hcommand, hpath]) hdoes rfl ?_ ⟨rfl, by rw [hdone]; exact Or.inr rfl⟩
      rw [tellings_of_traffic htraffic, tellings_reply, if_pos (by decide)]
      rfl

theorem list_served (hsame : FileTree.SameFixtures t th.process.fileTree)
    (hcommand : call.input.command = .list)
    (h : FtpSession.commandList call.env call.input th = .ok th') :
    Served t [handledCall k th call] th.process th'.process := by
  rcases FtpSession.commandList_did h with ⟨via, dataVia, -, -, hdid⟩
  have hdoes : Does t th.process.fileTree th'.process.fileTree
      (.look (folderOf t th.session.folder)) := by
    rw [hdid.fileTree]
    exact Does.nothing rfl
  have hfirst : tellsOutcome (ascii "150 ASCII data connection\r\n") = false := by decide
  have hlast : tellsOutcome (ascii "226 ASCII Transfer complete\r\n") = false := by decide
  refine Served.of_request (FtpSession.listing th.process.fileTree th.session.folder) hsame
    (by simp [requestOf, hcommand]) hdoes rfl ?_ ⟨rfl, listing_shows hsame th.session.folder⟩
  rw [tellings_of_traffic hdid.traffic]
  simp [hfirst, hlast]

/-- The other commands leave the files alone. -/
theorem silent_served (hsame : FileTree.SameFixtures t th.process.fileTree)
    (hcommand : call.input.command ∉ [.stor, .dele, .rnto, .list])
    (h : FtpSession.processCommand call.env call.input th = .ok th') :
    Served t [handledCall k th call] th.process th'.process := by
  simp only [List.mem_cons, List.not_mem_nil, or_false, not_or] at hcommand
  rcases hcommand with ⟨hstor, hdele, hrnto, hlist⟩
  have hnone : requests t [handledCall k th call] = [] := by
    unfold requests requestOf
    rw [List.filterMap_cons]
    split
    · rfl
    · next r hr =>
      exfalso
      revert hr
      dsimp only
      split
      · contradiction
      · contradiction
      · contradiction
      · contradiction
      · simp
  refine Served.of_silent hsame ((FtpSession.processCommand_frame h).1.fileTree ?_) ?_ hnone
  · simp [hstor, hdele, hrnto]
  · rcases FtpSession.processCommand_replies h hlist hstor with ⟨via, messages, hsays, htraffic⟩
    have hcall : Says th call messages := hsays
    have hnothing : tellings (messages.map (replyEvent call.env th.session.id via)) = [] := by
      apply tellings_eq_nil
      intro e he
      obtain ⟨message, hmem, rfl⟩ := List.mem_map.mp he
      have hnot := tellsOutcome_of_says hcall hdele hrnto message hmem
      simp [replyEvent, telling, hnot]
    rw [tellings_of_traffic htraffic, hnothing, List.append_nil]

/-- **One command**, of any session. -/
theorem served_of_call (hground : t.Grounded) (hsame : FileTree.SameFixtures t th.process.fileTree)
    (hkeeps : keepsToFiles t (handledCall k th call) = true)
    (h : FtpSession.processCommand call.env call.input th = .ok th') :
    Served t [handledCall k th call] th.process th'.process := by
  by_cases hcommand : call.input.command ∈ [.stor, .dele, .rnto, .list]
  · have h' := h
    unfold FtpSession.processCommand at h'
    simp only [List.mem_cons, List.not_mem_nil, or_false] at hcommand
    rcases hcommand with hstor | hdele | hrnto | hlist
    · rw [hstor] at h'
      exact stor_served hsame hstor h'
    · rw [hdele] at h'
      exact dele_served hsame hkeeps hdele h'
    · rw [hrnto] at h'
      exact rnto_served hground hsame hkeeps hrnto h'
    · rw [hlist] at h'
      exact list_served hsame hlist h'
  · exact silent_served hsame hcommand h

end Commands

/-! ## 3. Runs -/

/-- A file that may be written takes all that is put there. -/
theorem foldl_putFile {t : FileTree} {l : Location} {mode : Mode} (hwrite : mode.write = true)
    (uploads : List Bytes) (content : Bytes) :
    uploads.foldl (putFile t l) (some (mode, content)) = some (mode, content ++ uploads.flatten) := by
  induction uploads generalizing content with
  | nil => rw [List.foldl_nil, List.flatten_nil, List.append_nil]
  | cons bytes uploads ih =>
    rw [List.foldl_cons, putFile_some, hwrite, if_pos rfl, ih, List.flatten_cons, List.append_assoc]

theorem served_accounted {t : FileTree} (hground : t.Grounded) :
    FtpServer.Accounted fun cs p q => FileTree.SameFixtures t p.fileTree →
      (∀ c ∈ cs, keepsToFiles t c = true) → Served t cs p q where
  trans h h' := by
    intro hsame hkeeps
    rw [List.forall_mem_append] at hkeeps
    have hfirst := h hsame hkeeps.1
    exact hfirst.trans (h' hfirst.sameFixtures hkeeps.2)
  quiet h := by
    intro hsame _
    refine Served.of_silent hsame h.fileTree ?_ rfl
    rw [← tellings_traffic, h.traffic, tellings_traffic]
  start h := by
    intro hsame _
    rcases reply_did h with ⟨via, -, hdid⟩
    refine Served.of_silent hsame hdid.fileTree ?_ rfl
    have hgreeting : tellsOutcome (ascii "220 FTP server is ready\r\n") = false := by decide
    rw [tellings_of_traffic hdid.traffic, tellings_reply, hgreeting]
    exact List.append_nil _
  pull {result th th'} h := by
    intro hsame _
    rcases controlPull_ok.mp h with ⟨via, -, rfl⟩
    refine Served.of_silent hsame rfl ?_ rfl
    have htraffic : traffic (th.process.emit (.pull (.control th.session.id) via result)).trace =
        traffic th.process.trace ++ [.pull (.control th.session.id) via result] := by
      simp [Event.isTraffic]
    rw [tellings_of_traffic htraffic]
    exact List.append_nil _
  call h := by
    intro hsame hkeeps
    exact served_of_call hground hsame (hkeeps _ (List.mem_singleton.mpr rfl)) h

namespace FtpServer

/-- **The server is a store of files.**  Take any run of the server, with any number of sessions
    and any interleaving, in which no command removes, moves or replaces anything but
    files.  Then no path leads elsewhere at the end than at the beginning, the files are
    those of the store after the requests of all sessions in the order they were handled, and
    what the clients are told of removals, renamings and listings is what the store
    answers. -/
theorem file_store {s s' : FtpServer} {steps : List ServerStep}
    (hground : s.process.fileTree.Grounded) (hrun : run step s steps = .ok s')
    (hkeeps : ∀ c ∈ s.handled steps, keepsToFiles s.process.fileTree c = true) :
    let t := s.process.fileTree
    let asked := requests t (s.handled steps)
    FileTree.SameFixtures t s'.process.fileTree ∧
      s'.process.fileTree.fileAt = afterAll (storeOf t) t.fileAt asked ∧
      ∃ sent, tellings s'.process.trace = tellings s.process.trace ++ sent ∧
        List.Forall₂ (Tells t) (exchanges (storeOf t) t.fileAt asked) sent := by
  have hserved := (served_accounted hground).run hrun (.refl _) hkeeps
  exact ⟨hserved.sameFixtures, hserved.files, hserved.told⟩

/-- A server on an empty tree. -/
def onBare : FtpServer := (start .plain (ascii "127.0.0.1") 21 (Process.initial .bare)).get rfl

/-- Two sessions upload to one file, one from the root and one from the working directory. -/
def sharedUploads : List ServerStep :=
  let upload := fun bytes : Chunk =>
    SessionThread.lineTurn { Environment.plain with data := [bytes] } "STOR f\r\n" (by decide)
  [.accept .plain ⟨0, 0, .clear⟩ .zero, .accept .plain ⟨0, 0, .clear⟩ .zero, .greet 0 .plain,
    .greet 1 .plain, .turn 0 (SessionThread.lineTurn .plain "CWD /\r\n" (by decide)),
    .turn 0 SessionThread.portTurn, .turn 1 SessionThread.portTurn,
    .turn 0 (upload ⟨ascii "d", by decide, by decide⟩),
    .turn 1 (upload ⟨ascii "e", by decide, by decide⟩)]

/-- Then it is listed and renamed. -/
def sharedFile : List ServerStep :=
  sharedUploads ++ [.turn 0 SessionThread.portTurn,
    .turn 0 (SessionThread.lineTurn .plain "LIST /\r\n" (by decide)),
    .turn 1 (SessionThread.lineTurn .plain "RNFR f\r\n" (by decide)),
    .turn 1 (SessionThread.lineTurn .plain "RNTO g\r\n" (by decide))]

theorem file_store_shared :
    ∃ s', run step onBare sharedFile = .ok s' ∧
      s'.process.fileTree.fileAt [ascii "g"] = some (FileTree.createMode, ascii "de") ∧
      ∃ sent, tellings s'.process.trace = sent ∧ sent.length = 2 ∧
        List.Forall₂ (Tells onBare.process.fileTree)
          (exchanges (storeOf onBare.process.fileTree) onBare.process.fileTree.fileAt
            (requests onBare.process.fileTree (onBare.handled sharedFile))) sent := by
  have hkeeps : ∀ c ∈ onBare.handled sharedFile, keepsToFiles onBare.process.fileTree c = true :=
    List.all_eq_true.mp (by decide +kernel)
  obtain ⟨s', hrun, hend⟩ := exists_of_reaches onBare sharedFile
    (fun s => decide (s.process.fileTree.fileAt [ascii "g"] = some (FileTree.createMode, ascii "de")) &&
      decide ((tellings s.process.trace).length = 2))
    (show reaches step onBare sharedFile _ = true by decide +kernel)
  rw [Bool.and_eq_true, decide_eq_true_eq, decide_eq_true_eq] at hend
  obtain ⟨-, -, sent, htold, hanswers⟩ := file_store ⟨rfl, rfl⟩ hrun hkeeps
  have hnothing : tellings onBare.process.trace = [] := rfl
  rw [hnothing, List.nil_append] at htold
  exact ⟨s', hrun, hend.1, sent, htold, htold ▸ hend.2, hanswers⟩

/-- What the STOR handlers wrote to the place, in order. -/
def writtenTo (s : FtpServer) (steps : List ServerStep) (l : Location) : List Bytes :=
  (requests s.process.fileTree (s.handled steps)).filterMap fun r => r.2.putTo l

/-- **What is written stays, once.**  Where no DELE and no RNTO of such a run names a place, the
    file there has what it had before and then all that the STOR handlers wrote to the place,
    for whatever session and by whatever path; and where there was none, but one may be,
    there is a new one as soon as a STOR opens it.  That may be less than was uploaded: a
    size from ALLO ends the receive loop, and a write that fails is not looked at. -/
theorem written_kept {s s' : FtpServer} {steps : List ServerStep}
    (hground : s.process.fileTree.Grounded) (hrun : run step s steps = .ok s')
    (hkeeps : ∀ c ∈ s.handled steps, keepsToFiles s.process.fileTree c = true) (l : Location)
    (hnamed : ∀ r ∈ requests s.process.fileTree (s.handled steps), ¬ r.2.Takes l) :
    (∀ mode content, s.process.fileTree.fileAt l = some (mode, content) → mode.write = true →
      s'.process.fileTree.fileAt l = some (mode, content ++ (s.writtenTo steps l).flatten)) ∧
    (s.process.fileTree.fileAt l = none → freePlace s.process.fileTree l = true →
      s'.process.fileTree.fileAt l =
        if s.writtenTo steps l = [] then none
        else some (FileTree.createMode, (s.writtenTo steps l).flatten)) := by
  have hserved := (served_accounted hground).run hrun (.refl _) hkeeps
  have hfile : s'.process.fileTree.fileAt l =
      (s.writtenTo steps l).foldl (putFile s.process.fileTree l) (s.process.fileTree.fileAt l) := by
    rw [hserved.files, afterAll_apply _ hnamed]
    rfl
  rw [hfile]
  constructor
  · intro mode content hbefore hwrite
    rw [hbefore, foldl_putFile hwrite]
  · intro hnone hfree
    rw [hnone]
    cases s.writtenTo steps l with
    | nil => rfl
    | cons bytes uploads =>
      rw [List.foldl_cons, putFile_none, hfree, if_pos rfl, foldl_putFile rfl]
      rfl

theorem written_kept_shared :
    ∃ s', run step onBare sharedUploads = .ok s' ∧
      s'.process.fileTree.fileAt [ascii "f"] = some (FileTree.createMode, ascii "de") ∧
      s'.process.fileTree.fileAt [ascii "f"] =
        if onBare.writtenTo sharedUploads [ascii "f"] = [] then none
        else some (FileTree.createMode, (onBare.writtenTo sharedUploads [ascii "f"]).flatten) := by
  have hkeeps : ∀ c ∈ onBare.handled sharedUploads, keepsToFiles onBare.process.fileTree c = true :=
    List.all_eq_true.mp (by decide +kernel)
  have hnamed : ∀ r ∈ requests onBare.process.fileTree (onBare.handled sharedUploads),
      ¬ r.2.Takes [ascii "f"] := by
    decide +kernel
  obtain ⟨s', hrun, hfile⟩ := exists_of_reaches onBare sharedUploads
    (fun s => s.process.fileTree.fileAt [ascii "f"] = some (FileTree.createMode, ascii "de"))
    (show reaches step onBare sharedUploads _ = true by decide +kernel)
  exact ⟨s', hrun, of_decide_eq_true hfile,
    (written_kept ⟨rfl, rfl⟩ hrun hkeeps [ascii "f"] hnamed).2 rfl (by decide)⟩

end FtpServer

end FtpsServer
