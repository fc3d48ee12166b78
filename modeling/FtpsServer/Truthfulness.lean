import FtpsServer.Replies

/-!
# Success replies and what took effect

A client that reads a code from 200 to 299 believes that its command was carried out.
DELE, STOR, LIST and PROT say so in every case, CWD, PORT and TYPE only when it is true,
and RNTO as the kernel has it, to which the renaming of an entry to its own name is a
success.  STOR looks at no write, and its receive loop with an allocated size loses a chunk
when the size is used up before the data is.
-/

namespace FtpsServer

open ByteString Cxx Machine

/-! ## 1. What a client is told -/

def isSuccess (message : Bytes) : Bool := 200 ≤ replyCode message && replyCode message < 300

/-- A completion reply from 200 to 299 is sent. -/
def Completed (th th' : Thread) : Prop :=
  ∃ new, Replied th th' new ∧ ∃ message ∈ new, isSuccess message = true

theorem completed_iff {th th' : Thread} {new : List Bytes} (h : Replied th th' new) :
    Completed th th' ↔ ∃ message ∈ new, isSuccess message = true := by
  constructor
  · rintro ⟨new', hnew', hsuccess⟩
    rwa [h.unique hnew']
  · intro hsuccess
    exact ⟨new, h, hsuccess⟩

theorem Did.completed_one_iff {env : Environment} {th th' : Thread} {session : FtpSession}
    {t : Posix.FileTree} {via : Via} {message : Bytes}
    (h : Did th th' session t [replyEvent env th.session.id via message]) :
    Completed th th' ↔ isSuccess message = true := by
  rw [completed_iff h.replied, replies_replyEvent, replies_nil]
  simp

/-- The traffic from `th` to `th'` is such. -/
def Carries (th th' : Thread) (P : List Event → Prop) : Prop :=
  ∃ sent, traffic th'.process.trace = traffic th.process.trace ++ sent ∧ P sent

theorem Did.carries_iff {th th' : Thread} {session : FtpSession} {t : Posix.FileTree}
    {sent : List Event} (h : Did th th' session t sent) (P : List Event → Prop) :
    Carries th th' P ↔ P sent := by
  constructor
  · rintro ⟨sent', hsent', hP⟩
    rw [h.traffic] at hsent'
    rwa [List.append_cancel_left hsent']
  · intro hP
    exact ⟨sent, h.traffic, hP⟩

/-- An observer is signalled. -/
def isSignal : Event → Bool
  | .notifySignal _ _ => true
  | _ => false

/-- Some observer of `FTP_EVENT_FILE_PUT` is notified. -/
def Notified (th th' : Thread) : Prop := Carries th th' fun sent => sent.any isSignal = true

@[simp] theorem isSignal_replyEvent (env : Environment) (id : Nat) (via : Via) (message : Bytes) :
    isSignal (replyEvent env id via message) = false := rfl

@[simp] theorem isSignal_dataPushEvent (env : Environment) (id : Nat) (via : Via)
    (message : Bytes) : isSignal (dataPushEvent env id via message) = false := rfl

/-- The result of a pull on the data channel of session `id`. -/
def pullOf (id : Nat) : Event → Option Received
  | .pull (.data session) _ result => if session = id then some result else none
  | _ => none

/-- A push on the data channel of session `id`, and its result. -/
def pushOf (id : Nat) : Event → Option (Bytes × Int)
  | .push (.data session) _ message result => if session = id then some (message, result) else none
  | _ => none

/-- The pulls on the data channel of session `id`. -/
def pulls (id : Nat) (events : List Event) : List Received := events.filterMap (pullOf id)

/-- The pushes on the data channel of session `id`. -/
def pushes (id : Nat) (events : List Event) : List (Bytes × Int) := events.filterMap (pushOf id)

/-- From `th` to `th'` the data channel is pulled with these results. -/
def Pulled (th th' : Thread) (results : List Received) : Prop :=
  Carries th th' fun sent => pulls th.session.id sent = results

/-- From `th` to `th'` these messages are pushed on the data channel, with these results. -/
def Pushed (th th' : Thread) (messages : List (Bytes × Int)) : Prop :=
  Carries th th' fun sent => pushes th.session.id sent = messages

@[simp] theorem pulls_nil (id : Nat) : pulls id [] = [] := rfl

@[simp] theorem pulls_append (id : Nat) (front back : List Event) :
    pulls id (front ++ back) = pulls id front ++ pulls id back := List.filterMap_append

@[simp] theorem pulls_replyEvent (env : Environment) (id session : Nat) (via : Via)
    (message : Bytes) (events : List Event) :
    pulls id (replyEvent env session via message :: events) = pulls id events := rfl

@[simp] theorem pulls_pullEvents (id : Nat) (via : Via) (results : List Received) :
    pulls id (results.map (FtpSession.pullEvent id via)) = results := by
  have hsome : pullOf id ∘ FtpSession.pullEvent id via = some := by
    funext result
    simp [FtpSession.pullEvent, pullOf]
  unfold pulls
  rw [List.filterMap_map, hsome, List.filterMap_some]

@[simp] theorem pulls_signals (id : Nat) (observers : FtpNotifier) (filePath : Bytes) :
    pulls id (FtpSession.signals observers filePath) = [] := by
  simp [pulls, FtpSession.signals, pullOf]

@[simp] theorem pushes_nil (id : Nat) : pushes id [] = [] := rfl

@[simp] theorem pushes_replyEvent (env : Environment) (id session : Nat) (via : Via)
    (message : Bytes) (events : List Event) :
    pushes id (replyEvent env session via message :: events) = pushes id events := rfl

@[simp] theorem pushes_dataPushEvent (env : Environment) (id : Nat) (via : Via) (message : Bytes)
    (events : List Event) :
    pushes id (dataPushEvent env id via message :: events) =
      (message, env.send (.data id) message) :: pushes id events := by
  simp [pushes, pushOf, dataPushEvent]

namespace FtpSession

/-! ## 2. The receive loop -/

/-- All the data, up to an orderly end. -/
def wholeStream (env : Environment) : List Received :=
  env.data.map (fun chunk => Received.bytes chunk.bytes) ++ [.closed]

/-- Some of the chunks, but not all of them, have exactly `size` bytes. -/
def FillsEarly (chunks : List Chunk) (size : Int) : Prop :=
  ∃ front back, chunks = front ++ back ∧ back ≠ [] ∧ (front.flatMap Chunk.bytes).length = size

theorem fillsEarly_nil (size : Int) : ¬ FillsEarly [] size := by
  rintro ⟨front, back, heq, hback, -⟩
  exact hback (List.append_eq_nil_iff.mp heq.symm).2

theorem fillsEarly_cons (chunk : Chunk) (chunks : List Chunk) (size : Int) :
    FillsEarly (chunk :: chunks) size ↔
      size = 0 ∨ FillsEarly chunks (size - chunk.bytes.length) := by
  constructor
  · rintro ⟨front, back, heq, hback, hsize⟩
    cases front with
    | nil => exact Or.inl hsize.symm
    | cons first front =>
      obtain ⟨rfl, htail⟩ := List.cons_eq_cons.mp heq
      refine Or.inr ⟨front, back, htail, hback, ?_⟩
      rw [List.flatMap_cons, List.length_append] at hsize
      omega
  · rintro (rfl | ⟨front, back, rfl, hback, hsize⟩)
    · exact ⟨[], chunk :: chunks, rfl, by simp, rfl⟩
    · refine ⟨chunk :: front, back, rfl, hback, ?_⟩
      rw [List.flatMap_cons, List.length_append]
      omega

/-- **A size that is used up early**: the loop pulls one chunk more and drops it, and leaves
    what comes behind. -/
theorem used_up_early (env : Environment) {chunks : List Chunk} {size : Int}
    (h : FillsEarly chunks size) :
    ∃ front chunk back, chunks = front ++ chunk :: back ∧
      (front.flatMap Chunk.bytes).length = size ∧
      pulledAllocated env chunks size =
        front.map (fun chunk => Received.bytes chunk.bytes) ++ [.bytes chunk.bytes] ∧
      handedAllocated chunks size = front.flatMap Chunk.bytes := by
  induction chunks generalizing size with
  | nil => exact absurd h (fillsEarly_nil size)
  | cons chunk chunks ih =>
    rw [pulledAllocated, handedAllocated]
    by_cases hsize : size = 0
    · rw [if_neg (not_not_intro hsize), if_neg (not_not_intro hsize)]
      exact ⟨[], chunk, chunks, rfl, hsize.symm, rfl, rfl⟩
    · have hlater := ((fillsEarly_cons chunk chunks size).mp h).resolve_left hsize
      rcases ih hlater with ⟨front, last, back, hchunks, hlength, hpulled, hwritten⟩
      rw [if_pos hsize, if_pos hsize, hpulled, hwritten]
      refine ⟨chunk :: front, last, back, by rw [hchunks]; rfl, ?_, rfl, rfl⟩
      rw [List.flatMap_cons, List.length_append]
      omega

/-- Otherwise the loop pulls and writes all. -/
theorem not_used_up_early (env : Environment) {chunks : List Chunk} {size : Int}
    (h : ¬ FillsEarly chunks size) :
    pulledAllocated env chunks size =
        chunks.map (fun chunk => Received.bytes chunk.bytes) ++ [endOfData env] ∧
      handedAllocated chunks size = chunks.flatMap Chunk.bytes := by
  induction chunks generalizing size with
  | nil => exact ⟨rfl, rfl⟩
  | cons chunk chunks ih =>
    rw [fillsEarly_cons, not_or] at h
    rcases ih h.2 with ⟨hpulled, hwritten⟩
    rw [pulledAllocated, handedAllocated, if_pos h.1, if_pos h.1, hpulled, hwritten]
    exact ⟨rfl, rfl⟩

/-- With an allocated size the loop pulls the whole stream exactly when it ends orderly and
    the size is not used up before. -/
theorem pulledAllocated_whole_iff (env : Environment) (chunks : List Chunk) (size : Int) :
    pulledAllocated env chunks size =
        chunks.map (fun chunk => Received.bytes chunk.bytes) ++ [.closed] ↔
      env.dataClosed = true ∧ ¬ FillsEarly chunks size := by
  by_cases hearly : FillsEarly chunks size
  · refine iff_of_false ?_ (fun h => h.2 hearly)
    rcases used_up_early env hearly with ⟨front, chunk, back, -, -, hpulled, -⟩
    intro hwhole
    -- the last pull is of a chunk, and not the end
    have hlast := (List.append_inj' (hpulled.symm.trans hwhole) rfl).2
    cases hlast
  · rw [(not_used_up_early env hearly).1, List.append_cancel_left_eq, endOfData]
    cases env.dataClosed <;> simp [hearly]

/-- **The whole stream** is pulled exactly when it ends orderly, and no allocated size is
    used up before. -/
theorem pulled_whole_iff (env : Environment) (size : Int) :
    pulled env size = wholeStream env ↔
      env.dataClosed = true ∧ (0 < size → ¬ FillsEarly env.data size) := by
  unfold pulled wholeStream
  by_cases hsize : size > 0
  · rw [if_pos hsize, pulledAllocated_whole_iff]
    simp [hsize]
  · rw [if_neg hsize, endOfData]
    cases env.dataClosed <;> simp [hsize]

/-- Every write of the data to the file succeeds. -/
def AllFits (env : Environment) : Prop :=
  ∀ n, env.room = some n → (env.data.flatMap Chunk.bytes).length ≤ n

theorem handed_whole (env : Environment) (size : Int)
    (h : 0 < size → ¬ FillsEarly env.data size) :
    handed env size = env.data.flatMap Chunk.bytes := by
  unfold handed
  by_cases hsize : size > 0
  · rw [if_pos hsize, (not_used_up_early env (h hsize)).2]
  · rw [if_neg hsize]

theorem written_whole (env : Environment) (size : Int)
    (h : 0 < size → ¬ FillsEarly env.data size) (hfits : AllFits env) :
    written env size = env.data.flatMap Chunk.bytes := by
  rw [written, handed_whole env size h]
  cases hroom : env.room with
  | none => rfl
  | some n => exact List.take_of_length_le (hfits n hroom)

/-! ## 3. Effects -/

/-- The commands whose success replies are looked at. -/
def completes : FtpCommandT → Bool
  | .dele | .cwd | .rnto | .stor | .list | .port | .type | .prot => true
  | _ => false

/-- **What a command is for**: DELE removes the file, CWD sets the folder, RNTO moves an entry,
    STOR opens the file and appends all data up to an orderly end, and no write fails, LIST
    reads the folder and hands the whole listing to the data channel, PORT connects, TYPE and
    PROT know the value. -/
def TookEffect (th : Thread) (c : Call) (th' : Thread) : Prop :=
  let t := th.process.fileTree
  match c.input.command with
  | .dele => ∃ path t', c.input.getArgument 0 = .ok path ∧
      t.remove (Path.canonical t (th.session.delePath t path)) = some t' ∧
      th'.process.fileTree = t'
  | .cwd => ∃ argument folder, c.input.getArgument 0 = .ok argument ∧
      th.session.pathFolder argument = .ok folder ∧
      Directory.exists' t (Path.canonical t folder) = true ∧
      th'.session.folder = Path.canonical t folder
  | .rnto => ∃ path t', c.input.getArgument 0 = .ok path ∧
      Directory.exists' t (th.session.renamePath path) = false ∧
      t.Renames (Path.canonical t th.session.argument) (th.session.renamePath path) ∧
      t.rename (Path.canonical t th.session.argument) (th.session.renamePath path) = some t' ∧
      th'.process.fileTree = t'
  | .stor => ∃ fileName t' l, c.input.getArgument 0 = .ok fileName ∧
      t.openAppend (th.session.folder ++ fileName) = some (t', l) ∧
      Pulled th th' (wholeStream c.env) ∧ AllFits c.env ∧
      th'.process.fileTree = t'.append l (c.env.data.flatMap Chunk.bytes)
  | .list => (Directory.getFiles t th.session.folder []).1 = OPERATION_SUCCESS ∧
      Pushed th th' [(listing t th.session.folder, (listing t th.session.folder).length)]
  | .port => ∃ address text port, c.input.getArgument 0 = .ok address ∧
      c.input.getArgument 1 = .ok text ∧ stoi text = .ok port ∧ c.env.connect = true ∧
      th'.session.dataChannel.address = address ∧ th'.session.dataChannel.port = port
  | .type => c.input.getArgument 0 = .ok (ascii "I") ∧ th'.session.transferType = .binary ∨
      c.input.getArgument 0 = .ok (ascii "A") ∧ th'.session.transferType = .ascii
  | .prot => ∃ text level, c.input.getArgument 0 = .ok text ∧ protectionOf text = some level ∧
      th'.session.protectionLevel = level
  | _ => False

/-- Success replies are sent for what took effect, and observers hear of nothing else. -/
structure Truthful (th : Thread) (c : Call) (th' : Thread) : Prop where
  reply : completes c.input.command = true → (Completed th th' ↔ TookEffect th c th')
  signal : Notified th th' → c.input.command = .stor ∧ TookEffect th c th'

/-- **A call that cannot go wrong unnoticed**: DELE finds something it can remove, STOR a file
    it can open and with room for the data, a stream that ends orderly and no allocated size
    that is used up before; RNTO renames no entry to its own name; LIST can read the folder
    and send the whole listing, and PROT knows the level. -/
def Honest (th : Thread) (c : Call) : Prop :=
  let t := th.process.fileTree
  match c.input.command with
  | .dele => ∀ path, c.input.getArgument 0 = .ok path →
      (t.remove (Path.canonical t (th.session.delePath t path))).isSome = true
  | .stor => ∀ fileName, c.input.getArgument 0 = .ok fileName →
      (t.openAppend (th.session.folder ++ fileName)).isSome = true ∧ c.env.dataClosed = true ∧
        (0 < th.session.bufferFileSize → ¬ FillsEarly c.env.data th.session.bufferFileSize) ∧
        AllFits c.env
  | .rnto => ∀ path, c.input.getArgument 0 = .ok path →
      Directory.exists' t (th.session.renamePath path) = false →
      (t.rename (Path.canonical t th.session.argument) (th.session.renamePath path)).isSome = true →
      t.Renames (Path.canonical t th.session.argument) (th.session.renamePath path)
  | .list => (Directory.getFiles t th.session.folder []).1 = OPERATION_SUCCESS ∧
      c.env.send (.data th.session.id) (listing t th.session.folder) =
        (listing t th.session.folder).length
  | .prot => ∀ text, c.input.getArgument 0 = .ok text → (protectionOf text).isSome = true
  | _ => True

variable {c : Call} {th th' : Thread}

/-! ## 4. Commands that say more than is true -/

theorem dele_truthful_iff (hcommand : c.input.command = .dele) (h : call th c = .ok th') :
    (Completed th th' ↔ TookEffect th c th') ↔ Honest th c := by
  rw [call_dele hcommand] at h
  unfold TookEffect Honest
  rw [hcommand]
  rcases commandDele_did h with ⟨path, message, via, hpath, hmessage, _, hdid⟩
  have hcompleted : Completed th th' := by
    rw [hdid.completed_one_iff]
    rcases hmessage with rfl | rfl <;> decide
  dsimp only
  rw [iff_true_left hcompleted]
  constructor
  · rintro ⟨path', t', hpath', hremove, -⟩ path'' hpath''
    rw [hpath'] at hpath''
    cases hpath''
    rw [hremove]
    rfl
  · intro hhonest
    rcases Option.isSome_iff_exists.mp (hhonest path hpath) with ⟨t', hremove⟩
    refine ⟨path, t', hpath, hremove, ?_⟩
    rw [hdid.fileTree, File.erase, hremove]

theorem prot_truthful_iff (hcommand : c.input.command = .prot) (h : call th c = .ok th') :
    (Completed th th' ↔ TookEffect th c th') ↔ Honest th c := by
  rw [call_prot hcommand] at h
  unfold TookEffect Honest
  rw [hcommand]
  rcases commandProt_did h with ⟨text, via, htext, _, hdid⟩
  have hcompleted : Completed th th' := hdid.completed_one_iff.mpr (by decide)
  dsimp only
  rw [iff_true_left hcompleted]
  constructor
  · rintro ⟨text', level, htext', hlevel, -⟩ text'' htext''
    rw [htext'] at htext''
    cases htext''
    rw [hlevel]
    rfl
  · intro hhonest
    rcases Option.isSome_iff_exists.mp (hhonest text htext) with ⟨level, hlevel⟩
    refine ⟨text, level, htext, hlevel, ?_⟩
    rw [hdid.session, hlevel]
    rfl

theorem list_truthful_iff (hcommand : c.input.command = .list) (h : call th c = .ok th') :
    (Completed th th' ↔ TookEffect th c th') ↔ Honest th c := by
  rw [call_list hcommand] at h
  unfold TookEffect Honest
  rw [hcommand]
  rcases commandList_did h with ⟨via, dataVia, _, _, hdid⟩
  have hcompleted : Completed th th' := by
    rw [completed_iff hdid.replied]
    refine ⟨ascii "226 ASCII Transfer complete\r\n", ?_, by decide⟩
    simp [replies, replyOf, replyEvent, dataPushEvent]
  dsimp only
  rw [iff_true_left hcompleted]
  apply and_congr_right
  intro _
  rw [Pushed, hdid.carries_iff]
  simp

theorem stor_completed (hcommand : c.input.command = .stor) (h : call th c = .ok th') :
    Completed th th' := by
  rw [call_stor hcommand] at h
  rcases commandStor_did h with ⟨_, via, _, _, _, _, hdid⟩
  rw [completed_iff hdid.replied]
  exact ⟨ascii "226 ASCII Transfer complete\r\n", by simp, by decide⟩

/-- What a STOR pulls and writes. -/
theorem stor_pulls_and_writes {fileName : Bytes} (hcommand : c.input.command = .stor)
    (hname : c.input.getArgument 0 = .ok fileName) (h : call th c = .ok th') :
    (∀ results, Pulled th th' results ↔ results = pulled c.env th.session.bufferFileSize) ∧
      th'.process.fileTree =
        stored (transferTree th.process.fileTree (th.session.folder ++ fileName))
          (transferFile th.process.fileTree (th.session.folder ++ fileName))
          (written c.env th.session.bufferFileSize) := by
  rw [call_stor hcommand] at h
  rcases commandStor_did h with ⟨fileName', via, dataVia, hname', -, -, hdid⟩
  rw [hname] at hname'
  cases hname'
  refine ⟨?_, hdid.fileTree⟩
  intro results
  rw [Pulled, hdid.carries_iff]
  simp [eq_comm]

theorem stor_truthful_iff (hcommand : c.input.command = .stor) (h : call th c = .ok th') :
    (Completed th th' ↔ TookEffect th c th') ↔ Honest th c := by
  obtain ⟨fileName, -, -, hname, -⟩ := commandStor_did ((call_stor hcommand).symm.trans h)
  obtain ⟨hpulled, htree⟩ := stor_pulls_and_writes hcommand hname h
  have hwhole := pulled_whole_iff c.env th.session.bufferFileSize
  unfold TookEffect Honest
  rw [hcommand]
  dsimp only
  rw [iff_true_left (stor_completed hcommand h)]
  constructor
  · rintro ⟨fileName', t', l, hname', hopen, hstream, hfits, -⟩ fileName'' hname''
    rw [hname'] at hname''
    cases hname''
    rw [hopen]
    rcases hwhole.mp ((hpulled _).mp hstream).symm with ⟨hclosed, hearly⟩
    exact ⟨rfl, hclosed, hearly, hfits⟩
  · intro hhonest
    rcases hhonest fileName hname with ⟨hopens, hclosed, hearly, hfits⟩
    rcases Option.isSome_iff_exists.mp hopens with ⟨⟨t', l⟩, hopen⟩
    refine ⟨fileName, t', l, hname, hopen, (hpulled _).mpr (hwhole.mpr ⟨hclosed, hearly⟩).symm,
      hfits, ?_⟩
    rw [htree, transferTree, transferFile, hopen, written_whole _ _ hearly hfits]
    rfl

/-- RNTO says that it renamed when the kernel does; that moves nothing where the two names are
    one. -/
theorem rnto_truthful_iff (hcommand : c.input.command = .rnto) (h : call th c = .ok th') :
    (Completed th th' ↔ TookEffect th c th') ↔ Honest th c := by
  rw [call_rnto hcommand] at h
  unfold TookEffect Honest
  rw [hcommand]
  rcases commandRnto_did h with ⟨path, via, hpath, _, hdid⟩
  rw [hdid.completed_one_iff, hpath]
  dsimp only
  cases hexists : Directory.exists' th.process.fileTree (th.session.renamePath path) with
  | true =>
    apply iff_of_true
    · refine iff_of_false (by rw [if_pos rfl]; decide) ?_
      rintro ⟨path', t', hpath', hnew, -⟩
      cases hpath'
      rw [hexists] at hnew
      cases hnew
    · rintro path' hpath' hnew -
      cases hpath'
      rw [hexists] at hnew
      cases hnew
  | false =>
    cases hrename : th.process.fileTree.rename
        (Path.canonical th.process.fileTree th.session.argument) (th.session.renamePath path) with
    | none =>
      apply iff_of_true
      · refine iff_of_false (by rw [if_neg (by decide), if_neg (by decide)]; decide) ?_
        rintro ⟨path', t', hpath', -, -, hmoved, -⟩
        cases hpath'
        rw [hrename] at hmoved
        cases hmoved
      · rintro path' hpath' - hmoved
        cases hpath'
        rw [hrename] at hmoved
        cases hmoved
    | some t' =>
      have hsome : (some t').isSome = true := rfl
      have hsuccess : isSuccess (ascii "250 RNTO command is successful\r\n") = true := by decide
      rw [if_neg (by decide), if_pos hsome, iff_true_left hsuccess]
      constructor
      · rintro ⟨path', t'', hpath', -, hrenames, -⟩ path'' hpath'' - -
        cases hpath'
        cases hpath''
        exact hrenames
      · intro hhonest
        refine ⟨path, t', rfl, hexists, hhonest path rfl hexists (by rw [hrename]; rfl), hrename, ?_⟩
        rw [hdid.fileTree, if_neg (by simp [hexists]), hrename]
        rfl

/-! ## 5. Commands that say what is true -/

theorem cwd_truthful (hcommand : c.input.command = .cwd) (h : call th c = .ok th') :
    Completed th th' ↔ TookEffect th c th' := by
  rw [call_cwd hcommand] at h
  unfold TookEffect
  rw [hcommand]
  rcases commandCwd_did h with ⟨argument, folder, via, hargument, hfolder, _, hdid⟩
  rw [hdid.completed_one_iff]
  cases hfound : Directory.exists' th.process.fileTree
      (Path.canonical th.process.fileTree folder) with
  | true =>
    refine iff_of_true (by decide) ⟨argument, folder, hargument, hfolder, hfound, ?_⟩
    rw [hdid.session, if_pos hfound]
  | false =>
    refine iff_of_false (by decide) ?_
    rintro ⟨argument', folder', hargument', hfolder', hfound', -⟩
    rw [hargument] at hargument'
    cases hargument'
    rw [hfolder] at hfolder'
    cases hfolder'
    rw [hfound] at hfound'
    cases hfound'

theorem port_truthful (hcommand : c.input.command = .port) (h : call th c = .ok th') :
    Completed th th' ↔ TookEffect th c th' := by
  rw [call_port hcommand] at h
  unfold TookEffect
  rw [hcommand]
  rcases commandPort_did h with ⟨address, text, port, via, channel, haddress, htext, hport, _, rfl,
    hdid⟩
  rw [completed_iff hdid.replied]
  cases hconnect : c.env.connect with
  | true =>
    refine iff_of_true ?_ ⟨address, text, port, haddress, htext, hport, rfl, ?_, ?_⟩
    · refine ⟨ascii "220 PORT command is accepted\r\n", ?_, by decide⟩
      simp
    · rw [hdid.session, hconnect]
      rfl
    · rw [hdid.session, hconnect]
      rfl
  | false =>
    refine iff_of_false ?_ ?_
    · simp
      decide
    · rintro ⟨_, _, _, _, _, _, htrue, -⟩
      cases htrue

/-- A TYPE is answered 250 exactly when it knows the type. -/
theorem type_truthful (hcommand : c.input.command = .type) (h : call th c = .ok th') :
    Completed th th' ↔ TookEffect th c th' := by
  rw [call_type hcommand] at h
  unfold TookEffect
  rw [hcommand]
  dsimp only
  unfold commandType at h
  rcases raising_bind_ok.mp h with ⟨type, htype, h⟩
  rw [htype]
  by_cases hbinary : type = ascii "I"
  · rw [if_pos hbinary] at h
    rcases reply_session_did h with ⟨via, _, hdid⟩
    refine iff_of_true (hdid.completed_one_iff.mpr (by decide)) (Or.inl ⟨by rw [hbinary], ?_⟩)
    rw [hdid.session]
  · rw [if_neg hbinary] at h
    by_cases htext : type = ascii "A"
    · rw [if_pos htext] at h
      rcases reply_session_did h with ⟨via, _, hdid⟩
      refine iff_of_true (hdid.completed_one_iff.mpr (by decide)) (Or.inr ⟨by rw [htext], ?_⟩)
      rw [hdid.session]
    · rw [if_neg htext] at h
      rcases reply_did h with ⟨via, _, hdid⟩
      refine iff_of_false ?_ ?_
      · rw [hdid.completed_one_iff]
        decide
      · rintro (⟨hsame, -⟩ | ⟨hsame, -⟩)
        · exact hbinary (Except.ok.inj hsame)
        · exact htext (Except.ok.inj hsame)

/-! ## 6. Every command -/

/-- Only STOR notifies. -/
theorem stor_of_notified (h : call th c = .ok th') (hnotified : Notified th th') :
    c.input.command = .stor := by
  by_contra hstor
  have hquiet : ∀ {session t sent}, Did th th' session t sent → sent.any isSignal = false →
      False := by
    intro session t sent hdid hnone
    have hsome := (hdid.carries_iff _).mp hnotified
    rw [hnone] at hsome
    cases hsome
  unfold call processCommand at h
  cases hcommand : c.input.command <;> rw [hcommand] at h hstor <;> dsimp only at h
  case stor => exact hstor rfl
  case user =>
    rcases commandUser_did h with ⟨_, _, _, _, hdid⟩
    refine hquiet hdid ?_
    split <;> simp
  case pass =>
    rcases commandPass_did h with ⟨_, _, _, _, ⟨_, _, hdid⟩ | ⟨_, hdid⟩⟩ <;>
      refine hquiet hdid ?_ <;> unfold passRefusal <;> split <;> simp
  case cwd =>
    rcases commandCwd_did h with ⟨_, _, _, _, _, _, hdid⟩
    exact hquiet hdid (by simp)
  case port =>
    rcases commandPort_did h with ⟨_, _, _, _, _, _, _, _, _, _, hdid⟩
    refine hquiet hdid ?_
    split <;> simp
  case list =>
    rcases commandList_did h with ⟨_, _, _, _, hdid⟩
    exact hquiet hdid (by simp)
  case type =>
    rcases commandType_did h with ⟨_, _, _, _, _, hdid⟩
    exact hquiet hdid (by simp)
  case auth =>
    rcases commandAuth_did h with ⟨_, _, _, _, ⟨_, hdid⟩ | ⟨_, _, _, hdid⟩⟩
    · exact hquiet hdid (by simp)
    · exact hquiet hdid (by simp)
  case pbsz =>
    rcases commandPbsz_did h with ⟨_, _, _, _, _, _, hdid⟩
    exact hquiet hdid (by simp)
  case prot =>
    rcases commandProt_did h with ⟨_, _, _, _, hdid⟩
    exact hquiet hdid (by simp)
  case pasv =>
    rcases commandPasv_did h with ⟨_, _, ⟨_, hdid⟩ | ⟨_, _, _, _, _, _, hdid⟩⟩
    · exact hquiet hdid (by simp)
    · exact hquiet hdid (by simp)
  case allo =>
    rcases commandAllo_did h with ⟨_, _, _, _, _, _, hdid⟩
    exact hquiet hdid (by simp)
  case dele =>
    rcases commandDele_did h with ⟨_, _, _, _, _, _, hdid⟩
    exact hquiet hdid (by simp)
  case rnfr =>
    rcases commandRnfr_did h with ⟨_, _, _, _, hdid⟩
    exact hquiet hdid (by simp)
  case rnto =>
    rcases commandRnto_did h with ⟨_, _, _, _, hdid⟩
    exact hquiet hdid (by simp)
  case quit => exact hquiet (commandQuit_did h) rfl
  all_goals
    rcases reply_did h with ⟨_, _, hdid⟩
    exact hquiet hdid (by simp)

theorem reply_truthful_iff (hcompletes : completes c.input.command = true)
    (h : call th c = .ok th') : (Completed th th' ↔ TookEffect th c th') ↔ Honest th c := by
  have htrivial : ∀ command, c.input.command = command → command ∉ [.dele, .stor, .rnto, .list, .prot] →
      Honest th c := by
    intro command hcommand hother
    unfold Honest
    rw [hcommand]
    cases command <;> simp_all
  cases hcommand : c.input.command <;> rw [hcommand] at hcompletes <;> try cases hcompletes
  case dele => exact dele_truthful_iff hcommand h
  case stor => exact stor_truthful_iff hcommand h
  case rnto => exact rnto_truthful_iff hcommand h
  case list => exact list_truthful_iff hcommand h
  case prot => exact prot_truthful_iff hcommand h
  case cwd => exact iff_of_true (cwd_truthful hcommand h) (htrivial _ hcommand (by simp))
  case port => exact iff_of_true (port_truthful hcommand h) (htrivial _ hcommand (by simp))
  case type => exact iff_of_true (type_truthful hcommand h) (htrivial _ hcommand (by simp))

theorem truthful_iff_honest (h : call th c = .ok th') : Truthful th c th' ↔ Honest th c := by
  constructor
  · intro htruthful
    by_cases hcompletes : completes c.input.command = true
    · exact (reply_truthful_iff hcompletes h).mp (htruthful.reply hcompletes)
    · unfold Honest
      cases hcommand : c.input.command <;> simp_all [completes]
  · intro hhonest
    refine ⟨fun hcompletes => (reply_truthful_iff hcompletes h).mpr hhonest, ?_⟩
    intro hnotified
    have hstor := stor_of_notified h hnotified
    refine ⟨hstor, ?_⟩
    have hcompletes : completes c.input.command = true := by rw [hstor]; rfl
    exact ((reply_truthful_iff hcompletes h).mpr hhonest).mp (stor_completed hstor h)

/-- **Success replies are truthful** in a run from a constructed session exactly when every
    call of it is one that cannot go wrong unnoticed. -/
theorem truthfulness (opens : Bool) (id : Nat) (connection : TcpTransport) (garbage : Uninitialised)
    (p : Process) (calls : List Call) :
    EveryStep call Truthful (construct opens id connection garbage p) calls ↔
      EveryStep call (fun th c _ => Honest th c) (construct opens id connection garbage p) calls := by
  apply everyStep_congr fun _ => True
  · intro th c th' _ _
    trivial
  · intro th c th' _ h
    exact truthful_iff_honest h
  · trivial

/-- A DELE of nothing is answered 250. -/
theorem dele_of_nothing :
    ¬ EveryStep call Truthful (first .bare ⟨0, 0, .clear⟩) [⟨.plain, ⟨.dele, [ascii "/x"]⟩⟩] := by
  intro h
  obtain ⟨htruthful, -⟩ := (everyStep_cons rfl).mp h
  have hhonest := (truthful_iff_honest rfl).mp htruthful
  exact absurd (hhonest (ascii "/x") rfl) (by decide)

end FtpSession

end FtpsServer
