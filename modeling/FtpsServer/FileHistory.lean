import FtpsServer.ServerRuns
import FtpsServer.Lib.Provenance

/-!
# What becomes of the files

All sessions work on one file tree, each with three of its commands: STOR opens a file to
append to it, DELE removes, RNTO renames.  Whatever the sessions do and in whatever order
they do it, the tree at the end descends from the tree at the beginning: objects have moved
or are gone, and the files have taken what came over the data channels.  Of a block that the
file system does not take in whole, a file has the front.
-/

namespace FtpsServer

open ByteString Cxx Machine Posix

/-! ## 1. What the log says -/

/-- The bytes of a pull on a data channel. -/
def dataBlock : Event → Option Bytes
  | .pull (.data _) _ (.bytes message) => some message
  | _ => none

/-- What came over the data channels, pull by pull. -/
def dataBlocks (events : List Event) : List Bytes := events.filterMap dataBlock

@[simp] theorem dataBlocks_nil : dataBlocks [] = [] := rfl

@[simp] theorem dataBlocks_append (front back : List Event) :
    dataBlocks (front ++ back) = dataBlocks front ++ dataBlocks back := List.filterMap_append

@[simp] theorem dataBlocks_replyEvent (env : Environment) (id : Nat) (via : Via) (message : Bytes)
    (events : List Event) :
    dataBlocks (replyEvent env id via message :: events) = dataBlocks events := rfl

@[simp] theorem dataBlocks_signals (observers : FtpNotifier) (filePath : Bytes) :
    dataBlocks (FtpSession.signals observers filePath) = [] := by
  simp [dataBlocks, dataBlock, FtpSession.signals]

/-- A reply that an object was removed, or renamed. -/
def Event.reportsChange : Event → Bool
  | .push (.control _) _ message _ =>
    message == ascii "250 DELE command is successful\r\n" ||
      message == ascii "250 RNTO command is successful\r\n"
  | _ => false

/-- How often a client was told so. -/
def changesReported (events : List Event) : Nat := events.countP Event.reportsChange

@[simp] theorem changesReported_append (front back : List Event) :
    changesReported (front ++ back) = changesReported front + changesReported back :=
  List.countP_append

theorem changesReported_reply {env : Environment} {id : Nat} {via : Via} {message : Bytes}
    (h : message = ascii "250 DELE command is successful\r\n" ∨
      message = ascii "250 RNTO command is successful\r\n") :
    changesReported [replyEvent env id via message] = 1 := by
  rcases h with rfl | rfl <;> simp [changesReported, Event.reportsChange, replyEvent]

namespace FtpSession

variable {env : Environment} {input : FtpCommand} {th th' : Thread}

/-! ## 2. DELE and STOR -/

/-- `command_dele` says which of the two it was. -/
theorem commandDele_told (h : commandDele env input th = .ok th') :
    ∃ path via, input.getArgument 0 = .ok path ∧
      let removal := File.erase th.process.fileTree (th.session.delePath th.process.fileTree path)
      Did th th' th.session removal.2
        [replyEvent env th.session.id via
          (if removal.1 ≠ OPERATION_SUCCESS then ascii "250 DELE command is failure\r\n"
            else ascii "250 DELE command is successful\r\n")] := by
  unfold commandDele at h
  obtain ⟨path, hpath, h⟩ := raising_bind_ok.mp h
  dsimp only at h
  refine ⟨path, ?_⟩
  split at h
  · next hfailed =>
    obtain ⟨via, hvia⟩ := via_of_reply h
    refine ⟨via, hpath, ?_⟩
    dsimp only
    rw [if_pos hfailed]
    exact ((Did.refl th).setFileTree _).reply h hvia
  · next hremoved =>
    obtain ⟨via, hvia⟩ := via_of_reply h
    refine ⟨via, hpath, ?_⟩
    dsimp only
    rw [if_neg hremoved]
    exact ((Did.refl th).setFileTree _).reply h hvia

theorem dataBlocks_pulls (id : Nat) (via : Via) (results : List Received) :
    dataBlocks (results.map (pullEvent id via)) =
      results.filterMap fun result => match result with
        | .bytes message => some message
        | _ => none := by
  unfold dataBlocks
  rw [List.filterMap_map]
  apply List.filterMap_congr
  intro result _
  cases result <;> rfl

theorem dataBlocks_endOfData (env : Environment) (id : Nat) (via : Via) :
    dataBlocks [pullEvent id via (endOfData env)] = [] := by
  unfold endOfData
  cases env.dataClosed <;> rfl

/-- With an allocated size STOR writes the blocks it pulls, but for one it pulls too many. -/
theorem pulledAllocated_blocks (env : Environment) (id : Nat) (via : Via) (chunks : List Chunk)
    (fileTotalSize : Int) :
    ∃ taken left,
      dataBlocks ((pulledAllocated env chunks fileTotalSize).map (pullEvent id via)) =
        taken ++ left ∧
      handedAllocated chunks fileTotalSize = taken.flatten := by
  induction chunks generalizing fileTotalSize with
  | nil => exact ⟨[], [], dataBlocks_endOfData env id via, rfl⟩
  | cons chunk chunks ih =>
    rw [pulledAllocated, handedAllocated]
    by_cases hsize : fileTotalSize ≠ 0
    · rcases ih (fileTotalSize - chunk.bytes.length) with ⟨taken, left, hblocks, hwritten⟩
      refine ⟨chunk.bytes :: taken, left, ?_, ?_⟩
      · rw [if_pos hsize, List.map_cons, List.cons_append, ← hblocks]
        rfl
      · rw [if_pos hsize, hwritten, List.flatten_cons]
    · rw [if_neg hsize, if_neg hsize]
      exact ⟨[], [chunk.bytes], rfl, rfl⟩

theorem pulled_blocks (env : Environment) (id : Nat) (via : Via) (bufferFileSize : Int) :
    ∃ taken left,
      dataBlocks ((pulled env bufferFileSize).map (pullEvent id via)) = taken ++ left ∧
      handed env bufferFileSize = taken.flatten := by
  unfold pulled handed
  split
  · exact pulledAllocated_blocks env id via env.data bufferFileSize
  · refine ⟨env.data.map Chunk.bytes, [], ?_, by rw [List.flatMap_def]⟩
    have hend := dataBlocks_endOfData env id via
    rw [List.map_append, dataBlocks_append, List.map_singleton, hend, dataBlocks_pulls,
      List.filterMap_map]
    simp only [List.append_nil]
    exact congrFun (List.filterMap_eq_map (f := Chunk.bytes)) env.data

/-- What a file takes of each block, when it has room for `room` bytes. -/
def fronts : Option Nat → List Bytes → List Bytes
  | _, [] => []
  | room, block :: blocks => taken room block :: fronts (roomAfter room block) blocks

theorem fronts_flatten (room : Option Nat) (blocks : List Bytes) :
    (fronts room blocks).flatten = taken room blocks.flatten := by
  induction blocks generalizing room with
  | nil => simp [fronts]
  | cons block blocks ih => rw [fronts, List.flatten_cons, List.flatten_cons, ih, taken_append]

theorem fronts_prefix (room : Option Nat) (blocks : List Bytes) :
    List.Forall₂ (· <+: ·) (fronts room blocks) blocks := by
  induction blocks generalizing room with
  | nil => exact .nil
  | cons block blocks ih =>
    refine .cons ?_ (ih _)
    cases room with
    | none => exact List.prefix_rfl
    | some n => exact List.take_prefix n block

theorem fronts_none (blocks : List Bytes) : fronts none blocks = blocks := by
  induction blocks with
  | nil => rfl
  | cons block blocks ih => exact congrArg (block :: ·) ih

end FtpSession

/-! ## 3. Steps -/

/-- Every write of these calls succeeds. -/
def WritesSucceed (calls : List Handled) : Prop := ∀ h ∈ calls, h.call.env.room = none

/-- Of each block its front was kept, and all of it if the writes succeed. -/
structure StoredFronts (calls : List Handled) (kept blocks : List Bytes) : Prop where
  fronts : List.Forall₂ (· <+: ·) kept blocks
  whole : WritesSucceed calls → kept = blocks

theorem StoredFronts.refl (calls : List Handled) (blocks : List Bytes) :
    StoredFronts calls blocks blocks where
  fronts := List.forall₂_same.mpr fun _ _ => List.prefix_rfl
  whole _ := rfl

theorem StoredFronts.append {calls calls' : List Handled} {kept kept' blocks blocks' : List Bytes}
    (h : StoredFronts calls kept blocks) (h' : StoredFronts calls' kept' blocks') :
    StoredFronts (calls ++ calls') (kept ++ kept') (blocks ++ blocks') where
  fronts := List.rel_append h.fronts h'.fronts
  whole hall := by
    rw [h.whole fun c hc => hall c (List.mem_append_left _ hc),
      h'.whole fun c hc => hall c (List.mem_append_right _ hc)]

/-- From `p` to `p'` the files descend, and the log accounts for it: what the files were
    sent is what came over the data channels, and what is gone was reported. -/
def FilesDescend (calls : List Handled) (p p' : Process) : Prop :=
  ∃ (sent : List Event) (d : FileTree.Descent p.fileTree p'.fileTree),
    traffic p'.trace = traffic p.trace ++ sent ∧
      StoredFronts calls (d.parcels.map Parcel.bytes) (dataBlocks sent) ∧
      d.removals ≤ changesReported sent

namespace FilesDescend

variable {calls calls' : List Handled} {p q r : Process}

theorem trans (h : FilesDescend calls p q) (h' : FilesDescend calls' q r) :
    FilesDescend (calls ++ calls') p r := by
  rcases h with ⟨sent, d, htraffic, hblocks, hremovals⟩
  rcases h' with ⟨sent', d', htraffic', hblocks', hremovals'⟩
  refine ⟨sent ++ sent', d.trans d', ?_, ?_, ?_⟩
  · rw [htraffic', htraffic, List.append_assoc]
  · rw [FileTree.Descent.trans_parcels, List.map_append, forwarded_bytes, dataBlocks_append]
    exact hblocks.append hblocks'
  · rw [FileTree.Descent.trans_removals, changesReported_append]
    omega

/-- Where the tree is the same, what came over the data channels went nowhere. -/
theorem of_same {sent : List Event} (htree : q.fileTree = p.fileTree)
    (htraffic : traffic q.trace = traffic p.trace ++ sent) : FilesDescend calls p q := by
  unfold FilesDescend
  rw [htree]
  refine ⟨sent, .discard p.fileTree (dataBlocks sent), htraffic, ?_, Nat.zero_le _⟩
  rw [show (FileTree.Descent.discard p.fileTree (dataBlocks sent)).parcels.map Parcel.bytes =
    dataBlocks sent from addressed_bytes _ _]
  exact .refl calls _

theorem quiet (h : Quiet p q) : FilesDescend calls p q :=
  of_same h.fileTree (h.traffic.trans (List.append_nil _).symm)

variable {env : Environment} {input : FtpCommand} {th th' : Thread}

/-- **STOR**: the file is opened or created, takes the blocks that are written, and what is
    pulled behind them is dropped. -/
theorem stor (h : FtpSession.commandStor env input th = .ok th')
    (henv : WritesSucceed calls → env.room = none) : FilesDescend calls th.process th'.process := by
  rcases FtpSession.commandStor_did h with ⟨fileName, via, dataVia, -, -, -, hdid⟩
  rcases FtpSession.pulled_blocks env th.session.id dataVia th.session.bufferFileSize with
    ⟨taken, left, hblocks, hhanded⟩
  have hsent : ∀ signals : List Event, dataBlocks signals = [] →
      dataBlocks ([replyEvent env th.session.id via (ascii "150 STOR file status is OK\r\n")] ++
        (FtpSession.pulled env th.session.bufferFileSize).map
          (FtpSession.pullEvent th.session.id dataVia) ++
        [replyEvent env th.session.id via (ascii "226 ASCII Transfer complete\r\n")] ++ signals) =
      taken ++ left := by
    intro signals hsignals
    rw [dataBlocks_append, dataBlocks_append, dataBlocks_append, hblocks, hsignals]
    simp
  have htree := hdid.fileTree
  unfold FtpSession.transferTree FtpSession.transferFile at htree
  cases hopen : th.process.fileTree.openAppend (th.session.folder ++ fileName) with
  | none =>
    rw [hopen] at htree
    exact of_same htree hdid.traffic
  | some opened =>
    rcases opened with ⟨t, l⟩
    have hwhole : th'.process.fileTree = t.append l (FtpSession.fronts env.room taken).flatten := by
      rw [htree, hopen, FtpSession.written, hhanded, FtpSession.fronts_flatten]
      rfl
    have hkept : StoredFronts calls (FtpSession.fronts env.room taken) taken := by
      refine ⟨FtpSession.fronts_prefix _ _, fun hall => ?_⟩
      rw [henv hall, FtpSession.fronts_none]
    have hparcels : (((FileTree.Descent.openAppend hopen).trans
        (.append t l (FtpSession.fronts env.room taken))).trans (.discard _ left)).parcels.map
          Parcel.bytes = FtpSession.fronts env.room taken ++ left := by
      rw [FileTree.Descent.trans_parcels, List.map_append, forwarded_bytes,
        FileTree.Descent.trans_parcels, List.map_append, forwarded_bytes]
      exact congrArg₂ (· ++ ·) (addressed_bytes _ _) (addressed_bytes _ _)
    have hall := hkept.append (.refl [] left)
    rw [List.append_nil] at hall
    unfold FilesDescend
    rw [hwhole]
    refine ⟨_, ((FileTree.Descent.openAppend hopen).trans
      (.append t l (FtpSession.fronts env.room taken))).trans (.discard _ left),
      hdid.traffic, ?_, Nat.zero_le _⟩
    rw [hparcels, hsent _ (dataBlocks_signals _ _)]
    exact hall

/-- **DELE** removes at most one object, and says so. -/
theorem dele (h : FtpSession.commandDele env input th = .ok th') :
    FilesDescend calls th.process th'.process := by
  rcases FtpSession.commandDele_told h with ⟨path, via, -, hdid⟩
  unfold File.erase at hdid
  cases hremove : th.process.fileTree.remove
      (Path.canonical th.process.fileTree (th.session.delePath th.process.fileTree path)) with
  | none =>
    rw [hremove] at hdid
    exact of_same hdid.fileTree hdid.traffic
  | some t =>
    rw [hremove] at hdid
    rcases FileTree.remove_descent hremove with ⟨d, hparcels, hremovals⟩
    unfold FilesDescend
    rw [hdid.fileTree]
    refine ⟨_, d, hdid.traffic, by rw [hparcels]; exact .refl calls [], hremovals.trans ?_⟩
    exact (changesReported_reply (Or.inl rfl)).ge

/-- **RNTO** moves one object, over at most one other, and says so. -/
theorem rnto (h : FtpSession.commandRnto env input th = .ok th') :
    FilesDescend calls th.process th'.process := by
  rcases FtpSession.commandRnto_did h with ⟨path, via, -, -, hdid⟩
  dsimp only at hdid
  by_cases hexists : Directory.exists' th.process.fileTree (th.session.renamePath path) = true
  · rw [if_pos hexists] at hdid
    exact of_same hdid.fileTree hdid.traffic
  · rw [if_neg hexists, if_neg hexists] at hdid
    cases hrename : th.process.fileTree.rename
        (Path.canonical th.process.fileTree th.session.argument) (th.session.renamePath path) with
    | none =>
      rw [hrename] at hdid
      exact of_same hdid.fileTree hdid.traffic
    | some t =>
      rw [hrename] at hdid
      rcases FileTree.rename_descent hrename with ⟨d, hparcels, hremovals⟩
      unfold FilesDescend
      rw [hdid.fileTree]
      refine ⟨_, d, hdid.traffic, by rw [hparcels]; exact .refl calls [], hremovals.trans ?_⟩
      exact (changesReported_reply (Or.inr rfl)).ge

/-- Only STOR, DELE and RNTO touch the files. -/
theorem call {k : Nat} {c : FtpSession.Call} (h : FtpSession.processCommand c.env c.input th = .ok th') :
    FilesDescend [⟨k, th.session, c⟩] th.process th'.process := by
  by_cases hstor : c.input.command = .stor
  · rw [FtpSession.processCommand, hstor] at h
    exact stor h fun hall => hall _ List.mem_cons_self
  · by_cases hdele : c.input.command = .dele
    · rw [FtpSession.processCommand, hdele] at h
      exact dele h
    · by_cases hrnto : c.input.command = .rnto
      · rw [FtpSession.processCommand, hrnto] at h
        exact rnto h
      · rcases FtpSession.processCommand_frame h with ⟨hframe, sent, hdid⟩
        exact of_same (hframe.fileTree (by simp [hstor, hdele, hrnto])) hdid.traffic

theorem start (h : SessionThread.start env th = .ok th') :
    FilesDescend calls th.process th'.process := by
  rcases reply_did h with ⟨_, -, hdid⟩
  exact of_same hdid.fileTree hdid.traffic

theorem pull {result : Received} (h : th.controlPull result = .ok th') :
    FilesDescend calls th.process th'.process := by
  rcases controlPull_ok.mp h with ⟨via, -, rfl⟩
  have htraffic : traffic (th.process.emit (.pull (.control th.session.id) via result)).trace =
      traffic th.process.trace ++ [.pull (.control th.session.id) via result] := by
    simp [Event.isTraffic]
  exact of_same rfl htraffic

theorem accounted : FtpServer.Accounted FilesDescend := ⟨trans, quiet, start, pull, call⟩

end FilesDescend

/-! ## 4. Runs -/

namespace FtpServer

/-- **What becomes of the files.**  Take any run of the server, with any number of sessions
    and any interleaving.  Every object at the end is one of the objects at the
    beginning or an empty regular file that was created, no two are one, and a file has
    changed only by the blocks it has taken: each block that came over a data channel, or
    its front where a write failed, is in at most one file, behind what was there, and
    blocks of one file are in the order they came.  What is gone was counted out to the
    clients, reply by reply. -/
theorem files_descend {s s' : FtpServer} {steps : List ServerStep}
    (hrun : run step s steps = .ok s') :
    ∃ (sent : List Event) (d : FileTree.Descent s.process.fileTree s'.process.fileTree),
      traffic s'.process.trace = traffic s.process.trace ++ sent ∧
        List.Forall₂ (· <+: ·) (d.parcels.map Parcel.bytes) (dataBlocks sent) ∧
        (WritesSucceed (s.handled steps) → d.parcels.map Parcel.bytes = dataBlocks sent) ∧
        d.removals ≤ changesReported sent := by
  rcases FilesDescend.accounted.run hrun with ⟨sent, d, htraffic, hkept, hremovals⟩
  exact ⟨sent, d, htraffic, hkept.fronts, hkept.whole, hremovals⟩

/-- A connection, its greeting, a PORT and the upload of one byte. -/
def oneUpload : List ServerStep :=
  [.accept .plain ⟨0, 0, .clear⟩ .zero, .greet 0 .plain,
    .turn 0 SessionThread.portTurn,
    .turn 0 (SessionThread.lineTurn
      { Environment.plain with data := [⟨ascii "c", by decide, by decide⟩] } "STOR x\r\n"
      (by decide))]

theorem files_descend_upload :
    ∃ (s s' : FtpServer) (sent : List Event)
      (d : FileTree.Descent s.process.fileTree s'.process.fileTree),
      run step s oneUpload = .ok s' ∧
        s'.process.fileTree.node [ascii "x"] = some (.regular FileTree.createMode (ascii "c")) ∧
        traffic s'.process.trace = traffic s.process.trace ++ sent ∧
        d.parcels.map Parcel.bytes = dataBlocks sent := by
  obtain ⟨s', hrun, hfile⟩ := exists_of_reaches _ oneUpload
    (fun s => s.process.fileTree.node [ascii "x"] =
      some (.regular FileTree.createMode (ascii "c")))
    (show reaches step ((start .plain (ascii "127.0.0.1") 21 (Process.initial .bare)).get rfl)
      oneUpload _ = true by decide +kernel)
  obtain ⟨sent, d, htraffic, -, hblocks, -⟩ := files_descend hrun
  refine ⟨_, s', sent, d, hrun, of_decide_eq_true hfile, htraffic, hblocks ?_⟩
  have hwrites : ((((start .plain (ascii "127.0.0.1") 21 (Process.initial .bare)).get rfl).handled
      oneUpload).all fun h => h.call.env.room.isNone) = true := by decide +kernel
  intro h hh
  exact Option.isNone_iff_eq_none.mp (List.all_eq_true.mp hwrites h hh)

end FtpServer

end FtpsServer
