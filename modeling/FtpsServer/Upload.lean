import FtpsServer.Truthfulness
import FtpsServer.NullSession
import FtpsServer.Credentials
import Mathlib.Data.List.TakeDrop

/-!
# Uploads

`command_stor` opens its file to append, and one of two loops receives.  With an
allocated size the loop pulls before it looks at what remains, and it looks for 0 only:
it always pulls once more, and it does not stop at a chunk that goes past the size.  The
size is that of the last ALLO, however long ago that was.  The stream of the file is bad
behind the first write that fails, and nobody asks it.
-/

namespace FtpsServer

open ByteString Cxx Machine

namespace FtpSession

/-! ## 1. A size that is used up early -/

/-- The bytes of these pulls. -/
def receivedBytes (results : List Received) : Bytes :=
  results.flatMap fun result =>
    match result with
    | .bytes message => message
    | _ => []

@[simp] theorem receivedBytes_append (front back : List Received) :
    receivedBytes (front ++ back) = receivedBytes front ++ receivedBytes back :=
  List.flatMap_append

@[simp] theorem receivedBytes_chunks (chunks : List Chunk) :
    receivedBytes (chunks.map fun chunk => Received.bytes chunk.bytes) =
      chunks.flatMap Chunk.bytes :=
  List.flatMap_map ..

@[simp] theorem receivedBytes_endOfData (env : Environment) : receivedBytes [endOfData env] = [] := by
  unfold endOfData
  split <;> rfl

/-- The whole stream, and how it ends. -/
def pulledAll (env : Environment) : List Received :=
  env.data.map (fun chunk => Received.bytes chunk.bytes) ++ [endOfData env]

/-- A size that is used up early is less than the stream. -/
theorem FillsEarly.lt {chunks : List Chunk} {size : Int} (h : FillsEarly chunks size) :
    size < (chunks.flatMap Chunk.bytes).length := by
  rcases h with ⟨front, back, rfl, hback, hsize⟩
  rcases List.exists_cons_of_ne_nil hback with ⟨chunk, back, rfl⟩
  have hchunk := List.length_pos_iff.mpr chunk.nonempty
  rw [List.flatMap_append, List.flatMap_cons, List.length_append, List.length_append]
  omega

/-! ## 2. Exactly the allocated size -/

/-- The pulls end with the one that completes `size` bytes. -/
def StopsAt (size : Int) (results : List Received) : Prop :=
  ∀ front result back, results = front ++ result :: back →
    ((receivedBytes front).length : Int) < size

/-- The loop never stops in time: where `size` bytes come, it pulls again. -/
theorem stopsAt_pulled_iff (env : Environment) (size : Int) :
    StopsAt size (pulledAllocated env env.data size) ↔
      (env.data.flatMap Chunk.bytes).length < size := by
  by_cases hearly : FillsEarly env.data size
  · refine iff_of_false ?_ (by have := hearly.lt; omega)
    intro hstops
    rcases used_up_early env hearly with ⟨front, chunk, -, -, hlength, hpulled, -⟩
    have hlast := hstops _ (.bytes chunk.bytes) [] hpulled
    rw [receivedBytes_chunks] at hlast
    omega
  · rw [(not_used_up_early env hearly).1]
    constructor
    · intro hstops
      have hlast := hstops _ (endOfData env) [] rfl
      rwa [receivedBytes_chunks] at hlast
    · intro htotal front result back heq
      have hbytes := congrArg (fun results => (receivedBytes results).length) heq
      simp only [receivedBytes_append, receivedBytes_chunks, receivedBytes_endOfData,
        List.length_append, List.length_nil] at hbytes
      omega

/-- What is written is the allocated part exactly when that is the whole stream, or chunks
    add up to it. -/
theorem handedAllocated_take_iff (chunks : List Chunk) {size : Int} (hsize : 0 ≤ size) :
    handedAllocated chunks size = (chunks.flatMap Chunk.bytes).take size.toNat ↔
      (chunks.flatMap Chunk.bytes).length ≤ size ∨ FillsEarly chunks size := by
  by_cases hearly : FillsEarly chunks size
  · refine iff_of_true ?_ (Or.inr hearly)
    rcases used_up_early .plain hearly with ⟨front, chunk, back, rfl, hlength, -, hwritten⟩
    rw [hwritten, List.flatMap_append, List.take_left' (by omega)]
  · rw [(not_used_up_early .plain hearly).2, or_iff_left hearly]
    constructor
    · intro hwhole
      have hlength := congrArg List.length hwhole
      rw [List.length_take] at hlength
      omega
    · intro hle
      exact (List.take_of_length_le (by omega)).symm

/-- From the tree `t` to `t'` these bytes go to the end of the file, and there is room for all
    of them; a file that cannot be opened takes none. -/
def Appends (t : Posix.FileTree) (filePath : Bytes) (room : Option Nat) (bytes : Bytes)
    (t' : Posix.FileTree) : Prop :=
  match t.openAppend filePath with
  | some (opened, l) => taken room bytes = bytes ∧ t' = opened.append l bytes
  | none => t' = t ∧ bytes = []

theorem taken_eq_self_iff (room : Option Nat) (bytes : Bytes) :
    taken room bytes = bytes ↔ ∀ n, room = some n → bytes.length ≤ n := by
  cases room with
  | none => simp
  | some n =>
    rw [taken, List.take_eq_self_iff]
    simp

theorem stream_eq_nil_iff (chunks : List Chunk) : chunks.flatMap Chunk.bytes = [] ↔ chunks = [] := by
  rw [List.flatMap_eq_nil_iff]
  constructor
  · intro h
    exact List.eq_nil_iff_forall_not_mem.mpr fun chunk hchunk => chunk.nonempty (h chunk hchunk)
  · rintro rfl
    exact List.forall_mem_nil _

/-- What comes is in the file exactly when that can be opened, if anything comes, and takes
    all of it. -/
theorem appends_stored_iff {t : Posix.FileTree} {filePath : Bytes} (env : Environment) :
    Appends t filePath env.room (env.data.flatMap Chunk.bytes)
        (stored (transferTree t filePath) (transferFile t filePath)
          (taken env.room (env.data.flatMap Chunk.bytes))) ↔
      (env.data ≠ [] → (t.openAppend filePath).isSome = true) ∧ AllFits env := by
  unfold Appends transferTree transferFile stored AllFits
  rw [← taken_eq_self_iff]
  cases hopen : t.openAppend filePath with
  | some opened =>
    constructor
    · exact fun h => ⟨fun _ => rfl, h.1⟩
    · rintro ⟨-, hfits⟩
      refine ⟨hfits, ?_⟩
      rw [hfits]
      rfl
  | none =>
    constructor
    · rintro ⟨-, hnone⟩
      rw [hnone, taken_nil]
      exact ⟨fun hdata => absurd ((stream_eq_nil_iff _).mp hnone) hdata, rfl⟩
    · rintro ⟨hopens, -⟩
      refine ⟨rfl, (stream_eq_nil_iff _).mpr (by_contra fun hdata => ?_)⟩
      exact absurd (hopens hdata) (by decide)

variable {c : Call} {th th' : Thread} {fileName : Bytes}

theorem stor_returns_iff (hcommand : c.input.command = .stor)
    (hname : c.input.getArgument 0 = .ok fileName) :
    (∃ th', call th c = .ok th') ↔
      th.session.controlChannel.Live ∧ th.session.dataChannel.Live := by
  rw [call_stor hcommand]
  constructor
  · rintro ⟨th', h⟩
    rcases commandStor_did h with ⟨_, via, dataVia, -, hvia, hdataVia, -⟩
    exact ⟨TcpTransport.live_of_via hvia, TcpTransport.live_of_via hdataVia⟩
  · rintro ⟨hlive, hdata⟩
    rcases hlive.exists_via with ⟨via, hvia⟩
    rcases hdata.exists_via with ⟨dataVia, hdataVia⟩
    exact commandStor_returns c.env hname hvia hdataVia

/-- **STOR takes the allocated size**: the first bytes of the stream go to the file, as many
    as were allocated, and none is pulled once they have come. -/
structure TakesSize (th : Thread) (c : Call) (fileName : Bytes) (th' : Thread) : Prop where
  writes : Appends th.process.fileTree (th.session.folder ++ fileName) c.env.room
    ((c.env.data.flatMap Chunk.bytes).take th.session.bufferFileSize.toNat) th'.process.fileTree
  stops : ∃ results, Pulled th th' results ∧ StopsAt th.session.bufferFileSize results

theorem TakesSize.stream_lt (hcommand : c.input.command = .stor)
    (hname : c.input.getArgument 0 = .ok fileName) (hsize : 0 < th.session.bufferFileSize)
    (h : call th c = .ok th') (htakes : TakesSize th c fileName th') :
    (c.env.data.flatMap Chunk.bytes).length < th.session.bufferFileSize := by
  rcases htakes.stops with ⟨results, hresults, hstops⟩
  rw [((stor_pulls_and_writes hcommand hname h).1 results).mp hresults] at hstops
  unfold pulled at hstops
  rwa [if_pos hsize, stopsAt_pulled_iff] at hstops

/-- **The allocated size** is all that STOR takes exactly when the stream is shorter, the
    channels can be used, and there is a file, and room in it, for what comes. -/
theorem stor_takes_size_iff (hcommand : c.input.command = .stor)
    (hname : c.input.getArgument 0 = .ok fileName) (hsize : 0 < th.session.bufferFileSize) :
    (∃ th', call th c = .ok th' ∧ TakesSize th c fileName th') ↔
      th.session.controlChannel.Live ∧ th.session.dataChannel.Live ∧
        (c.env.data ≠ [] →
          (th.process.fileTree.openAppend (th.session.folder ++ fileName)).isSome = true) ∧
        AllFits c.env ∧ (c.env.data.flatMap Chunk.bytes).length < th.session.bufferFileSize := by
  rw [← and_assoc, ← stor_returns_iff hcommand hname]
  have hwrites : ∀ th', call th c = .ok th' →
      (c.env.data.flatMap Chunk.bytes).length < th.session.bufferFileSize →
      (Appends th.process.fileTree (th.session.folder ++ fileName) c.env.room
          ((c.env.data.flatMap Chunk.bytes).take th.session.bufferFileSize.toNat)
          th'.process.fileTree ↔
        (c.env.data ≠ [] →
          (th.process.fileTree.openAppend (th.session.folder ++ fileName)).isSome = true) ∧
          AllFits c.env) := by
    intro th' h hshort
    rw [(stor_pulls_and_writes hcommand hname h).2, written, handed, if_pos hsize,
      (handedAllocated_take_iff c.env.data hsize.le).mpr (Or.inl hshort.le),
      List.take_of_length_le (by omega), appends_stored_iff]
  constructor
  · rintro ⟨th', h, htakes⟩
    have hshort := htakes.stream_lt hcommand hname hsize h
    rcases (hwrites th' h hshort).mp htakes.writes with ⟨hopens, hfits⟩
    exact ⟨⟨th', h⟩, hopens, hfits, hshort⟩
  · rintro ⟨⟨th', h⟩, hopens, hfits, hshort⟩
    refine ⟨th', h, (hwrites th' h hshort).mpr ⟨hopens, hfits⟩,
      pulledAllocated c.env c.env.data th.session.bufferFileSize, ?_,
      (stopsAt_pulled_iff c.env _).mpr hshort⟩
    rw [(stor_pulls_and_writes hcommand hname h).1, pulled, if_pos hsize]

theorem byte_nonempty (b : UInt8) : [b] ≠ [] := List.cons_ne_nil b []

theorem byte_fits (b : UInt8) : [b].length ≤ BUFFER_SIZE := by simp [BUFFER_SIZE]

/-- A chunk of one byte. -/
def byteChunk (b : UInt8) : Chunk := ⟨[b], byte_nonempty b, byte_fits b⟩

/-- STOR of the file `x`. -/
def uploadOf (data : List Chunk) : Call :=
  ⟨{ Environment.plain with data := data }, ⟨.stor, [ascii "x"]⟩⟩

/-- A PORT that connects. -/
def connected : Call := ⟨.plain, ⟨.port, [ascii "127.0.0.1", ascii "5001"]⟩⟩

theorem allFits_of_room {env : Environment} (h : env.room = none) : AllFits env := by
  intro n hn
  rw [h] at hn
  cases hn

/-- PORT, and an ALLO of two bytes. -/
def allocateTwo : List Call := [connected, ⟨.plain, ⟨.allo, [ascii "2"]⟩⟩]

theorem stor_takes_size_one :
    ∃ th, run call (first .bare ⟨0, 0, .clear⟩) allocateTwo = .ok th ∧
      ∃ th', call th (uploadOf [byteChunk 97]) = .ok th' ∧
        TakesSize th (uploadOf [byteChunk 97]) (ascii "x") th' := by
  obtain ⟨th, hrun, hth⟩ := exists_of_reaches (first .bare ⟨0, 0, .clear⟩) allocateTwo
    (fun th => th.session.bufferFileSize = 2 ∧ th.session.controlChannel.secure = false ∧
      th.session.dataChannel.secure = false ∧
      (th.process.fileTree.openAppend (th.session.folder ++ ascii "x")).isSome = true)
    (show reaches call _ _ _ = true by decide +kernel)
  obtain ⟨hsize, hcontrol, hdata, hopens⟩ := of_decide_eq_true hth
  refine ⟨th, hrun, (stor_takes_size_iff rfl rfl (by omega)).mpr ?_⟩
  refine ⟨TcpTransport.live_of_clear hcontrol, TcpTransport.live_of_clear hdata, fun _ => hopens,
    allFits_of_room rfl, ?_⟩
  rw [hsize]
  decide

/-- PORT, and an ALLO of one byte. -/
def allocateOne : List Call := [connected, ⟨.plain, ⟨.allo, [ascii "1"]⟩⟩]

/-- Two chunks of one byte for an allocation of one: the second one is pulled and lost. -/
theorem second_chunk_swallowed :
    ∃ th, run call (first .bare ⟨0, 0, .clear⟩) allocateOne = .ok th ∧
      th.session.bufferFileSize = 1 ∧
      ¬ ∃ th', call th (uploadOf [byteChunk 97, byteChunk 98]) = .ok th' ∧
        TakesSize th (uploadOf [byteChunk 97, byteChunk 98]) (ascii "x") th' := by
  obtain ⟨th, hrun, hsize⟩ := exists_of_reaches (first .bare ⟨0, 0, .clear⟩) allocateOne
    (fun th => th.session.bufferFileSize = 1) (show reaches call _ _ _ = true by decide +kernel)
  have hone := of_decide_eq_true hsize
  refine ⟨th, hrun, hone, ?_⟩
  rintro ⟨th', h, htakes⟩
  have hlt := htakes.stream_lt rfl rfl (by omega) h
  rw [hone] at hlt
  revert hlt
  decide

/-! ## 3. One allocation, one upload -/

theorem pulled_all_iff (env : Environment) (size : Int) :
    pulled env size = pulledAll env ↔ (0 < size → ¬ FillsEarly env.data size) := by
  unfold pulled
  by_cases hsize : size > 0
  · rw [if_pos hsize, imp_iff_right hsize]
    constructor
    · intro hall hearly
      rcases used_up_early env hearly with ⟨front, chunk, back, hdata, -, hpulled, -⟩
      rw [hall] at hpulled
      have hlength := congrArg List.length hpulled
      unfold pulledAll at hlength
      rw [hdata] at hlength
      simp only [List.length_append, List.length_map, List.length_cons, List.length_nil] at hlength
      omega
    · intro hearly
      exact (not_used_up_early env hearly).1
  · rw [if_neg hsize]
    exact iff_of_true rfl fun h => absurd h hsize

/-- **STOR stores all**: it pulls up to the end of the data, and all of it goes to the file. -/
structure StoresAll (th : Thread) (c : Call) (fileName : Bytes) (th' : Thread) : Prop where
  pulls : Pulled th th' (pulledAll c.env)
  writes : Appends th.process.fileTree (th.session.folder ++ fileName) c.env.room
    (c.env.data.flatMap Chunk.bytes) th'.process.fileTree

/-- What a STOR needs to store all: channels it can use, a file for what comes, and room in
    it, and no size that is used up early. -/
theorem stor_stores_all_iff (hcommand : c.input.command = .stor)
    (hname : c.input.getArgument 0 = .ok fileName) (hlive : th.session.controlChannel.Live) :
    (∃ th', call th c = .ok th' ∧ StoresAll th c fileName th') ↔
      th.session.dataChannel.Live ∧
        (c.env.data ≠ [] →
          (th.process.fileTree.openAppend (th.session.folder ++ fileName)).isSome = true) ∧
        AllFits c.env ∧
        (0 < th.session.bufferFileSize →
          ¬ FillsEarly c.env.data th.session.bufferFileSize) := by
  have hreturns : (∃ th', call th c = .ok th') ↔ _ := stor_returns_iff hcommand hname
  rw [and_iff_right hlive] at hreturns
  rw [← hreturns]
  have hwrites : ∀ th', call th c = .ok th' →
      (0 < th.session.bufferFileSize → ¬ FillsEarly c.env.data th.session.bufferFileSize) →
      (Appends th.process.fileTree (th.session.folder ++ fileName) c.env.room
          (c.env.data.flatMap Chunk.bytes) th'.process.fileTree ↔
        (c.env.data ≠ [] →
          (th.process.fileTree.openAppend (th.session.folder ++ fileName)).isSome = true) ∧
          AllFits c.env) := by
    intro th' h hearly
    rw [(stor_pulls_and_writes hcommand hname h).2, written, handed_whole c.env _ hearly,
      appends_stored_iff]
  constructor
  · rintro ⟨th', h, hpulls, hstored⟩
    obtain ⟨hresults, -⟩ := stor_pulls_and_writes hcommand hname h
    have hearly := (pulled_all_iff c.env _).mp ((hresults _).mp hpulls).symm
    rcases (hwrites th' h hearly).mp hstored with ⟨hopens, hfits⟩
    exact ⟨⟨th', h⟩, hopens, hfits, hearly⟩
  · rintro ⟨⟨th', h⟩, hopens, hfits, hearly⟩
    obtain ⟨hresults, -⟩ := stor_pulls_and_writes hcommand hname h
    exact ⟨th', h, (hresults _).mpr ((pulled_all_iff c.env _).mpr hearly).symm,
      (hwrites th' h hearly).mpr ⟨hopens, hfits⟩⟩

/-- The size an ALLO gives. -/
def alloArgument : Action → Option Int
  | .call c =>
    if c.input.command = .allo then
      match c.input.getArgument 0 with
      | .ok text => (stoi text).toOption
      | .error _ => none
    else none
  | .elsewhere _ _ => none

/-- The size of the last ALLO, or what `m_buffer_file_size` was when the session began. -/
def lastAllocation (uninitialised : Int) (before : List Action) : Int :=
  (before.filterMap alloArgument).getLast?.getD uninitialised

theorem lastAllocation_append (uninitialised : Int) (before : List Action) (a : Action) :
    lastAllocation uninitialised (before ++ [a]) =
      (alloArgument a).getD (lastAllocation uninitialised before) := by
  unfold lastAllocation
  rw [List.filterMap_append, List.getLast?_append]
  cases ha : alloArgument a <;> simp [ha]

/-- What a session knows of its allocations: `m_buffer_file_size` is that of the last one. -/
structure Sized (uninitialised : Int) (before : List Action) (th : Thread) : Prop where
  size : th.session.bufferFileSize = lastAllocation uninitialised before
  live : th.session.controlChannel.Live

theorem sized_step {uninitialised : Int} {before : List Action} {a : Action} {mid next : Thread}
    (hmid : Sized uninitialised before mid) (h : act mid a = .ok next) :
    Sized uninitialised (before ++ [a]) next := by
  cases a with
  | elsewhere p updates =>
    cases h
    refine ⟨?_, hmid.live⟩
    rw [lastAllocation_append]
    exact hmid.size
  | call c =>
    refine ⟨?_, call_live hmid.live h⟩
    rw [lastAllocation_append, alloArgument]
    by_cases hallo : c.input.command = .allo
    · have hcall : commandAllo c.env c.input mid = .ok next := (call_allo hallo).symm.trans h
      rcases commandAllo_did hcall with ⟨text, size, _, htext, hstoi, _, hdid⟩
      rw [if_pos hallo, htext, hdid.session]
      dsimp only
      rw [hstoi]
      rfl
    · rw [if_neg hallo, (processCommand_frame h).1.bufferFileSize hallo]
      exact hmid.size

/-- An ALLO or a STOR. -/
def allocation : Action → Option FtpCommandT
  | .call c =>
    if c.input.command = .allo ∨ c.input.command = .stor then some c.input.command else none
  | .elsewhere _ _ => none

/-- No ALLO since the last STOR, or since the session began. -/
def NoAllocation (before : List Action) : Prop :=
  (before.filterMap allocation).getLast? ≠ some .allo

/-- A STOR of `fileName` that comes with no allocation of its own. -/
def Unallocated (before : List Action) (a : Action) (c : Call) (fileName : Bytes) : Prop :=
  a = .call c ∧ c.input.command = .stor ∧ c.input.getArgument 0 = .ok fileName ∧
    NoAllocation before

/-- **One allocation, one upload.**  Whatever a session has been through, each STOR with no
    ALLO of its own stores all, exactly when each finds a data channel it can use, a file
    for what comes, and room in it, and a stream that does not use up the size of the last
    ALLO early. -/
theorem allocation_once_iff (opens : Bool) (id : Nat) (descriptor : Int) (address : Bytes) (port : Int)
    (garbage : Uninitialised) (p : Process) (actions : List Action) :
    let fresh := construct opens id ⟨descriptor, .null, false, address, port⟩ garbage p
    EveryInputAfter act (fun before th a => ∀ c fileName, Unallocated before a c fileName →
        ∃ th', call th c = .ok th' ∧ StoresAll th c fileName th') fresh actions ↔
      EveryInputAfter act (fun before th a => ∀ c fileName, Unallocated before a c fileName →
        th.session.dataChannel.Live ∧
          (c.env.data ≠ [] →
            (th.process.fileTree.openAppend (th.session.folder ++ fileName)).isSome = true) ∧
          AllFits c.env ∧
          (0 < lastAllocation garbage.bufferFileSize before →
            ¬ FillsEarly c.env.data (lastAllocation garbage.bufferFileSize before)))
        fresh actions := by
  intro fresh
  apply everyInputAfter_congr (Sized garbage.bufferFileSize) fun _ _ _ _ => sized_step
  · exact ⟨rfl, TcpTransport.live_of_clear rfl⟩
  · intro before th a hth
    refine forall_congr' fun c => forall_congr' fun fileName => imp_congr_right ?_
    rintro ⟨-, hcommand, hname, -⟩
    rw [stor_stores_all_iff hcommand hname hth.live, hth.size]

/-- An upload of the one byte that was allocated for it, and the next data connection. -/
def allocatedUpload : List Action :=
  (allocateOne ++ [uploadOf [byteChunk 97], connected]).map Action.call

/-- The next upload, of two chunks, is cut at the size of the one before. -/
theorem next_upload_cut :
    ¬ EveryInputAfter act (fun before th a => ∀ c fileName, Unallocated before a c fileName →
        ∃ th', call th c = .ok th' ∧ StoresAll th c fileName th')
      (first .bare ⟨0, 0, .clear⟩)
      (allocatedUpload ++ [.call (uploadOf [byteChunk 97, byteChunk 98])]) := by
  intro h
  obtain ⟨th, hrun, hth⟩ := exists_of_reaches (first .bare ⟨0, 0, .clear⟩) allocatedUpload
    (fun th => th.session.bufferFileSize = 1 ∧ th.session.controlChannel.secure = false)
    (show reaches act _ _ _ = true by decide +kernel)
  obtain ⟨hsize, hclear⟩ := of_decide_eq_true hth
  have hlive : th.session.controlChannel.Live := TcpTransport.live_of_clear hclear
  have hnone : NoAllocation allocatedUpload := by
    unfold NoAllocation
    decide +kernel
  have hstores := h allocatedUpload _ [] th rfl hrun _ (ascii "x") ⟨rfl, rfl, rfl, hnone⟩
  have hearly := ((stor_stores_all_iff rfl rfl hlive).mp hstores).2.2.2
  rw [hsize] at hearly
  exact hearly (by decide) ⟨[byteChunk 97], [byteChunk 98], rfl, by simp, rfl⟩

/-! ## 4. What is in the file -/

/-- `ofstream` opens to append: what comes goes behind what is there. -/
theorem openAppend_append_node {t opened : Posix.FileTree} {path content : Bytes}
    {l : Posix.Location} {m : Posix.Mode} (hopen : t.openAppend path = some (opened, l))
    (hfile : opened.node l = some (.regular m content)) (bytes : Bytes) :
    (opened.append l bytes).node l = some (.regular m (content ++ bytes)) ∧
      ∀ l', l' ≠ l → (opened.append l bytes).node l' = t.node l' := by
  constructor
  · rw [Posix.FileTree.append_node, if_pos rfl, hfile]
  · intro l' hne
    rw [Posix.FileTree.append_node, if_neg hne]
    rcases Posix.FileTree.openAppend_cases hopen with ⟨rfl, -⟩ | ⟨-, -, hframe⟩
    · rfl
    · exact hframe l' hne

/-- The file that is opened is empty exactly when nothing was there or an empty file. -/
theorem opened_empty_iff {t opened : Posix.FileTree} {path content : Bytes} {l : Posix.Location}
    {m : Posix.Mode} (hopen : t.openAppend path = some (opened, l))
    (hfile : opened.node l = some (.regular m content)) :
    content = [] ↔ t.node l = none ∨ t.node l = some (.regular m []) := by
  rcases Posix.FileTree.openAppend_cases hopen with ⟨rfl, hsome⟩ | ⟨hnone, hnew, -⟩
  · rw [hfile]
    simp
  · rw [hnew] at hfile
    cases hfile
    exact iff_of_true rfl (Or.inl hnone)

/-- The upload is what is in the file now, and no other file has changed. -/
def Replaces (t t' : Posix.FileTree) (l : Posix.Location) (m : Posix.Mode) (bytes : Bytes) : Prop :=
  t'.node l = some (.regular m bytes) ∧ ∀ l', l' ≠ l → t'.node l' = t.node l'

/-- **What is in the file.**  A STOR with no allocated size that opens a file leaves exactly
    the stream in it, with no byte lost, and all other files alone, exactly when the channels
    can be used, the file takes all that comes, and there was no file, or an empty one. -/
theorem stor_replaces_iff (hcommand : c.input.command = .stor)
    (hname : c.input.getArgument 0 = .ok fileName) (hsize : th.session.bufferFileSize ≤ 0)
    {opened : Posix.FileTree} {l : Posix.Location} {m : Posix.Mode} {content : Bytes}
    (hopen : th.process.fileTree.openAppend (th.session.folder ++ fileName) = some (opened, l))
    (hfile : opened.node l = some (.regular m content)) :
    (∃ th', call th c = .ok th' ∧ AllFits c.env ∧
        Replaces th.process.fileTree th'.process.fileTree l m (c.env.data.flatMap Chunk.bytes)) ↔
      th.session.controlChannel.Live ∧ th.session.dataChannel.Live ∧ AllFits c.env ∧
        (th.process.fileTree.node l = none ∨
          th.process.fileTree.node l = some (.regular m [])) := by
  obtain ⟨hcontent, hframe⟩ := openAppend_append_node hopen hfile (c.env.data.flatMap Chunk.bytes)
  have htree : ∀ th', call th c = .ok th' → AllFits c.env →
      th'.process.fileTree = opened.append l (c.env.data.flatMap Chunk.bytes) := by
    intro th' h hfits
    rw [(stor_pulls_and_writes hcommand hname h).2, transferTree, transferFile, hopen,
      written_whole c.env _ (by omega) hfits]
    rfl
  rw [← and_assoc, ← stor_returns_iff hcommand hname, ← opened_empty_iff hopen hfile]
  constructor
  · rintro ⟨th', h, hfits, hnow, -⟩
    rw [htree th' h hfits, hcontent] at hnow
    refine ⟨⟨th', h⟩, hfits, ?_⟩
    simpa using hnow
  · rintro ⟨⟨th', h⟩, hfits, rfl⟩
    refine ⟨th', h, hfits, ?_⟩
    rw [htree th' h hfits]
    exact ⟨hcontent, hframe⟩

theorem stor_replaces_new :
    ∃ th, run call (first .bare ⟨0, 0, .clear⟩) [connected] = .ok th ∧
      ∃ th', call th (uploadOf [byteChunk 97]) = .ok th' ∧ AllFits (uploadOf [byteChunk 97]).env ∧
        Replaces th.process.fileTree th'.process.fileTree [ascii "x"] Posix.FileTree.createMode
          (ascii "a") := by
  obtain ⟨th, hrun, hth⟩ := exists_of_reaches (first .bare ⟨0, 0, .clear⟩) [connected]
    (fun th => th.session.bufferFileSize ≤ 0 ∧ th.session.controlChannel.secure = false ∧
      th.session.dataChannel.secure = false ∧
      (th.process.fileTree.openAppend (th.session.folder ++ ascii "x")).map Prod.snd =
        some [ascii "x"] ∧
      (th.process.fileTree.openAppend (th.session.folder ++ ascii "x")).bind
        (fun file => file.1.node file.2) = some (.regular Posix.FileTree.createMode []) ∧
      th.process.fileTree.node [ascii "x"] = none)
    (show reaches call _ _ _ = true by decide +kernel)
  obtain ⟨hsize, hcontrol, hdata, hl, hfile, hnone⟩ := of_decide_eq_true hth
  obtain ⟨⟨opened, l⟩, hopen, heq⟩ := Option.map_eq_some_iff.mp hl
  obtain rfl : l = [ascii "x"] := heq
  rw [hopen] at hfile
  exact ⟨th, hrun, (stor_replaces_iff rfl rfl hsize hopen hfile).mpr
    ⟨TcpTransport.live_of_clear hcontrol, TcpTransport.live_of_clear hdata, allFits_of_room rfl,
      Or.inl hnone⟩⟩

/-- An upload, and the next data connection. -/
def firstUpload : List Call := [connected, uploadOf [byteChunk 97], connected]

/-- The second upload of a file goes behind the first. -/
theorem second_upload_appends :
    ∃ th, run call (first .bare ⟨0, 0, .clear⟩) firstUpload = .ok th ∧
      th.session.bufferFileSize ≤ 0 ∧
      ¬ ∃ th' m, call th (uploadOf [byteChunk 97]) = .ok th' ∧
        Replaces th.process.fileTree th'.process.fileTree [ascii "x"] m (ascii "a") := by
  obtain ⟨th, hrun, hsize⟩ := exists_of_reaches (first .bare ⟨0, 0, .clear⟩) firstUpload
    (fun th => th.session.bufferFileSize ≤ 0) (show reaches call _ _ _ = true by decide +kernel)
  obtain ⟨twice, htwice, hcontent⟩ := exists_of_reaches (first .bare ⟨0, 0, .clear⟩)
    (firstUpload ++ [uploadOf [byteChunk 97]])
    (fun th => th.process.fileTree.node [ascii "x"] =
      some (.regular Posix.FileTree.createMode (ascii "aa")))
    (show reaches call _ _ _ = true by decide +kernel)
  refine ⟨th, hrun, of_decide_eq_true hsize, ?_⟩
  rintro ⟨th', m, h, hnow, -⟩
  have hboth : run call (first .bare ⟨0, 0, .clear⟩)
      (firstUpload ++ [uploadOf [byteChunk 97]]) = .ok th' := run_concat_ok.mpr ⟨th, hrun, h⟩
  rw [htwice] at hboth
  cases hboth
  rw [of_decide_eq_true hcontent] at hnow
  exact absurd (Posix.Node.regular.inj (Option.some.inj hnow)).2 (by decide)

end FtpSession

end FtpsServer
