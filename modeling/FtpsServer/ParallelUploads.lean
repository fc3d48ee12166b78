import FtpsServer.Handlers
import FtpsServer.Lib.AppendLog

/-!
# Uploads at the same time

Every session has a thread of its own, and `command_stor` waits for its client between two
pulls, so that any number of uploads run side by side.  Here the handler is cut into the
steps that the other threads can come between: the file is opened in append mode, chunks
are pulled into the stream's buffer, the buffer goes to the file whenever the library sees
fit, and `close` writes what is left.  Whatever the order of these steps, each upload's
bytes come into its file completely and in their order.
-/

namespace FtpsServer

open ByteString Cxx Posix FtpSession

/-! ## 1. The steps of one upload -/

/-- Where a thread stands in `command_stor`.  `buffered` are the bytes given to
    `file_transfer.write` that are not in the file yet and that it has room for, `room` is
    what it has room for behind them, `data` what the client will send. -/
inductive Upload where
  /-- Before `file_transfer` is constructed. -/
  | opening (filePath : Bytes) (bufferFileSize : Int) (room : Option Nat) (data : List Chunk)
  /-- In the receive loop; `fileTotalSize` where a size was allocated. -/
  | receiving (file : Option Location) (room : Option Nat) (buffered : Bytes)
      (fileTotalSize : Option Int) (data : List Chunk)
  /-- After the loop. -/
  | closing (file : Option Location) (buffered : Bytes)
  /-- After `file_transfer.close()`. -/
  | closed (file : Option Location)

/-- What a thread does next in `command_stor`. -/
inductive UploadAction where
  | open'
  | pull
  /-- The stream's buffer hands its first bytes to `write(2)`. -/
  | flush (count : Nat)
  | close
deriving DecidableEq, Repr

namespace Upload

/-- One turn of the receive loop.  An allocated size is looked at behind the pull, and the
    chunk that comes when it is 0 is dropped. -/
def pull : Upload → Upload
  | .receiving file room buffered fileTotalSize data =>
    match data with
    | [] => .closing file buffered
    | chunk :: data =>
      if fileTotalSize = some 0 then .closing file buffered
      else
        .receiving file (roomAfter room chunk.bytes) (buffered ++ taken room chunk.bytes)
          (fileTotalSize.map fun size => size - chunk.bytes.length) data
  | u => u

/-- One step of the handler, with the tree that all threads share.  An action the thread is
    not at changes nothing. -/
def act (t : FileTree) (u : Upload) (action : UploadAction) : FileTree × Upload :=
  match action with
  | .open' =>
    match u with
    | .opening filePath bufferFileSize room data =>
      (transferTree t filePath,
        .receiving (transferFile t filePath) room []
          (if bufferFileSize > 0 then some bufferFileSize else none) data)
    | u => (t, u)
  | .pull => (t, u.pull)
  | .flush count =>
    match u with
    | .receiving (some l) room buffered fileTotalSize data =>
      (t.append l (buffered.take count),
        .receiving (some l) room (buffered.drop count) fileTotalSize data)
    | .closing (some l) buffered =>
      (t.append l (buffered.take count), .closing (some l) (buffered.drop count))
    | u => (t, u)
  | .close =>
    match u with
    | .closing file buffered => (stored t file buffered, .closed file)
    | u => (t, u)

/-- The file that was opened. -/
def file : Upload → Option Location
  | .opening _ _ _ _ => none
  | .receiving file _ _ _ _ => file
  | .closing file _ => file
  | .closed file => file

def hasOpened : Upload → Bool
  | .opening _ _ _ _ => false
  | _ => true

/-- The stream is open: what is in its buffer may go out at any time. -/
def underWay : Upload → Bool
  | .receiving _ _ _ _ _ => true
  | .closing _ _ => true
  | _ => false

/-- What the receive loop hands on of the data, with or without an allocated size. -/
def toCome (fileTotalSize : Option Int) (data : List Chunk) : Bytes :=
  match fileTotalSize with
  | some size => handedAllocated data size
  | none => data.flatMap Chunk.bytes

/-- What is still to be written. -/
def left : Upload → Bytes
  | .opening _ bufferFileSize room data =>
    taken room (toCome (if bufferFileSize > 0 then some bufferFileSize else none) data)
  | .receiving _ room buffered fileTotalSize data =>
    buffered ++ taken room (toCome fileTotalSize data)
  | .closing _ buffered => buffered
  | .closed _ => []

theorem pull_left (u : Upload) : u.pull.left = u.left := by
  cases u with
  | receiving file room buffered fileTotalSize data =>
    cases data with
    | nil => cases fileTotalSize <;> simp [pull, left, toCome, handedAllocated]
    | cons chunk data =>
      unfold pull
      cases fileTotalSize with
      | none => simp [left, toCome, taken_append]
      | some size =>
        by_cases h : size = 0
        · simp [h, left, toCome, handedAllocated]
        · simp [h, left, toCome, handedAllocated, taken_append]
  | opening filePath bufferFileSize room data => rfl
  | closing file buffered => rfl
  | closed file => rfl

theorem pull_stays (u : Upload) :
    (u.hasOpened = false → u.pull = u) ∧ u.pull.hasOpened = u.hasOpened ∧
      u.pull.file = u.file ∧ u.pull.underWay = u.underWay := by
  cases u with
  | receiving file room buffered fileTotalSize data =>
    cases data with
    | nil => exact ⟨nofun, rfl, rfl, rfl⟩
    | cons chunk data =>
      unfold pull
      dsimp only
      split
      · exact ⟨nofun, rfl, rfl, rfl⟩
      · exact ⟨nofun, rfl, rfl, rfl⟩
  | opening filePath bufferFileSize room data => exact ⟨fun _ => rfl, rfl, rfl, rfl⟩
  | closing file buffered => exact ⟨nofun, rfl, rfl, rfl⟩
  | closed file => exact ⟨nofun, rfl, rfl, rfl⟩

/-- What one action does to the upload and to the shared tree. -/
inductive Acted (t : FileTree) (u : Upload) : FileTree → Upload → Prop where
  /-- Nothing outside: an action out of place, or a pull. -/
  | within (u' : Upload) (hwaits : u.hasOpened = false → u' = u)
      (hopened : u'.hasOpened = u.hasOpened) (hfile : u'.file = u.file)
      (hway : u'.underWay = u.underWay) (hleft : u'.left = u.left) : Acted t u t u'
  | opened (filePath : Bytes) (bufferFileSize : Int) (room : Option Nat)
      (data : List Chunk) (u' : Upload)
      (hu : u = .opening filePath bufferFileSize room data) (hopened : u'.hasOpened = true)
      (hfile : u'.file = transferFile t filePath) (hway : u'.underWay = true)
      (hleft : u'.left = u.left) :
      Acted t u (transferTree t filePath) u'
  /-- Bytes go from the buffer to the file. -/
  | wrote (l : Location) (bytes : Bytes) (u' : Upload) (hway : u.underWay = true)
      (hopened : u'.hasOpened = true) (hfile : u.file = some l) (hfile' : u'.file = some l)
      (hleft : u.left = bytes ++ u'.left) : Acted t u (t.append l bytes) u'
  /-- The stream that could not be opened is closed. -/
  | gaveUp (u' : Upload) (hopened : u.hasOpened = true) (hopened' : u'.hasOpened = true)
      (hfile : u.file = none) (hfile' : u'.file = none) (hway : u'.underWay = false) : Acted t u t u'

theorem act_acted (t : FileTree) (u : Upload) (a : UploadAction) :
    Acted t u (u.act t a).1 (u.act t a).2 := by
  have hstay : Acted t u t u := .within u (fun _ => rfl) rfl rfl rfl rfl
  cases a with
  | open' =>
    cases u with
    | opening filePath bufferFileSize room data =>
      exact .opened filePath bufferFileSize room data _ rfl rfl rfl rfl rfl
    | receiving file room buffered fileTotalSize data => exact hstay
    | closing file buffered => exact hstay
    | closed file => exact hstay
  | pull =>
    obtain ⟨hwaits, hopened, hfile, hway⟩ := u.pull_stays
    exact .within _ hwaits hopened hfile hway u.pull_left
  | flush count =>
    cases u with
    | receiving file room buffered fileTotalSize data =>
      cases file with
      | none => exact hstay
      | some l =>
        refine .wrote l _ _ rfl rfl rfl rfl ?_
        change buffered ++ _ = buffered.take count ++ (buffered.drop count ++ _)
        rw [← List.append_assoc, List.take_append_drop]
    | closing file buffered =>
      cases file with
      | none => exact hstay
      | some l => exact .wrote l _ _ rfl rfl rfl rfl (List.take_append_drop count buffered).symm
    | opening filePath bufferFileSize room data => exact hstay
    | closed file => exact hstay
  | close =>
    cases u with
    | closing file buffered =>
      cases file with
      | none => exact .gaveUp _ rfl rfl rfl rfl rfl
      | some l => exact .wrote l _ _ rfl rfl rfl rfl (List.append_nil buffered).symm
    | opening filePath bufferFileSize room data => exact hstay
    | receiving file room buffered fileTotalSize data => exact hstay
    | closed file => exact hstay

theorem hasOpened_of_underWay {u : Upload} (h : u.underWay = true) : u.hasOpened = true := by
  cases u with
  | opening filePath bufferFileSize room data => cases h
  | receiving file room buffered fileTotalSize data => rfl
  | closing file buffered => rfl
  | closed file => rfl

theorem left_of_quiet {u : Upload} (hopened : u.hasOpened = true) (h : u.underWay = false) :
    u.left = [] := by
  cases u with
  | opening filePath bufferFileSize room data => cases hopened
  | receiving file room buffered fileTotalSize data => cases h
  | closing file buffered => cases h
  | closed file => rfl

/-- An upload has opened its file behind an `open'` of its own, and else when it had before. -/
theorem act_hasOpened (t : FileTree) (u : Upload) (action : UploadAction) :
    (u.act t action).2.hasOpened = true ↔ u.hasOpened = true ∨ action = .open' := by
  have hpull := u.pull_stays.2.1
  cases action with
  | open' => cases u <;> simp [Upload.act, Upload.hasOpened]
  | pull => simp [Upload.act, hpull]
  | flush count =>
    cases u with
    | receiving file room buffered fileTotalSize data =>
      cases file <;> simp [Upload.act, Upload.hasOpened]
    | closing file buffered => cases file <;> simp [Upload.act, Upload.hasOpened]
    | opening filePath bufferFileSize room data => simp [Upload.act, Upload.hasOpened]
    | closed file => simp [Upload.act, Upload.hasOpened]
  | close => cases u <;> simp [Upload.act, Upload.hasOpened]

end Upload

/-! ## 2. What opening a file leaves alone -/

section Opening

variable {t : FileTree} {l : Location} {filePath : Bytes}

theorem transferTree_isSome (filePath : Bytes) (h : (t.node l).isSome) :
    ((transferTree t filePath).node l).isSome := by
  unfold transferTree
  cases hopen : t.openAppend filePath with
  | none => exact h
  | some opened =>
    obtain ⟨t', l'⟩ := opened
    rcases FileTree.openAppend_cases hopen with ⟨rfl, -⟩ | ⟨hfree, -, helse⟩
    · exact h
    · have hne : l ≠ l' := by
        rintro rfl
        rw [hfree] at h
        cases h
      exact (congrArg Option.isSome (helse l hne)).trans h

theorem transferFile_isSome (h : transferFile t filePath = some l) :
    ((transferTree t filePath).node l).isSome := by
  unfold transferFile at h
  unfold transferTree
  cases hopen : t.openAppend filePath with
  | none =>
    rw [hopen] at h
    cases h
  | some opened =>
    obtain ⟨t', l'⟩ := opened
    rw [hopen] at h
    obtain rfl : l' = l := by simpa using h
    rcases FileTree.openAppend_cases hopen with ⟨rfl, hthere⟩ | ⟨-, hfresh, -⟩
    · exact hthere
    · exact congrArg Option.isSome hfresh

theorem transfer_append (hl : (t.node l).isSome) (bytes filePath : Bytes) :
    transferTree (t.append l bytes) filePath = (transferTree t filePath).append l bytes ∧
      transferFile (t.append l bytes) filePath = transferFile t filePath := by
  unfold transferTree transferFile
  rw [FileTree.openAppend_append hl]
  cases t.openAppend filePath with
  | none => exact ⟨rfl, rfl⟩
  | some opened => exact ⟨rfl, rfl⟩

theorem transfer_appends {log : List (Location × Bytes)}
    (h : ∀ block ∈ log, (t.node block.1).isSome) (filePath : Bytes) :
    transferTree (t.appends log) filePath = (transferTree t filePath).appends log ∧
      transferFile (t.appends log) filePath = transferFile t filePath := by
  unfold transferTree transferFile
  rw [FileTree.openAppend_appends h]
  cases t.openAppend filePath with
  | none => exact ⟨rfl, rfl⟩
  | some opened => exact ⟨rfl, rfl⟩

end Opening

/-! ## 3. Uploads side by side -/

/-- A STOR that some session is given, on channels that can be used. -/
structure Stor where
  session : FtpSession
  env : Environment
  input : FtpCommand
  fileName : Bytes
  via : Via
  dataVia : Via
  argument : input.getArgument 0 = .ok fileName
  control : session.controlChannel.via = .ok via
  data : session.dataChannel.via = .ok dataVia

namespace Stor

def filePath (c : Stor) : Bytes := c.session.folder ++ c.fileName

def upload (c : Stor) : Upload :=
  .opening c.filePath c.session.bufferFileSize c.env.room c.env.data

/-- What the handler writes. -/
def bytes (c : Stor) : Bytes := written c.env c.session.bufferFileSize

theorem upload_left (c : Stor) : c.upload.left = c.bytes := by
  change taken c.env.room (Upload.toCome _ _) = _
  unfold bytes written handed
  by_cases h : c.session.bufferFileSize > 0
  · rw [if_pos h, if_pos h]
    rfl
  · rw [if_neg h, if_neg h]
    rfl

/-- The handler, undisturbed. -/
def run (c : Stor) (p : Process) : Except Abort Process :=
  (commandStor c.env c.input ⟨c.session, p⟩).map Thread.process

/-- What the handler makes of the tree. -/
def store (c : Stor) (t : FileTree) (bytes : Bytes) : FileTree :=
  stored (transferTree t c.filePath) (transferFile t c.filePath) bytes

theorem run_ok (c : Stor) (p : Process) :
    ∃ p', c.run p = .ok p' ∧ p'.fileTree = c.store p.fileTree c.bytes := by
  obtain ⟨th, hth⟩ : ∃ th, commandStor c.env c.input ⟨c.session, p⟩ = .ok th :=
    commandStor_returns c.env c.argument c.control c.data
  obtain ⟨fileName, via, dataVia, hname, -, -, hdid⟩ := commandStor_did hth
  have heq : c.fileName = fileName := by
    have h := c.argument.symm.trans hname
    injection h
  subst heq
  exact ⟨th.process, by rw [run, hth]; rfl, hdid.fileTree⟩

end Stor

/-- The shared tree, and where each upload stands. -/
structure Uploads (ι : Type) where
  fileTree : FileTree
  uploads : ι → Upload

namespace Uploads

variable {ι : Type}

def start (t : FileTree) (stors : ι → Stor) : Uploads ι := ⟨t, fun i => (stors i).upload⟩

/-- The tree with the files of these uploads opened. -/
def openAll (stors : ι → Stor) (t : FileTree) (order : List ι) : FileTree :=
  order.foldl (fun t i => transferTree t (stors i).filePath) t

theorem openAll_concat (stors : ι → Stor) (t : FileTree) (order : List ι) (i : ι) :
    openAll stors t (order ++ [i]) = transferTree (openAll stors t order) (stors i).filePath := by
  rw [openAll, List.foldl_append]
  rfl

theorem openAll_isSome (stors : ι → Stor) {t : FileTree} {l : Location} (order : List ι)
    (h : (t.node l).isSome) : ((openAll stors t order).node l).isSome := by
  induction order generalizing t with
  | nil => exact h
  | cons i order ih => exact ih (transferTree_isSome _ h)

/-- The uploads that have opened their file, in the order in which they did. -/
structure InOrder (stors : ι → Stor) (s : Uploads ι) (order : List ι) : Prop where
  nodup : order.Nodup
  opened : ∀ i, i ∈ order ↔ (s.uploads i).hasOpened = true
  waiting : ∀ i, (s.uploads i).hasOpened = false → s.uploads i = (stors i).upload

namespace InOrder

variable {stors : ι → Stor} {s : Uploads ι} {order : List ι} {i : ι}

theorem start (t : FileTree) (stors : ι → Stor) : InOrder stors (Uploads.start t stors) [] where
  nodup := List.nodup_nil
  opened _ := ⟨nofun, nofun⟩
  waiting _ _ := rfl

theorem not_mem (h : InOrder stors s order) (hwaiting : (s.uploads i).hasOpened = false) :
    i ∉ order := by
  rw [h.opened, hwaiting]
  exact Bool.false_ne_true

/-- An upload with a file has its place in the order. -/
theorem split_of_file (h : InOrder stors s order) {l : Location}
    (hfile : (s.uploads i).file = some l) : ∃ front back, order = front ++ i :: back := by
  apply List.append_of_mem
  rw [h.opened]
  cases hu : s.uploads i with
  | opening filePath bufferFileSize room data =>
    rw [hu] at hfile
    cases hfile
  | receiving file room buffered fileTotalSize data => rfl
  | closing file buffered => rfl
  | closed file => rfl

end InOrder

variable [DecidableEq ι]

def set (s : Uploads ι) (t : FileTree) (i : ι) (u : Upload) : Uploads ι :=
  ⟨t, Function.update s.uploads i u⟩

@[simp] theorem set_fileTree (s : Uploads ι) (t : FileTree) (i : ι) (u : Upload) :
    (s.set t i u).fileTree = t := rfl

@[simp] theorem set_self (s : Uploads ι) (t : FileTree) (i : ι) (u : Upload) :
    (s.set t i u).uploads i = u := Function.update_self ..

theorem set_of_ne (s : Uploads ι) (t : FileTree) {i j : ι} (u : Upload) (h : j ≠ i) :
    (s.set t i u).uploads j = s.uploads j := Function.update_of_ne h ..

/-- One upload does one step. -/
def step (s : Uploads ι) (a : ι × UploadAction) : Uploads ι :=
  let (t, u) := (s.uploads a.1).act s.fileTree a.2
  s.set t a.1 u

def run (s : Uploads ι) (as : List (ι × UploadAction)) : Uploads ι := as.foldl step s

theorem run_concat (s : Uploads ι) (as : List (ι × UploadAction)) (a : ι × UploadAction) :
    s.run (as ++ [a]) = (s.run as).step a := by
  rw [run, List.foldl_append]
  rfl

/-- The step of an upload, with what it does to the tree. -/
theorem step_acted (s : Uploads ι) (a : ι × UploadAction) :
    ∃ t u, Upload.Acted s.fileTree (s.uploads a.1) t u ∧
      ((s.uploads a.1).act s.fileTree a.2).2 = u ∧ s.step a = s.set t a.1 u :=
  ⟨_, _, Upload.act_acted _ _ a.2, rfl, rfl⟩

/-! ## 4. No byte is lost, and none comes out of order -/

/-- Bytes that went from an upload's buffer to its file at once. -/
structure Block (ι : Type) where
  owner : ι
  file : Location
  bytes : Bytes

/-- The blocks of one upload, joined. -/
def bytesOf (i : ι) (log : List (Block ι)) : Bytes :=
  (log.filter fun block => block.owner = i).flatMap Block.bytes

theorem bytesOf_concat (i : ι) (log : List (Block ι)) (block : Block ι) :
    bytesOf i (log ++ [block]) = bytesOf i log ++ if block.owner = i then block.bytes else [] := by
  unfold bytesOf
  rw [List.filter_append, List.flatMap_append]
  by_cases h : block.owner = i <;> simp [h]

namespace InOrder

variable {stors : ι → Stor} {s : Uploads ι} {order : List ι} {i : ι} {u : Upload}

/-- A step that opens nothing. -/
theorem set_same (h : InOrder stors s order) (t : FileTree)
    (hwaits : (s.uploads i).hasOpened = false → u = s.uploads i)
    (hopened : u.hasOpened = (s.uploads i).hasOpened) : InOrder stors (s.set t i u) order := by
  refine ⟨h.nodup, ?_, ?_⟩
  · intro j
    rw [h.opened]
    by_cases hj : j = i
    · rw [hj, set_self, hopened]
    · rw [set_of_ne _ _ _ hj]
  · intro j hj
    by_cases heq : j = i
    · subst heq
      rw [set_self, hopened] at hj
      rw [set_self, hwaits hj]
      exact h.waiting j hj
    · rw [set_of_ne _ _ _ heq] at hj ⊢
      exact h.waiting j hj

theorem set_opened (h : InOrder stors s order) (t : FileTree)
    (hwaiting : (s.uploads i).hasOpened = false) (hopened : u.hasOpened = true) :
    InOrder stors (s.set t i u) (order ++ [i]) := by
  refine ⟨?_, ?_, ?_⟩
  · rw [← List.concat_eq_append]
    exact h.nodup.concat (h.not_mem hwaiting)
  · intro j
    rw [List.mem_append, List.mem_singleton, h.opened]
    by_cases hj : j = i
    · subst hj
      simp [hopened]
    · rw [set_of_ne _ _ _ hj]
      simp [hj]
  · intro j hj
    have hne : j ≠ i := by
      rintro rfl
      rw [set_self, hopened] at hj
      cases hj
    rw [set_of_ne _ _ _ hne] at hj ⊢
    exact h.waiting j hj

end InOrder

/-- A step that changes no file of an upload. -/
theorem set_file {s : Uploads ι} {i : ι} {u : Upload} (t : FileTree)
    (hfile : u.file = (s.uploads i).file) (j : ι) :
    ((s.set t i u).uploads j).file = (s.uploads j).file := by
  by_cases hj : j = i
  · rw [hj, set_self, hfile]
  · rw [set_of_ne _ _ _ hj]

/-- The account of a state: in which order the files were opened, and which blocks went
    out since. -/
structure Account (t : FileTree) (stors : ι → Stor) (s : Uploads ι) (order : List ι)
    (log : List (Block ι)) : Prop extends InOrder stors s order where
  fileTree : s.fileTree =
    (openAll stors t order).appends (log.map fun block => (block.file, block.bytes))
  /-- Every file is the one that its path led to when it was opened. -/
  file : ∀ front i, front ++ [i] <+: order →
    (s.uploads i).file = transferFile (openAll stors t front) (stors i).filePath
  owner : ∀ block ∈ log, (s.uploads block.owner).file = some block.file
  /-- The blocks of an upload are the front of what it writes, in order. -/
  bytes : ∀ i, (s.uploads i).file.isSome →
    bytesOf i log ++ (s.uploads i).left = (stors i).bytes

namespace Account

variable {t : FileTree} {stors : ι → Stor} {s : Uploads ι} {order : List ι} {log : List (Block ι)}
  {i : ι} {u : Upload}

theorem start (t : FileTree) (stors : ι → Stor) : Account t stors (Uploads.start t stors) [] [] where
  toInOrder := InOrder.start t stors
  fileTree := rfl
  file front i h := absurd (List.prefix_nil.mp h) (by simp)
  owner block h := absurd h List.not_mem_nil
  bytes i h := absurd h (by simp [Uploads.start, Stor.upload, Upload.file])

/-- The file of an open upload is there. -/
theorem file_isSome (h : Account t stors s order log) {l : Location}
    (hfile : (s.uploads i).file = some l) : ((openAll stors t order).node l).isSome := by
  obtain ⟨front, back, rfl⟩ := h.split_of_file hfile
  rw [h.file front i ⟨back, by rw [List.append_assoc]; rfl⟩] at hfile
  have hthere := openAll_isSome stors back (transferFile_isSome hfile)
  rwa [← openAll_concat, openAll, openAll, ← List.foldl_append, List.append_assoc] at hthere

/-- An upload that only changes inside. -/
theorem within (h : Account t stors s order log)
    (hwaits : (s.uploads i).hasOpened = false → u = s.uploads i)
    (hopened : u.hasOpened = (s.uploads i).hasOpened) (hfile : u.file = (s.uploads i).file)
    (hleft : (s.uploads i).file.isSome → u.left = (s.uploads i).left) :
    Account t stors (s.set s.fileTree i u) order log := by
  have hfiles := set_file s.fileTree hfile
  refine ⟨h.toInOrder.set_same _ hwaits hopened, h.fileTree, ?_, ?_, ?_⟩
  · intro front j hfront
    rw [hfiles]
    exact h.file front j hfront
  · intro block hblock
    rw [hfiles]
    exact h.owner block hblock
  · intro j hj
    rw [hfiles] at hj
    by_cases heq : j = i
    · subst heq
      rw [set_self, hleft hj]
      exact h.bytes j hj
    · rw [set_of_ne _ _ _ heq]
      exact h.bytes j hj

/-- An upload opens its file: the blocks written before went to files that are there. -/
theorem open' (h : Account t stors s order log)
    (hwaiting : (s.uploads i).hasOpened = false) (hopened : u.hasOpened = true)
    (hfile : u.file = transferFile s.fileTree (stors i).filePath) (hleft : u.left = (stors i).bytes) :
    Account t stors (s.set (transferTree s.fileTree (stors i).filePath) i u) (order ++ [i]) log := by
  have hnew := h.not_mem hwaiting
  have hthere : ∀ block ∈ log.map fun block => (block.file, block.bytes),
      ((openAll stors t order).node block.1).isSome := by
    intro block hblock
    obtain ⟨b, hb, rfl⟩ := List.mem_map.mp hblock
    exact h.file_isSome (h.owner b hb)
  obtain ⟨htree, hsame⟩ := transfer_appends hthere (stors i).filePath
  rw [← h.fileTree] at htree hsame
  have hothers : ∀ block ∈ log, block.owner ≠ i := by
    rintro block hblock rfl
    have hnone := h.owner block hblock
    rw [h.waiting _ hwaiting] at hnone
    cases hnone
  refine ⟨h.toInOrder.set_opened _ hwaiting hopened, ?_, ?_, ?_, ?_⟩
  · rw [set_fileTree, htree, openAll_concat]
  · intro front j hfront
    rcases List.prefix_concat_iff.mp hfront with heq | hfront
    · obtain ⟨rfl, hij⟩ := List.append_inj' heq rfl
      obtain rfl : j = i := by simpa using hij
      rw [set_self, hfile, hsame]
    · have hj : j ∈ order := hfront.subset (List.mem_append_right _ (List.mem_singleton_self j))
      rw [set_of_ne _ _ _ (fun heq => hnew (by rwa [← heq]))]
      exact h.file front j hfront
  · intro block hblock
    rw [set_of_ne _ _ _ (hothers block hblock)]
    exact h.owner block hblock
  · intro j hj
    by_cases heq : j = i
    · subst heq
      have hnone : log.filter (fun block => block.owner = j) = [] := by
        rw [List.filter_eq_nil_iff]
        intro block hblock
        simpa using hothers block hblock
      rw [set_self, hleft, bytesOf, hnone, List.flatMap_nil, List.nil_append]
    · rw [set_of_ne _ _ _ heq] at hj ⊢
      exact h.bytes j hj

/-- An upload hands bytes of its buffer to its file. -/
theorem wrote (h : Account t stors s order log) {l : Location} {bytes : Bytes}
    (hbefore : (s.uploads i).hasOpened = true) (hopened : u.hasOpened = true)
    (hfile : (s.uploads i).file = some l) (hfile' : u.file = some l)
    (hleft : (s.uploads i).left = bytes ++ u.left) :
    Account t stors (s.set (s.fileTree.append l bytes) i u) order (log ++ [⟨i, l, bytes⟩]) := by
  have hfiles := set_file (s.fileTree.append l bytes) (hfile'.trans hfile.symm)
  have hwaits : (s.uploads i).hasOpened = false → u = s.uploads i := by
    intro hwaiting
    rw [hbefore] at hwaiting
    cases hwaiting
  refine ⟨h.toInOrder.set_same _ hwaits (hopened.trans hbefore.symm), ?_, ?_, ?_, ?_⟩
  · rw [set_fileTree, List.map_append, List.map_singleton, FileTree.appends_concat, ← h.fileTree]
  · intro front j hfront
    rw [hfiles]
    exact h.file front j hfront
  · intro block hblock
    rw [hfiles]
    rcases List.mem_append.mp hblock with hold | hnew
    · exact h.owner block hold
    · rw [List.mem_singleton.mp hnew]
      exact hfile
  · intro j hj
    rw [hfiles] at hj
    rw [bytesOf_concat]
    by_cases heq : j = i
    · subst heq
      rw [set_self, if_pos rfl, List.append_assoc, ← hleft]
      exact h.bytes j hj
    · rw [set_of_ne _ _ _ heq, if_neg (Ne.symm heq), List.append_nil]
      exact h.bytes j hj

/-- Every step of an upload keeps the account. -/
theorem step (h : Account t stors s order log) (a : ι × UploadAction) :
    ∃ order' log', Account t stors (s.step a) order' log' := by
  obtain ⟨t', u, hacted, -, hstep⟩ := s.step_acted a
  rw [hstep]
  cases hacted with
  | within u hwaits hopened hfile hway hleft =>
    exact ⟨order, log, h.within hwaits hopened hfile fun _ => hleft⟩
  | opened filePath bufferFileSize room data u hu hopened hfile hway hleft =>
    have hwaiting : (s.uploads a.1).hasOpened = false := by
      rw [hu]
      rfl
    have hstor := h.waiting a.1 hwaiting
    obtain rfl : filePath = (stors a.1).filePath := by
      rw [hu] at hstor
      exact (Upload.opening.inj hstor).1
    rw [hstor, Stor.upload_left] at hleft
    exact ⟨_, _, h.open' hwaiting hopened hfile hleft⟩
  | wrote l bytes u hway hopened hfile hfile' hleft =>
    exact ⟨_, _, h.wrote (Upload.hasOpened_of_underWay hway) hopened hfile hfile' hleft⟩
  | gaveUp u hbefore hopened hfile hfile' hway =>
    refine ⟨order, log, h.within ?_ (hopened.trans hbefore.symm) (hfile'.trans hfile.symm) ?_⟩
    · intro hwaiting
      rw [hbefore] at hwaiting
      cases hwaiting
    · intro hsome
      rw [hfile] at hsome
      cases hsome

end Account

/-- **No byte is lost and none comes out of order**: whatever the schedule of the uploads'
    steps, every state has its account. -/
theorem run_account (t : FileTree) (stors : ι → Stor) (as : List (ι × UploadAction)) :
    ∃ order log, Account t stors ((start t stors).run as) order log ∧
      ∀ l mode content, (openAll stors t order).node l = some (.regular mode content) →
        ((start t stors).run as).fileTree.node l = some (.regular mode
          (content ++ (log.filter fun block => block.file = l).flatMap Block.bytes)) := by
  have haccount : ∃ order log, Account t stors ((start t stors).run as) order log := by
    induction as using List.reverseRecOn with
    | nil => exact ⟨[], [], Account.start t stors⟩
    | append_singleton as a ih =>
      obtain ⟨order, log, h⟩ := ih
      rw [run_concat]
      exact h.step a
  obtain ⟨order, log, h⟩ := haccount
  refine ⟨order, log, h, ?_⟩
  intro l mode content hnode
  have hbytes : FileTree.bytesFor l (log.map fun block => (block.file, block.bytes)) =
      (log.filter fun block => block.file = l).flatMap Block.bytes := by
    rw [FileTree.bytesFor, List.filter_map, List.flatMap_map]
    rfl
  rw [h.fileTree, FileTree.appends_node, hbytes, FileTree.append_node, if_pos rfl, hnode]

end Uploads

end FtpsServer
