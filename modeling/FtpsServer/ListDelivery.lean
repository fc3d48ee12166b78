import FtpsServer.DirectoryListing
import FtpsServer.Truthfulness
import Mathlib.Data.List.TakeDrop

/-!
# What LIST delivers

`command_list` hands the whole listing to one `push` and does not look at the result.
`send` may accept less than it is given, and `gnutls_record_send` accepts one record at
most, so that the client gets the part that went with the first call.
-/

namespace FtpsServer

open ByteString Cxx Posix Machine

namespace Directory

/-! ## 1. The text of a listing -/

/-- The names, each followed by a newline. -/
def lines (names : List Bytes) : Bytes := names.flatMap fun file => file ++ ascii "\n"

variable {t : FileTree} {path : Bytes} {l : Location}

/-- Everything that `readdir` returns is there, and found where the directory may be
    searched. -/
theorem entryNode_isSome (hsearch : t.searchable l = true) {name : Name}
    (h : name ∈ t.entries l) : (entryNode t l name).isSome = true := by
  have hself := (FileTree.solid_of_isDirectory (FileTree.isDirectory_of_searchable hsearch)).isSome
  unfold entryNode
  rw [if_pos hsearch]
  by_cases hdot : name = dot
  · rw [if_pos hdot]
    exact hself
  · rw [if_neg hdot]
    by_cases hdotdot : name = dotdot
    · rw [if_pos hdotdot]
      cases l with
      | nil => exact hself
      | cons n d => exact (FileTree.solid_of_isDirectory (t.parent_isDirectory n d hself)).isSome
    · rw [if_neg hdotdot]
      have hmem := (t.mem_entries name l).mp h
      rw [or_iff_right hdot, or_iff_right hdotdot] at hmem
      exact hmem

/-- Without pattern and type a listing has all entries. -/
theorem getFiles_names (h : Opens t path l) (hsearch : t.searchable l = true)
    {names : List Bytes} (hsorted : names.Pairwise (· ≤ ·)) (hperm : names.Perm (t.entries l))
    (files : List Bytes) :
    (getFiles t path files).2 = names := by
  have hexact := getSpecifyFiles_exact t path [] .any files
  have hall : ((t.entries l).filter fun name => Wanted t l [] .any name) = t.entries l := by
    rw [List.filter_eq_self]
    intro name hname
    have hsome := entryNode_isSome hsearch hname
    rw [decide_eq_true_iff, Wanted]
    refine ⟨List.nil_prefix, ?_⟩
    cases hnode : entryNode t l name with
    | none => simp [hnode] at hsome
    | some node => rfl
  have hlisted := hexact.perm l h
  rw [hall] at hlisted
  exact (hlisted.trans hperm.symm).eq_of_pairwise
    (fun _ _ _ _ hab hba => List.le_antisymm hab hba) (hexact.sorted l h) hsorted

/-- Where nothing may be looked up, nothing is listed. -/
theorem getFiles_nil (h : Opens t path l) (hsearch : t.searchable l = false) (files : List Bytes) :
    (getFiles t path files).2 = [] := by
  have hexact := getSpecifyFiles_exact t path [] .any files
  have hnone : ((t.entries l).filter fun name => Wanted t l [] .any name) = [] := by
    rw [List.filter_eq_nil_iff]
    intro name _
    simp [Wanted, entryNode, hsearch]
  have hlisted := hexact.perm l h
  rw [hnone] at hlisted
  exact hlisted.eq_nil

theorem lines_ne_nil {names : List Bytes} (hperm : names.Perm (t.entries l)) : lines names ≠ [] := by
  have hdot : dot ∈ names := hperm.mem_iff.mpr ((t.mem_entries dot l).mpr (Or.inl rfl))
  intro hnil
  have hline := List.flatMap_eq_nil_iff.mp hnil dot hdot
  simp [dot] at hline

end Directory

/-! ## 2. What the data channel accepts -/

/-- The largest record of gnutls. -/
def MAX_RECORD_SIZE : Int := 16384

/-- Sending without an error: a prefix is accepted, which is empty only if there is nothing to
    send, and over TLS no more than one record. -/
structure SendsPrefix (env : Environment) (object : Object) (via : Via) : Prop where
  pos : ∀ message, message ≠ [] → 0 < env.send object message
  le : ∀ message, env.send object message ≤ message.length
  record : via.isTls = true → ∀ message, env.send object message ≤ MAX_RECORD_SIZE

/-- The bytes that a channel accepted, for its pushes and their results. -/
def acceptedBytes (pushes : List (Bytes × Int)) : Bytes :=
  pushes.flatMap fun push => push.1.take push.2.toNat

/-- From `th` to `th'` the data channel accepts exactly `bytes`. -/
def Delivered (th th' : Thread) (bytes : Bytes) : Prop :=
  ∃ messages, Pushed th th' messages ∧ acceptedBytes messages = bytes

theorem acceptedBytes_eq_self_iff {message : Bytes} {result : Int} (hle : result ≤ message.length) :
    acceptedBytes [(message, result)] = message ↔ message = [] ∨ result = message.length := by
  rw [acceptedBytes, List.flatMap_singleton]
  change message.take result.toNat = message ↔ _
  rw [List.take_eq_self_iff]
  constructor
  · intro h
    by_cases hnil : message = []
    · exact Or.inl hnil
    · have hpos := List.length_pos_iff.mpr hnil
      right
      omega
  · rintro (rfl | rfl)
    · simp
    · simp

@[simp] theorem replies_dataPushEvent (env : Environment) (id session : Nat) (via : Via)
    (message : Bytes) (events : List Event) :
    replies id (dataPushEvent env session via message :: events) = replies id events := rfl

namespace FtpSession

open Directory

variable {c : Call} {th th' : Thread}

theorem delivered_listing_iff (hcommand : c.input.command = .list) (h : call th c = .ok th')
    (bytes : Bytes) :
    Delivered th th' bytes ↔
      acceptedBytes [(listing th.process.fileTree th.session.folder,
        c.env.send (.data th.session.id) (listing th.process.fileTree th.session.folder))] =
        bytes := by
  rw [call_list hcommand] at h
  rcases commandList_did h with ⟨via, dataVia, -, -, hdid⟩
  unfold Delivered Pushed
  simp only [hdid.carries_iff, pushes_replyEvent, pushes_dataPushEvent, pushes_nil]
  constructor
  · rintro ⟨messages, rfl, hbytes⟩
    exact hbytes
  · intro hbytes
    exact ⟨_, rfl, hbytes⟩

theorem delivered_names_iff (hcommand : c.input.command = .list) (h : call th c = .ok th')
    {via : Via} (hsend : SendsPrefix c.env (.data th.session.id) via) {l : Location}
    (hfolder : th.process.fileTree.resolve th.session.folder = some l ∨
      th.process.fileTree.realResolve th.session.folder = some l) {names : List Bytes}
    (hsorted : names.Pairwise (· ≤ ·)) (hperm : names.Perm (th.process.fileTree.entries l)) :
    Delivered th th' (lines names) ↔
      Opens th.process.fileTree th.session.folder l ∧ th.process.fileTree.searchable l = true ∧
        c.env.send (.data th.session.id) (lines names) = (lines names).length := by
  rw [delivered_listing_iff hcommand h]
  have hne := lines_ne_nil hperm
  by_cases hopens : Opens th.process.fileTree th.session.folder l ∧
      th.process.fileTree.searchable l = true
  · have hlisting : listing th.process.fileTree th.session.folder = lines names := by
      unfold listing
      rw [getFiles_names hopens.1 hopens.2 hsorted hperm]
      rfl
    rw [hlisting, acceptedBytes_eq_self_iff (hsend.le _)]
    simp [hopens, hne]
  · -- nothing is found, and so there is nothing to send
    have hnone : listing th.process.fileTree th.session.folder = [] := by
      unfold listing
      by_cases hsome : ∃ l', Opens th.process.fileTree th.session.folder l'
      · rcases hsome with ⟨l', hl'⟩
        obtain rfl : l = l' := by
          rcases hfolder with hkernel | hreal
          · exact FileTree.resolve_agree hkernel hl'.1
          · exact Option.some.inj (hreal.symm.trans hl'.1)
        have hsearch : th.process.fileTree.searchable l = false := by
          rw [Bool.eq_false_iff]
          exact fun hsearch => hopens ⟨hl', hsearch⟩
        rw [getFiles_nil hl' hsearch]
        rfl
      · have hexact := getSpecifyFiles_exact th.process.fileTree th.session.folder [] .any []
        unfold getFiles
        rw [hexact.failure hsome]
        rfl
    refine iff_of_false ?_ fun hall => hopens ⟨hall.1, hall.2.1⟩
    rw [hnone]
    intro heq
    exact hne (heq ▸ by simp [acceptedBytes])

theorem dataVia_of_list (hcommand : c.input.command = .list) (h : call th c = .ok th') :
    ∃ via, th.session.dataChannel.via = .ok via := by
  rw [call_list hcommand] at h
  rcases commandList_did h with ⟨via, dataVia, -, hdata, -⟩
  exact ⟨dataVia, hdata⟩

/-- LIST is answered 226, whatever was sent. -/
theorem list_answered (hcommand : c.input.command = .list) (h : call th c = .ok th') :
    Replied th th'
      [ascii "150 ASCII data connection\r\n", ascii "226 ASCII Transfer complete\r\n"] := by
  rw [call_list hcommand] at h
  rcases commandList_did h with ⟨via, dataVia, -, -, hdid⟩
  have hreplied := hdid.replied
  simpa using hreplied

/-- **LIST delivers the whole listing** of a directory exactly when the directory can be opened
    and searched and the one call of `send` accepts all of it.  It answers 226 in every case,
    and over TLS a listing that is longer than a record is never delivered. -/
theorem list_delivers_iff (hcommand : c.input.command = .list) (h : call th c = .ok th')
    (hsend : ∀ via, th.session.dataChannel.via = .ok via →
      SendsPrefix c.env (.data th.session.id) via) {l : Location}
    (hfolder : th.process.fileTree.resolve th.session.folder = some l ∨
      th.process.fileTree.realResolve th.session.folder = some l) {names : List Bytes}
    (hsorted : names.Pairwise (· ≤ ·)) (hperm : names.Perm (th.process.fileTree.entries l)) :
    Replied th th'
      [ascii "150 ASCII data connection\r\n", ascii "226 ASCII Transfer complete\r\n"] ∧
    (Delivered th th' (lines names) ↔
      Opens th.process.fileTree th.session.folder l ∧ th.process.fileTree.searchable l = true ∧
        c.env.send (.data th.session.id) (lines names) = (lines names).length) ∧
    (∀ session, th.session.dataChannel.via = .ok (.tls session) →
      MAX_RECORD_SIZE < (lines names).length → ¬ Delivered th th' (lines names)) := by
  rcases dataVia_of_list hcommand h with ⟨dataVia, hdata⟩
  have hdelivered := delivered_names_iff hcommand h (hsend dataVia hdata) hfolder hsorted hperm
  refine ⟨list_answered hcommand h, hdelivered, ?_⟩
  intro session htls hlong hall
  have hrecord := (hsend _ htls).record rfl (lines names)
  rw [(hdelivered.mp hall).2.2] at hrecord
  exact absurd hlong (not_lt.mpr hrecord)

/-- A CWD to the root, and a data connection. -/
def rootCalls : List Call :=
  [⟨.plain, ⟨.cwd, [ascii "/"]⟩⟩, ⟨.plain, ⟨.port, [ascii "127.0.0.1", ascii "20"]⟩⟩]

/-- A session in the root of a bare tree, with a data connection. -/
def inRoot : Thread :=
  (run call (first .bare ⟨0, 0, .clear⟩) rootCalls).toOption.getD (first .bare ⟨0, 0, .clear⟩)

theorem run_rootCalls : run call (first .bare ⟨0, 0, .clear⟩) rootCalls = .ok inRoot := by
  obtain ⟨th, hrun, -⟩ := exists_of_reaches (first .bare ⟨0, 0, .clear⟩) rootCalls (fun _ => true)
    (show reaches call _ _ _ = true by decide +kernel)
  unfold inRoot
  rw [hrun]
  rfl

theorem inRoot_opens : Opens inRoot.process.fileTree inRoot.session.folder [] :=
  ⟨by decide +kernel, ⟨⟨true, true, true, false, true⟩, by decide +kernel, rfl⟩, rfl⟩

theorem inRoot_folder : inRoot.process.fileTree.resolve inRoot.session.folder = some [] := by
  decide +kernel

theorem inRoot_clear : inRoot.session.dataChannel.secure = false := by decide +kernel

/-- A connection that takes one byte with each call. -/
def bytewise : Environment := { Environment.plain with send := fun _ message => min message.length 1 }

theorem plain_sendsPrefix (object : Object) {via : Via} (h : via.isTls = false) :
    SendsPrefix .plain object via := by
  refine ⟨?_, fun message => le_refl _, fun htls => absurd htls (by simp [h])⟩
  intro message hne
  exact Int.natCast_pos.mpr (List.length_pos_iff.mpr hne)

theorem bytewise_sendsPrefix (object : Object) (via : Via) : SendsPrefix bytewise object via := by
  refine ⟨?_, ?_, ?_⟩
  · intro message hne
    have hpos := List.length_pos_iff.mpr hne
    change 0 < min (message.length : Int) 1
    omega
  · intro message
    change min (message.length : Int) 1 ≤ message.length
    omega
  · intro _ message
    change min (message.length : Int) 1 ≤ MAX_RECORD_SIZE
    unfold MAX_RECORD_SIZE
    omega

theorem exists_list_inRoot (env : Environment)
    (h : reaches call inRoot [⟨env, ⟨.list, []⟩⟩] (fun _ => true) = true) :
    ∃ th', call inRoot ⟨env, ⟨.list, []⟩⟩ = .ok th' := by
  obtain ⟨th', hrun, -⟩ := exists_of_reaches _ _ _ h
  obtain ⟨mid, hmid, hend⟩ := run_cons_ok.mp hrun
  exact ⟨mid, hmid⟩

theorem list_delivers_iff_root :
    run call (first .bare ⟨0, 0, .clear⟩) rootCalls = .ok inRoot ∧
      ∃ th', call inRoot ⟨.plain, ⟨.list, []⟩⟩ = .ok th' ∧
        Replied inRoot th'
          [ascii "150 ASCII data connection\r\n", ascii "226 ASCII Transfer complete\r\n"] ∧
        Delivered inRoot th' (lines [dot, dotdot]) := by
  rcases exists_list_inRoot .plain (by decide +kernel) with ⟨th', hcall⟩
  have hsend : ∀ via, inRoot.session.dataChannel.via = .ok via →
      SendsPrefix .plain (.data inRoot.session.id) via := by
    intro via hvia
    exact plain_sendsPrefix _ ((TcpTransport.isTls_of_via hvia).trans inRoot_clear)
  have hsorted : [dot, dotdot].Pairwise (· ≤ ·) := by decide
  rcases list_delivers_iff (c := ⟨.plain, ⟨.list, []⟩⟩) rfl hcall hsend (Or.inl inRoot_folder)
    hsorted (by decide +kernel) with ⟨hreplied, hdelivered, -⟩
  exact ⟨run_rootCalls, th', hcall, hreplied,
    hdelivered.mpr ⟨inRoot_opens, by decide +kernel, rfl⟩⟩

/-- A connection that takes one byte at a time gets one byte, and LIST says 226. -/
theorem list_loses_rest :
    ¬ ∀ (calls : List Call) (c : Call) (th th' : Thread),
      run call (first .bare ⟨0, 0, .clear⟩) calls = .ok th →
      c.input.command = .list → call th c = .ok th' →
      (∀ via, th.session.dataChannel.via = .ok via →
        SendsPrefix c.env (.data th.session.id) via) →
      ∀ l names, Opens th.process.fileTree th.session.folder l →
        th.process.fileTree.searchable l = true → names.Pairwise (· ≤ ·) →
        names.Perm (th.process.fileTree.entries l) → Delivered th th' (lines names) := by
  intro h
  rcases exists_list_inRoot bytewise (by decide +kernel) with ⟨th', hcall⟩
  have hsends : ∀ via, SendsPrefix bytewise (.data inRoot.session.id) via :=
    bytewise_sendsPrefix (.data inRoot.session.id)
  have hperm : [dot, dotdot].Perm (inRoot.process.fileTree.entries []) := by decide +kernel
  have hdelivered := h rootCalls ⟨bytewise, ⟨.list, []⟩⟩ inRoot th' run_rootCalls rfl hcall
    (fun via _ => hsends via) [] [dot, dotdot] inRoot_opens (by decide +kernel) (by decide) hperm
  have hwhole := (delivered_names_iff (c := ⟨bytewise, ⟨.list, []⟩⟩) rfl hcall (hsends (.plain 0))
    (Or.inl inRoot_folder) (by decide) hperm).mp hdelivered
  exact absurd hwhole.2.2 (by decide +kernel)

end FtpSession

end FtpsServer
