import FtpsServer.Replies

/-!
# Protection of the data channel

Whether file contents go through TLS depends on one flag of the data channel.  PASV
sets it when the control channel is secure and the level is P at that moment; PORT
and a new connection clear it, and LIST and STOR only look at it.
-/

namespace FtpsServer

open ByteString Cxx Machine

/-! ## 1. Bytes on the data channel -/

/-- The bytes an event moves over the data channel of session `id`, and their way. -/
def dataBytes (id : Nat) : Event → Option (Via × Bytes)
  | .push (.data session) via message _ => if session = id then some (via, message) else none
  | .pull (.data session) via (.bytes message) => if session = id then some (via, message) else none
  | _ => none

/-- The bytes that moved over the data channel of session `id`. -/
def moved (id : Nat) (events : List Event) : List (Via × Bytes) := events.filterMap (dataBytes id)

/-- Every byte that moved over the data channel between the two states went through
    TLS. -/
def DataPrivate (th th' : Thread) : Prop :=
  ∃ sent, traffic th'.process.trace = traffic th.process.trace ++ sent ∧
    ∀ m ∈ moved th.session.id sent, m.2 ≠ [] → m.1.isTls = true

theorem Did.dataPrivate_iff {th th' : Thread} {session : FtpSession} {t : Posix.FileTree}
    {sent : List Event} (h : Did th th' session t sent) :
    DataPrivate th th' ↔ ∀ m ∈ moved th.session.id sent, m.2 ≠ [] → m.1.isTls = true := by
  constructor
  · rintro ⟨sent', heq, hall⟩
    rw [h.traffic] at heq
    rwa [List.append_cancel_left heq]
  · intro hall
    exact ⟨sent, h.traffic, hall⟩

@[simp] theorem moved_nil (id : Nat) : moved id [] = [] := rfl

@[simp] theorem moved_append (id : Nat) (front back : List Event) :
    moved id (front ++ back) = moved id front ++ moved id back := List.filterMap_append

@[simp] theorem moved_replyEvent (env : Environment) (id session : Nat) (via : Via)
    (message : Bytes) (events : List Event) :
    moved id (replyEvent env session via message :: events) = moved id events := rfl

@[simp] theorem moved_dataPushEvent (env : Environment) (id : Nat) (via : Via) (message : Bytes)
    (events : List Event) :
    moved id (dataPushEvent env id via message :: events) = (via, message) :: moved id events := by
  simp [moved, dataBytes, dataPushEvent]

@[simp] theorem moved_signals (id : Nat) (observers : FtpNotifier) (filePath : Bytes) :
    moved id (FtpSession.signals observers filePath) = [] := by
  simp [moved, dataBytes, FtpSession.signals]

theorem mem_moved_pulls {id : Nat} {via : Via} {results : List Received} {m : Via × Bytes} :
    m ∈ moved id (results.map (FtpSession.pullEvent id via)) ↔
      m.1 = via ∧ .bytes m.2 ∈ results := by
  rcases m with ⟨way, bytes⟩
  simp only [moved, List.filterMap_map, List.mem_filterMap, Function.comp_apply]
  constructor
  · rintro ⟨result, hmem, hbytes⟩
    cases result <;> simp_all [FtpSession.pullEvent, dataBytes]
  · rintro ⟨rfl, hmem⟩
    exact ⟨_, hmem, by simp [FtpSession.pullEvent, dataBytes]⟩

namespace FtpSession

variable {c : Call} {th th' : Thread}

def transfers (command : FtpCommandT) : Prop := command = .list ∨ command = .stor

/-- Nothing goes over the data channel: an empty listing, or no data from the client. -/
def MovesNothing (th : Thread) (c : Call) : Prop :=
  (c.input.command = .list → listing th.process.fileTree th.session.folder = []) ∧
    (c.input.command = .stor → c.env.data = [])

/-- The pulls of STOR return bytes exactly when the client sends any. -/
theorem mem_pulled {env : Environment} (h : env.data ≠ []) (bufferFileSize : Int) :
    ∃ bytes, bytes ≠ [] ∧ .bytes bytes ∈ pulled env bufferFileSize := by
  unfold pulled
  cases hdata : env.data with
  | nil => exact absurd hdata h
  | cons chunk chunks =>
    refine ⟨chunk.bytes, chunk.nonempty, ?_⟩
    split <;> simp [pulledAllocated]

theorem pulled_of_no_data {env : Environment} (h : env.data = []) (bufferFileSize : Int) :
    pulled env bufferFileSize = [endOfData env] := by
  unfold pulled
  rw [h]
  split <;> rfl

/-- **The bytes of LIST and STOR** go through TLS exactly when the flag of the data
    channel is set, or there are none. -/
theorem dataPrivate_iff (h : call th c = .ok th') (htransfers : transfers c.input.command) :
    DataPrivate th th' ↔ th.session.dataChannel.secure = true ∨ MovesNothing th c := by
  rcases c with ⟨env, input⟩
  unfold call processCommand at h
  unfold MovesNothing
  dsimp only at h htransfers ⊢
  rcases htransfers with hcommand | hcommand <;> rw [hcommand] at h ⊢ <;> dsimp only at h
  · rcases commandList_did h with ⟨via, dataVia, -, hdata, hdid⟩
    rw [hdid.dataPrivate_iff, ← TcpTransport.isTls_of_via hdata]
    simp [or_iff_not_imp_right]
  · rcases commandStor_did h with ⟨_, via, dataVia, _, -, hdata, hdid⟩
    rw [hdid.dataPrivate_iff, ← TcpTransport.isTls_of_via hdata]
    simp only [moved_append, moved_replyEvent, moved_signals, moved_nil, List.nil_append,
      List.append_nil, mem_moved_pulls]
    constructor
    · intro hall
      by_cases hnone : env.data = []
      · exact Or.inr ⟨by simp, fun _ => hnone⟩
      · rcases mem_pulled hnone th.session.bufferFileSize with ⟨bytes, hne, hmem⟩
        exact Or.inl (hall (dataVia, bytes) ⟨rfl, hmem⟩ hne)
    · rintro (hsecure | ⟨-, hnone⟩) ⟨way, bytes⟩ ⟨rfl, hmem⟩ hne
      · exact hsecure
      · rw [pulled_of_no_data (hnone trivial), endOfData] at hmem
        split at hmem <;> simp at hmem

/-! ## 2. What decides the flag -/

/-- What a call decides about the flag of the data channel: PORT clears it; PASV sets it by
    a handshake when it protects the data, and otherwise clears it with a new
    connection. -/
def decides (th : Thread) (c : Call) : Option Bool :=
  match c.input.command with
  | .port => some false
  | .pasv =>
    if BindsWithin c.env 0 20 then
      if th.session.protectsData && c.env.keyFile then some c.env.handshake
      else if c.env.accept then some false else none
    else none
  | _ => none

/-- What the calls of a run decide, the last one that decides anything. -/
def decided (th : Thread) (flag : Bool) : List Call → Bool
  | [] => flag
  | c :: calls =>
    match call th c with
    | .ok th' => decided th' ((decides th c).getD flag) calls
    | .error _ => flag

theorem dataChannel_secure (h : call th c = .ok th') :
    th'.session.dataChannel.secure = (decides th c).getD th.session.dataChannel.secure := by
  have hframe := (processCommand_frame h).1
  rcases c with ⟨env, input⟩
  unfold call at h
  unfold decides
  dsimp only at h hframe ⊢
  by_cases hcommand : input.command ∈ [.port, .list, .stor, .pasv]
  · unfold processCommand at h
    simp only [List.mem_cons, List.not_mem_nil, or_false] at hcommand
    rcases hcommand with hcommand | hcommand | hcommand | hcommand <;> rw [hcommand] at h ⊢ <;>
      dsimp only at h ⊢
    · rcases commandPort_did h with ⟨_, _, _, _, _, _, _, _, _, rfl, hdid⟩
      rw [hdid.session]
      rfl
    · rcases commandList_did h with ⟨_, _, _, _, hdid⟩
      rw [hdid.session]
      rfl
    · rcases commandStor_did h with ⟨_, _, _, _, _, _, hdid⟩
      rw [hdid.session]
      rfl
    · obtain ⟨_, _, ⟨hnone, hdid⟩ | ⟨hbinds, _, accepted, channel, haccepted, hchannel, hdid⟩⟩ :=
        commandPasv_did h
      · rw [hdid.session, if_neg hnone]
        rfl
      · rw [hdid.session, if_pos hbinds]
        -- what `accept` leaves
        have hflag : accepted.secure =
            if env.accept then false else th.session.dataChannel.secure := by
          unfold Accepted at haccepted
          cases hcase : env.accept with
          | true =>
            rw [hcase, if_pos rfl] at haccepted
            exact haccepted.1
          | false =>
            rw [hcase, if_neg (by decide)] at haccepted
            rw [haccepted]
            rfl
        cases hprotects : th.session.protectsData with
        | false =>
          rw [hprotects, if_neg (by decide)] at hchannel
          simp only [hchannel, hflag, Bool.false_and, Bool.false_eq_true, if_false]
          cases env.accept <;> rfl
        | true =>
          rw [hprotects, if_pos rfl] at hchannel
          simp only [hchannel.secure, hflag, Bool.true_and]
          cases env.keyFile <;> cases env.accept <;> rfl
  · rw [hframe.dataChannel hcommand]
    cases hname : input.command <;> simp_all

theorem decided_of_run {calls : List Call} (hrun : run call th calls = .ok th') :
    th'.session.dataChannel.secure = decided th th.session.dataChannel.secure calls := by
  induction calls generalizing th with
  | nil =>
    cases hrun
    rfl
  | cons c calls ih =>
    rcases run_cons_ok.mp hrun with ⟨mid, hmid, hrest⟩
    rw [ih hrest, dataChannel_secure hmid]
    simp only [decided, hmid]

/-! ## 3. Runs -/

/-- The last level a PROT of the run was accepted for. -/
def acceptedLevel (calls : List Call) : Option FtpProtectionT :=
  (calls.filterMap fun c =>
    if c.input.command = .prot then c.input.arguments.head?.bind protectionOf else none).getLast?

/-- `P` holds of every LIST and STOR of the run that comes when the control channel is
    secure and the last accepted level is P; `P` gets the calls before it, too. -/
def AtPrivateTransfers (fresh : Thread) (calls : List Call)
    (P : List Call → Thread → Call → Thread → Prop) : Prop :=
  ∀ before c after mid next, calls = before ++ c :: after → run call fresh before = .ok mid →
    call mid c = .ok next → transfers c.input.command →
      mid.session.controlChannel.secure = true → acceptedLevel before = some .private' →
        P before mid c next

/-- **Data protection.**  In a run from a constructed session every byte of the LIST and
    STOR calls that are promised protection goes through TLS exactly when, before each
    of them, the last call that decided about the data channel was a PASV that made a
    TLS session for it, or no byte is moved. -/
theorem data_protection (opens : Bool) (id : Nat) (connection : TcpTransport) (garbage : Uninitialised)
    (p : Process) (calls : List Call) :
    let fresh := construct opens id connection garbage p
    AtPrivateTransfers fresh calls (fun _ mid _ next => DataPrivate mid next) ↔
      AtPrivateTransfers fresh calls
        (fun before mid c _ => decided fresh false before = true ∨ MovesNothing mid c) := by
  intro fresh
  have hstep : ∀ {before c mid next}, run call fresh before = .ok mid → call mid c = .ok next →
      transfers c.input.command →
        (DataPrivate mid next ↔ decided fresh false before = true ∨ MovesNothing mid c) := by
    intro before c mid next hrun hcall htransfers
    rw [dataPrivate_iff hcall htransfers, decided_of_run hrun]
    rfl
  constructor
  · intro hall before c after mid next heq hrun hcall htransfers hsecure hlevel
    exact (hstep hrun hcall htransfers).mp
      (hall before c after mid next heq hrun hcall htransfers hsecure hlevel)
  · intro hall before c after mid next heq hrun hcall htransfers hsecure hlevel
    exact (hstep hrun hcall htransfers).mpr
      (hall before c after mid next heq hrun hcall htransfers hsecure hlevel)

def privateByPort : List Call :=
  [⟨.plain, ⟨.auth, [ascii "TLS"]⟩⟩, ⟨.plain, ⟨.prot, [ascii "P"]⟩⟩,
    ⟨.plain, ⟨.port, [ascii "127.0.0.1", ascii "20"]⟩⟩]

def storeByte : Call :=
  ⟨{ Environment.plain with data := [⟨[1], by decide, by decide⟩] }, ⟨.stor, [ascii "x"]⟩⟩

/-- Over a connection that PORT opened, the contents of files go in clear. -/
theorem port_downgrades :
    ¬ AtPrivateTransfers (first .bare ⟨0, 0, .clear⟩) (privateByPort ++ [storeByte])
      (fun _ mid _ next => DataPrivate mid next) := by
  intro h
  obtain ⟨mid, hrun, hmid⟩ := exists_of_reaches (first .bare ⟨0, 0, .clear⟩) privateByPort
    (fun th => th.session.controlChannel.secure && !th.session.dataChannel.secure)
    (show reaches call _ _ _ = true by decide +kernel)
  obtain ⟨next, hall, -⟩ := exists_of_reaches (first .bare ⟨0, 0, .clear⟩)
    (privateByPort ++ [storeByte]) (fun _ => true) (show reaches call _ _ _ = true by decide +kernel)
  rcases run_append_ok.mp hall with ⟨mid', hrun', hlast⟩
  rw [hrun] at hrun'
  cases hrun'
  rcases run_cons_ok.mp hlast with ⟨next', hcall, -⟩
  simp only [Bool.and_eq_true, Bool.not_eq_true'] at hmid
  have hprivate := h privateByPort storeByte [] mid next' rfl hrun hcall (Or.inr rfl) hmid.1 (by decide)
  rcases (dataPrivate_iff hcall (Or.inr rfl)).mp hprivate with hset | ⟨-, hnothing⟩
  · rw [hmid.2] at hset
    cases hset
  · exact absurd (hnothing rfl) (by simp [storeByte])

end FtpSession

end FtpsServer
