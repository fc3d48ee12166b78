import FtpsServer.SideBySide

/-!
# Handlers side by side

Each handler keeps two sessions side by side.  ALLO and PROT set a member that is not
initialised; STOR and PASV read one, and what they may show of it is a condition here.
-/

namespace FtpsServer

open ByteString Cxx Machine

namespace FtpSession

/-! ## 1. Handlers that read no hidden member -/

variable {known : Known} {th th' : Thread} {env : Environment} {input : FtpCommand}

theorem commandUser_alike (h : Alike known th th') :
    Related (Alike known) (commandUser env input th) (commandUser env input th') := by
  unfold commandUser
  apply Related.same _
  intro login
  have hstate : th'.session.state = th.session.state := by
    rcases h with ⟨x, q, hfits, hq, rfl⟩
    rfl
  rw [hstate]
  apply (h.replyWhen _ _).bind
  intro a b hab
  rcases hab with ⟨x, q, hfits, hq, rfl⟩
  exact Alike.replyMembers x rfl ⟨hfits.control, hfits.data, hfits.size, hfits.level⟩ hq

theorem commandPass_alike (h : Alike known th th') :
    Related (Alike known) (commandPass env input th) (commandPass env input th') := by
  unfold commandPass
  apply Related.same _
  intro password
  have hstate : th'.session.state = th.session.state := by
    rcases h with ⟨x, q, hfits, hq, rfl⟩
    rfl
  rw [hstate]
  apply (h.replyWhen _ _).bind
  intro a b hab
  rcases hab with ⟨x, q, hfits, ⟨n, trace, rfl, hreplies⟩, rfl⟩
  have hq : Like a.session.id a.process { a.process with nextHandle := n, trace := trace } :=
    ⟨n, trace, rfl, hreplies⟩
  refine Related.ite (fun _ => ?_) fun _ => ?_
  · refine Related.bind (R := Alike known) ?_ fun c d hcd => ?_
    · exact Alike.replyMembers x rfl ⟨hfits.control, hfits.data, hfits.size, hfits.level⟩ hq
    · rcases hcd with ⟨y, r, hfits', hr, rfl⟩
      exact ⟨y, r, ⟨hfits'.control, hfits'.data, hfits'.size, hfits'.level⟩, hr, rfl⟩
  · exact Alike.replyMembers x rfl ⟨hfits.control, hfits.data, hfits.size, hfits.level⟩ hq

theorem commandCwd_alike (h : Alike known th th') :
    Related (Alike known) (commandCwd env input th) (commandCwd env input th') := by
  rcases h with ⟨x, q, hfits, ⟨n, trace, rfl, hreplies⟩, rfl⟩
  unfold commandCwd
  refine Related.same _ fun folder => Related.same _ fun pathFolder => Related.ite (fun _ => ?_)
    fun _ => ?_
  · exact Alike.replyMembers x rfl hfits ⟨n, trace, rfl, hreplies⟩
  · exact Alike.replyMembers x rfl ⟨hfits.control, hfits.data, hfits.size, hfits.level⟩
      ⟨n, trace, rfl, hreplies⟩

theorem commandPort_alike (h : Alike known th th') :
    Related (Alike known) (commandPort env input th) (commandPort env input th') := by
  rcases h with ⟨x, q, hfits, ⟨n, trace, rfl, hreplies⟩, rfl⟩
  have hq : Like th.session.id th.process { th.process with nextHandle := n, trace := trace } :=
    ⟨n, trace, rfl, hreplies⟩
  have hopened := (hq.new (env.socket 0) .temporary).2
  let y : Hidden := { x with dataSession := .null }
  have hfits' : ∀ channel : TcpTransport, channel.session = .null →
      Fits known { th.session with dataChannel := channel } y := by
    intro channel hchannel
    refine ⟨hfits.control, ?_, hfits.size, hfits.level⟩
    rw [TcpTransport.way_withSession_iff, hchannel]
    intro _
    exact rfl
  unfold commandPort
  refine Related.same _ fun address => Related.same _ fun port => ?_
  dsimp only
  rw [TcpTransport.moveAssign_of_ne (by simp), TcpTransport.moveAssign_of_ne (by simp)]
  unfold TcpTransport.connect
  cases env.connect with
  | false => exact Alike.replyMembers y rfl (hfits' _ rfl) ((hopened.emit rfl).emit rfl)
  | true =>
    refine Related.bind (R := Alike known) ?_ fun a b hab => hab.reply _
    exact Alike.replyMembers y rfl (hfits' _ rfl) ((hopened.emit rfl).emit rfl)

theorem commandList_alike (h : Alike known th th') :
    Related (Alike known) (commandList env input th) (commandList env input th') := by
  have hmessage : (Directory.getFiles th'.process.fileTree th'.session.folder []).2 =
      (Directory.getFiles th.process.fileTree th.session.folder []).2 := by
    rcases h with ⟨x, q, hfits, hq, rfl⟩
    rw [hq.fileTree]
    rfl
  unfold commandList
  dsimp only
  rw [hmessage]
  apply (h.reply _).bind
  intro a b hab
  apply (hab.dataPush _).bind
  intro c d hcd
  apply (hcd.reply _).bind
  intro e f hef
  exact hef.dataClose

theorem commandType_alike (h : Alike known th th') :
    Related (Alike known) (commandType env input th) (commandType env input th') := by
  unfold commandType
  refine Related.same _ fun type => Related.ite (fun _ => ?_) fun _ => Related.ite (fun _ => ?_)
    fun _ => ?_
  · rcases h with ⟨x, q, hfits, hq, rfl⟩
    exact Alike.replyMembers x rfl ⟨hfits.control, hfits.data, hfits.size, hfits.level⟩ hq
  · rcases h with ⟨x, q, hfits, hq, rfl⟩
    exact Alike.replyMembers x rfl ⟨hfits.control, hfits.data, hfits.size, hfits.level⟩ hq
  · exact h.reply _

theorem commandDele_alike (h : Alike known th th') :
    Related (Alike known) (commandDele env input th) (commandDele env input th') := by
  rcases h with ⟨x, q, hfits, ⟨n, trace, rfl, hreplies⟩, rfl⟩
  unfold commandDele
  refine Related.same _ fun path => Related.ite (fun _ => ?_) fun _ => ?_
  · exact Alike.replyMembers x rfl hfits ⟨n, trace, rfl, hreplies⟩
  · exact Alike.replyMembers x rfl hfits ⟨n, trace, rfl, hreplies⟩

theorem commandRnfr_alike (h : Alike known th th') :
    Related (Alike known) (commandRnfr env input th) (commandRnfr env input th') := by
  rcases h with ⟨x, q, hfits, ⟨n, trace, rfl, hreplies⟩, rfl⟩
  unfold commandRnfr
  refine Related.same _ fun path => Related.bind (R := Alike known) ?_ fun a b hab => ?_
  · exact Alike.replyMembers x rfl hfits ⟨n, trace, rfl, hreplies⟩
  · rcases hab with ⟨y, r, hfits', hr, rfl⟩
    exact ⟨y, r, ⟨hfits'.control, hfits'.data, hfits'.size, hfits'.level⟩, hr, rfl⟩

theorem commandRnto_alike (h : Alike known th th') :
    Related (Alike known) (commandRnto env input th) (commandRnto env input th') := by
  rcases h with ⟨x, q, hfits, ⟨n, trace, rfl, hreplies⟩, rfl⟩
  unfold commandRnto
  refine Related.same _ fun path => Related.ite (fun _ => ?_) fun _ => Related.ite (fun _ => ?_)
    fun _ => ?_
  · exact Alike.replyMembers x rfl hfits ⟨n, trace, rfl, hreplies⟩
  · exact Alike.replyMembers x rfl hfits ⟨n, trace, rfl, hreplies⟩
  · exact Alike.replyMembers x rfl hfits ⟨n, trace, rfl, hreplies⟩

theorem commandAuth_alike (h : Alike known th th') :
    Related (Alike known) (commandAuth env input th) (commandAuth env input th') := by
  unfold commandAuth
  refine Related.same _ fun service => Related.ite (fun _ => h.reply _) fun _ => ?_
  apply (h.reply _).bind
  intro a b hab
  rcases hab with ⟨x, q, hfits, hq, rfl⟩
  obtain ⟨_, channel, r, heq, hshaken, hbound⟩ :=
    TcpTransport.setTls_ok env (.control a.session.id) a.session.controlChannel a.process
  obtain ⟨_, channel', r', heq', hshaken', hbound'⟩ :=
    TcpTransport.setTls_ok env (.control a.session.id)
      (a.session.controlChannel.withSession x.controlSession) q
  rcases hbound.withSession hbound' hfits.control with ⟨hover, hway⟩
  have heq'' : (⟨a.session.vary x, q⟩ : Thread).session.controlChannel.setTls env
      (.control (⟨a.session.vary x, q⟩ : Thread).session.id) q = .ok (_, channel', r') := heq'
  rw [heq, heq'', ok_bind, ok_bind]
  have hlike := ((Like.shaken hshaken).symm.trans hq).trans (Like.shaken hshaken')
  refine ⟨{ x with controlSession := channel'.session }, r',
    ⟨hway, hfits.data, hfits.size, hfits.level⟩, hlike, ?_⟩
  rw [hover]
  rfl

theorem commandPbsz_alike (h : Alike known th th') :
    Related (Alike known) (commandPbsz env input th) (commandPbsz env input th') := by
  rcases h with ⟨x, q, hfits, hq, rfl⟩
  unfold commandPbsz
  apply Related.same _
  intro size
  exact Alike.replyMembers { x with protectionBufferSize := size } rfl
    ⟨hfits.control, hfits.data, hfits.size, hfits.level⟩ hq

/-! ## 2. Handlers that set or read a hidden member -/

theorem commandAllo_alike (h : Alike known th th') :
    Related (Alike { known with size := true }) (commandAllo env input th)
      (commandAllo env input th') := by
  rcases h with ⟨x, q, hfits, hq, rfl⟩
  unfold commandAllo
  apply Related.same _
  intro size
  exact Alike.replyMembers { x with bufferFileSize := size } rfl
    ⟨hfits.control, hfits.data, fun _ => rfl, hfits.level⟩ hq

theorem commandProt_alike (h : Alike known th th') (hcommand : input.command = .prot) :
    Related (Alike (known.after ⟨env, input⟩)) (commandProt env input th)
      (commandProt env input th') := by
  rcases h with ⟨x, q, hfits, hq, rfl⟩
  unfold commandProt Known.after setsLevel
  cases hargument : input.getArgument 0 with
  | error e => rfl
  | ok text =>
    simp only [raising_ok, ok_bind]
    refine Alike.replyMembers
      { x with protectionLevel := (protectionOf text).getD x.protectionLevel } rfl
      ⟨hfits.control, hfits.data, ?_, ?_⟩ hq
    · intro hsize
      exact hfits.size (by simpa [hcommand] using hsize)
    · intro hlevel
      dsimp only
      cases hnamed : protectionOf text with
      | some level => rfl
      | none => exact hfits.level (by simpa [hnamed] using hlevel)

/-- What STOR writes is the same for every size: at most one chunk comes in, the file has no
    room for more than the first one, or there is no regular file behind the path. -/
def StoresAlike (env : Environment) (t : Posix.FileTree) (filePath : Bytes) : Prop :=
  env.data.length ≤ 1 ∨
    (∃ n, env.room = some n ∧ ∀ chunk ∈ env.data.head?, n ≤ chunk.bytes.length) ∨
    ∀ l, transferFile t filePath = some l →
      ((transferTree t filePath).node l).any Posix.Node.isRegular = false

/-- The first chunk is written whatever the size. -/
theorem handed_cons {env : Environment} {chunk : Chunk} {chunks : List Chunk}
    (h : env.data = chunk :: chunks) (n : Int) :
    ∃ rest, handed env n = chunk.bytes ++ rest ∧ (chunks = [] → rest = []) := by
  unfold handed
  split
  · next hpositive =>
    have hnonzero : n ≠ 0 := by omega
    refine ⟨handedAllocated chunks (n - chunk.bytes.length), ?_, ?_⟩
    · rw [h, handedAllocated, if_pos hnonzero]
    · rintro rfl
      rfl
  · exact ⟨chunks.flatMap Chunk.bytes, by rw [h, List.flatMap_cons], by rintro rfl; rfl⟩

theorem written_alike {env : Environment}
    (h : env.data.length ≤ 1 ∨
      ∃ n, env.room = some n ∧ ∀ chunk ∈ env.data.head?, n ≤ chunk.bytes.length) (n n' : Int) :
    written env n' = written env n := by
  unfold written
  cases hdata : env.data with
  | nil =>
    have hnone : ∀ m, handed env m = [] := by
      intro m
      unfold handed
      rw [hdata]
      split <;> rfl
    rw [hnone, hnone]
  | cons chunk chunks =>
    obtain ⟨rest, hrest, hone⟩ := handed_cons hdata n
    obtain ⟨rest', hrest', hone'⟩ := handed_cons hdata n'
    rw [hrest, hrest']
    rw [hdata] at h
    rcases h with hshort | ⟨room, hroom, hfirst⟩
    · obtain rfl : chunks = [] := by
        rw [List.length_cons] at hshort
        exact List.length_eq_zero_iff.mp (by omega)
      rw [hone rfl, hone' rfl]
    · have hle : room ≤ chunk.bytes.length := hfirst chunk rfl
      rw [hroom]
      unfold taken
      dsimp only
      rw [List.take_append_of_le_length hle, List.take_append_of_le_length hle]

theorem stored_alike {env : Environment} {t : Posix.FileTree} {filePath : Bytes}
    (h : StoresAlike env t filePath) (n n' : Int) :
    stored (transferTree t filePath) (transferFile t filePath) (written env n') =
      stored (transferTree t filePath) (transferFile t filePath) (written env n) := by
  rw [StoresAlike, ← or_assoc] at h
  rcases h with hfirst | hspecial
  · rw [written_alike hfirst]
  · cases hfile : transferFile t filePath with
    | none => rfl
    | some l =>
      have hsame := fun bytes =>
        (Posix.FileTree.append_eq_self_iff (transferTree t filePath) l bytes).mpr
          (Or.inr (hspecial l hfile))
      simp only [stored, hsame]

/-- The file STOR opens shows two sizes apart when it takes bytes of two chunks. -/
theorem stored_differs {env : Environment} {t : Posix.FileTree} {filePath : Bytes}
    {l : Posix.Location} {chunk chunk' : Chunk} {chunks : List Chunk}
    (hfile : transferFile t filePath = some l) (hdata : env.data = chunk :: chunk' :: chunks)
    (hroom : ∀ n, env.room = some n → chunk.bytes.length < n)
    (hregular : ((transferTree t filePath).node l).any Posix.Node.isRegular = true) :
    stored (transferTree t filePath) (transferFile t filePath)
        (written env chunk.bytes.length) ≠
      stored (transferTree t filePath) (transferFile t filePath) (written env 0) := by
  have htaken : taken env.room chunk.bytes = chunk.bytes := by
    cases hcase : env.room with
    | none => rfl
    | some n => exact List.take_of_length_le (Nat.le_of_lt (hroom n hcase))
  have hfirst : written env chunk.bytes.length = chunk.bytes := by
    have hpositive := List.length_pos_of_ne_nil chunk.nonempty
    have hhanded : handed env chunk.bytes.length = chunk.bytes := by
      unfold handed
      rw [if_pos (by omega), hdata]
      simp [handedAllocated, chunk.nonempty]
    rw [written, hhanded, htaken]
  have hall : written env 0 = chunk.bytes ++
      taken (roomAfter env.room chunk.bytes) (chunk'.bytes ++ chunks.flatMap Chunk.bytes) := by
    have hhanded : handed env 0 = chunk.bytes ++ (chunk'.bytes ++ chunks.flatMap Chunk.bytes) := by
      simp [handed, hdata]
    rw [written, hhanded, taken_append, htaken]
  rw [hfirst, hall, hfile]
  unfold stored
  dsimp only
  rw [← Posix.FileTree.append_append]
  intro heq
  rcases (Posix.FileTree.append_eq_self_iff _ _ _).mp heq.symm with hnil | hspecial
  · rcases (taken_eq_nil_iff _ _).mp hnil with hfull | hnone
    · rcases Option.map_eq_some_iff.mp hfull with ⟨n, hn, hzero⟩
      have hlt := hroom n hn
      omega
    · exact chunk'.nonempty (List.append_eq_nil_iff.mp hnone).1
  · -- the first chunk leaves a regular file
    rw [Posix.FileTree.append_node, if_pos rfl] at hspecial
    cases hnode : (transferTree t filePath).node l with
    | none => simp [hnode] at hregular
    | some node => cases node <;> simp_all [Posix.Node.isRegular]

theorem openTransfer_alike (h : Alike known th th') (filePath : Bytes) :
    (openTransfer filePath th').1 = transferFile th.process.fileTree filePath ∧
      Alike known (openTransfer filePath th).2 (openTransfer filePath th').2 := by
  rcases h with ⟨x, q, hfits, ⟨n, trace, rfl, hreplies⟩, rfl⟩
  unfold openTransfer transferFile
  dsimp only
  cases th.process.fileTree.openAppend filePath with
  | none => exact ⟨rfl, x, _, hfits, ⟨n, trace, rfl, hreplies⟩, rfl⟩
  | some opened => exact ⟨rfl, x, _, hfits, ⟨n, trace, rfl, hreplies⟩, rfl⟩

theorem receiveFile_alike {file : Option Posix.Location} (h : Alike known th th')
    (hsame : known.size = true ∨ ((∃ via, th.session.dataChannel.via = .ok via) → ∀ n n',
      stored th.process.fileTree file (written env n') =
        stored th.process.fileTree file (written env n))) :
    Related (Alike known) (receiveFile env file th) (receiveFile env file th') := by
  rcases h with ⟨x, q, hfits, ⟨n, trace, rfl, hreplies⟩, rfl⟩
  have hvias := TcpTransport.via_of_way hfits.data
  cases hvia : th.session.dataChannel.via with
  | error e =>
    rw [hvia] at hvias
    rw [receiveFile_error hvia, receiveFile_error hvias.of_error_left]
    rfl
  | ok via =>
    rw [hvia] at hvias
    rcases hvias.of_ok_left with ⟨via', hvia', -⟩
    rw [receiveFile_eq hvia, receiveFile_eq hvia']
    have htree : stored th.process.fileTree file (written env x.bufferFileSize) =
        stored th.process.fileTree file (written env th.session.bufferFileSize) := by
      rcases hsame with hknown | hall
      · rw [hfits.size hknown]
      · exact hall ⟨via, hvia⟩ _ _
    refine ⟨x, _, hfits, ⟨n, trace ++ (pulled env x.bufferFileSize).map
      (pullEvent th.session.id via'), ?_, ?_⟩, rfl⟩
    · unfold received
      dsimp only
      rw [show (th.session.vary x).bufferFileSize = x.bufferFileSize from rfl, htree]
      rfl
    · simp only [received, replies_append, replies_pulls, List.append_nil, hreplies]

theorem commandStor_alike (h : Alike known th th')
    (hharm : ∀ fileName next, input.getArgument 0 = .ok fileName →
      commandStor env input th = .ok next →
        known.size = true ∨ StoresAlike env th.process.fileTree (th.session.folder ++ fileName)) :
    Related (Alike known) (commandStor env input th) (commandStor env input th') := by
  have hpath : th'.session.folder = th.session.folder := by
    rcases h with ⟨x, q, hfits, hq, rfl⟩
    rfl
  cases hname : input.getArgument 0 with
  | error e =>
    unfold commandStor
    rw [hname]
    rfl
  | ok fileName =>
    rcases openTransfer_did (th.session.folder ++ fileName) th with ⟨hfile, hdid⟩
    rcases openTransfer_alike h (th.session.folder ++ fileName) with ⟨hfile', hopened⟩
    have hreturns := hharm fileName
    unfold commandStor
    rw [hname, hpath, raising_ok, ok_bind, ok_bind]
    dsimp only
    rw [hfile, hfile']
    apply (hopened.reply _).bind_of_ok
    intro a b ha hab
    rcases reply_did ha with ⟨via, hvia, hreplied⟩
    rw [hdid.session] at hvia
    refine (receiveFile_alike hab ?_).bind fun c d hcd => ?_
    · rw [hreplied.session, hreplied.fileTree, hdid.session, hdid.fileTree]
      by_cases hdata : ∃ dataVia, th.session.dataChannel.via = .ok dataVia
      · rcases hdata with ⟨dataVia, hdata⟩
        rcases commandStor_returns env hname hvia hdata with ⟨next, hnext⟩
        exact (hreturns next hname hnext).imp_right fun halike _ => stored_alike halike
      · exact Or.inr fun hsome => absurd hsome hdata
    · apply (hcd.dataClose.reply _).bind
      intro e f hef
      exact hef.notify _ _

/-- What `command_pasv` does about TLS on the data channel, as one result. -/
theorem secureData_ok (env : Environment) (th : Thread) :
    ∃ channel r, secureData env th = .ok ⟨{ th.session with dataChannel := channel }, r⟩ ∧
      Like th.session.id th.process r ∧
        if th.session.protectsData then th.session.dataChannel.Bound env channel
        else channel = th.session.dataChannel := by
  unfold secureData protectsData
  obtain ⟨result, channel, r, heq, hshaken, hbound⟩ :=
    TcpTransport.setTls_ok env (.data th.session.id) th.session.dataChannel th.process
  split
  · rw [heq, ok_bind]
    exact ⟨channel, r, rfl, Like.shaken hshaken, hbound⟩
  · exact ⟨_, _, rfl, Like.refl _ _, rfl⟩

theorem secureData_alike (h : Alike known th th')
    (hsame : known.level = true ∨ th.session.controlChannel.secure = false ∨
      (env.keyFile = true → th.session.dataChannel.way = .ok env.handshake)) :
    Related (Alike known) (secureData env th) (secureData env th') := by
  rcases h with ⟨x, q, hfits, hq, rfl⟩
  rcases secureData_ok env th with ⟨channel, r, heq, hlike, hchannel⟩
  obtain ⟨channel', r', heq', hlike', hchannel'⟩ := secureData_ok env ⟨th.session.vary x, q⟩
  rw [heq, heq']
  have hprocess : Like th.session.id r r' := (hlike.symm.trans hq).trans hlike'
  -- the two channels have the same way, whoever made a TLS session
  have hover : channel' = channel.withSession channel'.session ∧
      (channel.withSession channel'.session).way = channel.way := by
    have hway : th.session.protectsData ≠ (th.session.vary x).protectsData →
        env.keyFile = true → th.session.dataChannel.way = .ok env.handshake := by
      intro hne
      rcases hsame with hknown | hclear | hway
      · refine absurd ?_ hne
        simp only [protectsData, vary, TcpTransport.withSession, hfits.level hknown]
      · refine absurd ?_ hne
        simp only [protectsData, vary, TcpTransport.withSession, hclear, Bool.false_and]
      · exact hway
    cases hprotects : th.session.protectsData <;>
      cases hprotects' : (th.session.vary x).protectsData <;>
      rw [hprotects] at hchannel hway <;> rw [hprotects'] at hchannel' hway
    · obtain rfl : channel = th.session.dataChannel := hchannel
      obtain rfl : channel' = th.session.dataChannel.withSession x.dataSession := hchannel'
      exact ⟨rfl, hfits.data⟩
    · obtain rfl : channel = th.session.dataChannel := hchannel
      have hmade : (th.session.dataChannel.withSession x.dataSession).Bound env channel' := hchannel'
      obtain ⟨hover, hsees⟩ := hmade.unseen fun hkey =>
        hfits.data.trans (hway (by decide) hkey)
      rw [TcpTransport.withSession_withSession] at hover
      exact ⟨hover, hover ▸ hsees.trans hfits.data⟩
    · have hmade : th.session.dataChannel.Bound env channel := hchannel
      obtain rfl : channel' = th.session.dataChannel.withSession x.dataSession := hchannel'
      obtain ⟨hover, hsees⟩ := hmade.unseen (hway (by decide))
      rw [hover, TcpTransport.withSession_withSession]
      refine ⟨rfl, hfits.data.trans ?_⟩
      rw [← hover]
      exact hsees.symm
    · exact hchannel.withSession hchannel' hfits.data
  refine ⟨{ x with dataSession := channel'.session }, r',
    ⟨hfits.control, hover.2, hfits.size, hfits.level⟩, hprocess, ?_⟩
  rw [hover.1]
  rfl

theorem allocateListener_like {i : Nat} {p q : Process} (h : Like i p q) (env : Environment)
    (id : Nat) (address : Bytes) (attempts attempt : Nat) (listener : TcpListener) (port : Int) :
    ∃ flag l port' p' q',
      allocateListener env id address attempts attempt listener port p = (flag, l, port', p') ∧
      allocateListener env id address attempts attempt listener port q = (flag, l, port', q') ∧
      Like i p' q' := by
  induction attempts generalizing attempt listener port p q with
  | zero => exact ⟨_, _, _, p, q, rfl, rfl, h⟩
  | succ attempts ih =>
    rcases h with ⟨n, trace, rfl, hreplies⟩
    have h : Like i p { p with nextHandle := n, trace := trace } := ⟨n, trace, rfl, hreplies⟩
    have hopened := (h.new (env.socket (attempt + 1)) .temporary).2
    unfold allocateListener TcpListener.bind TcpListener.moveAssign
    dsimp only
    rw [TcpTransport.moveAssign_of_ne (by simp), TcpTransport.moveAssign_of_ne (by simp)]
    cases hbind : env.bind attempt with
    | true => exact ⟨_, _, _, _, _, rfl, rfl, (hopened.emit rfl).emit rfl⟩
    | false =>
      generalize env.socket (attempt + 1) = opens at hopened ⊢
      have hnext : ∀ {p q : Process}, Like i p q → Like i (nextPort p).2 (nextPort q).2 := by
        rintro p q ⟨n, trace, rfl, hreplies⟩
        exact ⟨n, trace, rfl, hreplies⟩
      cases opens <;> exact ih (hnext ((hopened.emit rfl).emit rfl)) _ _ _

theorem accept_alike (env : Environment) (listener : TcpListener) (h : Alike known th th') :
    Alike known
      ⟨{ th.session with dataChannel := (listener.accept env (.passive th.session.id)
          (.data th.session.id) th.session.dataChannel th.process).2.1 },
        (listener.accept env (.passive th.session.id) (.data th.session.id)
          th.session.dataChannel th.process).2.2⟩
      ⟨{ th'.session with dataChannel := (listener.accept env (.passive th'.session.id)
          (.data th'.session.id) th'.session.dataChannel th'.process).2.1 },
        (listener.accept env (.passive th'.session.id) (.data th'.session.id)
          th'.session.dataChannel th'.process).2.2⟩ := by
  rcases h with ⟨x, q, hfits, ⟨n, trace, rfl, hreplies⟩, rfl⟩
  have hq : Like th.session.id th.process { th.process with nextHandle := n, trace := trace } :=
    ⟨n, trace, rfl, hreplies⟩
  unfold TcpListener.accept TcpTransport.ofSocket
  cases env.accept with
  | false =>
    exact ⟨x, _, ⟨hfits.control, hfits.data, hfits.size, hfits.level⟩, hq.emit rfl, rfl⟩
  | true =>
    simp only [if_true]
    rw [TcpTransport.moveAssign_of_ne (by simp), TcpTransport.moveAssign_of_ne (by simp)]
    have hclear : ∀ channel : TcpTransport, channel.session = .null →
        Fits known { th.session with dataChannel := channel } { x with dataSession := .null } := by
      intro channel hchannel
      refine ⟨hfits.control, ?_, hfits.size, hfits.level⟩
      rw [TcpTransport.way_withSession_iff, hchannel]
      intro _
      exact rfl
    cases env.getsockname <;> refine ⟨{ x with dataSession := .null }, _, hclear _ rfl, ?_, rfl⟩
    all_goals exact ((hq.open'.emit rfl).emit rfl).emit rfl

theorem acceptData_alike {listener : TcpListener} (h : Alike known th th')
    (hsame : known.level = true ∨ th.session.controlChannel.secure = false ∨
      (env.keyFile = true → (if env.accept then .ok false else th.session.dataChannel.way) =
        .ok env.handshake)) :
    Related (Alike known) (acceptData env listener th) (acceptData env listener th') := by
  have haccepted := accept_alike env listener h
  have hway : known.level = true ∨ th.session.controlChannel.secure = false ∨
      (env.keyFile = true → (listener.accept env (.passive th.session.id) (.data th.session.id)
        th.session.dataChannel th.process).2.1.way = .ok env.handshake) := by
    rw [TcpListener.accept_transport _ _ _ (by simp)]
    refine hsame.imp_right (Or.imp_right fun hway hkey => ?_)
    rw [← hway hkey]
    cases env.accept <;> rfl
  unfold acceptData
  apply (secureData_alike haccepted hway).bind
  intro a b hab
  rcases hab with ⟨x, q, hfits, hq, rfl⟩
  exact ⟨x, _, hfits, hq.destructTransport _ _, rfl⟩

theorem acceptData_returns (env : Environment) (listener : TcpListener) (th : Thread) :
    ∃ next, acceptData env listener th = .ok next := by
  unfold acceptData
  dsimp only
  obtain ⟨channel, r, heq, -⟩ := secureData_ok env
    ⟨{ th.session with dataChannel := (listener.accept env (.passive th.session.id)
          (.data th.session.id) th.session.dataChannel th.process).2.1 },
        (listener.accept env (.passive th.session.id) (.data th.session.id)
          th.session.dataChannel th.process).2.2⟩
  rw [heq]
  exact ⟨_, rfl⟩

theorem commandPasv_returns (env : Environment) (input : FtpCommand) (th : Thread) {via : Via}
    (hvia : th.session.controlChannel.via = .ok via) :
    ∃ next, commandPasv env input th = .ok next := by
  unfold commandPasv
  dsimp only
  split
  · rw [reply_eq _ (by exact hvia)]
    exact ⟨_, rfl⟩
  · rw [reply_eq _ (by exact hvia), ok_bind]
    exact acceptData_returns _ _ _

theorem commandPasv_alike (h : Alike known th th')
    (hharm : ∀ next, commandPasv env input th = .ok next → BindsWithin env 0 20 →
      known.level = true ∨ th.session.controlChannel.secure = false ∨
        (env.keyFile = true → (if env.accept then .ok false else th.session.dataChannel.way) =
          .ok env.handshake)) :
    Related (Alike known) (commandPasv env input th) (commandPasv env input th') := by
  rcases h with ⟨x, q, hfits, ⟨n, trace, rfl, hreplies⟩, rfl⟩
  have hnext : Like th.session.id (nextPort th.process).2
      (nextPort { th.process with nextHandle := n, trace := trace }).2 := ⟨n, trace, rfl, hreplies⟩
  obtain ⟨flag, listener, port, p', q', hp, hq, hlike⟩ := allocateListener_like
    (hnext.new (env.socket 0) (.passive th.session.id)).2 env th.session.id
    th.session.controlChannel.address 20 0
    (TcpListener.new (env.socket 0) (.passive th.session.id) (nextPort th.process).2).1
    (nextPort th.process).1
  replace hp : listening env th = (flag, listener, port, p') := hp
  replace hq : listening env ⟨th.session.vary x,
    { th.process with nextHandle := n, trace := trace }⟩ = (flag, listener, port, q') := hq
  have hflag : flag = true ↔ BindsWithin env 0 20 := by
    rw [← (listening_spec env th).1, hp]
  have halike : Alike known ⟨th.session, p'⟩ ⟨th.session.vary x, q'⟩ := ⟨x, q', hfits, hlike, rfl⟩
  rw [commandPasv_eq, commandPasv_eq, hp, hq]
  refine Related.ite (fun _ => ?_) fun hbound => ?_
  · apply (halike.reply _).bind
    intro a b hab
    rcases hab with ⟨y, r, hfits', hr, rfl⟩
    exact ⟨y, _, hfits', ((Like.offstage (listener.transport.session.freeTlsSession_offstage
      _)).symm.trans hr).trans
        (Like.offstage (listener.transport.session.freeTlsSession_offstage _)), rfl⟩
  · refine (halike.reply _).bind_of_ok fun a b ha hab => acceptData_alike hab ?_
    rcases reply_did ha with ⟨via, hvia, hdid⟩
    rcases commandPasv_returns env input th hvia with ⟨next, hnext⟩
    rw [hdid.session]
    exact hharm next hnext (hflag.mp (by simpa using hbound))

end FtpSession

end FtpsServer
