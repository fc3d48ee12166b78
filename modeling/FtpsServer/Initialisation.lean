import FtpsServer.HiddenMembers

/-!
# Uninitialised members

The constructor of `ftp_session` leaves three members with whatever the memory held.
ALLO and PROT set two of them; STOR and PASV read these two, set or not.  Two sessions
that differ in nothing but that garbage stay side by side as long as no call shows it.
-/

namespace FtpsServer

open ByteString Cxx Machine

namespace FtpSession

/-! ## 1. One call -/

variable {known : Known} {th th' : Thread} {env : Environment} {input : FtpCommand}

/-- **The call shows no garbage**: a STOR without a known size writes the same for every
    size, and a PASV without a known level gives the data channel the same way with a TLS
    session as without. -/
def Harmless (known : Known) (th : Thread) (c : Call) : Prop :=
  match c.input.command with
  | .stor => known.size = true ∨ ∀ fileName, c.input.getArgument 0 = .ok fileName →
      StoresAlike c.env th.process.fileTree (th.session.folder ++ fileName)
  | .pasv => known.level = true ∨ (BindsWithin c.env 0 20 →
      th.session.controlChannel.secure = true → c.env.keyFile = true →
        (if c.env.accept then .ok false else th.session.dataChannel.way) = .ok c.env.handshake)
  | _ => True

theorem after_of_ne {c : Call} (hallo : c.input.command ≠ .allo) (hprot : c.input.command ≠ .prot) :
    known.after c = known := by
  unfold Known.after setsLevel
  rw [beq_false_of_ne hallo, beq_false_of_ne hprot, Bool.false_and, Bool.or_false, Bool.or_false]

/-- **One call** keeps two sessions side by side when it shows no garbage. -/
theorem call_alike {c : Call} (h : Alike known th th')
    (hharm : ∀ next, call th c = .ok next → Harmless known th c) :
    Related (Alike (known.after c)) (call th c) (call th' c) := by
  rcases c with ⟨env, input⟩
  have hsame : input.command ≠ .allo → input.command ≠ .prot →
      Related (Alike known) (processCommand env input th) (processCommand env input th') →
        Related (Alike (known.after ⟨env, input⟩)) (processCommand env input th)
          (processCommand env input th') := by
    intro hallo hprot hrelated
    rwa [after_of_ne hallo hprot]
  unfold call Harmless at hharm
  unfold call
  dsimp only at hharm ⊢
  unfold processCommand at hharm hsame ⊢
  cases hcommand : input.command <;> rw [hcommand] at hharm hsame <;> dsimp only at hharm hsame ⊢
  case user => exact hsame (by decide) (by decide) (commandUser_alike h)
  case pass => exact hsame (by decide) (by decide) (commandPass_alike h)
  case cwd => exact hsame (by decide) (by decide) (commandCwd_alike h)
  case port => exact hsame (by decide) (by decide) (commandPort_alike h)
  case list => exact hsame (by decide) (by decide) (commandList_alike h)
  case stor =>
    refine hsame (by decide) (by decide) (commandStor_alike h ?_)
    intro fileName next hname hnext
    exact (hharm next hnext).imp_right fun hall => hall fileName hname
  case type => exact hsame (by decide) (by decide) (commandType_alike h)
  case auth => exact hsame (by decide) (by decide) (commandAuth_alike h)
  case pbsz => exact hsame (by decide) (by decide) (commandPbsz_alike h)
  case prot => exact commandProt_alike h hcommand
  case pasv =>
    refine hsame (by decide) (by decide) (commandPasv_alike h ?_)
    intro next hnext hbinds
    apply (hharm next hnext).imp_right
    intro hway
    cases hsecure : th.session.controlChannel.secure with
    | false => exact Or.inl rfl
    | true => exact Or.inr (hway hbinds hsecure)
  case allo =>
    have hafter : known.after ⟨env, input⟩ = { known with size := true } := by
      unfold Known.after setsLevel
      simp [hcommand]
    rw [hafter]
    exact commandAllo_alike h
  case dele => exact hsame (by decide) (by decide) (commandDele_alike h)
  case rnfr => exact hsame (by decide) (by decide) (commandRnfr_alike h)
  case rnto => exact hsame (by decide) (by decide) (commandRnto_alike h)
  case quit =>
    apply hsame (by decide) (by decide)
    rcases h with ⟨x, q, hfits, hq, rfl⟩
    exact ⟨x, q, ⟨hfits.control, hfits.data, hfits.size, hfits.level⟩, hq, rfl⟩
  case pwd =>
    apply hsame (by decide) (by decide)
    rcases h with ⟨x, q, hfits, hq, rfl⟩
    exact Alike.replyMembers x rfl hfits hq
  all_goals exact hsame (by decide) (by decide) (h.reply _)

/-! ## 2. Runs -/

/-- Every call of the run that returns shows no garbage. -/
def Settles (known : Known) (th : Thread) : List Call → Prop
  | [] => True
  | c :: calls =>
    match call th c with
    | .error _ => True
    | .ok next => Harmless known th c ∧ Settles (known.after c) next calls

theorem abreast_of_settles {calls : List Call} (h : Alike known th th')
    (hsettles : Settles known th calls) : Abreast SameResults call call th th' calls := by
  induction calls generalizing known th th' with
  | nil => exact abreast_nil.mpr h.sameResults
  | cons c calls ih =>
    unfold Settles at hsettles
    have hharm : ∀ next, call th c = .ok next → Harmless known th c := by
      intro next hnext
      rw [hnext] at hsettles
      exact hsettles.1
    have hrelated := call_alike h hharm
    refine abreast_cons.mpr ⟨h.sameResults, ?_⟩
    cases hcall : call th c with
    | error e =>
      rw [hcall] at hrelated
      rw [hrelated.of_error_left]
      rfl
    | ok next =>
      rw [hcall] at hrelated hsettles
      rcases hrelated.of_ok_left with ⟨next', hnext', halike⟩
      rw [hnext']
      exact ih halike hsettles.2

/-- The states of all the sessions that were constructed over different garbage. -/
structure Family (known : Known) (F : Uninitialised → Thread) : Prop where
  alike : ∀ g g', Alike known (F g) (F g')
  size : known.size = false → ∀ g, (F g).session.bufferFileSize = g.bufferFileSize
  level : known.level = false → ∀ g, (F g).session.protectionLevel = g.protectionLevel

theorem Family.of_construct (opens : Bool) (id : Nat) (connection : TcpTransport) (p : Process) :
    Family ⟨false, false⟩ fun g => construct opens id connection g p where
  alike g g' := by
    refine ⟨⟨g'.bufferFileSize, g'.protectionBufferSize, g'.protectionLevel, connection.session,
      .null⟩, _, ⟨rfl, rfl, ?_, ?_⟩, Like.refl _ _, rfl⟩
    · intro hsize
      cases hsize
    · intro hlevel
      cases hlevel
  size _ _ := rfl
  level _ _ := rfl

theorem Family.step {F F' : Uninitialised → Thread} {c : Call} (h : Family known F)
    (hstep : ∀ g, call (F g) c = .ok (F' g)) (hharm : ∀ g, Harmless known (F g) c) :
    Family (known.after c) F' := by
  refine ⟨?_, ?_, ?_⟩
  · intro g g'
    have hrelated := call_alike (h.alike g g') fun _ _ => hharm g
    rw [hstep g, hstep g'] at hrelated
    exact hrelated
  · intro hsize g
    obtain ⟨hknown, hallo⟩ : known.size = false ∧ c.input.command ≠ .allo := by
      simpa [Known.after] using hsize
    exact ((processCommand_frame (hstep g)).1.bufferFileSize hallo).trans (h.size hknown g)
  · intro hlevel g
    obtain ⟨hknown, hsets⟩ : known.level = false ∧ setsLevel c = false := by
      simpa [Known.after] using hlevel
    by_cases hprot : c.input.command = .prot
    · have hcall := hstep g
      rw [call_prot hprot] at hcall
      rcases commandProt_did hcall with ⟨text, _, htext, _, hdid⟩
      have hnone : protectionOf text = none := by
        unfold setsLevel at hsets
        simpa [hprot, htext] using hsets
      rw [hdid.session, hnone]
      exact h.level hknown g
    · exact ((processCommand_frame (hstep g)).1.protectionLevel hprot).trans (h.level hknown g)

/-- A STOR that shows no garbage over any size writes the same for every size. -/
theorem storesAlike_of_same {F : Uninitialised → Thread} (h : Family known F)
    (hknown : known.size = false) {fileName : Bytes} (hname : input.getArgument 0 = .ok fileName)
    (g : Uninitialised)
    (hsame : ∀ n n' : Int, ∃ th th',
      commandStor env input (F { g with bufferFileSize := n }) = .ok th ∧
        commandStor env input (F { g with bufferFileSize := n' }) = .ok th' ∧ SameResults th th') :
    StoresAlike env (F g).process.fileTree ((F g).session.folder ++ fileName) := by
  -- what the upload leaves, for the size `n`
  have htree : ∀ (n : Int) th, commandStor env input (F { g with bufferFileSize := n }) = .ok th →
      th.process.fileTree =
        stored (transferTree (F g).process.fileTree ((F g).session.folder ++ fileName))
          (transferFile (F g).process.fileTree ((F g).session.folder ++ fileName))
          (written env n) := by
    intro n th hcall
    rcases commandStor_did hcall with ⟨name, _, _, hname', _, _, hdid⟩
    obtain rfl : fileName = name := Except.ok.inj (hname.symm.trans hname')
    have hsize := h.size hknown { g with bufferFileSize := n }
    obtain ⟨x, q, -, hq, heq⟩ := h.alike g { g with bufferFileSize := n }
    rw [hdid.fileTree, hsize, heq, hq.fileTree]
    rfl
  by_contra hdiffers
  unfold StoresAlike at hdiffers
  push Not at hdiffers
  rcases hdiffers with ⟨htwo, hroom, l, hfile, hregular⟩
  cases hdata : env.data with
  | nil => simp [hdata] at htwo
  | cons chunk rest =>
    cases rest with
    | nil => simp [hdata] at htwo
    | cons chunk' chunks =>
      obtain ⟨th, th', hcall, hcall', hresults⟩ := hsame 0 chunk.bytes.length
      have hfirst : ∀ n, env.room = some n → chunk.bytes.length < n := by
        intro n hn
        rcases hroom n hn with ⟨first, hmem, hlt⟩
        rw [hdata, List.head?_cons, Option.mem_some_iff] at hmem
        exact hmem ▸ hlt
      apply stored_differs hfile hdata hfirst (by simpa using hregular)
      rw [← htree _ _ hcall, ← htree _ _ hcall']
      exact hresults.fileTree

/-- A PASV that shows no garbage over any level gives the channel the same way for every
    level. -/
theorem way_of_same {F : Uninitialised → Thread} (h : Family known F)
    (hknown : known.level = false) (g : Uninitialised) (hbinds : BindsWithin env 0 20)
    (hsecure : (F g).session.controlChannel.secure = true) (hkey : env.keyFile = true)
    (hsame : ∀ l l' : FtpProtectionT, ∃ th th',
      commandPasv env input (F { g with protectionLevel := l }) = .ok th ∧
        commandPasv env input (F { g with protectionLevel := l' }) = .ok th' ∧
          SameResults th th') :
    (if env.accept then .ok false else (F g).session.dataChannel.way) = .ok env.handshake := by
  -- the way of the channel afterwards, for the level `l`
  have hway : ∀ (l : FtpProtectionT) th,
      commandPasv env input (F { g with protectionLevel := l }) = .ok th →
      th.session.dataChannel.way =
        if l = .private' then .ok env.handshake
        else if env.accept then .ok false else (F g).session.dataChannel.way := by
    intro l th hcall
    have hlevel := h.level hknown { g with protectionLevel := l }
    obtain ⟨x, q, hfits, -, heq⟩ := h.alike g { g with protectionLevel := l }
    obtain ⟨_, _, ⟨hnone, -⟩ | ⟨-, _, accepted, channel, haccepted, hchannel, hdid⟩⟩ :=
      commandPasv_did hcall
    · exact absurd hbinds hnone
    · have hprotects : (F { g with protectionLevel := l }).session.protectsData =
          (l == .private') := by
        unfold protectsData
        rw [hlevel, heq]
        exact (congrArg (· && _) hsecure).trans (Bool.true_and _)
      have hclear : accepted.way =
          if env.accept then .ok false else (F g).session.dataChannel.way := by
        unfold Accepted at haccepted
        split at haccepted
        · next haccept => rw [TcpTransport.way_eq, haccepted.1, if_neg (by decide), if_pos haccept]
        · next haccept =>
          rw [haccepted, heq, if_neg haccept]
          exact hfits.data
      rw [hdid.session]
      rw [hprotects] at hchannel
      by_cases hl : l = .private'
      · rw [if_pos (by simpa using hl)] at hchannel
        rw [if_pos hl]
        exact hchannel.way.trans (if_pos hkey)
      · rw [if_neg (by simpa using hl)] at hchannel
        rw [if_neg hl, hchannel]
        exact hclear
  rcases hsame .private' .clear with ⟨th, th', hcall, hcall', hresults⟩
  have hshown := hresults.way
  rw [hway _ _ hcall, hway _ _ hcall', if_pos rfl, if_neg (by decide)] at hshown
  exact hshown

/-- A call with the same results over all garbage shows none. -/
theorem harmless_of_sameResults {F F' : Uninitialised → Thread} {c : Call} (h : Family known F)
    (hstep : ∀ g, call (F g) c = .ok (F' g)) (hsame : ∀ g g', SameResults (F' g) (F' g'))
    (g : Uninitialised) : Harmless known (F g) c := by
  rcases c with ⟨env, input⟩
  unfold call processCommand at hstep
  unfold Harmless
  dsimp only at hstep ⊢
  cases hcommand : input.command <;> rw [hcommand] at hstep <;> dsimp only at hstep ⊢
  case stor =>
    cases hknown : known.size with
    | true => exact Or.inl rfl
    | false =>
      refine Or.inr fun fileName hname => storesAlike_of_same h hknown hname g fun n n' => ?_
      exact ⟨_, _, hstep _, hstep _, hsame _ _⟩
  case pasv =>
    cases hknown : known.level with
    | true => exact Or.inl rfl
    | false =>
      apply Or.inr
      intro hbinds hsecure hkey
      exact way_of_same h hknown g hbinds hsecure hkey fun l l' =>
        ⟨_, _, hstep _, hstep _, hsame _ _⟩

/-- Sessions that stay side by side whatever the garbage show none. -/
theorem settles_of_abreast {F : Uninitialised → Thread} {calls : List Call} (h : Family known F)
    (habreast : ∀ g g', Abreast SameResults call call (F g) (F g') calls) (g : Uninitialised) :
    Settles known (F g) calls := by
  induction calls generalizing known F with
  | nil => trivial
  | cons c calls ih =>
    have hrelated := fun g g' => (abreast_cons.mp (habreast g g')).2
    unfold Settles
    cases hcall : call (F g) c with
    | error e => trivial
    | ok next =>
      -- then every session of the family returns
      have hreturns : ∀ g', ∃ next', call (F g') c = .ok next' := by
        intro g'
        have hone := hrelated g g'
        rw [hcall] at hone
        rcases hone.of_ok_left with ⟨next', hnext', -⟩
        exact ⟨next', hnext'⟩
      choose F' hF' using hreturns
      have hnext : F' g = next := by
        have hboth := hF' g
        rw [hcall] at hboth
        exact (Except.ok.inj hboth).symm
      have hlater : ∀ g g', Abreast SameResults call call (F' g) (F' g') calls := by
        intro g₁ g₂
        have hone := hrelated g₁ g₂
        rwa [hF' g₁, hF' g₂] at hone
      have hharm := harmless_of_sameResults h hF' fun g₁ g₂ =>
        (hlater g₁ g₂) [] List.nil_prefix
      exact ⟨hharm g, hnext ▸ ih (h.step hF' hharm) hlater⟩

/-- **Uninitialised members.**  The sessions over one connection and one process that differ
    only in their garbage give the same replies, files and choices of TLS at every point
    of a run exactly when every call of it that returns is harmless; only a STOR without an
    ALLO before it, and a PASV without a level that a PROT has set, can be anything else. -/
theorem no_garbage (opens : Bool) (id : Nat) (connection : TcpTransport) (p : Process)
    (calls : List Call) :
    (∀ g g', Abreast SameResults call call (construct opens id connection g p)
        (construct opens id connection g' p) calls) ↔
      ∀ g, Settles ⟨false, false⟩ (construct opens id connection g p) calls := by
  have hfamily := Family.of_construct opens id connection p
  constructor
  · intro habreast g
    exact settles_of_abreast hfamily habreast g
  · intro hsettles g g'
    exact abreast_of_settles (hfamily.alike g g') (hsettles g)

/-- A data connection, and the upload of two chunks of one byte over it, with no ALLO before
    it. -/
def twoChunks : List Call :=
  [⟨.plain, ⟨.port, [ascii "127.0.0.1", ascii "20"]⟩⟩,
    ⟨{ Environment.plain with
        data := [⟨ascii "a", by decide, by decide⟩, ⟨ascii "b", by decide, by decide⟩] },
      ⟨.stor, [ascii "x"]⟩⟩]

/-- Whether the upload stores one chunk or two is a matter of the memory the session was
    constructed in. -/
theorem stor_shows_garbage :
    ¬ ∀ g g', Abreast SameResults call call (first .bare g) (first .bare g') twoChunks := by
  intro h
  let content (th : Thread) : Option Posix.Node := th.process.fileTree.node [ascii "x"]
  obtain ⟨whole, hwhole, hboth⟩ := exists_of_reaches (first .bare ⟨0, 0, .clear⟩) twoChunks
    (fun th => content th = some (.regular Posix.FileTree.createMode (ascii "ab")))
    (show reaches call _ _ _ = true by decide +kernel)
  obtain ⟨part, hpart, hone⟩ := exists_of_reaches (first .bare ⟨1, 0, .clear⟩) twoChunks
    (fun th => content th = some (.regular Posix.FileTree.createMode (ascii "a")))
    (show reaches call _ _ _ = true by decide +kernel)
  have hsame := h ⟨0, 0, .clear⟩ ⟨1, 0, .clear⟩ twoChunks List.prefix_rfl
  rw [hwhole, hpart] at hsame
  have hcontent : content part = content whole :=
    congrArg (fun t => t.node [ascii "x"]) hsame.fileTree
  rw [of_decide_eq_true hboth, of_decide_eq_true hone] at hcontent
  revert hcontent
  decide

end FtpSession

end FtpsServer
