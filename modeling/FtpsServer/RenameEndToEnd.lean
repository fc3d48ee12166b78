import FtpsServer.RenameProtocol
import FtpsServer.NullSession

/-!
# A rename from end to end

RNFR and RNTO, one behind the other.  A directory that `realpath` finds is renamed where
the kernel permits it.  A regular file is renamed too, but RNFR has answered 500 before.
-/

namespace FtpsServer

open ByteString Cxx Machine Posix

namespace FtpSession

/-! ## 1. The two commands -/

/-- The call is answered with one reply, and this is its code. -/
def AnsweredWith (code : Nat) (th th' : Thread) : Prop :=
  ∃ message, Replied th th' [message] ∧ replyCode message = code

theorem answeredWith_iff {code : Nat} {th th' : Thread} {message : Bytes}
    (h : Replied th th' [message]) : AnsweredWith code th th' ↔ replyCode message = code := by
  constructor
  · rintro ⟨message', hmessage', hcode⟩
    obtain rfl : message' = message := by simpa using hmessage'.unique h
    exact hcode
  · intro hcode
    exact ⟨message, h, hcode⟩

variable {c c' : Call} {th mid th' : Thread} {path target : Bytes}

theorem rnfr_returns_iff (hcommand : c.input.command = .rnfr)
    (hpath : c.input.getArgument 0 = .ok path) :
    (∃ mid, call th c = .ok mid) ↔ th.session.controlChannel.Live := by
  rw [call_rnfr hcommand]
  constructor
  · rintro ⟨mid, h⟩
    rcases commandRnfr_did h with ⟨_, via, -, hvia, -⟩
    exact TcpTransport.live_of_via hvia
  · intro hlive
    rcases hlive.exists_via with ⟨via, hvia⟩
    unfold commandRnfr
    rw [hpath, raising_ok, ok_bind]
    dsimp only
    rw [reply_eq th hvia]
    exact ⟨_, rfl⟩

theorem rnto_returns (hcommand : c.input.command = .rnto)
    (htarget : c.input.getArgument 0 = .ok target) (hlive : th.session.controlChannel.Live) :
    ∃ th', call th c = .ok th' := by
  rcases hlive.exists_via with ⟨via, hvia⟩
  rw [call_rnto hcommand]
  unfold commandRnto
  rw [htarget, raising_ok, ok_bind]
  dsimp only
  split
  · exact ⟨_, reply_eq th hvia⟩
  · split
    · exact ⟨_, reply_eq _ (by exact hvia)⟩
    · exact ⟨_, reply_eq _ (by exact hvia)⟩

/-- An argument means the same behind RNFR. -/
theorem rnfr_renamePath (hcommand : c.input.command = .rnfr)
    (hpath : c.input.getArgument 0 = .ok path) (h : call th c = .ok mid) (target : Bytes) :
    mid.session.renamePath target = th.session.renamePath target := by
  rw [call_rnfr hcommand] at h
  rcases commandRnfr_found hpath h with ⟨via, hdid⟩
  rw [hdid.session]
  rfl

/-- RNTO is answered 250 when the guard lets it pass and the kernel renames. -/
theorem answered_rnto_iff (hcommand : c.input.command = .rnto)
    (htarget : c.input.getArgument 0 = .ok target) (h : call th c = .ok th') :
    AnsweredWith 250 th th' ↔
      Directory.exists' th.process.fileTree (th.session.renamePath target) = false ∧
        (th.process.fileTree.rename (Path.canonical th.process.fileTree th.session.argument)
          (th.session.renamePath target)).isSome = true := by
  rw [call_rnto hcommand] at h
  rcases commandRnto_did h with ⟨target', via, htarget', -, hdid⟩
  rw [htarget] at htarget'
  cases htarget'
  have hreplied := hdid.replied
  rw [replies_replyEvent, replies_nil] at hreplied
  rw [answeredWith_iff hreplied]
  cases Directory.exists' th.process.fileTree (th.session.renamePath target) with
  | true => exact iff_of_false (by rw [if_pos rfl]; decide) fun h => Bool.noConfusion h.1
  | false =>
    rw [if_neg (by decide), and_iff_right rfl]
    cases (th.process.fileTree.rename (Path.canonical th.process.fileTree th.session.argument)
      (th.session.renamePath target)).isSome <;> decide

/-! ## 2. What they need -/

/-- RNFR finds what `realpath` takes for a directory that can be reached from the root. -/
theorem findsDirectory_iff :
    FindsDirectory th path ↔
      ∃ l, th.process.fileTree.realResolve (th.session.renamePath path) = some l ∧
        th.process.fileTree.isDirectory l = true ∧ th.process.fileTree.reachable l = true := by
  unfold FindsDirectory
  constructor
  · intro hexists
    rcases Path.directory_exists_iff.mp hexists with ⟨l, hagain, hdir, hreach⟩
    exact ⟨l, Path.realResolve_of_canonical hagain, hdir, hreach⟩
  · rintro ⟨l, hl, hdir, hreach⟩
    exact (Path.exists_canonical_iff hl).mpr ⟨hdir, hreach⟩

/-- The path names a place where nothing is, or only a link that leads nowhere. -/
structure Vacant (t : FileTree) (path : Bytes) (new : Location) : Prop where
  entry : t.entry path = some new
  nothing : t.resolve path = none
  free : ∀ node, t.node new = some node → ∃ mode link, node = .symlink mode link

/-- `realpath` finds nothing at a vacant place where not even a link is. -/
theorem Vacant.realResolve {t : FileTree} {path : Bytes} {new : Location} (h : Vacant t path new)
    (hfree : t.node new = none) : t.realResolve path = none := by
  cases hreal : t.realResolve path with
  | none => rfl
  | some l =>
    rcases FileTree.realResolve_solid hreal with ⟨hlocate, hsolid⟩
    have hlink : t.link new = none := by rw [FileTree.link, hfree]
    rw [← FileTree.eq_of_entry hlocate h.entry hlink] at hsolid
    have hsome := hsolid.isSome
    rw [hfree] at hsome
    cases hsome

/-- A directory that has the same parent at its new place, or may itself be changed. -/
def KeepsParent (t : FileTree) (l new : Location) : Prop :=
  l.tail = new.tail ∨ ∃ mode, t.node l = some (.directory mode) ∧ mode.write = true

/-- What the kernel asks of a rename of a directory, from outside of it, to a vacant place. -/
theorem mayRename_iff {t : FileTree} {oldPath newPath path : Bytes} {l new : Location}
    (hdir : t.isDirectory l = true) (hinside : ¬ l <:+ new) (hvacant : Vacant t path new) :
    t.mayRename oldPath newPath l new = true ↔
      t.mayTake l = true ∧ KeepsParent t l new ∧ t.writable new.tail = true ∧
        t.node new = none := by
  rcases FileTree.node_of_isDirectory hdir with ⟨mode, hnode⟩
  have hne : l ≠ new := by
    rintro rfl
    exact hinside List.suffix_rfl
  have hlink : t.isDirectory new = false := by
    rw [Bool.eq_false_iff]
    intro hnewdir
    rcases FileTree.node_of_isDirectory hnewdir with ⟨_, hnewnode⟩
    rcases hvacant.free _ hnewnode with ⟨_, link, heq⟩
    cases heq
  have habove : ¬ new <:+ l :=
    FileTree.not_suffix_of_not_directory (by rw [hnode]; rfl) hne.symm hlink
  unfold FileTree.mayRename KeepsParent
  rw [hnode]
  cases hnew : t.node new with
  | none => simp [Node.isDirectory, Node.mode, hinside, habove, hne, and_assoc]
  | some node => simp [Node.isDirectory, FileTree.isEmptyDirectory, hlink, hne]

/-! ## 3. End to end -/

/-- **A rename that works**: RNFR is answered 350 and RNTO behind it 250, and what was at `l`
    is at `new`, with all that is below, and nothing else has changed. -/
def RenameWorks (th : Thread) (c c' : Call) (l new : Location) : Prop :=
  ∃ mid th', call th c = .ok mid ∧ AnsweredWith 350 th mid ∧ call mid c' = .ok th' ∧
    AnsweredWith 250 mid th' ∧ th.process.fileTree.Moved th'.process.fileTree l new

/-- A directory that can be reached from the root can leave where it is and go to a place
    where nothing is. -/
structure Movable (t : FileTree) (l new : Location) : Prop where
  isDirectory : t.isDirectory l = true
  reachable : t.reachable l = true
  leaves : t.mayTake l = true
  parent : KeepsParent t l new
  arrives : t.writable new.tail = true
  free : t.node new = none

/-- The kernel moves the directory itself. -/
theorem moveOk_of_movable {t : FileTree} {l new : Location} {path : Bytes}
    (hinside : ¬ l <:+ new) (hvacant : Vacant t path new) (h : Movable t l new) :
    t.MoveOk l new := by
  rcases FileTree.entry_cons hvacant.entry with ⟨n, d, rfl, hname, hsearch⟩
  have hsome : (t.node l).isSome := (FileTree.solid_of_isDirectory h.isDirectory).isSome
  have hnot : t.isDirectory (n :: d) = false := by
    unfold FileTree.isDirectory
    rw [h.free]
    rfl
  refine ⟨?_, hsome, FileTree.isDirectory_of_searchable hsearch, hname, hinside, ?_⟩
  · rintro rfl
    exact hinside List.nil_suffix
  · apply FileTree.not_suffix_of_not_directory hsome _ hnot
    rintro rfl
    exact hinside List.suffix_rfl

section EndToEnd

variable {l new : Location} (hrnfr : c.input.command = .rnfr)
  (hpath : c.input.getArgument 0 = .ok path) (hrnto : c'.input.command = .rnto)
  (htarget : c'.input.getArgument 0 = .ok target)
  (hvacant : Vacant th.process.fileTree (th.session.renamePath target) new)
  (hinside : ¬ l <:+ new)

include hrnfr hpath hrnto htarget hvacant hinside

theorem movable_of_works
    (hl : th.process.fileTree.resolve (th.session.renamePath path) = some l ∨
      th.process.fileTree.realResolve (th.session.renamePath path) = some l)
    (h : RenameWorks th c c' l new) :
    th.session.controlChannel.Live ∧
      th.process.fileTree.realResolve (th.session.renamePath path) = some l ∧
      Movable th.process.fileTree l new := by
  rcases h with ⟨mid, th', hmid, hfrom, hend, hto, -⟩
  rcases rnfr_argument hrnfr hpath hmid with ⟨hargument, htree⟩
  have hfinds := (answeredRnfr_iff hrnfr hpath hmid).1.mp ⟨hrnfr, hfrom⟩
  rcases findsDirectory_iff.mp hfinds with ⟨found, hreal, hdir, hreach⟩
  obtain rfl : l = found := by
    rcases hl with hkernel | hl
    · exact FileTree.resolve_agree hkernel hreal
    · exact Option.some.inj (hl.symm.trans hreal)
  have hfolder := rnfr_renamePath hrnfr hpath hmid target
  have hrename := ((answered_rnto_iff hrnto htarget hend).mp hto).2
  rw [hargument, htree, hfolder, FileTree.rename_isSome_iff] at hrename
  rcases hrename with ⟨old, new', hold, hnew, hmay⟩
  obtain rfl : l = old :=
    Option.some.inj (hreal.symm.trans (Path.realResolve_of_entry_canonical_canonical hold))
  obtain rfl : new = new' := by simpa [hvacant.entry] using hnew
  rcases (mayRename_iff hdir hinside hvacant).mp hmay with ⟨hleaves, hparent, harrives, hfree⟩
  exact ⟨(rnfr_returns_iff hrnfr hpath).mp ⟨mid, hmid⟩, hreal,
    hdir, hreach, hleaves, hparent, harrives, hfree⟩

theorem works_of_movable (hlive : th.session.controlChannel.Live)
    (hl : th.process.fileTree.realResolve (th.session.renamePath path) = some l)
    (h : Movable th.process.fileTree l new) : RenameWorks th c c' l new := by
  obtain ⟨mid, hmid⟩ := (rnfr_returns_iff hrnfr hpath).mpr hlive
  rcases rnfr_argument hrnfr hpath hmid with ⟨hargument, htree⟩
  have hfolder := rnfr_renamePath hrnfr hpath hmid target
  obtain ⟨th', hend⟩ := rnto_returns hrnto htarget (call_live hlive hmid)
  have hfinds := findsDirectory_iff.mpr ⟨l, hl, h.isDirectory, h.reachable⟩
  have hfrom := ((answeredRnfr_iff hrnfr hpath hmid).1.mpr hfinds).2
  -- both names of the rename are the ones that are meant
  have hagain := (Path.realResolve_canonical hl).trans (if_pos h.reachable)
  have hold : th.process.fileTree.entry (Path.canonical th.process.fileTree
      (Path.canonical th.process.fileTree (th.session.renamePath path))) = some l := by
    cases l with
    | nil => exact absurd List.nil_suffix hinside
    | cons n d => exact (Path.entry_canonical_iff hagain).mpr h.reachable
  have hmay : ∀ oldPath newPath, th.process.fileTree.mayRename oldPath newPath l new = true :=
    fun _ _ => (mayRename_iff h.isDirectory hinside hvacant).mpr
      ⟨h.leaves, h.parent, h.arrives, h.free⟩
  have hrename : th.process.fileTree.rename (Path.canonical th.process.fileTree
      (Path.canonical th.process.fileTree (th.session.renamePath path)))
      (th.session.renamePath target) = some (th.process.fileTree.move l new) := by
    rw [FileTree.rename, hold, hvacant.entry]
    dsimp only
    rw [if_pos (hmay _ _)]
  have hguard : Directory.exists' th.process.fileTree (th.session.renamePath target) = false := by
    rw [Bool.eq_false_iff]
    intro hexists
    rcases Path.directory_exists_iff.mp hexists with ⟨l', hl', -⟩
    rw [hvacant.realResolve h.free] at hl'
    cases hl'
  have hto : AnsweredWith 250 mid th' := by
    rw [answered_rnto_iff hrnto htarget hend, hargument, htree, hfolder, hrename]
    exact ⟨hguard, rfl⟩
  refine ⟨mid, th', hmid, hfrom, hend, hto, ?_⟩
  rw [rnto_fileTree hrnto htarget hend, hargument, htree, hfolder, hguard, hrename]
  exact (moveOk_of_movable hinside hvacant h).moved

end EndToEnd

/-- **Renames, end to end.**  What RNFR names goes to where RNTO says, and both say so, exactly
    when it is a directory, for `realpath` too, that the kernel lets go there; a regular file
    is answered 500.  An RNFR of nothing is answered 500, unless `realpath` finds a directory
    where the kernel finds nothing. -/
theorem rename_works_iff (hrnfr : c.input.command = .rnfr) (hpath : c.input.getArgument 0 = .ok path)
    (hrnto : c'.input.command = .rnto) (htarget : c'.input.getArgument 0 = .ok target) :
    (∀ l new,
        th.process.fileTree.resolve (th.session.renamePath path) = some l ∨
          th.process.fileTree.realResolve (th.session.renamePath path) = some l →
        Vacant th.process.fileTree (th.session.renamePath target) new → ¬ l <:+ new →
          (RenameWorks th c c' l new ↔
            th.session.controlChannel.Live ∧
              th.process.fileTree.realResolve (th.session.renamePath path) = some l ∧
              Movable th.process.fileTree l new)) ∧
      (th.process.fileTree.resolve (th.session.renamePath path) = none →
        ((∃ mid, call th c = .ok mid ∧ AnsweredWith 500 th mid) ↔
          th.session.controlChannel.Live ∧
            ¬ ∃ l, th.process.fileTree.realResolve (th.session.renamePath path) = some l ∧
              th.process.fileTree.isDirectory l = true ∧
              th.process.fileTree.reachable l = true)) := by
  constructor
  · intro l new hl hvacant hinside
    constructor
    · exact movable_of_works hrnfr hpath hrnto htarget hvacant hinside hl
    · rintro ⟨hlive, hreal, hmovable⟩
      exact works_of_movable hrnfr hpath hrnto htarget hvacant hinside hlive hreal hmovable
  · intro _
    rw [← rnfr_returns_iff hrnfr hpath, ← findsDirectory_iff]
    constructor
    · rintro ⟨mid, hmid, hrejected⟩
      exact ⟨⟨mid, hmid⟩, (answeredRnfr_iff hrnfr hpath hmid).2.mp ⟨hrnfr, hrejected⟩⟩
    · rintro ⟨⟨mid, hmid⟩, hnot⟩
      exact ⟨mid, hmid, ((answeredRnfr_iff hrnfr hpath hmid).2.mpr hnot).2⟩

def rnfr (path : String) : Call := ⟨.plain, ⟨.rnfr, [ascii path]⟩⟩

def rnto (path : String) : Call := ⟨.plain, ⟨.rnto, [ascii path]⟩⟩

def oneDirectory : FileTree :=
  FileTree.bare.insert (ascii "d") [] (.directory ⟨true, true, true, false, true⟩)
    FileTree.bare.root_isDirectory (by decide) (by decide)

theorem rename_works_d :
    RenameWorks (first oneDirectory ⟨0, 0, .clear⟩) (rnfr "/d") (rnto "/e") [ascii "d"]
      [ascii "e"] := by
  have hvacant : Vacant oneDirectory (ascii "/e") [ascii "e"] :=
    ⟨by decide, by decide, fun node hnode => nomatch hnode⟩
  have hmovable : Movable oneDirectory [ascii "d"] [ascii "e"] :=
    ⟨by decide, by decide, by decide, Or.inl rfl, by decide, by decide⟩
  exact ((rename_works_iff rfl rfl rfl rfl).1 [ascii "d"] [ascii "e"] (Or.inl (by decide)) hvacant
    (by decide)).mpr ⟨TcpTransport.live_of_clear rfl, by decide, hmovable⟩

/-- The regular file `/a` may be moved to `/c`, where nothing is, but RNFR says that it does
    not exist. -/
theorem file_answered_500 :
    ¬ ∀ (th : Thread) (path target : String) (l new : Location),
      th.session.controlChannel.Live →
        th.process.fileTree.resolve (th.session.renamePath (ascii path)) = some l →
        th.process.fileTree.entry (th.session.renamePath (ascii path)) = some l →
        (th.process.fileTree.node l).any (fun n => n.isRegular || n.isDirectory) = true →
        Vacant th.process.fileTree (th.session.renamePath (ascii target)) new →
        th.process.fileTree.mayTake l = true →
        th.process.fileTree.writable new.tail = true → ¬ l <:+ new →
          RenameWorks th (rnfr path) (rnto target) l new := by
  intro h
  have hvacant : Vacant twoFiles (ascii "/c") [ascii "c"] :=
    ⟨by decide, by decide, fun node hnode => nomatch hnode⟩
  have hlive : (first twoFiles ⟨0, 0, .clear⟩).session.controlChannel.Live :=
    TcpTransport.live_of_clear rfl
  have hworks := h (first twoFiles ⟨0, 0, .clear⟩) "/a" "/c" [ascii "a"] [ascii "c"] hlive
    (by decide) (by decide) (by decide) hvacant (by decide) (by decide) (by decide)
  have hmovable := (movable_of_works rfl rfl rfl rfl hvacant (by decide) (Or.inl (by decide)) hworks).2.2
  exact absurd hmovable.isDirectory (by decide)

end FtpSession

end FtpsServer
