import FtpsServer.CanonicalPath
import FtpsServer.Renaming

/-!
# RNFR and RNTO as one operation in two steps

RNFR puts its canonical path into `m_argument` and RNTO takes it from there.  Nothing
else connects the two: RNFR stores the path of a regular file too, which it answers 500
because `file::exists` is never true, and RNTO neither asks what came before it nor
clears `m_argument`.
-/

namespace FtpsServer

open ByteString Cxx Machine Posix

namespace FtpSession

/-! ## 1. The protocol -/

/-- `c` is an RNFR that gets an answer of this code. -/
def AnsweredRnfr (code : Nat) (th : Thread) (c : Call) (th' : Thread) : Prop :=
  c.input.command = .rnfr ∧ ∃ message, Replied th th' [message] ∧ replyCode message = code

/-- RNTO moves to the place it names what the RNFR right before it has named, and that RNFR
    was answered 350. -/
def Announced (start : Thread) (before : List Call) (th : Thread) (c : Call) (th' : Thread) : Prop :=
  ∃ earlier c₀ th₀ path target l new,
    before = earlier ++ [c₀] ∧ Machine.run call start earlier = .ok th₀ ∧
      AnsweredRnfr 350 th₀ c₀ th ∧
      c₀.input.getArgument 0 = .ok path ∧
      th₀.process.fileTree.realResolve (th₀.session.renamePath path) = some l ∧
      c.input.getArgument 0 = .ok target ∧
      th.process.fileTree.entry (th.session.renamePath target) = some new ∧
      th'.process.fileTree = th.process.fileTree.move l new

/-- Every change RNTO makes is announced. -/
def RenamesAnnounced (start : Thread) (before : List Call) (th : Thread) (c : Call)
    (th' : Thread) : Prop :=
  c.input.command = .rnto → th'.process.fileTree ≠ th.process.fileTree →
    Announced start before th c th'

/-- An RNFR answered 500 leaves nothing pending. -/
def RejectedForgotten (th : Thread) (c : Call) (th' : Thread) : Prop :=
  AnsweredRnfr 500 th c th' → th'.session.argument = []

/-- After an RNTO nothing is pending. -/
def SourceConsumed (_ : Thread) (c : Call) (th' : Thread) : Prop :=
  c.input.command = .rnto → th'.session.argument = []

/-- Renaming is a protocol of two steps in the run of `calls` from `start`. -/
def RenameProtocol (start : Thread) (calls : List Call) : Prop :=
  EveryStepAfter call (RenamesAnnounced start) start calls ∧
    EveryStep call RejectedForgotten start calls ∧ EveryStep call SourceConsumed start calls

/-! ## 2. What it depends on -/

/-- `command_rnfr` finds a directory. -/
def FindsDirectory (th : Thread) (path : Bytes) : Prop :=
  Directory.exists' th.process.fileTree
    (Path.canonical th.process.fileTree (th.session.renamePath path)) = true

/-- `command_rnto` gets past its guard, and the kernel moves an entry. -/
def MovesTo (th : Thread) (target : Bytes) : Prop :=
  Directory.exists' th.process.fileTree (th.session.renamePath target) = false ∧
    th.process.fileTree.Renames (Path.canonical th.process.fileTree th.session.argument)
      (th.session.renamePath target)

/-- The call right before was an RNFR of a directory. -/
def BehindRnfr (start : Thread) (before : List Call) : Prop :=
  ∃ earlier c₀ th₀ path, before = earlier ++ [c₀] ∧ Machine.run call start earlier = .ok th₀ ∧
    c₀.input.command = .rnfr ∧ c₀.input.getArgument 0 = .ok path ∧ FindsDirectory th₀ path

/-- An RNTO that moves an entry comes right behind an RNFR of a directory. -/
def MovesBehindRnfr (start : Thread) (before : List Call) (th : Thread) (c : Call)
    (_ : Thread) : Prop :=
  c.input.command = .rnto → ∀ target, c.input.getArgument 0 = .ok target → MovesTo th target →
    BehindRnfr start before

/-- The path of an RNFR leads to a directory, or `realpath` finds nothing there. -/
def DirectoryOrNothing (th : Thread) (c : Call) (_ : Thread) : Prop :=
  c.input.command = .rnfr → ∀ path, c.input.getArgument 0 = .ok path →
    FindsDirectory th path ∨ th.process.fileTree.realResolve (th.session.renamePath path) = none

/-- RNTO comes when nothing is pending. -/
def NothingPending (th : Thread) (c : Call) (_ : Thread) : Prop :=
  c.input.command = .rnto → th.session.argument = []

/-! ## 3. RNFR -/

variable {c : Call} {th th' : Thread} {path : Bytes}

theorem commandRnfr_found {env : Environment} {input : FtpCommand}
    (hpath : input.getArgument 0 = .ok path) (h : commandRnfr env input th = .ok th') :
    ∃ via, Did th th'
      { th.session with
        argument := Path.canonical th.process.fileTree (th.session.renamePath path) }
      th.process.fileTree
      [replyEvent env th.session.id via
        (if Directory.exists' th.process.fileTree
            (Path.canonical th.process.fileTree (th.session.renamePath path)) then
          ascii "350 Requested file action pending further information\r\n"
        else
          ascii "500 RNRF command is failure (specified file or directory does not exists)\r\n")] := by
  rcases commandRnfr_did h with ⟨path', via, hpath', -, hdid⟩
  rw [hpath] at hpath'
  cases hpath'
  exact ⟨via, hdid⟩

theorem rnfr_argument (hcommand : c.input.command = .rnfr) (hpath : c.input.getArgument 0 = .ok path)
    (h : call th c = .ok th') :
    th'.session.argument = Path.canonical th.process.fileTree (th.session.renamePath path) ∧
      th'.process.fileTree = th.process.fileTree := by
  rw [call_rnfr hcommand] at h
  rcases commandRnfr_found hpath h with ⟨via, hdid⟩
  exact ⟨congrArg FtpSession.argument hdid.session, hdid.fileTree⟩

/-- RNFR is answered 350 for a directory and 500 for everything else. -/
theorem answeredRnfr_iff (hcommand : c.input.command = .rnfr)
    (hpath : c.input.getArgument 0 = .ok path) (h : call th c = .ok th') :
    (AnsweredRnfr 350 th c th' ↔ FindsDirectory th path) ∧
      (AnsweredRnfr 500 th c th' ↔ ¬ FindsDirectory th path) := by
  rw [call_rnfr hcommand] at h
  rcases commandRnfr_found hpath h with ⟨via, hdid⟩
  have hcode : ∀ code, AnsweredRnfr code th c th' ↔
      replyCode (if Directory.exists' th.process.fileTree
          (Path.canonical th.process.fileTree (th.session.renamePath path)) then
        ascii "350 Requested file action pending further information\r\n"
      else
        ascii "500 RNRF command is failure (specified file or directory does not exists)\r\n") =
        code := by
    intro code
    have hreplied := hdid.replied
    rw [replies_replyEvent, replies_nil] at hreplied
    constructor
    · rintro ⟨-, message, hmessage, rfl⟩
      obtain rfl : message = _ := by simpa using hmessage.unique hreplied
      rfl
    · intro heq
      exact ⟨hcommand, _, hreplied, heq⟩
  rw [hcode, hcode]
  unfold FindsDirectory
  cases Directory.exists' th.process.fileTree
    (Path.canonical th.process.fileTree (th.session.renamePath path)) <;> decide

theorem canonical_eq_nil_iff {t : FileTree} :
    Path.canonical t path = [] ↔ t.realResolve path = none := by
  constructor
  · intro hnil
    cases hresolve : t.realResolve path with
    | none => rfl
    | some l => exact absurd hnil (Path.canonical_leadsTo hresolve).ne_nil
  · exact Path.canonical_eq_nil

theorem rejectedForgotten_iff (h : call th c = .ok th') :
    RejectedForgotten th c th' ↔ DirectoryOrNothing th c th' := by
  constructor
  · intro hforgotten hcommand path hpath
    by_cases hfinds : FindsDirectory th path
    · exact Or.inl hfinds
    · right
      have hnil := hforgotten ((answeredRnfr_iff hcommand hpath h).2.mpr hfinds)
      rw [(rnfr_argument hcommand hpath h).1] at hnil
      exact canonical_eq_nil_iff.mp hnil
  · intro hcond hanswered
    have hcommand := hanswered.1
    obtain ⟨path, -, hpath, -⟩ := commandRnfr_did ((call_rnfr hcommand).symm.trans h)
    have hnot := (answeredRnfr_iff hcommand hpath h).2.mp hanswered
    rw [(rnfr_argument hcommand hpath h).1]
    exact canonical_eq_nil_iff.mpr ((hcond hcommand path hpath).resolve_left hnot)

/-! ## 4. RNTO -/

theorem call_of_run {start th₀ : Thread} {earlier : List Call} {c₀ : Call}
    (hearlier : Machine.run call start earlier = .ok th₀)
    (hrun : Machine.run call start (earlier ++ [c₀]) = .ok th) : call th₀ c₀ = .ok th := by
  rcases run_concat_ok.mp hrun with ⟨mid, hmid, hlast⟩
  rw [hearlier] at hmid
  cases hmid
  exact hlast

theorem sourceConsumed_iff (h : call th c = .ok th') :
    SourceConsumed th c th' ↔ NothingPending th c th' := by
  have hsame : c.input.command = .rnto → th'.session.argument = th.session.argument := by
    intro hcommand
    exact (processCommand_members h).argument (by simp [hcommand])
  constructor
  · intro hconsumed hcommand
    rw [← hsame hcommand]
    exact hconsumed hcommand
  · intro hnothing hcommand
    rw [hsame hcommand]
    exact hnothing hcommand

/-- What RNTO does to the tree. -/
theorem rnto_fileTree {target : Bytes} (hcommand : c.input.command = .rnto)
    (htarget : c.input.getArgument 0 = .ok target) (h : call th c = .ok th') :
    th'.process.fileTree =
      if Directory.exists' th.process.fileTree (th.session.renamePath target) then
        th.process.fileTree
      else (th.process.fileTree.rename (Path.canonical th.process.fileTree th.session.argument)
        (th.session.renamePath target)).getD th.process.fileTree := by
  rw [call_rnto hcommand] at h
  rcases commandRnto_did h with ⟨target', via, htarget', -, hdid⟩
  rw [htarget] at htarget'
  cases htarget'
  exact hdid.fileTree

theorem rnto_changes_iff {target : Bytes} (hcommand : c.input.command = .rnto)
    (htarget : c.input.getArgument 0 = .ok target) (h : call th c = .ok th') :
    th'.process.fileTree ≠ th.process.fileTree ↔ MovesTo th target := by
  rw [rnto_fileTree hcommand htarget h]
  unfold MovesTo
  cases Directory.exists' th.process.fileTree (th.session.renamePath target) with
  | true => simp
  | false =>
    rw [if_neg (by decide), Ne, FileTree.rename_getD_eq_self_iff, not_not]
    simp

/-- An RNTO that moves an entry right behind an RNFR of a directory moves that directory. -/
theorem announced_of_behindRnfr {start : Thread} {before : List Call} {target : Bytes}
    (hcommand : c.input.command = .rnto) (htarget : c.input.getArgument 0 = .ok target)
    (hrun : Machine.run call start before = .ok th) (h : call th c = .ok th')
    (hmoves : MovesTo th target) (hbehind : BehindRnfr start before) :
    Announced start before th c th' := by
  rcases hbehind with ⟨earlier, c₀, th₀, path, rfl, hearlier, hrnfr, hpath, hfinds⟩
  have h₀ := call_of_run hearlier hrun
  rcases rnfr_argument hrnfr hpath h₀ with ⟨hargument, htree⟩
  have hanswered := (answeredRnfr_iff hrnfr hpath h₀).1.mpr hfinds
  rcases hmoves with ⟨hguard, old, new, hold, hnew, hmay, -⟩
  -- the directory that RNFR found is the entry that is renamed
  have hl : th₀.process.fileTree.realResolve (th₀.session.renamePath path) = some old := by
    rw [hargument, htree] at hold
    exact Path.realResolve_of_entry_canonical_canonical hold
  refine ⟨earlier, c₀, th₀, path, target, old, new, rfl, hearlier, hanswered, hpath, hl, htarget,
    hnew, ?_⟩
  rw [rnto_fileTree hcommand htarget h, hguard, if_neg (by decide), FileTree.rename, hold, hnew]
  dsimp only
  rw [if_pos hmay, Option.getD_some]

theorem renamesAnnounced_iff {start : Thread} {before : List Call}
    (hrun : Machine.run call start before = .ok th) (h : call th c = .ok th') :
    RenamesAnnounced start before th c th' ↔ MovesBehindRnfr start before th c th' := by
  constructor
  · intro hannounced hcommand target htarget hmoves
    rcases hannounced hcommand ((rnto_changes_iff hcommand htarget h).mpr hmoves) with
      ⟨earlier, c₀, th₀, path, -, -, -, rfl, hearlier, hanswered, hpath, -⟩
    have h₀ := call_of_run hearlier hrun
    exact ⟨earlier, c₀, th₀, path, rfl, hearlier, hanswered.1, hpath,
      (answeredRnfr_iff hanswered.1 hpath h₀).1.mp hanswered⟩
  · intro hbehind hcommand hchanges
    obtain ⟨target, -, htarget, -⟩ := commandRnto_did ((call_rnto hcommand).symm.trans h)
    have hmoves := (rnto_changes_iff hcommand htarget h).mp hchanges
    exact announced_of_behindRnfr hcommand htarget hrun h hmoves
      (hbehind hcommand target htarget hmoves)

/-! ## 5. Runs -/

/-- **Renaming in two steps**, in a run from a constructed session.  Every change is
    announced exactly when every RNTO that moves an entry comes right behind an RNFR of
    a directory; what is rejected is forgotten exactly when no RNFR names anything but
    directories; and RNTO leaves nothing pending exactly when nothing was. -/
theorem rename_protocol (opens : Bool) (id : Nat) (connection : TcpTransport) (garbage : Uninitialised)
    (p : Process) (calls : List Call) :
    let start := construct opens id connection garbage p
    (EveryStepAfter call (RenamesAnnounced start) start calls ↔
        EveryStepAfter call (MovesBehindRnfr start) start calls) ∧
      (EveryStep call RejectedForgotten start calls ↔
        EveryStep call DirectoryOrNothing start calls) ∧
      (EveryStep call SourceConsumed start calls ↔ EveryStep call NothingPending start calls) := by
  intro start
  refine ⟨?_, ?_, ?_⟩
  · apply everyStepAfter_congr fun before th => Machine.run call start before = .ok th
    · intro before mid c next hrun h
      exact run_concat_ok.mpr ⟨mid, hrun, h⟩
    · rfl
    · intro before mid c next hrun h
      exact renamesAnnounced_iff hrun h
  · apply everyStep_congr (fun _ => True) (fun _ _ _ _ _ => trivial) _ trivial
    intro mid c next _ h
    exact rejectedForgotten_iff h
  · apply everyStep_congr (fun _ => True) (fun _ _ _ _ _ => trivial) _ trivial
    intro mid c next _ h
    exact sourceConsumed_iff h

/-- RNFR rejects the file `/a`, and RNTO renames it. -/
theorem rejected_source_renamed :
    ¬ RenameProtocol (first twoFiles ⟨0, 0, .clear⟩)
      [⟨.plain, ⟨.rnfr, [ascii "/a"]⟩⟩, ⟨.plain, ⟨.rnto, [ascii "/c"]⟩⟩] := by
  rintro ⟨hannounced, -, -⟩
  have hrenames := hannounced [⟨.plain, ⟨.rnfr, [ascii "/a"]⟩⟩] ⟨.plain, ⟨.rnto, [ascii "/c"]⟩⟩ [] _ _
    rfl rfl rfl
  have hbehind := (renamesAnnounced_iff rfl rfl).mp hrenames rfl (ascii "/c") rfl
    ⟨by decide, [ascii "a"], [ascii "c"], by decide, by decide, by decide, by decide⟩
  rcases hbehind with ⟨earlier, c₀, th₀, path, hbefore, hearlier, -, hpath, hfinds⟩
  cases earlier with
  | nil =>
    obtain rfl : _ = c₀ := by simpa using hbefore
    cases hearlier
    cases hpath
    revert hfinds
    unfold FindsDirectory
    decide
  | cons c₁ earlier => simp at hbefore

end FtpSession

end FtpsServer
