import FtpsServer.CanonicalPath
import FtpsServer.Replies

/-!
# What RNTO does to an existing target

The guard of `command_rnto` asks `file::exists` and `directory::exists`.  The first takes
the result code of `get_canonical_full_path` for a condition and is never true, so
only directories are refused; everything else is left to `rename`, which replaces a
regular file.
-/

namespace FtpsServer

open ByteString Cxx Machine Posix

/-- The call replies 500 and leaves the whole tree unchanged. -/
def Refused (th th' : Thread) : Prop :=
  th'.process.fileTree = th.process.fileTree ∧
    ∃ message, Replied th th' [message] ∧ replyCode message = 500

namespace FtpSession

variable {env : Environment} {input : FtpCommand} {th th' : Thread} {path : Bytes}

/-- The guard of `command_rnto` refuses exactly what `directory::exists` finds, and the
    kernel refuses the rest. -/
theorem rnto_refused_iff (hpath : input.getArgument 0 = .ok path)
    (h : commandRnto env input th = .ok th') :
    Refused th th' ↔
      Directory.exists' th.process.fileTree (th.session.renamePath path) = true ∨
        ¬ th.process.fileTree.AllowsRename
          (Path.canonical th.process.fileTree th.session.argument)
          (th.session.renamePath path) := by
  rcases commandRnto_did h with ⟨path', via, hpath', -, hdid⟩
  rw [hpath] at hpath'
  cases hpath'
  dsimp only at hdid
  rw [← FileTree.rename_isSome_iff]
  cases hexists : Directory.exists' th.process.fileTree (th.session.renamePath path) with
  | true =>
    rw [hexists, if_pos rfl, if_pos rfl] at hdid
    exact iff_of_true ⟨hdid.fileTree, _, by simpa using hdid.replied, by decide⟩ (Or.inl rfl)
  | false =>
    rw [hexists, if_neg (by decide), if_neg (by decide)] at hdid
    cases hrename : th.process.fileTree.rename
        (Path.canonical th.process.fileTree th.session.argument) (th.session.renamePath path) with
    | none =>
      rw [hrename] at hdid
      exact iff_of_true ⟨hdid.fileTree, _, by simpa using hdid.replied, by decide⟩
        (Or.inr (by simp))
    | some t' =>
      -- the rename was made, and answered 250
      rw [hrename] at hdid
      refine iff_of_false ?_ (by simp)
      rintro ⟨-, message, hreplied, hcode⟩
      have hmessage := hdid.replied.unique hreplied
      simp only [Option.isSome_some, if_true, replies_replyEvent, replies_nil,
        List.cons.injEq, and_true] at hmessage
      rw [← hmessage] at hcode
      revert hcode
      decide

/-- **RNTO onto something that exists.**  When the target resolves to anything, a regular
    file or a directory, RNTO replies 500 and leaves the tree unchanged exactly when it is
    a directory that `directory::exists` finds, or the kernel does not allow the rename. -/
theorem rnto_onto_existing_iff {l : Location} (hpath : input.getArgument 0 = .ok path)
    (htarget : th.process.fileTree.resolve (th.session.renamePath path) = some l)
    (h : commandRnto env input th = .ok th') :
    Refused th th' ↔
      th.process.fileTree.isDirectory l = true ∧
          Directory.exists' th.process.fileTree (th.session.renamePath path) = true ∨
        ¬ th.process.fileTree.AllowsRename
          (Path.canonical th.process.fileTree th.session.argument)
          (th.session.renamePath path) := by
  rw [rnto_refused_iff hpath h]
  have hdirectory : Directory.exists' th.process.fileTree (th.session.renamePath path) = true →
      th.process.fileTree.isDirectory l = true := by
    intro hexists
    rcases Path.directory_exists_iff.mp hexists with ⟨l', hreal, hdir, -⟩
    rwa [FileTree.resolve_agree htarget hreal]
  exact or_congr_left ⟨fun hexists => ⟨hdirectory hexists, hexists⟩, And.right⟩

def twoFiles : FileTree :=
  (FileTree.bare.insert (ascii "a") [] (.regular FileTree.createMode (ascii "1"))
    (by decide) (by decide) (by decide)).insert (ascii "b") []
    (.regular FileTree.createMode (ascii "2")) (by decide) (by decide) (by decide)

/-- A session on `/a` and `/b` that has named `/a` for renaming. -/
def renamingThread : Thread :=
  let th := first twoFiles ⟨0, 0, .clear⟩
  { th with session := { th.session with argument := ascii "/a" } }

theorem rnto_onto_existing_iff_b :
    ∃ th', commandRnto .plain ⟨.rnto, [ascii "/b"]⟩ renamingThread = .ok th' ∧
      (Refused renamingThread th' ↔
        twoFiles.isDirectory [ascii "b"] = true ∧
            Directory.exists' twoFiles (ascii "/b") = true ∨
          ¬ twoFiles.AllowsRename (Path.canonical twoFiles (ascii "/a")) (ascii "/b")) := by
  have htarget : renamingThread.process.fileTree.resolve
      (renamingThread.session.renamePath (ascii "/b")) = some [ascii "b"] := by decide
  obtain ⟨th', hrun⟩ : ∃ th', commandRnto .plain ⟨.rnto, [ascii "/b"]⟩ renamingThread = .ok th' :=
    ⟨_, rfl⟩
  exact ⟨th', hrun, rnto_onto_existing_iff rfl htarget hrun⟩

/-- `RNTO /b` takes the file `/b` away. -/
theorem rnto_replaces_file :
    ¬ ∀ env input th th' path l, input.getArgument 0 = .ok path →
      th.process.fileTree.resolve (th.session.renamePath path) = some l →
      (th.process.fileTree.node l).any (fun n => n.isRegular || n.isDirectory) = true →
      commandRnto env input th = .ok th' → Refused th th' := by
  intro h
  have hrefused := h .plain ⟨.rnto, [ascii "/b"]⟩ renamingThread _ (ascii "/b") [ascii "b"] rfl (by decide)
    (by decide) rfl
  have hnode := congrArg (fun t => (t.node [ascii "a"]).isSome) hrefused.1
  revert hnode
  decide

end FtpSession

end FtpsServer
