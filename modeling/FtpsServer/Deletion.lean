import FtpsServer.CanonicalPath
import FtpsServer.Lib.Walks
import FtpsServer.Renaming

/-!
# What DELE removes

`command_dele` makes a rooted argument canonical, `file::erase` makes every path canonical,
and `remove` gets the result: the path of what the argument leads to, with all symbolic
links followed.  So one entry goes, and where the argument itself names a symbolic link it
is not the link.
-/

namespace FtpsServer

open ByteString Cxx Machine Posix

namespace FtpSession

variable {t : FileTree} {session : FtpSession} {c : Call} {th th' : Thread} {path : Bytes}

/-! ## 1. Paths to be removed -/

/-- What `remove` gets in `file::erase` is what the argument leads to. -/
theorem entry_delePath {l : Location}
    (h : t.entry (Path.canonical t (session.delePath t path)) = some l) :
    t.realResolve (session.renamePath path) = some l := by
  unfold delePath at h
  unfold renamePath
  split at h
  · next hrelative =>
    rw [if_pos hrelative]
    exact Path.realResolve_of_entry_canonical h
  · next hrooted =>
    -- made canonical here, and once more by `file::erase`
    rw [if_neg hrooted]
    exact Path.realResolve_of_entry_canonical_canonical h

/-- What the kernel makes of a DELE: nothing, or the object that the argument leads to
    is gone.  The entry that the argument names is gone then unless it is a link. -/
def Deletes (t t' : FileTree) (named : Bytes) : Prop :=
  t' = t ∨ ∃ l, t.realResolve named = some l ∧ t.Removed t' l ∧
    ∀ e, t.entry named = some e → (t'.node e = none ↔ t.link e = none)

/-- `file::erase` in `command_dele`. -/
theorem erase_deletes (t : FileTree) (session : FtpSession) (path : Bytes) :
    Deletes t (File.erase t (session.delePath t path)).2 (session.renamePath path) := by
  unfold File.erase
  cases hremove : t.remove (Path.canonical t (session.delePath t path)) with
  | none => exact Or.inl rfl
  | some t' =>
    rcases FileTree.remove_removed hremove with ⟨l, hentry, hremoved⟩
    have hl := entry_delePath hentry
    refine Or.inr ⟨l, hl, hremoved, ?_⟩
    intro e he
    constructor
    · intro hgone
      by_contra hlink
      -- a link is not what the path leads to, and stays
      have hne : e ≠ l := by
        rintro rfl
        exact hlink (FileTree.realResolve_solid hl).2.link_eq_none
      rw [hremoved.others e hne] at hgone
      apply hlink
      rw [FileTree.link, hgone]
    · intro hlink
      rw [FileTree.eq_of_entry (FileTree.realResolve_solid hl).1 he hlink]
      exact hremoved.gone

/-! ## 2. DELE -/

/-- **What DELE removes.**  For every file tree with its links, every `m_folder` and every
    argument: the tree stays as it was, or one object is gone, the one that the argument
    leads to behind `m_folder` or from the root, with all links followed, and everything
    else is as it was.  After a removal the entry that the argument itself names does not
    exist exactly when it was no symbolic link. -/
theorem dele_removes (hcommand : c.input.command = .dele) (h : call th c = .ok th') :
    ∃ path, c.input.getArgument 0 = .ok path ∧
      Deletes th.process.fileTree th'.process.fileTree (th.session.renamePath path) := by
  rw [call_dele hcommand] at h
  rcases commandDele_did h with ⟨path, message, via, hpath, -, -, hdid⟩
  refine ⟨path, hpath, ?_⟩
  rw [hdid.fileTree]
  exact erase_deletes _ _ _

/-- Besides two files there is a link to one of them. -/
def linkedFile : FileTree :=
  twoFiles.insert (ascii "l") [] (.symlink FileTree.createMode (ascii "a")) (by decide) (by decide)
    (by decide)

/-- A DELE of `path`. -/
def dele (path : String) : Call := ⟨.plain, ⟨.dele, [ascii path]⟩⟩

theorem dele_removes_b :
    ∃ th', call (first linkedFile ⟨0, 0, .clear⟩) (dele "/b") = .ok th' ∧
      ∃ path, (dele "/b").input.getArgument 0 = .ok path ∧
        Deletes linkedFile th'.process.fileTree
          ((first linkedFile ⟨0, 0, .clear⟩).session.renamePath path) := by
  obtain ⟨th', hrun⟩ : ∃ th', call (first linkedFile ⟨0, 0, .clear⟩) (dele "/b") = .ok th' :=
    ⟨_, rfl⟩
  exact ⟨th', hrun, dele_removes rfl hrun⟩

/-- `DELE /l` takes the file `/a` away, and the link `/l` stays. -/
theorem dele_leaves_link :
    ¬ ∀ th c th' path, c.input.command = .dele → c.input.getArgument 0 = .ok path →
      call th c = .ok th' →
        th'.process.fileTree = th.process.fileTree ∨
          ∃ e, th.process.fileTree.entry (th.session.renamePath path) = some e ∧
            th.process.fileTree.Removed th'.process.fileTree e := by
  intro h
  rcases h (first linkedFile ⟨0, 0, .clear⟩) (dele "/l") _ (ascii "/l") rfl rfl rfl with
    hsame | ⟨e, he, hremoved⟩
  · have hnode := congrArg (fun t => (t.node [ascii "a"]).isSome) hsame
    revert hnode
    decide
  · obtain rfl : [ascii "l"] = e := by
      have hentry : linkedFile.entry (ascii "/l") = some [ascii "l"] := by decide
      exact Option.some.inj (hentry.symm.trans he)
    have hgone := congrArg Option.isSome hremoved.gone
    revert hgone
    decide

end FtpSession

end FtpsServer
