import FtpsServer.Lib.Walks
import FtpsServer.NullSession
import FtpsServer.PathRule
import FtpsServer.WorkingFolder

/-!
# CWD composes

A CWD to `a` and then to `b` puts `b` behind the canonical path of `a`, one CWD to `a/b` puts
it behind `a` itself.  Both walk down to the same directory, since the canonical path leads
where `a` leads and ends with a slash: a walk through `a/b` comes apart at the slash, and
two walks make one.  The path of the directory in the middle has to be one from the root,
so that a process in a directory that cannot be reached can do the two steps only at once.
-/

namespace FtpsServer

open ByteString Cxx Machine Posix

namespace Path

variable {t : FileTree} {path rest : Bytes} {l mid : Location}

/-! ## 1. Behind a path -/

/-- The path leads to a directory that can be reached from the root. -/
structure Enterable (t : FileTree) (path : Bytes) (l : Location) : Prop where
  resolve : t.realResolve path = some l
  isDirectory : t.isDirectory l = true
  reachable : t.reachable l = true

theorem exists_canonical_iff_enterable :
    Directory.exists' t (canonical t path) = true ↔ ∃ l, Enterable t path l := by
  constructor
  · intro h
    rcases directory_exists_iff.mp h with ⟨l, hagain, hdir, hreach⟩
    exact ⟨l, realResolve_of_canonical hagain, hdir, hreach⟩
  · rintro ⟨l, h⟩
    exact (exists_canonical_iff h.resolve).mpr ⟨h.isDirectory, h.reachable⟩

theorem Enterable.unique {l' : Location} (h : Enterable t path l) (h' : Enterable t path l') :
    l = l' := by
  have hsome := h.resolve.symm.trans h'.resolve
  exact Option.some.inj hsome

theorem enterable_of_realLocate (h : t.realLocate path = some l) (hdir : t.isDirectory l = true)
    (hreach : t.reachable l = true) : Enterable t path l := by
  refine ⟨?_, hdir, hreach⟩
  exact Option.filter_eq_some_iff.mpr ⟨h, (FileTree.solid_of_isDirectory hdir).isSome⟩

theorem Enterable.realLocate (h : Enterable t path l) : t.realLocate path = some l :=
  (FileTree.realResolve_solid h.resolve).1

/-- Behind the canonical path of a directory the walk goes on from the directory. -/
theorem realLocate_behind_canonical (h : Enterable t path mid) :
    t.realLocate (canonical t path ++ rest) = some l ↔
      t.Walks .realpath false t.symloopMax mid (components (SLASH :: cString rest)) l := by
  have hleads := canonical_leadsTo h.resolve
  rcases exists_of_trailing (trailing_canonical h.resolve h.isDirectory h.reachable) with
    ⟨front, hfront⟩
  rw [hfront] at hleads
  have hnames : names front = mid.reverse := by
    have hslash := hleads.names
    rwa [names_append_slash, names_nil, List.append_nil] at hslash
  have hnul : NUL ∉ front := fun hmem => hleads.nul (List.mem_append_left _ hmem)
  have hbase : t.base (front ++ [SLASH]) = [] := FileTree.base_of_rooted hleads.rooted
  rw [hfront, List.append_assoc, List.singleton_append, FileTree.realLocate,
    FileTree.locateBy_append_slash hnul, hbase, hnames,
    FileTree.walks_reverse_append h.isDirectory h.reachable]
  exact and_iff_right t.root_isDirectory

theorem base_slash (hne : path ≠ []) : t.base (path ++ [SLASH]) = t.base path := by
  cases path with
  | nil => exact absurd rfl hne
  | cons first rest => rfl

/-- **Two steps are one**, whatever `.`, `..`, slashes and links there are in the paths. -/
theorem enterable_slash_iff (hnul : NUL ∉ path) (hne : path ≠ [])
    (hstart : rooted path = true ∨ t.reachable t.cwd = true)
    (hunlimited : t.Unlimited (path ++ SLASH :: rest)) :
    Enterable t (path ++ SLASH :: rest) l ↔
      ∃ mid, Enterable t path mid ∧ Enterable t (canonical t path ++ rest) l := by
  have hstring : cString path = path := cString_eq_self hnul
  constructor
  · intro hboth
    rcases (FileTree.locateBy_behind_iff hnul rest).mp hboth.realLocate with
      ⟨hbase, n, m, mid, hsum, hfirst, hdir, hsecond⟩
    rw [base_slash hne] at hbase hfirst
    have hfirst := hfirst.more m
    have hsecond := hsecond.more n
    rw [hsum] at hfirst
    rw [Nat.add_comm, hsum] at hsecond
    have hlocate : t.realLocate path = some mid := by
      rw [FileTree.realLocate, FileTree.locateBy_eq_some_iff, hstring]
      exact ⟨hne, hbase, hfirst.components_of_names hdir⟩
    have hreach := FileTree.locateBy_reachable (FileTree.reachable_base hstart) hlocate
    have hmid := enterable_of_realLocate hlocate hdir hreach
    exact ⟨mid, hmid, enterable_of_realLocate ((realLocate_behind_canonical hmid).mpr hsecond)
      hboth.isDirectory hboth.reachable⟩
  · rintro ⟨mid, hmid, hthen⟩
    rcases FileTree.locateBy_eq_some_iff.mp hmid.realLocate with ⟨-, hbase, hfirst⟩
    rw [hstring] at hbase hfirst
    have hsecond := (realLocate_behind_canonical hmid).mp hthen.realLocate
    have hwalk := (hfirst.names_of_components hbase).append hmid.isDirectory hsecond
    refine enterable_of_realLocate (hunlimited (t.symloopMax + t.symloopMax) l ?_)
      hthen.isDirectory hthen.reachable
    have hslash : cString (SLASH :: rest) = SLASH :: cString rest := rfl
    rw [cString_append hnul, hslash, FileTree.base_append_slash, base_slash hne,
      components_append_slash]
    exact hwalk.walk_eq_some

theorem canonical_congr {path' : Bytes} (h : t.realResolve path = some l)
    (h' : t.realResolve path' = some l) : canonical t path = canonical t path' := by
  rw [canonical_eq h, canonical_eq h']

end Path

namespace FtpSession

variable {c c₁ c₂ : Call} {th th' : Thread} {session : FtpSession} {argument path : Bytes}

/-! ## 2. One CWD -/

/-- The call is a CWD with this argument. -/
structure CwdTo (argument : Bytes) (c : Call) : Prop where
  command : c.input.command = .cwd
  argument : c.input.getArgument 0 = .ok argument

/-- The call is a CWD, and is answered 250. -/
structure Enters (th : Thread) (c : Call) (th' : Thread) : Prop where
  returns : call th c = .ok th'
  answered : AnsweredCwd 250 th c th'

/-- What a CWD to the path of its argument does. -/
theorem cwd_did (hargument : CwdTo argument c) (hpath : th.session.pathFolder argument = .ok path)
    (h : call th c = .ok th') :
    ∃ via, th.session.controlChannel.via = .ok via ∧
      let canonical := Path.canonical th.process.fileTree path
      let found := Directory.exists' th.process.fileTree canonical
      Did th th' { th.session with folder := if found then canonical else th.session.folder }
        th.process.fileTree
        [replyEvent c.env th.session.id via
          (if found then ascii "250 CWD command is successful\r\n"
            else ascii "553 CWD folder is not found\r\n")] := by
  rw [call_cwd hargument.command] at h
  rcases commandCwd_did h with ⟨argument', path', via, hargument', hpath', hvia, hdid⟩
  rw [hargument.argument] at hargument'
  cases hargument'
  rw [hpath] at hpath'
  cases hpath'
  exact ⟨via, hvia, hdid⟩

/-- A CWD that is answered 250 has found its folder, and changes nothing else. -/
theorem Enters.found (h : Enters th c th') (hargument : CwdTo argument c)
    (hpath : th.session.pathFolder argument = .ok path) :
    (∃ l, Path.Enterable th.process.fileTree path l) ∧
      th'.session = { th.session with folder := Path.canonical th.process.fileTree path } ∧
      th'.process.fileTree = th.process.fileTree ∧ th.session.controlChannel.Live := by
  rcases cwd_did hargument hpath h.returns with ⟨via, hvia, hdid⟩
  dsimp only at hdid
  cases hfound : Directory.exists' th.process.fileTree
      (Path.canonical th.process.fileTree path) with
  | true =>
    rw [hfound] at hdid
    exact ⟨Path.exists_canonical_iff_enterable.mp hfound, hdid.session, hdid.fileTree,
      TcpTransport.live_of_via hvia⟩
  | false =>
    -- the one reply has the code 553
    rw [hfound] at hdid
    rcases h.answered.2 with ⟨message, hmessage, hcode⟩
    have hreplied := hdid.replied
    rw [replies_replyEvent, replies_nil] at hreplied
    obtain rfl : message = ascii "553 CWD folder is not found\r\n" := by
      simpa using hmessage.unique hreplied
    exact absurd hcode (by decide)

/-- A folder that can be entered is entered, if there is a channel for the reply. -/
theorem exists_enters (hargument : CwdTo argument c)
    (hpath : th.session.pathFolder argument = .ok path) (hlive : th.session.controlChannel.Live)
    {l : Location} (h : Path.Enterable th.process.fileTree path l) : ∃ th', Enters th c th' := by
  rcases hlive.exists_via with ⟨via, hvia⟩
  have hfound := Path.exists_canonical_iff_enterable.mpr ⟨l, h⟩
  obtain ⟨th', hcall⟩ : ∃ th', call th c = .ok th' := by
    rw [call_cwd hargument.command]
    unfold commandCwd
    rw [hargument.argument, raising_ok, ok_bind, hpath, raising_ok, ok_bind]
    dsimp only
    rw [hfound]
    exact ⟨_, reply_eq _ (by exact hvia)⟩
  refine ⟨th', hcall, hargument.command, ?_⟩
  rcases cwd_did hargument hpath hcall with ⟨via', -, hdid⟩
  have hreplied := hdid.replied
  rw [replies_replyEvent, replies_nil, hfound] at hreplied
  exact ⟨_, hreplied, by decide⟩

/-! ## 3. Two arguments -/

/-- Without a `~`, CWD follows the rule that all five path commands share. -/
theorem pathFolder_rulePath (session : FtpSession) (h : Path.isPathHomed argument = false) :
    session.pathFolder argument = .ok (session.rulePath argument) := by
  cases hroot : Path.isPathRooted argument with
  | true =>
    rcases paths_of_rooted (t := .bare) hroot with ⟨hrule, -, hpath, -⟩
    rw [hpath, hrule]
  | false =>
    rcases paths_of_plain (t := .bare) hroot h with ⟨hrule, -, hpath, -⟩
    rw [hpath, hrule]

/-- Two arguments of CWD: the first is not empty, the second is relative, and both are
    without a `~`.  The path of the first is a C string. -/
structure Composable (session : FtpSession) (first second : Bytes) : Prop where
  first_ne : first ≠ []
  first_plain : Path.isPathHomed first = false
  second_relative : Path.isPathRooted second = false
  second_plain : Path.isPathHomed second = false
  nul : NUL ∉ session.rulePath first

theorem Composable.rulePath {first second : Bytes} (h : Composable session first second) :
    Path.isPathHomed (first ++ SLASH :: second) = false ∧
      session.rulePath (first ++ SLASH :: second) = session.rulePath first ++ SLASH :: second ∧
      session.rulePath first ≠ [] := by
  have hne := h.first_ne
  have hplain := h.first_plain
  have hhead : ∀ bytes : Bytes, (first ++ bytes).take 1 = first.take 1 := by
    intro bytes
    cases first with
    | nil => exact absurd rfl hne
    | cons b rest => rfl
  have hhomed : Path.isPathHomed (first ++ SLASH :: second) = false := by
    rw [Path.isPathHomed, hhead]
    exact hplain
  refine ⟨hhomed, ?_⟩
  cases hroot : Path.isPathRooted first with
  | true =>
    have hboth : Path.isPathRooted (first ++ SLASH :: second) = true := by
      rw [Path.isPathRooted, hhead]
      exact hroot
    rw [(paths_of_rooted (t := .bare) hroot).1, (paths_of_rooted (t := .bare) hboth).1]
    exact ⟨rfl, hne⟩
  | false =>
    have hboth : Path.isPathRooted (first ++ SLASH :: second) = false := by
      rw [Path.isPathRooted, hhead]
      exact hroot
    rw [(paths_of_plain (t := .bare) hroot hplain).1, (paths_of_plain (t := .bare) hboth hhomed).1]
    exact ⟨(List.append_assoc _ _ _).symm, by simp [hne]⟩

section Both

variable {mid : Thread} {first second : Bytes}

/-- What a second CWD finds: the folder of the first, with its own argument behind it. -/
theorem Enters.behind (h : Enters th c₁ mid) (hfirst : CwdTo first c₁)
    (hcomposable : Composable th.session first second) :
    mid.process.fileTree = th.process.fileTree ∧ mid.session.pathFolder second =
      .ok (Path.canonical th.process.fileTree (th.session.rulePath first) ++ second) := by
  have hpath := pathFolder_rulePath th.session hcomposable.first_plain
  rcases h.found hfirst hpath with ⟨-, hsession, htree, -⟩
  refine ⟨htree, ?_⟩
  rw [(paths_of_plain (t := .bare) hcomposable.second_relative hcomposable.second_plain).2.2.1,
    hsession]

/-- Where two CWDs lead. -/
theorem enters_both (hcomposable : Composable th.session first second) (hfirst : CwdTo first c₁)
    (hsecond : CwdTo second c₂) (h : Enters th c₁ mid) (h' : Enters mid c₂ th') :
    ∃ l₁ l, Path.Enterable th.process.fileTree (th.session.rulePath first) l₁ ∧
      Path.Enterable th.process.fileTree
        (Path.canonical th.process.fileTree (th.session.rulePath first) ++ second) l ∧
      th'.session.folder = Path.canonical th.process.fileTree
        (Path.canonical th.process.fileTree (th.session.rulePath first) ++ second) := by
  have hpath := pathFolder_rulePath th.session hcomposable.first_plain
  rcases h.found hfirst hpath with ⟨⟨l₁, hl₁⟩, -⟩
  rcases h.behind hfirst hcomposable with ⟨htree, hbehind⟩
  rcases h'.found hsecond hbehind with ⟨⟨l, hl⟩, hsession, -⟩
  rw [htree] at hl hsession
  exact ⟨l₁, l, hl₁, hl, by rw [hsession]⟩

theorem exists_enters_both (hcomposable : Composable th.session first second)
    (hfirst : CwdTo first c₁) (hsecond : CwdTo second c₂)
    (hlive : th.session.controlChannel.Live) {l₁ l : Location}
    (hl₁ : Path.Enterable th.process.fileTree (th.session.rulePath first) l₁)
    (hl : Path.Enterable th.process.fileTree
      (Path.canonical th.process.fileTree (th.session.rulePath first) ++ second) l) :
    ∃ mid th', Enters th c₁ mid ∧ Enters mid c₂ th' := by
  have hpath := pathFolder_rulePath th.session hcomposable.first_plain
  rcases exists_enters hfirst hpath hlive hl₁ with ⟨mid, hmid⟩
  rcases hmid.behind hfirst hcomposable with ⟨htree, hbehind⟩
  have hlivemid : mid.session.controlChannel.Live := by
    rcases hmid.found hfirst hpath with ⟨-, hsession, -, -⟩
    rwa [hsession]
  rw [← htree] at hl
  rcases exists_enters hsecond (by rw [hbehind, htree]) hlivemid hl with ⟨th', hth'⟩
  exact ⟨mid, th', hmid, hth'⟩

/-- **CWD composes.**  For every file tree, every `m_folder` and all arguments `first` and
    `second` as above, if the way starts at the root or in a directory that can be reached
    from there: a CWD to `first` and then one to `second` are both answered 250 exactly when
    a CWD to `first/second` from the same state is, and then both ways end with the same
    `m_folder`. -/
theorem cwd_composes (hcomposable : Composable th.session first second)
    (hstart : rooted (th.session.rulePath first) = true ∨
      th.process.fileTree.reachable th.process.fileTree.cwd = true)
    (hunlimited : th.process.fileTree.Unlimited (th.session.rulePath first ++ SLASH :: second))
    (hfirst : CwdTo first c₁) (hsecond : CwdTo second c₂)
    (hboth : CwdTo (first ++ SLASH :: second) c) :
    ((∃ mid th', Enters th c₁ mid ∧ Enters mid c₂ th') ↔ ∃ th', Enters th c th') ∧
      ∀ mid th₂ th', Enters th c₁ mid → Enters mid c₂ th₂ → Enters th c th' →
        th₂.session.folder = th'.session.folder := by
  rcases hcomposable.rulePath with ⟨hhomed, hslash, hne⟩
  have hpath := pathFolder_rulePath th.session hcomposable.first_plain
  have hpaths := pathFolder_rulePath th.session hhomed
  rw [hslash] at hpaths
  have hsteps := fun l => Path.enterable_slash_iff (l := l) hcomposable.nul hne hstart hunlimited
  refine ⟨⟨?_, ?_⟩, ?_⟩
  · rintro ⟨mid, th', henters, hthen⟩
    rcases enters_both hcomposable hfirst hsecond henters hthen with ⟨l₁, l, hl₁, hl, -⟩
    have hlive := (henters.found hfirst hpath).2.2.2
    exact exists_enters hboth hpaths hlive ((hsteps l).mpr ⟨l₁, hl₁, hl⟩)
  · rintro ⟨th', henters⟩
    rcases henters.found hboth hpaths with ⟨⟨l, hl⟩, -, -, hlive⟩
    rcases (hsteps l).mp hl with ⟨l₁, hl₁, hthen⟩
    exact exists_enters_both hcomposable hfirst hsecond hlive hl₁ hthen
  · intro mid th₂ th' henters hthen hone
    rcases enters_both hcomposable hfirst hsecond henters hthen with ⟨l₁, l, hl₁, hl, hfolder⟩
    rcases hone.found hboth hpaths with ⟨⟨l', hl'⟩, hsession', -⟩
    obtain rfl := ((hsteps l).mpr ⟨l₁, hl₁, hl⟩).unique hl'
    rw [hfolder, hsession']
    exact Path.canonical_congr hl.resolve hl'.resolve

end Both

/-- A directory in a directory, and a link to it. -/
def linkedDirectory : FileTree :=
  ((FileTree.bare.insert (ascii "pub") [] (.directory ⟨true, true, true, false, true⟩)
      FileTree.bare.root_isDirectory (by decide) (by decide)).insert (ascii "in") [ascii "pub"]
      (.directory ⟨true, true, true, false, true⟩) (by decide) (by decide) (by decide)).insert
    (ascii "new") [] (.symlink FileTree.createMode (ascii "pub/in")) (FileTree.root_isDirectory _)
      (by decide) (by decide)

/-- A CWD to `path`. -/
def cwd (path : String) : Call := ⟨.plain, ⟨.cwd, [ascii path]⟩⟩

/-- To the link `new` and then to `..`, in a session without a folder. -/
theorem cwd_composes_dots :
    let th := first linkedDirectory ⟨0, 0, .clear⟩
    ((∃ mid th', Enters th (cwd "new") mid ∧ Enters mid (cwd "..") th') ↔
        ∃ th', Enters th (cwd "new/..") th') ∧
      ∀ mid th₂ th', Enters th (cwd "new") mid → Enters mid (cwd "..") th₂ →
        Enters th (cwd "new/..") th' → th₂.session.folder = th'.session.folder := by
  intro th
  have hcomposable : Composable th.session (ascii "new") (ascii "..") :=
    ⟨by decide, by decide, by decide, by decide, by decide⟩
  have hunlimited : th.process.fileTree.Unlimited
      (th.session.rulePath (ascii "new") ++ SLASH :: ascii "..") := by
    intro links l h
    -- one link is on the way
    cases links with
    | zero =>
      have hnone : none = some l := h
      cases hnone
    | succ links => cases links <;> exact h
  exact cwd_composes hcomposable (Or.inr rfl) hunlimited ⟨rfl, rfl⟩ ⟨rfl, rfl⟩ ⟨rfl, rfl⟩

/-- The process is in `/x/y`, and `/x` may not be searched. -/
def locked : FileTree :=
  { (FileTree.bare.insert (ascii "x") [] (.directory ⟨true, true, false, false, true⟩)
      FileTree.bare.root_isDirectory (by decide) (by decide)).insert (ascii "y") [ascii "x"]
      (.directory ⟨true, true, true, false, true⟩) (by decide) (by decide) (by decide) with
    cwd := [ascii "y", ascii "x"] }

/-- There `CWD ./..` is answered 250, and `CWD .` is answered 553 before there can be a
    `CWD ..`. -/
theorem cwd_dot_unreachable :
    ¬ ∀ (th : Thread) (first second : Bytes) (c₁ c₂ c : Call),
      Composable th.session first second →
        th.process.fileTree.Unlimited (th.session.rulePath first ++ SLASH :: second) →
        CwdTo first c₁ → CwdTo second c₂ → CwdTo (first ++ SLASH :: second) c →
          ((∃ mid th', Enters th c₁ mid ∧ Enters mid c₂ th') ↔ ∃ th', Enters th c th') := by
  intro h
  have hcomposable : Composable (first locked ⟨0, 0, .clear⟩).session (ascii ".") (ascii "..") :=
    ⟨by decide, by decide, by decide, by decide, by decide⟩
  have hunlimited : locked.Unlimited (ascii "./..") := by
    intro links l h
    cases links <;> exact h
  have hiff := h (first locked ⟨0, 0, .clear⟩) (ascii ".") (ascii "..") (cwd ".") (cwd "..")
    (cwd "./..") hcomposable hunlimited ⟨rfl, rfl⟩ ⟨rfl, rfl⟩ ⟨rfl, rfl⟩
  have habove : Path.Enterable locked (ascii "./..") [ascii "x"] :=
    ⟨by decide, by decide, by decide⟩
  rcases hiff.mpr (exists_enters ⟨rfl, rfl⟩ rfl (TcpTransport.live_of_clear rfl) habove) with
    ⟨mid, -, henters, -⟩
  -- the directory in the middle has no path that leads to it
  have hpath : (first locked ⟨0, 0, .clear⟩).session.pathFolder (ascii ".") = .ok (ascii ".") := rfl
  rcases (henters.found ⟨rfl, rfl⟩ hpath).1 with ⟨l, hl⟩
  obtain rfl : [ascii "y", ascii "x"] = l := by
    have hhere : locked.realResolve (ascii ".") = some [ascii "y", ascii "x"] := by decide
    exact Option.some.inj (hhere.symm.trans hl.resolve)
  have hreach := hl.reachable
  revert hreach
  decide

end FtpSession

end FtpsServer
