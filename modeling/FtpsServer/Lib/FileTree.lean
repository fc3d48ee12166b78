import FtpsServer.Lib.ByteString

/-!
# A POSIX file tree

Directories, regular files, symbolic links and special files below one root, as
a process with one working directory sees them through the path functions of
the system.  A `Location` is the list of the names that lead to an object, the
innermost first; a `FileTree` maps locations to nodes and carries its own
well-formedness, so that every operation returns a tree again: the root is a
directory, what exists lies in a directory, and the entries `readdir` returns
are exactly what exists.

Path resolution (`walk`) is the physical one: components from the left, `..`
pops, a symbolic link is replaced by its target, at most `symloopMax` links in
one resolution, and what a slash follows is a directory.  The kernel resolves
every path so, and `realpath` once more in user space: it drops `.` and `..`
from the text itself, and asks the kernel for each name by an absolute path.

A file has one name here: there are no hard links.
-/

namespace Posix

open ByteString

/-! ## 1. Trees -/

abbrev Name := Bytes

/-- The names from an object up to the root. -/
abbrev Location := List Name

/-- What the process may do with a node. -/
structure Mode where
  read : Bool
  write : Bool
  search : Bool
  /-- The sticky bit of a directory. -/
  sticky : Bool
  /-- The process owns the node, or may act for its owner. -/
  own : Bool
deriving DecidableEq, Repr

inductive Node where
  | regular (mode : Mode) (content : Bytes)
  | directory (mode : Mode)
  | symlink (mode : Mode) (target : Bytes)
  | special (mode : Mode)
deriving DecidableEq, Repr

def Node.mode : Node → Mode
  | .regular m _ => m
  | .directory m => m
  | .symlink m _ => m
  | .special m => m

def Node.isDirectory : Node → Bool
  | .directory _ => true
  | _ => false

def Node.isRegular : Node → Bool
  | .regular _ _ => true
  | _ => false

def dot : Name := [DOT]
def dotdot : Name := [DOT, DOT]

/-- A name a directory entry can have. -/
def ValidName (n : Name) : Prop := n ≠ [] ∧ n ≠ dot ∧ n ≠ dotdot ∧ SLASH ∉ n ∧ NUL ∉ n

instance (n : Name) : Decidable (ValidName n) := by unfold ValidName; infer_instance

@[ext]
structure FileTree where
  node : Location → Option Node
  /-- What `readdir` returns, in its order, `.` and `..` included. -/
  entries : Location → List Name
  cwd : Location
  symloopMax : Nat
  root_isDirectory : (node []).any Node.isDirectory = true
  parent_isDirectory : ∀ n d, (node (n :: d)).isSome → (node d).any Node.isDirectory = true
  validName : ∀ n d, (node (n :: d)).isSome → ValidName n
  mem_entries : ∀ n d, n ∈ entries d ↔ n = dot ∨ n = dotdot ∨ (node (n :: d)).isSome
  entries_nodup : ∀ d, (entries d).Nodup

namespace FileTree

def isDirectory (t : FileTree) (l : Location) : Bool := (t.node l).any Node.isDirectory

def searchable (t : FileTree) (l : Location) : Bool :=
  match t.node l with
  | some (.directory m) => m.search
  | _ => false

/-- Every directory above the location may be searched. -/
def reachable (t : FileTree) : Location → Bool
  | [] => true
  | _ :: d => t.searchable d && t.reachable d

/-- The process may add entries to the directory. -/
def writable (t : FileTree) (l : Location) : Bool :=
  match t.node l with
  | some (.directory m) => m.write && m.search
  | _ => false

/-- The process may take the entry out of its directory: it may change the directory, and if
    that has the sticky bit, it owns it or the entry. -/
def mayTake (t : FileTree) (l : Location) : Bool :=
  t.writable l.tail &&
    match (t.node l.tail).map Node.mode, (t.node l).map Node.mode with
    | some directory, some entry => !directory.sticky || directory.own || entry.own
    | _, _ => false

def isEmptyDirectory (t : FileTree) (l : Location) : Bool :=
  t.isDirectory l && (t.entries l).all fun n => n == dot || n == dotdot

/-! ## 2. Path resolution -/

end FileTree

/-- The names of a path, empty ones dropped. -/
def names (path : Bytes) : List Name := (path.splitOn SLASH).filter fun n => !n.isEmpty

def trailing (path : Bytes) : Bool := path.getLast? == some SLASH

/-- The components that resolution walks: behind a trailing slash there is an empty one. -/
def components (path : Bytes) : List Name := names path ++ if trailing path then [[]] else []

def rooted (path : Bytes) : Bool := path.head? == some SLASH

/-- The absolute path of a location. -/
def render : Location → Bytes
  | [] => [SLASH]
  | n :: d => (n :: d).reverse.flatMap fun m => SLASH :: m

/-- Who resolves a path. -/
inductive Resolver where
  | kernel
  | realpath
deriving DecidableEq, Repr

namespace FileTree

/-- `.` and `..` can be followed at `cur`: the kernel searches the directory, `realpath` only
    looks at its text. -/
def mayStay (t : FileTree) (resolver : Resolver) (cur : Location) : Bool :=
  match resolver with
  | .kernel => t.searchable cur
  | .realpath => true

/-- A name can be looked up at `cur`: `realpath` hands the kernel the absolute path so far. -/
def mayLook (t : FileTree) (resolver : Resolver) (cur : Location) : Bool :=
  match resolver with
  | .kernel => t.searchable cur
  | .realpath => t.searchable cur && t.reachable cur

/-- Walk the components from `cur`.  `follow` continues at the target of a
    symbolic link; with `nofollow` a link in last position is not followed.  The
    last component need not exist, and every other name is one of a directory. -/
def walkWith (t : FileTree) (resolver : Resolver) (nofollow : Bool)
    (follow : Location → List Name → Option Location) : Location → List Name → Option Location
  | cur, [] => some cur
  | cur, c :: cs =>
    if c = [] then walkWith t resolver nofollow follow cur cs
    else if c = dot then
      if t.mayStay resolver cur then walkWith t resolver nofollow follow cur cs else none
    else if c = dotdot then
      if t.mayStay resolver cur then walkWith t resolver nofollow follow cur.tail cs else none
    else if t.mayLook resolver cur then
      match t.node (c :: cur) with
      | none => if cs = [] then some (c :: cur) else none
      | some (.symlink _ target) =>
        if nofollow = true ∧ cs = [] then some (c :: cur)
        else if target = [] then none
        else follow (if rooted target then [] else cur) (components target ++ cs)
      | some node =>
        if cs = [] ∨ node.isDirectory = true then
          walkWith t resolver nofollow follow (c :: cur) cs
        else none
    else none

/-- Walk with at most `links` symbolic links on the way. -/
def walk (t : FileTree) (resolver : Resolver) (nofollow : Bool) :
    Nat → Location → List Name → Option Location
  | 0 => t.walkWith resolver nofollow fun _ _ => none
  | links + 1 => t.walkWith resolver nofollow (t.walk resolver nofollow links)

/-- Where a relative path starts. -/
def base (t : FileTree) (path : Bytes) : Location := if rooted path then [] else t.cwd

/-- The location a path argument is taken for, existing or not.  From a working directory
    that is gone no path leads anywhere, and `getcwd` fails. -/
def locateBy (t : FileTree) (resolver : Resolver) (nofollow : Bool) (path : Bytes) :
    Option Location :=
  let path := cString path
  if path = [] ∨ t.isDirectory (t.base path) = false then none
  else t.walk resolver nofollow t.symloopMax (t.base path) (components path)

/-- The location a path argument names, existing or not. -/
def locate (t : FileTree) (nofollow : Bool) (path : Bytes) : Option Location :=
  t.locateBy .kernel nofollow path

/-- The existing object a path leads to, links followed. -/
def resolve (t : FileTree) (path : Bytes) : Option Location :=
  (t.locate false path).filter fun l => (t.node l).isSome

/-- The directory entry a path names: its last component is a name, and is not
    followed. -/
def entry (t : FileTree) (path : Bytes) : Option Location :=
  let path := cString path
  match (names path).getLast? with
  | none => none
  | some last =>
    if last = dot ∨ last = dotdot then none
    else t.walk .kernel true t.symloopMax (t.base path) (names path)

/-- The location that `realpath` takes a path argument for, existing or not. -/
def realLocate (t : FileTree) (path : Bytes) : Option Location :=
  t.locateBy .realpath false path

/-- The existing object that `realpath` takes a path for. -/
def realResolve (t : FileTree) (path : Bytes) : Option Location :=
  (t.realLocate path).filter fun l => (t.node l).isSome

/-! ## 3. Queries -/

/-- `realpath`. -/
def realpath (t : FileTree) (path : Bytes) : Option Bytes := (t.realResolve path).map render

/-- `lstat`. -/
def lstat (t : FileTree) (path : Bytes) : Option Node := (t.locate true path).bind t.node

/-- `opendir`. -/
def opendir (t : FileTree) (path : Bytes) : Option Location :=
  (t.resolve path).filter fun l =>
    match t.node l with
    | some (.directory m) => m.read
    | _ => false

/-! ## 4. Changes to the tree -/

theorem suffix_cons_of_ne {l m : Location} {n : Name} (hne : l ≠ n :: m) :
    l <:+ n :: m ↔ l <:+ m := by
  rw [List.suffix_cons_iff]
  constructor
  · rintro (h | h)
    · exact absurd h hne
    · exact h
  · exact Or.inr

/-- A root directory with nothing in it. -/
def bare : FileTree where
  node l := if l = [] then some (.directory ⟨true, true, true, false, true⟩) else none
  entries _ := [dot, dotdot]
  cwd := []
  symloopMax := 40
  root_isDirectory := rfl
  parent_isDirectory n d h := by simp at h
  validName n d h := by simp at h
  mem_entries n d := by simp
  entries_nodup _ := by decide

/-- Add bytes at the end of a regular file. -/
def append (t : FileTree) (l : Location) (bytes : Bytes) : FileTree where
  node l' :=
    if l' = l then
      match t.node l with
      | some (.regular m content) => some (.regular m (content ++ bytes))
      | other => other
    else t.node l'
  entries := t.entries
  cwd := t.cwd
  symloopMax := t.symloopMax
  root_isDirectory := by
    have h := t.root_isDirectory
    split
    · next heq => subst heq; split <;> simp_all [Node.isDirectory]
    · exact h
  parent_isDirectory n d hsome := by
    have hchild : (t.node (n :: d)).isSome := by
      split at hsome
      · next heq => rw [heq]; split at hsome <;> simp_all
      · exact hsome
    have h := t.parent_isDirectory n d hchild
    split
    · next heq => subst heq; split <;> simp_all [Node.isDirectory]
    · exact h
  validName n d hsome := by
    apply t.validName n d
    split at hsome
    · next heq => rw [heq]; split at hsome <;> simp_all
    · exact hsome
  mem_entries n d := by
    rw [t.mem_entries]
    split
    · next heq => rw [heq]; split <;> simp_all
    · exact Iff.rfl
  entries_nodup := t.entries_nodup

/-- The map of nodes with another content in one regular file. -/
def contentNode (t : FileTree) (l : Location) (content : Bytes) (l' : Location) : Option Node :=
  if l' = l then
    match t.node l with
    | some (.regular m _) => some (.regular m content)
    | other => other
  else t.node l'

theorem contentNode_isSome (t : FileTree) (l : Location) (content : Bytes) (l' : Location) :
    (t.contentNode l content l').isSome = (t.node l').isSome := by
  unfold contentNode
  split
  · next heq =>
    subst heq
    split
    · next hregular => rw [hregular]; rfl
    · rfl
  · rfl

theorem contentNode_isDirectory (t : FileTree) (l : Location) (content : Bytes) (l' : Location) :
    (t.contentNode l content l').any Node.isDirectory = (t.node l').any Node.isDirectory := by
  unfold contentNode
  split
  · next heq =>
    subst heq
    split
    · next hregular => rw [hregular]; rfl
    · rfl
  · rfl

/-- Replace the content of a regular file. -/
def setContent (t : FileTree) (l : Location) (content : Bytes) : FileTree where
  node := t.contentNode l content
  entries := t.entries
  cwd := t.cwd
  symloopMax := t.symloopMax
  root_isDirectory := by
    rw [contentNode_isDirectory]
    exact t.root_isDirectory
  parent_isDirectory n d hsome := by
    rw [contentNode_isSome] at hsome
    rw [contentNode_isDirectory]
    exact t.parent_isDirectory n d hsome
  validName n d hsome := by
    rw [contentNode_isSome] at hsome
    exact t.validName n d hsome
  mem_entries n d := by
    rw [contentNode_isSome]
    exact t.mem_entries n d
  entries_nodup := t.entries_nodup

/-- Enter a new object into a directory. -/
def insert (t : FileTree) (n : Name) (d : Location) (new : Node)
    (hdir : t.isDirectory d = true) (hname : ValidName n) (hfree : t.node (n :: d) = none) :
    FileTree where
  node l := if l = n :: d then some new else t.node l
  entries e := if e = d then n :: t.entries e else t.entries e
  cwd := t.cwd
  symloopMax := t.symloopMax
  root_isDirectory := by simpa using t.root_isDirectory
  parent_isDirectory m e hsome := by
    have hne : e ≠ n :: d := by
      rintro rfl
      by_cases heq : m :: n :: d = n :: d
      · simpa using congrArg List.length heq
      · rw [if_neg heq] at hsome
        have := t.parent_isDirectory _ _ hsome
        rw [hfree] at this
        simp at this
    rw [if_neg hne]
    by_cases heq : m :: e = n :: d
    · rcases List.cons.inj heq with ⟨-, rfl⟩
      exact hdir
    · rw [if_neg heq] at hsome
      exact t.parent_isDirectory m e hsome
  validName m e hsome := by
    by_cases heq : m :: e = n :: d
    · rcases List.cons.inj heq with ⟨rfl, -⟩
      exact hname
    · rw [if_neg heq] at hsome
      exact t.validName m e hsome
  mem_entries m e := by
    by_cases hed : e = d
    · subst hed
      by_cases hmn : m = n
      · subst hmn; simp
      · simp [hmn, t.mem_entries]
    · simp [hed, t.mem_entries]
  entries_nodup e := by
    by_cases hed : e = d
    · subst hed
      have hnot : n ∉ t.entries e := by
        rw [t.mem_entries, hfree]
        simp [hname.2.1, hname.2.2.1]
      simp [hnot, t.entries_nodup]
    · simp [hed, t.entries_nodup]

/-- Remove an entry, with everything below it. -/
def erase (t : FileTree) (n : Name) (d : Location) : FileTree where
  node l := if (n :: d) <:+ l then none else t.node l
  entries e :=
    if (n :: d) <:+ e then [dot, dotdot]
    else if e = d then (t.entries e).filter fun m => m != n || m == dot || m == dotdot
    else t.entries e
  cwd := t.cwd
  symloopMax := t.symloopMax
  root_isDirectory := by simpa using t.root_isDirectory
  parent_isDirectory m e hsome := by
    have hout : ¬ (n :: d) <:+ m :: e := by
      intro h
      simp [h] at hsome
    have hout' : ¬ (n :: d) <:+ e := by
      intro h
      exact hout (h.trans (List.suffix_cons m e))
    rw [if_neg hout']
    rw [if_neg hout] at hsome
    exact t.parent_isDirectory m e hsome
  validName m e hsome := by
    split at hsome
    · simp at hsome
    · exact t.validName m e hsome
  mem_entries m e := by
    by_cases hin : (n :: d) <:+ e
    · simp [hin, hin.trans (List.suffix_cons m e)]
    · by_cases hed : e = d
      · subst hed
        by_cases hmn : m = n
        · subst hmn
          simp only [hin, if_false, if_true, List.mem_filter, t.mem_entries, List.suffix_rfl]
          simp only [bne_self_eq_false, Bool.false_or, Bool.or_eq_true, beq_iff_eq, Option.isSome_none,
            Bool.false_eq_true, or_false, and_iff_right_iff_imp]
          rintro (h | h)
          · exact Or.inl h
          · exact Or.inr (Or.inl h)
        · have hne : n :: e ≠ m :: e := by
            intro h
            exact hmn (List.cons.inj h).1.symm
          simp [suffix_cons_of_ne hne, hin, hmn, t.mem_entries]
      · have hne : n :: d ≠ m :: e := by
          intro h
          exact hed (List.cons.inj h).2.symm
        simp only [suffix_cons_of_ne hne, hin, hed, if_false]
        exact t.mem_entries m e
  entries_nodup e := by
    split
    · decide
    · split
      · exact (t.entries_nodup e).filter _
      · exact t.entries_nodup e

/-- A location below `new`, as it was below `old`. -/
def relocate (old new l : Location) : Location := l.take (l.length - new.length) ++ old

theorem relocate_cons {new l : Location} (old : Location) (n : Name) (h : new <:+ l) :
    relocate old new (n :: l) = n :: relocate old new l := by
  have hle : new.length ≤ l.length := h.length_le
  have hlen : (n :: l).length - new.length = (l.length - new.length) + 1 := by
    simp only [List.length_cons]
    omega
  unfold relocate
  rw [hlen]
  rfl

@[simp] theorem relocate_self (old new : Location) : relocate old new new = old := by
  simp [relocate]

/-- An entry may be moved to `new`: neither lies below the other. -/
def MoveOk (t : FileTree) (old new : Location) : Prop :=
  old ≠ [] ∧ (t.node old).isSome ∧ t.isDirectory new.tail = true ∧ ValidName (new.headD []) ∧
    ¬ old <:+ new ∧ ¬ new <:+ old

instance (t : FileTree) (old new : Location) : Decidable (t.MoveOk old new) := by
  unfold MoveOk; infer_instance

theorem MoveOk.new_cons {t : FileTree} {old new : Location} (h : t.MoveOk old new) :
    ∃ n d, new = n :: d ∧ ValidName n ∧ t.isDirectory d = true := by
  rcases h with ⟨-, -, hdir, hname, -, -⟩
  cases new with
  | nil => exact absurd rfl hname.1
  | cons n d => exact ⟨n, d, rfl, hname, hdir⟩

/-- The map of nodes after a move. -/
def movedNode (t : FileTree) (old new l : Location) : Option Node :=
  if new <:+ l then t.node (relocate old new l) else if old <:+ l then none else t.node l

/-- The entries of a directory once `old` has left it. -/
def keptEntries (t : FileTree) (old e : Location) : List Name :=
  if e = old.tail then (t.entries e).filter fun m => m != old.headD [] else t.entries e

/-- A name enters a listing that may have it already. -/
def enter (n : Name) (listing : List Name) : List Name :=
  if n ∈ listing then listing else n :: listing

theorem mem_enter {n m : Name} {listing : List Name} :
    m ∈ enter n listing ↔ m = n ∨ m ∈ listing := by
  unfold enter
  split
  · next h =>
    constructor
    · exact Or.inr
    · rintro (rfl | hm)
      · exact h
      · exact hm
  · exact List.mem_cons

/-- The entries of a directory after a move. -/
def movedEntries (t : FileTree) (old new e : Location) : List Name :=
  if new <:+ e then t.entries (relocate old new e)
  else if old <:+ e then [dot, dotdot]
  else if e = new.tail then enter (new.headD []) (t.keptEntries old e)
  else t.keptEntries old e

theorem mem_keptEntries {t : FileTree} {k : Name} {c : Location} (hold : (t.node (k :: c)).isSome)
    (m : Name) (e : Location) :
    m ∈ t.keptEntries (k :: c) e ↔
      m = dot ∨ m = dotdot ∨ (k :: c ≠ m :: e ∧ (t.node (m :: e)).isSome) := by
  rcases t.validName k c hold with ⟨-, hdot, hdotdot, -, -⟩
  unfold keptEntries
  by_cases hec : e = c
  · subst hec
    by_cases hmk : m = k
    · subst hmk; simp [hdot, hdotdot]
    · have hkm : k ≠ m := by
        intro h
        exact hmk h.symm
      simp [hmk, hkm, t.mem_entries]
  · have hkc : k :: c ≠ m :: e := by
      intro h
      exact hec (List.cons.inj h).2.symm
    simp [hec, hkc, t.mem_entries]

theorem keptEntries_nodup (t : FileTree) (old e : Location) : (t.keptEntries old e).Nodup := by
  unfold keptEntries
  split
  · exact (t.entries_nodup e).filter _
  · exact t.entries_nodup e

theorem movedNode_child {t : FileTree} {old new : Location} (h : t.MoveOk old new)
    (m : Name) (e : Location) (hsome : (t.movedNode old new (m :: e)).isSome) :
    (t.movedNode old new e).any Node.isDirectory = true ∧ ValidName m := by
  rcases h.new_cons with ⟨n, d, rfl, hname, hdir⟩
  rcases h with ⟨-, hold, -, -, hnot, -⟩
  by_cases hnew : (n :: d) <:+ e
  · -- below the new place: the child of the corresponding old directory
    have hcons := relocate_cons old m hnew
    simp only [movedNode, hnew.trans (List.suffix_cons m e), if_true, hcons] at hsome
    simp only [movedNode, hnew, if_true]
    exact ⟨t.parent_isDirectory _ _ hsome, t.validName _ _ hsome⟩
  · have hnew' : (n :: d) <:+ m :: e ↔ n :: d = m :: e := by
      rw [List.suffix_cons_iff]
      simp [hnew]
    by_cases heq : n :: d = m :: e
    · -- the new place itself
      rcases List.cons.inj heq with ⟨rfl, rfl⟩
      have hparent : ¬ old <:+ d := by
        intro hs
        exact hnot (hs.trans (List.suffix_cons n d))
      simp only [movedNode, hnew, hparent, if_false]
      exact ⟨hdir, hname⟩
    · by_cases hin : old <:+ m :: e
      · simp [movedNode, hnew', heq, hin] at hsome
      · have hin' : ¬ old <:+ e := by
          intro hs
          exact hin (hs.trans (List.suffix_cons m e))
        simp only [movedNode, hnew', heq, hin, if_false] at hsome
        simp only [movedNode, hnew, hin', if_false]
        exact ⟨t.parent_isDirectory m e hsome, t.validName m e hsome⟩

theorem mem_movedEntries {t : FileTree} {old new : Location} (h : t.MoveOk old new)
    (m : Name) (e : Location) :
    m ∈ t.movedEntries old new e ↔
      m = dot ∨ m = dotdot ∨ (t.movedNode old new (m :: e)).isSome := by
  rcases h.new_cons with ⟨n, d, rfl, hname, hdir⟩
  rcases h with ⟨hne, hold, -, -, hnot, hnot'⟩
  rcases List.exists_cons_of_ne_nil hne with ⟨k, c, rfl⟩
  by_cases hnew : (n :: d) <:+ e
  · have hcons := relocate_cons (k :: c) m hnew
    simp only [movedEntries, movedNode, hnew, hnew.trans (List.suffix_cons m e), if_true, hcons]
    exact t.mem_entries m _
  · have hnew' : (n :: d) <:+ m :: e ↔ n :: d = m :: e := by
      rw [List.suffix_cons_iff]
      simp [hnew]
    by_cases hin : (k :: c) <:+ e
    · have hne' : n :: d ≠ m :: e := by
        intro heq
        exact hnot (heq ▸ hin.trans (List.suffix_cons m e))
      simp [movedEntries, movedNode, hnew, hnew', hne', hin, hin.trans (List.suffix_cons m e)]
    · have hin' : (k :: c) <:+ m :: e ↔ k :: c = m :: e := by
        rw [List.suffix_cons_iff]
        simp [hin]
      have hkept := mem_keptEntries hold m e
      by_cases heq : n :: d = m :: e
      · -- the entry that arrives
        rcases List.cons.inj heq with ⟨rfl, rfl⟩
        simp [movedEntries, movedNode, hnew, hin, mem_enter, hold]
      · have hmoved : m ∈ t.movedEntries (k :: c) (n :: d) e ↔ m ∈ t.keptEntries (k :: c) e := by
          by_cases hed : e = d
          · subst hed
            have hmn : m ≠ n := by
              rintro rfl
              exact heq rfl
            simp [movedEntries, hnew, hin, mem_enter, hmn]
          · simp [movedEntries, hnew, hin, hed]
        rw [hmoved, hkept]
        simp only [movedNode, hnew', heq, hin', if_false]
        by_cases hkm : k :: c = m :: e
        · simp [hkm]
        · simp [hkm]

/-- **Move an entry**, with everything below it, over what is at the new place. -/
def move (t : FileTree) (old new : Location) : FileTree :=
  if h : t.MoveOk old new then
    { node := t.movedNode old new
      entries := t.movedEntries old new
      cwd := if old <:+ t.cwd then relocate new old t.cwd else t.cwd
      symloopMax := t.symloopMax
      root_isDirectory := by
        rcases h.new_cons with ⟨n, d, rfl, -, -⟩
        have hne : ¬ old <:+ [] := by simpa using h.1
        simpa [movedNode, hne] using t.root_isDirectory
      parent_isDirectory := fun m e hsome => (movedNode_child h m e hsome).1
      validName := fun m e hsome => (movedNode_child h m e hsome).2
      mem_entries := mem_movedEntries h
      entries_nodup := by
        intro e
        have hkept := t.keptEntries_nodup old e
        unfold movedEntries
        split
        · exact t.entries_nodup _
        · split
          · decide
          · split
            · unfold enter
              split
              · exact hkept
              · next hnot => exact List.nodup_cons.mpr ⟨hnot, hkept⟩
            · exact hkept }
  else t

/-! ## 5. The calls -/

/-- The kernel lets the process remove the entry: `unlink`, or `rmdir` on an
    empty directory. -/
def mayRemove (t : FileTree) (path : Bytes) (l : Location) : Bool :=
  t.mayTake l &&
    match t.node l with
    | none => false
    | some (.directory _) => t.isEmptyDirectory l
    | some _ => !trailing (cString path)

/-- `remove`. -/
def remove (t : FileTree) (path : Bytes) : Option FileTree :=
  match t.entry path with
  | some (n :: d) => if t.mayRemove path (n :: d) then some (t.erase n d) else none
  | _ => none

/-- The kernel lets the process rename `old` to `new`.  For one entry under two paths there is
    nothing to do; a directory that gets another parent must itself be writable. -/
def mayRename (t : FileTree) (oldPath newPath : Bytes) (old new : Location) : Bool :=
  match t.node old with
  | none => false
  | some source =>
    (source.isDirectory || !(trailing (cString oldPath) || trailing (cString newPath))) &&
      (old == new ||
        (t.mayTake old &&
          (!source.isDirectory || old.tail == new.tail || source.mode.write) &&
          !(decide (old <:+ new)) && !(decide (new <:+ old)) &&
          match t.node new with
          | none => t.writable new.tail
          | some target =>
            t.mayTake new &&
              if source.isDirectory then t.isEmptyDirectory new else !target.isDirectory))

/-- `rename`: an existing target of the right kind is replaced, and renaming an
    entry to itself does nothing. -/
def rename (t : FileTree) (oldPath newPath : Bytes) : Option FileTree :=
  match t.entry oldPath, t.entry newPath with
  | some old, some new =>
    if t.mayRename oldPath newPath old new then some (t.move old new) else none
  | _, _ => none

/-- The mode of a file the process creates. -/
def createMode : Mode := ⟨true, true, false, false, true⟩

/-- `open` with `O_WRONLY | O_CREAT | O_APPEND`: the tree, with the file created
    when it was not there, and the object that was opened. -/
def openAppend (t : FileTree) (path : Bytes) : Option (FileTree × Location) :=
  match t.locate false path with
  | none => none
  | some l =>
    match t.node l with
    | some (.regular m _) => if m.write then some (t, l) else none
    | some (.special m) => if m.write then some (t, l) else none
    | some _ => none
    | none =>
      match l with
      | [] => none
      | n :: d =>
        if h : t.writable d = true ∧ t.isDirectory d = true ∧ ValidName n ∧ t.node (n :: d) = none then
          some (t.insert n d (.regular createMode []) h.2.1 h.2.2.1 h.2.2.2, n :: d)
        else none

theorem append_node (t : FileTree) (l l' : Location) (bytes : Bytes) :
    (t.append l bytes).node l' =
      if l' = l then
        match t.node l with
        | some (.regular m content) => some (.regular m (content ++ bytes))
        | other => other
      else t.node l' := rfl

@[simp] theorem append_nil (t : FileTree) (l : Location) : t.append l [] = t := by
  refine FileTree.ext (funext fun l' => ?_) rfl rfl rfl
  rw [append_node]
  by_cases h : l' = l
  · subst h
    rw [if_pos rfl]
    split
    · next heq => rw [heq, List.append_nil]
    · rfl
  · rw [if_neg h]

theorem append_append (t : FileTree) (l : Location) (front back : Bytes) :
    (t.append l front).append l back = t.append l (front ++ back) := by
  refine FileTree.ext (funext fun l' => ?_) rfl rfl rfl
  simp only [append_node, if_true]
  by_cases h : l' = l
  · simp only [if_pos h]
    cases t.node l with
    | none => rfl
    | some node =>
      cases node with
      | regular m content => simp only [List.append_assoc]
      | directory m => rfl
      | symlink mode target => rfl
      | special m => rfl
  · simp only [if_neg h]

theorem append_eq_self_iff (t : FileTree) (l : Location) (bytes : Bytes) :
    t.append l bytes = t ↔ bytes = [] ∨ (t.node l).any Node.isRegular = false := by
  constructor
  · intro h
    have hnode := congrFun (congrArg FileTree.node h) l
    rw [append_node, if_pos rfl] at hnode
    cases hl : t.node l with
    | none => exact Or.inr rfl
    | some node =>
      cases node with
      | regular m content =>
        rw [hl] at hnode
        have hbytes : content ++ bytes = content := by simpa using hnode
        exact Or.inl (by simpa using hbytes)
      | directory m => exact Or.inr rfl
      | symlink mode target => exact Or.inr rfl
      | special m => exact Or.inr rfl
  · rintro (rfl | hl)
    · exact t.append_nil l
    · refine FileTree.ext (funext fun l' => ?_) rfl rfl rfl
      rw [append_node]
      by_cases h : l' = l
      · subst h
        rw [if_pos rfl]
        split
        · next heq =>
          rw [heq] at hl
          simp [Node.isRegular] at hl
        · rfl
      · rw [if_neg h]

theorem setContent_node (t : FileTree) (l l' : Location) (content : Bytes) :
    (t.setContent l content).node l' =
      if l' = l then
        match t.node l with
        | some (.regular m _) => some (.regular m content)
        | other => other
      else t.node l' := rfl

/-- What `open` opens is where the path leads: a file that was there, or a new empty one. -/
theorem openAppend_inv {t t' : FileTree} {path : Bytes} {l : Location}
    (h : t.openAppend path = some (t', l)) :
    t.locate false path = some l ∧
      ((t' = t ∧ ∃ node, t.node l = some node ∧ node.isDirectory = false ∧
          ∀ mode target, node ≠ .symlink mode target) ∨
        ∃ n d hdir hname hfree, l = n :: d ∧
          t' = t.insert n d (.regular createMode []) hdir hname hfree) := by
  unfold openAppend at h
  cases hlocate : t.locate false path with
  | none => simp [hlocate] at h
  | some l₀ =>
    simp only [hlocate] at h
    cases hnode : t.node l₀ with
    | some node =>
      rw [hnode] at h
      cases node with
      | regular m content =>
        obtain ⟨-, rfl, rfl⟩ : m.write = true ∧ t = t' ∧ l₀ = l := by simpa using h
        exact ⟨rfl, Or.inl ⟨rfl, _, hnode, rfl, by simp⟩⟩
      | special m =>
        obtain ⟨-, rfl, rfl⟩ : m.write = true ∧ t = t' ∧ l₀ = l := by simpa using h
        exact ⟨rfl, Or.inl ⟨rfl, _, hnode, rfl, by simp⟩⟩
      | directory m => simp at h
      | symlink mode target => simp at h
    | none =>
      rw [hnode] at h
      cases l₀ with
      | nil => simp at h
      | cons n d =>
        simp only at h
        split at h
        · next hok =>
          simp only [Option.some.injEq, Prod.mk.injEq] at h
          rcases h with ⟨rfl, rfl⟩
          exact ⟨rfl, Or.inr ⟨n, d, hok.2.1, hok.2.2.1, hnode, rfl, rfl⟩⟩
        · simp at h

theorem openAppend_cases {t t' : FileTree} {path : Bytes} {l : Location}
    (h : t.openAppend path = some (t', l)) :
    (t' = t ∧ (t.node l).isSome) ∨
      (t.node l = none ∧ t'.node l = some (.regular createMode []) ∧
        ∀ l', l' ≠ l → t'.node l' = t.node l') := by
  rcases (openAppend_inv h).2 with ⟨rfl, node, hnode, -⟩ | ⟨n, d, hdir, hname, hfree, rfl, rfl⟩
  · exact Or.inl ⟨rfl, by rw [hnode]; rfl⟩
  · exact Or.inr ⟨hfree, if_pos rfl, fun l' hne => if_neg hne⟩

/-- `remove` takes what exists and has nothing below. -/
theorem mayRemove_sound {t : FileTree} {path : Bytes} {l : Location}
    (h : t.mayRemove path l = true) :
    (t.node l).isSome = true ∧ ∀ m, t.node (m :: l) = none := by
  unfold mayRemove at h
  rw [Bool.and_eq_true] at h
  rcases h with ⟨-, hkind⟩
  cases hnode : t.node l with
  | none => simp [hnode] at hkind
  | some node =>
    refine ⟨rfl, ?_⟩
    intro m
    by_contra hchild
    have hsome := Option.isSome_iff_ne_none.mpr hchild
    have hdir := t.parent_isDirectory m l hsome
    rw [hnode] at hdir hkind
    cases node with
    | directory mode =>
      -- the child is an entry that is neither `.` nor `..`
      dsimp only [isEmptyDirectory] at hkind
      rw [Bool.and_eq_true, List.all_eq_true] at hkind
      have hentry := hkind.2 m ((t.mem_entries m l).mpr (Or.inr (Or.inr hsome)))
      rcases t.validName m l hsome with ⟨-, hdot, hdotdot, -, -⟩
      simp [hdot, hdotdot] at hentry
    | regular mode content => cases hdir
    | symlink mode target => cases hdir
    | special mode => cases hdir

/-- Without a child there is nothing below. -/
theorem node_eq_none_below {t : FileTree} {l above : Location}
    (h : ∀ m, t.node (m :: above) = none) (hsuffix : above <:+ l) (hne : above ≠ l) :
    t.node l = none := by
  induction l with
  | nil => exact absurd (List.suffix_nil.mp hsuffix) hne
  | cons n d ih =>
    rcases List.suffix_cons_iff.mp hsuffix with heq | hsuffix
    · exact absurd heq hne
    · by_cases heq : above = d
      · rw [← heq]
        exact h n
      · by_contra hsome
        have hdir := t.parent_isDirectory n d (Option.isSome_iff_ne_none.mpr hsome)
        rw [ih hsuffix heq] at hdir
        cases hdir

/-- From `t` to `t'` one object is gone, and everything else is as it was. -/
structure Removed (t t' : FileTree) (l : Location) : Prop where
  there : (t.node l).isSome = true
  gone : t'.node l = none
  others : ∀ l', l' ≠ l → t'.node l' = t.node l'
  cwd : t'.cwd = t.cwd

/-- **`remove` removes one entry**: the one that the path names. -/
theorem remove_removed {t t' : FileTree} {path : Bytes} (h : t.remove path = some t') :
    ∃ l, t.entry path = some l ∧ t.Removed t' l := by
  unfold remove at h
  split at h
  · next n d hentry =>
    split at h
    · next hmay =>
      cases h
      rcases mayRemove_sound hmay with ⟨hsome, hchild⟩
      refine ⟨n :: d, hentry, hsome, if_pos List.suffix_rfl, ?_, rfl⟩
      intro l' hne
      by_cases hbelow : (n :: d) <:+ l'
      · rw [node_eq_none_below hchild hbelow (Ne.symm hne)]
        exact if_pos hbelow
      · exact if_neg hbelow
    · cases h
  · cases h

theorem Removed.ne {t t' : FileTree} {l : Location} (h : t.Removed t' l) : t' ≠ t := by
  rintro rfl
  have hthere := h.there
  rw [h.gone] at hthere
  cases hthere

/-- What `remove` removes was there. -/
theorem remove_ne {t t' : FileTree} {path : Bytes} (h : t.remove path = some t') : t' ≠ t := by
  rcases remove_removed h with ⟨l, -, hremoved⟩
  exact hremoved.ne

/-- After a move nothing is left at the old place. -/
theorem move_ne {t : FileTree} {old new : Location} (h : t.MoveOk old new) : t.move old new ≠ t := by
  intro heq
  have hnode := congrFun (congrArg FileTree.node heq) old
  rcases id h with ⟨-, hold, -, -, hnot, hnot'⟩
  unfold move at hnode
  rw [dif_pos h] at hnode
  simp only [movedNode, hnot', List.suffix_rfl, if_true, if_false] at hnode
  rw [← hnode] at hold
  simp at hold

/-- Everything above what exists is a directory. -/
theorem isDirectory_of_suffix {t : FileTree} {l above : Location} (h : (t.node l).isSome)
    (hsuffix : above <:+ l) (hne : above ≠ l) : t.isDirectory above = true := by
  induction l with
  | nil => exact absurd (List.suffix_nil.mp hsuffix) hne
  | cons n d ih =>
    have hdir := t.parent_isDirectory n d h
    rcases List.suffix_cons_iff.mp hsuffix with heq | hsuffix
    · exact absurd heq hne
    · by_cases heq : above = d
      · rw [heq]
        exact hdir
      · apply ih _ hsuffix heq
        cases hnode : t.node d with
        | none => simp [hnode] at hdir
        | some node => rfl

/-- Nothing is below what does not exist, or is no directory. -/
theorem not_suffix_of_not_directory {t : FileTree} {l above : Location} (h : (t.node l).isSome)
    (hne : above ≠ l) (hnot : t.isDirectory above = false) : ¬ above <:+ l := by
  intro hsuffix
  rw [isDirectory_of_suffix h hsuffix hne] at hnot
  cases hnot

/-- From `t` to `t'` all that was at `old` and below is at `new` and below, nothing is left at
    `old`, and everything else is as it was. -/
structure Moved (t t' : FileTree) (old new : Location) : Prop where
  arrives : ∀ below, t'.node (below ++ new) = t.node (below ++ old)
  leaves : ∀ below, t'.node (below ++ old) = none
  others : ∀ l, ¬ old <:+ l → ¬ new <:+ l → t'.node l = t.node l

theorem MoveOk.moved {t : FileTree} {old new : Location} (h : t.MoveOk old new) :
    t.Moved (t.move old new) old new := by
  have hnode : (t.move old new).node = t.movedNode old new := by
    unfold move
    rw [dif_pos h]
  rcases h with ⟨-, -, -, -, hnot, hnot'⟩
  refine ⟨?_, ?_, ?_⟩
  · intro below
    have hin : new <:+ below ++ new := List.suffix_append below new
    have hback : relocate old new (below ++ new) = below ++ old := by simp [relocate]
    rw [hnode, movedNode, if_pos hin, hback]
  · intro below
    have hin : old <:+ below ++ old := List.suffix_append below old
    have hout : ¬ new <:+ below ++ old := by
      intro hnew
      rcases List.suffix_or_suffix_of_suffix hnew hin with hbelow | habove
      · exact hnot' hbelow
      · exact hnot habove
    rw [hnode, movedNode, if_neg hout, if_pos hin]
  · intro l hold hnew
    rw [hnode, movedNode, if_neg hnew, if_neg hold]

/-- The kernel allows the rename: both paths name entries, and it may change them. -/
def AllowsRename (t : FileTree) (oldPath newPath : Bytes) : Prop :=
  ∃ old new, t.entry oldPath = some old ∧ t.entry newPath = some new ∧
    t.mayRename oldPath newPath old new = true

theorem rename_isSome_iff (t : FileTree) (oldPath newPath : Bytes) :
    (t.rename oldPath newPath).isSome = true ↔ t.AllowsRename oldPath newPath := by
  unfold rename AllowsRename
  cases hold : t.entry oldPath with
  | none => simp
  | some old =>
    cases hnew : t.entry newPath with
    | none => simp
    | some new =>
      dsimp only
      cases hmay : t.mayRename oldPath newPath old new <;> simp [hmay]

/-- The kernel moves an entry: it allows the rename, and the two names are not the same. -/
def Renames (t : FileTree) (oldPath newPath : Bytes) : Prop :=
  ∃ old new, t.entry oldPath = some old ∧ t.entry newPath = some new ∧
    t.mayRename oldPath newPath old new = true ∧ t.MoveOk old new

theorem rename_getD_eq_self_iff (t : FileTree) (oldPath newPath : Bytes) :
    (t.rename oldPath newPath).getD t = t ↔ ¬ t.Renames oldPath newPath := by
  unfold rename Renames
  cases hold : t.entry oldPath with
  | none => simp
  | some old =>
    cases hnew : t.entry newPath with
    | none => simp
    | some new =>
      dsimp only
      cases hmay : t.mayRename oldPath newPath old new with
      | false => simp [hmay]
      | true =>
        by_cases hmove : t.MoveOk old new
        · simp [hmay, hmove, move_ne hmove]
        · simp [hmay, hmove, move]

end FileTree

/-! ## 7. Canonical paths -/

@[simp] theorem names_nil : names [] = [] := by decide

theorem names_append_slash (front back : Bytes) :
    names (front ++ SLASH :: back) = names front ++ names back := by
  rw [names, List.splitOn_append_cons_self, List.filter_append]
  rfl

theorem names_of_not_mem {n : Name} (hne : n ≠ []) (hslash : SLASH ∉ n) : names n = [n] := by
  rw [names, List.splitOn_eq_singleton hslash]
  simp [hne]

theorem names_append_flatMap {ns : List Name} (h : ∀ n ∈ ns, ValidName n) (front : Bytes) :
    names (front ++ ns.flatMap fun n => SLASH :: n) = names front ++ ns := by
  induction ns generalizing front with
  | nil => simp
  | cons n ns ih =>
    rw [List.flatMap_cons, List.cons_append, names_append_slash,
      ih (fun m hm => h m (List.mem_cons_of_mem _ hm)), names_of_not_mem (h n (by simp)).1 (h n (by simp)).2.2.2.1,
      List.singleton_append]

theorem names_render {l : Location} (h : ∀ n ∈ l, ValidName n) : names (render l) = l.reverse := by
  cases l with
  | nil => decide
  | cons n d =>
    have hreverse : ∀ m ∈ (n :: d).reverse, ValidName m := by
      intro m hm
      exact h m (List.mem_reverse.mp hm)
    have := names_append_flatMap hreverse []
    rwa [names_nil, List.nil_append, List.nil_append] at this

theorem nul_not_mem_render {l : Location} (h : ∀ n ∈ l, ValidName n) : NUL ∉ render l := by
  cases l with
  | nil => decide
  | cons n d =>
    intro hmem
    rcases List.mem_flatMap.mp hmem with ⟨m, hm, hnul⟩
    rcases List.mem_cons.mp hnul with heq | hin
    · exact absurd heq (by decide)
    · exact (h m (List.mem_reverse.mp hm)).2.2.2.2 hin

theorem render_head (l : Location) : ∃ rest, render l = SLASH :: rest := by
  cases l with
  | nil => exact ⟨[], rfl⟩
  | cons n d =>
    cases hreverse : (n :: d).reverse with
    | nil => simp at hreverse
    | cons m ms => exact ⟨m ++ ms.flatMap (fun k => SLASH :: k), by simp [render, hreverse]⟩

theorem trailing_render {n : Name} {d : Location} (h : ValidName n) :
    trailing (render (n :: d)) = false := by
  rcases h with ⟨hne, -, -, hslash, -⟩
  obtain ⟨b, rest, hlast⟩ : ∃ b rest, n = rest ++ [b] := by
    rcases List.eq_nil_or_concat n with hnil | ⟨rest, b, heq⟩
    · exact absurd hnil hne
    · exact ⟨b, rest, by rw [heq, List.concat_eq_append]⟩
  have hb : b ≠ SLASH := by
    rintro rfl
    exact hslash (by rw [hlast]; simp)
  have hrender : render (n :: d) =
      (d.reverse.flatMap fun m => SLASH :: m) ++ SLASH :: rest ++ [b] := by
    simp [render, hlast]
  rw [trailing, hrender, List.getLast?_concat]
  simpa using hb

namespace FileTree

theorem validName_of_mem {t : FileTree} {l : Location} (h : (t.node l).isSome = true) :
    ∀ n ∈ l, ValidName n := by
  induction l with
  | nil => simp
  | cons n d ih =>
    intro m hm
    rcases List.mem_cons.mp hm with rfl | hin
    · exact t.validName _ _ h
    · have hdir := t.parent_isDirectory n d h
      refine ih ?_ m hin
      cases hnode : t.node d with
      | none => simp [hnode] at hdir
      | some node => rfl

end FileTree

end Posix
