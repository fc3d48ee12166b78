import FtpsServer.Lib.Walks
import Mathlib.Logic.Function.Basic

/-!
# Files and fixtures

A path is resolved by the directories that may be searched and by the links that are
followed; a regular file is only ever at its end.  So a tree comes apart into its fixtures,
all that is no regular file, and its files, a map from places to contents: as long as only
files come, grow, move and go, no path leads anywhere else.
-/

namespace Posix

open ByteString

namespace FileTree

/-! ## 1. The two parts of a tree -/

/-- What is at a location, if it is no regular file. -/
def fixture (t : FileTree) (l : Location) : Option Node := (t.node l).filter fun node => !node.isRegular

/-- The regular file at a location: its mode and its content. -/
def fileAt (t : FileTree) (l : Location) : Option (Mode × Bytes) :=
  match t.node l with
  | some (.regular mode content) => some (mode, content)
  | _ => none

/-- The node of a file. -/
def fileNode (file : Mode × Bytes) : Node := .regular file.1 file.2

variable {t t' : FileTree} {l : Location} {nofollow : Bool}

theorem node_eq (t : FileTree) (l : Location) :
    t.node l = (t.fixture l).or ((t.fileAt l).map fileNode) := by
  unfold fixture fileAt
  cases t.node l with
  | none => rfl
  | some node => cases node <;> rfl

theorem fileAt_eq_some {file : Mode × Bytes} :
    t.fileAt l = some file ↔ t.node l = some (fileNode file) := by
  unfold fileAt fileNode
  cases t.node l with
  | none => simp
  | some node => cases node <;> simp [Prod.ext_iff]

theorem fixture_eq_some {node : Node} :
    t.fixture l = some node ↔ t.node l = some node ∧ node.isRegular = false := by
  rw [fixture, Option.filter_eq_some_iff, Bool.not_eq_true']

theorem isSome_iff (t : FileTree) (l : Location) :
    (t.node l).isSome = true ↔ (t.fixture l).isSome = true ∨ (t.fileAt l).isSome = true := by
  rw [node_eq, Option.isSome_or, Bool.or_eq_true, Option.isSome_map]

theorem fixture_of_file {file : Mode × Bytes} (h : t.fileAt l = some file) : t.fixture l = none := by
  rw [fixture, fileAt_eq_some.mp h]
  rfl

theorem fileAt_of_fixture {node : Node} (h : t.fixture l = some node) : t.fileAt l = none := by
  cases hfile : t.fileAt l with
  | none => rfl
  | some file =>
    rw [fixture_of_file hfile] at h
    cases h

theorem node_of_no_fixture (h : t.fixture l = none) : t.node l = (t.fileAt l).map fileNode := by
  rw [node_eq, h, Option.none_or]

theorem isDirectory_of_no_fixture (h : t.fixture l = none) : t.isDirectory l = false := by
  rw [isDirectory, node_of_no_fixture h]
  cases t.fileAt l <;> rfl

theorem searchable_of_no_fixture (h : t.fixture l = none) : t.searchable l = false := by
  rw [searchable, node_of_no_fixture h]
  cases t.fileAt l <;> rfl

theorem writable_of_no_fixture (h : t.fixture l = none) : t.writable l = false := by
  rw [writable, node_of_no_fixture h]
  cases t.fileAt l <;> rfl

theorem link_of_no_fixture (h : t.fixture l = none) : t.link l = none := by
  rw [link, node_of_no_fixture h]
  cases t.fileAt l <;> rfl

theorem isDirectory_of_file {file : Mode × Bytes} (h : t.fileAt l = some file) :
    t.isDirectory l = false := isDirectory_of_no_fixture (fixture_of_file h)

theorem fixture_of_isDirectory (h : t.isDirectory l = true) : t.fixture l = t.node l := by
  rcases node_of_isDirectory h with ⟨mode, hnode⟩
  rw [fixture, hnode]
  rfl

/-! ## 2. Trees with the same fixtures -/

/-- The same tree but for the regular files. -/
structure SameFixtures (t t' : FileTree) : Prop where
  fixture : t'.fixture = t.fixture
  cwd : t'.cwd = t.cwd
  symloopMax : t'.symloopMax = t.symloopMax

namespace SameFixtures

theorem refl (t : FileTree) : SameFixtures t t := ⟨rfl, rfl, rfl⟩

theorem trans {t'' : FileTree} (h : SameFixtures t t') (h' : SameFixtures t' t'') :
    SameFixtures t t'' :=
  ⟨h'.fixture.trans h.fixture, h'.cwd.trans h.cwd, h'.symloopMax.trans h.symloopMax⟩

/-- A location holds the same in both trees, unless it holds at most a regular file in both. -/
theorem node_or (h : SameFixtures t t') (l : Location) :
    t'.node l = t.node l ∨ t'.fixture l = none ∧ t.fixture l = none := by
  cases hfixture : t.fixture l with
  | none => exact Or.inr ⟨by rw [h.fixture, hfixture], rfl⟩
  | some node =>
    left
    rw [node_eq, node_eq, h.fixture, hfixture, Option.some_or, Option.some_or]

theorem isDirectory (h : SameFixtures t t') (l : Location) : t'.isDirectory l = t.isDirectory l := by
  rcases h.node_or l with hnode | ⟨hnone', hnone⟩
  · rw [FileTree.isDirectory, FileTree.isDirectory, hnode]
  · rw [isDirectory_of_no_fixture hnone', isDirectory_of_no_fixture hnone]

theorem searchable (h : SameFixtures t t') (l : Location) : t'.searchable l = t.searchable l := by
  rcases h.node_or l with hnode | ⟨hnone', hnone⟩
  · rw [FileTree.searchable, FileTree.searchable, hnode]
  · rw [searchable_of_no_fixture hnone', searchable_of_no_fixture hnone]

theorem writable (h : SameFixtures t t') (l : Location) : t'.writable l = t.writable l := by
  rcases h.node_or l with hnode | ⟨hnone', hnone⟩
  · rw [FileTree.writable, FileTree.writable, hnode]
  · rw [writable_of_no_fixture hnone', writable_of_no_fixture hnone]

theorem link (h : SameFixtures t t') (l : Location) : t'.link l = t.link l := by
  rcases h.node_or l with hnode | ⟨hnone', hnone⟩
  · rw [FileTree.link, FileTree.link, hnode]
  · rw [link_of_no_fixture hnone', link_of_no_fixture hnone]

theorem sameWays (h : SameFixtures t t') : SameWays t t' :=
  ⟨h.cwd, h.symloopMax, h.isDirectory, h.searchable, h.link⟩

/-- **No path leads anywhere else.** -/
theorem locate (h : SameFixtures t t') (path : Bytes) :
    t'.locate nofollow path = t.locate nofollow path := h.sameWays.locate path

theorem realLocate (h : SameFixtures t t') (path : Bytes) :
    t'.realLocate path = t.realLocate path := h.sameWays.realLocate path

theorem entry (h : SameFixtures t t') (path : Bytes) : t'.entry path = t.entry path :=
  h.sameWays.entry path

end SameFixtures

/-! ## 3. Paths from the root, and from a directory in use -/

/-- The working directory is there, and every directory above it may be searched. -/
structure Grounded (t : FileTree) : Prop where
  isDirectory : t.isDirectory t.cwd = true
  reachable : t.reachable t.cwd = true

theorem Grounded.congr (h : t.Grounded) (hsame : SameFixtures t t') : t'.Grounded := by
  constructor
  · rw [hsame.cwd, hsame.isDirectory]
    exact h.isDirectory
  · rw [hsame.cwd, hsame.sameWays.reachable]
    exact h.reachable

theorem Grounded.reachable_base (h : t.Grounded) (path : Bytes) :
    t.reachable (t.base (cString path)) = true :=
  FileTree.reachable_base (Or.inr h.reachable)

/-- From such a directory all paths lead to reachable places, and `realpath` takes them for
    the same ones. -/
theorem Grounded.locate_reachable (h : t.Grounded) {path : Bytes}
    (hlocate : t.locate nofollow path = some l) : t.reachable l = true :=
  locateBy_reachable (h.reachable_base path) hlocate

theorem Grounded.realLocate (h : t.Grounded) {path : Bytes}
    (hlocate : t.locate false path = some l) : t.realLocate path = some l :=
  realLocate_of_locate (h.reachable_base path) hlocate

/-- A path without a slash at its end leads to the entry it names, if that is no link. -/
theorem locate_of_entry {path : Bytes} (h : t.entry path = some l) (hlink : t.link l = none)
    (htrailing : trailing (cString path) = false) : t.locate false path = some l := by
  have hne : names (cString path) ≠ [] := by
    intro hnil
    unfold FileTree.entry at h
    dsimp only at h
    rw [hnil] at h
    cases h
  have hwalk := (walks_of_entry h).following hlink
  have hsearch := hwalk.searchable_of_ne hne fun c hc => (mem_names hc).1
  refine locateBy_eq_some_iff.mpr ⟨?_, isDirectory_of_searchable hsearch, ?_⟩
  · intro hnil
    rw [hnil, names_nil] at hne
    exact hne rfl
  · rwa [components, htrailing, if_neg Bool.false_ne_true, List.append_nil]

/-! ## 4. Changes to the files -/

/-- From `t` to `t'` one location has got a file, or lost one, and all else is as it was. -/
structure Becomes (t t' : FileTree) (l : Location) (file : Option (Mode × Bytes)) : Prop where
  node : t'.node l = file.map fileNode
  others : ∀ l', l' ≠ l → t'.node l' = t.node l'
  cwd : t'.cwd = t.cwd
  symloopMax : t'.symloopMax = t.symloopMax

theorem Becomes.sameFixtures {file : Option (Mode × Bytes)} (h : Becomes t t' l file)
    (hfixture : t.fixture l = none) : SameFixtures t t' := by
  refine ⟨?_, h.cwd, h.symloopMax⟩
  funext l'
  by_cases heq : l' = l
  · rw [heq, hfixture, fixture, h.node]
    cases file <;> rfl
  · rw [fixture, fixture, h.others l' heq]

theorem Becomes.fileAt {file : Option (Mode × Bytes)} (h : Becomes t t' l file) :
    t'.fileAt = Function.update t.fileAt l file := by
  funext l'
  by_cases heq : l' = l
  · rw [heq, Function.update_self, FileTree.fileAt, h.node]
    cases file <;> rfl
  · rw [Function.update_of_ne heq, FileTree.fileAt, FileTree.fileAt, h.others l' heq]

theorem append_becomes {mode : Mode} {content : Bytes} (h : t.fileAt l = some (mode, content))
    (bytes : Bytes) : Becomes t (t.append l bytes) l (some (mode, content ++ bytes)) := by
  refine ⟨?_, ?_, rfl, rfl⟩
  · rw [append_node, if_pos rfl, fileAt_eq_some.mp h]
    rfl
  · intro l' hne
    rw [append_node, if_neg hne]

theorem insert_becomes {n : Name} {d : Location} {mode : Mode} {content : Bytes}
    (hdir : t.isDirectory d = true) (hname : ValidName n) (hfree : t.node (n :: d) = none) :
    Becomes t (t.insert n d (.regular mode content) hdir hname hfree) (n :: d)
      (some (mode, content)) :=
  ⟨if_pos rfl, fun _ hne => if_neg hne, rfl, rfl⟩

/-- Nothing is below a file. -/
theorem node_below_file {file : Mode × Bytes} (h : t.fileAt l = some file) {l' : Location}
    (hbelow : l <:+ l') (hne : l ≠ l') : t.node l' = none := by
  by_contra hsome
  have hdir := isDirectory_of_suffix (Option.isSome_iff_ne_none.mpr hsome) hbelow hne
  rw [isDirectory_of_file h] at hdir
  cases hdir

theorem erase_becomes {n : Name} {d : Location} {file : Mode × Bytes}
    (h : t.fileAt (n :: d) = some file) : Becomes t (t.erase n d) (n :: d) none := by
  refine ⟨if_pos List.suffix_rfl, ?_, rfl, rfl⟩
  intro l' hne
  by_cases hbelow : (n :: d) <:+ l'
  · rw [node_below_file h hbelow (Ne.symm hne)]
    exact if_pos hbelow
  · exact if_neg hbelow

/-- Nothing is below a place that is no fixture. -/
theorem node_below (h : t.fixture l = none) {below : Location} (hne : below ≠ []) :
    t.node (below ++ l) = none := by
  have hlong : l ≠ below ++ l := by
    intro heq
    exact hne (List.self_eq_append_left.mp heq)
  cases hfile : t.fileAt l with
  | some file => exact node_below_file hfile (List.suffix_append below l) hlong
  | none =>
    by_contra hsome
    have hdir := isDirectory_of_suffix (Option.isSome_iff_ne_none.mpr hsome)
      (List.suffix_append below l) hlong
    rw [isDirectory, node_of_no_fixture h, hfile] at hdir
    cases hdir

theorem update_below {α : Type} (f : Location → α) (a : α) {below : Location} (hne : below ≠ []) :
    Function.update f l a (below ++ l) = f (below ++ l) := by
  apply Function.update_of_ne
  intro heq
  exact hne (List.append_left_eq_self.mp heq)

/-- A file that is moved takes nothing with it. -/
theorem move_node {old new : Location} {file : Mode × Bytes} (h : t.fileAt old = some file)
    (hnew : t.fixture new = none) (hok : t.MoveOk old new) :
    (t.move old new).node = Function.update (Function.update t.node new (t.node old)) old none := by
  have hmoved := hok.moved
  funext l
  by_cases hold : old <:+ l
  · rcases hold with ⟨below, rfl⟩
    rw [hmoved.leaves below]
    by_cases hnil : below = []
    · rw [hnil, List.nil_append, Function.update_self]
    · have hnot : below ++ old ≠ new := by
        intro heq
        exact hok.2.2.2.2.1 (heq ▸ List.suffix_append below old)
      rw [update_below _ _ hnil, Function.update_of_ne hnot, node_below (fixture_of_file h) hnil]
  · have hnotold : l ≠ old := by
      rintro rfl
      exact hold List.suffix_rfl
    rw [Function.update_of_ne hnotold]
    by_cases hin : new <:+ l
    · rcases hin with ⟨below, rfl⟩
      rw [hmoved.arrives below]
      by_cases hnil : below = []
      · rw [hnil, List.nil_append, List.nil_append, Function.update_self]
      · rw [update_below _ _ hnil, node_below hnew hnil, node_below (fixture_of_file h) hnil]
    · have hnotnew : l ≠ new := by
        rintro rfl
        exact hin List.suffix_rfl
      rw [Function.update_of_ne hnotnew, hmoved.others l hold hin]

theorem move_cwd {old : Location} (new : Location) {file : Mode × Bytes}
    (h : t.fileAt old = some file) (hcwd : t.isDirectory t.cwd = true) :
    (t.move old new).cwd = t.cwd := by
  have hnot : ¬ old <:+ t.cwd := by
    apply not_suffix_of_not_directory _ _ (isDirectory_of_file h)
    · exact (solid_of_isDirectory hcwd).isSome
    · rintro rfl
      rw [isDirectory_of_file h] at hcwd
      cases hcwd
  by_cases hok : t.MoveOk old new
  · rw [move, dif_pos hok]
    exact if_neg hnot
  · rw [move, dif_neg hok]

/-- **A file is moved**: the fixtures stay, and the file is at the new place. -/
theorem move_file {old new : Location} {file : Mode × Bytes} (h : t.fileAt old = some file)
    (hnew : t.fixture new = none) (hok : t.MoveOk old new) (hcwd : t.isDirectory t.cwd = true) :
    SameFixtures t (t.move old new) ∧
      (t.move old new).fileAt = Function.update (Function.update t.fileAt new (some file)) old none := by
  have hnode := move_node h hnew hok
  have hloop : (t.move old new).symloopMax = t.symloopMax := by
    unfold move
    split <;> rfl
  refine ⟨⟨?_, move_cwd new h hcwd, hloop⟩, ?_⟩
  · funext l
    rw [fixture, hnode]
    by_cases hold : l = old
    · rw [hold, Function.update_self, fixture_of_file h]
      rfl
    · rw [Function.update_of_ne hold]
      by_cases heq : l = new
      · rw [heq, Function.update_self, hnew, fileAt_eq_some.mp h]
        rfl
      · rw [Function.update_of_ne heq]
        rfl
  · funext l
    rw [FileTree.fileAt, hnode]
    by_cases hold : l = old
    · rw [hold, Function.update_self, Function.update_self]
    · rw [Function.update_of_ne hold, Function.update_of_ne hold]
      by_cases heq : l = new
      · rw [heq, Function.update_self, Function.update_self, fileAt_eq_some.mp h]
        rfl
      · rw [Function.update_of_ne heq, Function.update_of_ne heq]
        rfl

end FileTree

end Posix
