import FtpsServer.Lib.FileTree
import Mathlib.Data.List.Sort

/-!
# `file_system.cpp`: the classes `path`, `file` and `directory`

The path functions of the server over a file tree.  `OPERATION_SUCCESS` is 0 and
`OPERATION_FAILURE` is -1, so a result used as a condition is true exactly when the
operation *failed*; `file::exists` does use `get_canonical_full_path` so.
-/

namespace FtpsServer

open ByteString Posix

def OPERATION_SUCCESS : Int := 0
def OPERATION_FAILURE : Int := -1

inductive FileT where
  | regular
  | directory
  | any
deriving DecidableEq, Repr

namespace Directory

def isFileType (t : FileTree) (fileName : Bytes) (fileType : FileT) : Bool :=
  match t.lstat fileName with
  | none => false
  | some node =>
    match fileType with
    | .regular => node.isRegular
    | .directory => node.isDirectory
    | .any => true

/-- `directory::exists`. -/
def exists' (t : FileTree) (path : Bytes) : Bool :=
  match t.realpath path with
  | some canonical => isFileType t canonical .directory
  | none => false

end Directory

namespace Path

/-- `path::get_canonical_full_path`: the result, and what the output parameter
    holds afterwards.  `realpath` returns no empty path, so that the `substr` that
    looks at the last byte is in range. -/
def getCanonicalFullPath (t : FileTree) (path : Bytes) : Int × Bytes :=
  match t.realpath path with
  | some buffer =>
    if Directory.exists' t buffer && !trailing buffer then
      (OPERATION_SUCCESS, buffer ++ [SLASH])
    else (OPERATION_SUCCESS, buffer)
  | none => (OPERATION_FAILURE, [])

def isPathRooted (path : Bytes) : Bool := path.take 1 == [SLASH]

def isPathHomed (path : Bytes) : Bool := path.take 1 == ascii "~"

/-- The canonical path that `path::move` hands to `rename`. -/
def canonical (t : FileTree) (path : Bytes) : Bytes := (getCanonicalFullPath t path).2

/-- `path::get_file_name`: what stands behind the *first* slash of the canonical path.  The
    result of `get_canonical_full_path` is not asked for. -/
def getFileName (t : FileTree) (path : Bytes) : Int × Bytes :=
  let canonicalPath := canonical t path
  match canonicalPath.idxOf? SLASH with
  | some position => (OPERATION_SUCCESS, canonicalPath.drop (position + 1))
  | none => (OPERATION_FAILURE, [])

def move (t : FileTree) (oldPath newPath : Bytes) : Int × FileTree :=
  match t.rename (canonical t oldPath) newPath with
  | some t' => (OPERATION_SUCCESS, t')
  | none => (OPERATION_FAILURE, t)

end Path

namespace File

/-- `file::exists`: the condition is the integer result itself. -/
def exists' (t : FileTree) (path : Bytes) : Bool :=
  let (result, canonicalPath) := Path.getCanonicalFullPath t path
  if result ≠ 0 then
    match t.lstat canonicalPath with
    | some node => node.isRegular
    | none => false
  else false

def erase (t : FileTree) (path : Bytes) : Int × FileTree :=
  match t.remove (Path.canonical t path) with
  | some t' => (OPERATION_SUCCESS, t')
  | none => (OPERATION_FAILURE, t)

/-- `file::move`: the result of `path::move` is ignored. -/
def move (t : FileTree) (pathFile1 pathFile2 : Bytes) : Int × FileTree :=
  if exists' t pathFile1 && !exists' t pathFile2 then (OPERATION_FAILURE, t)
  else (OPERATION_SUCCESS, (Path.move t pathFile1 pathFile2).2)

end File

namespace Directory

def isFilePattern (file pattern : Bytes) : Bool :=
  if pattern.length > file.length then false else file.take pattern.length == pattern

/-- `std::string` order: lexicographic on bytes. -/
def bytesLe : Bytes → Bytes → Bool
  | [], _ => true
  | _ :: _, [] => false
  | a :: as, b :: bs => if a < b then true else if b < a then false else bytesLe as bs

/-- `directory::get_specify_files`: the result, and what `files` holds afterwards. -/
def getSpecifyFiles (t : FileTree) (path pattern : Bytes) (fileType : FileT) (files : List Bytes) :
    Int × List Bytes :=
  let canonicalFilePath := Path.canonical t path
  match t.opendir canonicalFilePath with
  | some l =>
    let found := (t.entries l).filter fun fileName =>
      isFileType t (canonicalFilePath ++ fileName) fileType &&
        (pattern.isEmpty || isFilePattern fileName pattern)
    (OPERATION_SUCCESS, found.insertionSort fun a b => bytesLe a b)
  | none => (OPERATION_FAILURE, files)

def getFiles (t : FileTree) (path : Bytes) (files : List Bytes) : Int × List Bytes :=
  getSpecifyFiles t path [] .any files

/-- `directory::move`: it moves in either case, and ignores the result of `path::move`. -/
def move (t : FileTree) (pathDirectory1 pathDirectory2 : Bytes) : Int × FileTree :=
  let result :=
    if File.exists' t pathDirectory1 && !File.exists' t pathDirectory2 then OPERATION_FAILURE
    else OPERATION_SUCCESS
  (result, (Path.move t pathDirectory1 pathDirectory2).2)

end Directory

/-! ### What the integer convention makes of `file::exists` -/

/-- On success `get_canonical_full_path` returns 0, on failure it clears the
    path, and there is nothing at the empty path: `file::exists` is constantly
    false. -/
theorem File.exists_eq_false (t : FileTree) (path : Bytes) : File.exists' t path = false := by
  unfold File.exists' Path.getCanonicalFullPath
  cases t.realpath path with
  | none => simp [OPERATION_FAILURE, FileTree.lstat, FileTree.locate, FileTree.locateBy]
  | some buffer =>
    dsimp only
    split <;> simp [OPERATION_SUCCESS]

end FtpsServer
