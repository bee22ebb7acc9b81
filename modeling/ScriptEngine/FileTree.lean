/-! Source files by path, and the paths that scripts use to include them. -/

namespace ScriptEngine

/-- Files below a working directory, by their path without `.` and `..`. -/
structure FileTree where
  files : List (String × String) := []

/-- Reasons for which a file cannot be read. -/
inductive FileFault where
  | notFound
  | isDirectory
  | notDirectory
  | nameTooLong
  | zeroInName
  | outside
  deriving DecidableEq, Repr

/-- The wording of a file fault. -/
def FileFault.describe : FileFault → String
  | .notFound => "No such file or directory (os error 2)"
  | .outside => "No such file or directory (os error 2)"
  | .isDirectory => "Is a directory (os error 21)"
  | .notDirectory => "Not a directory (os error 20)"
  | .nameTooLong => "File name too long (os error 36)"
  | .zeroInName => "file name contained an unexpected NUL byte"

namespace FileTree

/-- The parts of a path, without empty ones and without `.`. -/
def parts (path : String) : List String :=
  (path.splitOn "/").filter fun part => part ≠ "" ∧ part ≠ "."

/-- The files with their paths in parts. -/
def entries (tree : FileTree) : List (List String × String) :=
  tree.files.map fun (path, text) => (parts path, text)

/-- Whether a path is that of a directory. -/
def isDirectory (tree : FileTree) (path : List String) : Bool :=
  path.isEmpty || tree.entries.any fun (file, _) => path.isPrefixOf file && path ≠ file

/-- The text of a file. -/
def file? (tree : FileTree) (path : List String) : Option String := tree.entries.lookup path

/-- The number of bytes that the name of a file may have. -/
def maxNameSize : Nat := 255

/-- The number of bytes that a path may have. -/
def maxPathSize : Nat := 4095

/-- The fault of a path that leaves the tree: above it lie directories and nothing else. -/
def faultOutside (rest : List String) : FileFault :=
  match rest.dropWhile (· == "..") with
  | [] => .isDirectory
  | name :: _ => if maxNameSize < name.utf8ByteSize then .nameTooLong else .outside

/-- Follows the parts of a path from a directory, given with its innermost part first. -/
def walk (tree : FileTree) (directory : List String) : List String → Except FileFault (List String)
  | [] => .ok directory.reverse
  | ".." :: rest =>
    match directory with
    | [] => .error (faultOutside rest)
    | _ :: parent => tree.walk parent rest
  | part :: rest =>
    if maxNameSize < part.utf8ByteSize then .error .nameTooLong
    else
      let here := (part :: directory).reverse
      if tree.isDirectory here then tree.walk (part :: directory) rest
      else if (tree.file? here).isSome then
        if rest.isEmpty then .ok here else .error .notDirectory
      else .error .notFound

/-- The text of the file at a path. -/
def read (tree : FileTree) (path : String) : Except FileFault String :=
  if path.toList.contains (Char.ofNat 0) then .error .zeroInName
  else if path = "" then .error .notFound
  else if maxPathSize < path.utf8ByteSize then .error .nameTooLong
  else if path.startsWith "/" then .error (faultOutside (parts path))
  else do
    let found ← tree.walk [] (parts path)
    match tree.file? found with
    | none => .error .isDirectory
    | some text =>
      -- A slash or a dot behind the name asks for a directory.
      if path.endsWith "/" || path.endsWith "/." then .error .notDirectory else return text

/-- The directory part of a path, without separators and dots at its end; none for a path without
any parts. -/
def parent? (path : String) : Option String :=
  let absolute := path.startsWith "/"
  let pieces := path.splitOn "/"
  -- Only a dot at the very start of a relative path counts as a part.
  let isPart := fun (place : Nat) (piece : String) =>
    piece ≠ "" ∧ (piece ≠ "." ∨ (place = 0 ∧ ¬absolute))
  let places := pieces.zipIdx.filter fun (piece, place) => isPart place piece
  match places.reverse with
  | [] => none
  | [_] => some (if absolute then "/" else "")
  | _ :: (_, last) :: _ => some (String.intercalate "/" (pieces.take (last + 1)))

/-- The path that a script in `file` means by `path`: relative paths start at the directory of the
script. -/
def resolve (file path : String) : String :=
  match parent? file with
  | some directory =>
    if directory = "" || path.startsWith "/" then path
    else if directory.endsWith "/" then directory ++ path
    else directory ++ "/" ++ path
  | none => path

end FileTree

end ScriptEngine
