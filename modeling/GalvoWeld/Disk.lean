/-!
# Files

The files that are known, each under the names that lead to it from the working directory; the
name `/` stands for the root and `..` at the beginning for the directory above. The working
directory, those above it and the root always exist. A path is followed name by name; what stands
in its way is the cause of a failure, worded as the system words it.
-/

namespace GalvoWeld

/-- Files with their texts, and directories, by the names that lead to them. A directory of a file
need not be listed. -/
structure Disk where
  files : List (List String × String)
  directories : List (List String) := []

namespace Disk

inductive Cause where
  | notFound
  | notADirectory
  | isADirectory
  | nameTooLong
  | nulByte
  | other (text : String)
deriving DecidableEq, Repr

def Cause.message : Cause → String
  | .notFound => "No such file or directory (os error 2)"
  | .notADirectory => "Not a directory (os error 20)"
  | .isADirectory => "Is a directory (os error 21)"
  | .nameTooLong => "File name too long (os error 36)"
  | .nulByte => "file name contained an unexpected NUL byte"
  | .other text => text

/-- What a path leads to. -/
inductive Node where
  | directory (names : List String)
  | file (text : String)

def rootName : String := "/"

/-- The names of a path, and where it begins. -/
def namesOf (path : String) : List String :=
  let names := (path.splitOn "/").filter fun n => n ≠ "" ∧ n ≠ "."
  if path.toList.head? = some '/' then rootName :: names else names

/-- The paths on the way to a path, which is the last: `a`, `a/b` and `a/b/c` for `a/b/c`. -/
def leadingPaths (path : String) : List String :=
  let names := path.splitOn "/"
  ((List.range names.length).map fun n => "/".intercalate (names.take (n + 1))).filter (· ≠ "")

/-- A disk of files with the given paths, and of directories. -/
def ofFiles (files : List (String × String)) (directories : List String) : Disk :=
  ⟨files.map fun (path, text) => (namesOf path, text), directories.map namesOf⟩

def text? (disk : Disk) (names : List String) : Option String :=
  (disk.files.find? fun f => f.1 = names).map (·.2)

/-- Is there a directory with these names? The working directory, which has none, and those above
it are there. -/
def hasDirectory (disk : Disk) (names : List String) : Bool :=
  names.all (· = "..") || names = [rootName] || disk.directories.any names.isPrefixOf ||
    disk.files.any fun f => names.length < f.1.length && names.isPrefixOf f.1

def node? (disk : Disk) (names : List String) : Option Node :=
  match disk.text? names with
  | some text => some (.file text)
  | none => if disk.hasDirectory names then some (.directory names) else none

/-- The names behind a further one: `..` takes one back, where there is one to take. -/
def extend (names : List String) (name : String) : List String :=
  if name = ".." then
    match names.getLast? with
    | none => [".."]
    | some last =>
      if last = ".." then names ++ [".."]
      else if last = rootName then names
      else names.dropLast
  else names ++ [name]

/-- Follows one name from a node. -/
def follow (disk : Disk) (node : Node) (name : String) : Except Cause Node :=
  match node with
  | .file _ => .error .notADirectory
  | .directory names =>
    if name = "" ∨ name = "." then .ok node
    else if 255 < name.utf8ByteSize then .error .nameTooLong
    else
      match disk.node? (extend names name) with
      | some node => .ok node
      | none => .error .notFound

/-- Flaws of a path that show before anything is looked up. -/
def checkPath (path : String) : Except Cause Unit :=
  if path.toList.contains '\x00' then .error .nulByte
  else if path = "" then .error .notFound
  else if 4096 ≤ path.utf8ByteSize then .error .nameTooLong
  else .ok ()

/-- Where a path begins, and the names on it. -/
def startOf (path : String) : Node × List String :=
  match path.splitOn "/" with
  | "" :: names => (.directory [rootName], names)
  | names => (.directory [], names)

/-- What a path leads to. -/
def resolve (disk : Disk) (path : String) : Except Cause Node := do
  checkPath path
  let (start, names) := startOf path
  names.foldlM disk.follow start

/-- Writes a file: it is created or gets a new text. Its directory must exist. -/
def write (disk : Disk) (path text : String) : Except Cause Disk := do
  checkPath path
  let (start, split) := startOf path
  let names := (split.reverse.dropWhile (· = "")).reverse
  match names.getLast? with
  | none => .error .isADirectory
  | some last =>
    match ← names.dropLast.foldlM disk.follow start with
    | .file _ => .error .notADirectory
    | .directory directory =>
      if names ≠ split ∨ last = "." ∨ last = ".." then .error .isADirectory
      else if 255 < last.utf8ByteSize then .error .nameTooLong
      else
        let names := directory ++ [last]
        if disk.hasDirectory names then .error .isADirectory
        else .ok { disk with files := disk.files.filter (fun f => f.1 ≠ names) ++ [(names, text)] }

def pathOf (names : List String) : String :=
  match names with
  | [] => "."
  | first :: rest =>
    if first = rootName then rootName ++ "/".intercalate rest else "/".intercalate names

/-- The files that `after` has and this disk has not, or with another text, by their paths. -/
def changes (disk after : Disk) : List (String × String) :=
  (after.files.filter fun f => disk.text? f.1 ≠ some f.2).map fun f => (pathOf f.1, f.2)

/-- Do these names lead to something in the working directory or below it? -/
def isWithin (names : List String) : Bool :=
  names.head?.all fun first => first ≠ ".." ∧ first ≠ rootName

/-- The files within the working directory that `after` has and this disk has not. -/
def created (disk after : Disk) : List (String × String) :=
  (after.files.filter fun f => isWithin f.1 ∧ (disk.text? f.1).isNone).map
    fun f => (pathOf f.1, f.2)

end Disk

end GalvoWeld
