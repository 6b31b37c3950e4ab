import GossipDirectory.Collection.Keyed
import GossipDirectory.Text.Utf8

/-!
# A directory of files

Programs read and write files below one directory. Relative paths start there, and so do absolute
ones that go through it. Paths that leave the directory lead nowhere.
-/

namespace GossipDirectory

/-- Why a file cannot be used. -/
inductive FileError
  | notFound
  | notADirectory
  | isADirectory
  /-- No file can have a name with a NUL in it. -/
  | nulInName
  | nameTooLong
  /-- The system does not allow it. -/
  | denied
  /-- The content is not text. -/
  | notText
  deriving DecidableEq, Repr

/-- The wording of a file error. -/
def FileError.message : FileError → String
  | .notFound => "No such file or directory (os error 2)"
  | .notADirectory => "Not a directory (os error 20)"
  | .isADirectory => "Is a directory (os error 21)"
  | .nulInName => "file name contained an unexpected NUL byte"
  | .nameTooLong => "File name too long (os error 36)"
  | .denied => "Permission denied (os error 13)"
  | .notText => "stream did not contain valid UTF-8"

/-- A place below the directory, as the names on the way to it. -/
abbrev FilePath := List String

/-- Files with their contents, and the directories that hold them. -/
structure FileTree where
  files : List (FilePath × Bytes)
  directories : List FilePath
  /-- The absolute path of the directory, if it is known. -/
  home : Option String := none
  deriving Repr

namespace FileTree

/-- A directory without files. -/
def empty : FileTree :=
  { files := [], directories := [[]] }

/-- What stands at a place. -/
inductive Node
  | file (content : Bytes)
  | directory
  deriving DecidableEq, Repr

/-- The node at a place. -/
def node? (t : FileTree) (place : FilePath) : Option Node :=
  match Keyed.get? place t.files with
  | some content => some (.file content)
  | none => if place ∈ t.directories then some .directory else none

/-- Follows the names of a path from a directory. -/
def follow (t : FileTree) (place : FilePath) : List String → Except FileError FilePath
  | [] => .ok place
  | name :: rest =>
    match t.node? place with
    | none => .error .notFound
    | some (.file _) => .error .notADirectory
    | some .directory =>
      if name = "" ∨ name = "." then follow t place rest
      else if name = ".." then
        if place.isEmpty then .error .notFound else follow t place.dropLast rest
      else follow t (place ++ [name]) rest

/-- What follows a prefix. -/
def suffix? : (start cs : List Char) → Option (List Char)
  | [], cs => some cs
  | _ :: _, [] => none
  | s :: start, c :: cs => if s = c then suffix? start cs else none

/-- The names between the slashes of a path. -/
def names (path : String) : List String :=
  (path.toList.splitOn '/').map String.ofList

/-- The path as seen from the directory; nothing for an absolute path elsewhere. -/
def relative? (t : FileTree) (path : String) : Option String :=
  if path.startsWith "/" then
    (t.home.bind fun home => suffix? (home ++ "/").toList path.toList).map String.ofList
  else some path

/-- The place that a path names; its last name need not exist. -/
def locate (t : FileTree) (path : String) : Except FileError FilePath :=
  if path = "" then .error .notFound
  else if path.toList.contains '\x00' then .error .nulInName
  else match t.relative? path with
    | none => .error .notFound
    | some path =>
      if (names path).any (·.utf8ByteSize > 255) then .error .nameTooLong
      else t.follow [] (names path)

/-- The content of a file. -/
def read (t : FileTree) (path : String) : Except FileError Bytes := do
  let place ← t.locate path
  match t.node? place with
  | some (.file content) => .ok content
  | some .directory => .error .isADirectory
  | none => .error .notFound

/-- The content of a text file. -/
def readText (t : FileTree) (path : String) : Except FileError String := do
  let content ← t.read path
  match Utf8.decode? content with
  | some s => .ok s
  | none => .error .notText

/-- Whether a path names a file. -/
def isFile (t : FileTree) (path : String) : Bool :=
  match t.read path with
  | .ok _ => true
  | .error _ => false

/-- Creates a file or replaces its content. Its directory has to exist. -/
def write (t : FileTree) (path : String) (content : Bytes) : Except FileError FileTree := do
  let place ← t.locate path
  match t.node? place, t.node? place.dropLast with
  | some .directory, _ => .error .isADirectory
  | _, some .directory => .ok { t with files := Keyed.put place content t.files }
  | _, some (.file _) => .error .notADirectory
  | _, none => .error .notFound

/-- Creates a file together with the directories on the way to it. -/
def place (t : FileTree) (path : String) (content : Bytes) : FileTree :=
  let names := (names path).filter fun n => n ≠ "" && n ≠ "."
  let parents := (List.range names.length).map names.take
  { t with
    files := Keyed.put names content t.files
    directories := t.directories ++ parents.filter fun d => !t.directories.contains d }

end FileTree

end GossipDirectory
