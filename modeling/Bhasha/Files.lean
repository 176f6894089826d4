import Bhasha.Text.Bytes

/-!
# A store of files

Files and directories below a working directory.  A path is walked from there part by part: an empty
part and a single dot stay, two dots go up, and any other part has to name an entry of the directory
reached so far.  What lies outside the working directory is not held; going there leads to a
directory without entries.

Source: the file functions `ReadFile` and `OpenFile` that packages `main`, `config` and `logs` of
benglang call.
-/

namespace Bhasha

/-- The parts of a path, without dots and empty parts. -/
abbrev EntryPath := List Text

/-- Why a path cannot be opened or read. -/
inductive FileError where
  | notFound
  | isDirectory
  | notDirectory
  | nameTooLong
  | invalid
  /-- Any other reason, in its own words. -/
  | other (reason : Text)
deriving DecidableEq, Repr

def FileError.reason : FileError → Text
  | .notFound => text "no such file or directory"
  | .isDirectory => text "is a directory"
  | .notDirectory => text "not a directory"
  | .nameTooLong => text "file name too long"
  | .invalid => text "invalid argument"
  | .other reason => reason

/-- What was tried with a path, and why it failed. -/
structure FileFailure where
  /-- Whether the path was opened and reading from it failed. -/
  opened : Bool
  path : Text
  error : FileError
deriving DecidableEq, Repr

namespace FileFailure

def message (f : FileFailure) : Text :=
  (if f.opened then text "read " else text "open ") ++ f.path ++ text ": " ++ f.error.reason

/-- Whether the path does not exist. -/
def isMissing (f : FileFailure) : Bool := f.error = .notFound

end FileFailure

/-- A store of files with their contents, and of directories. A file's parents are directories
whether they are listed or not. -/
structure Files where
  contents : List (EntryPath × Text)
  directories : List EntryPath
deriving DecidableEq, Repr

namespace Files

/-- The content of a file. -/
def content? (files : Files) (path : EntryPath) : Option Text := files.contents.lookup path

/-- Whether a path is a directory: the working directory, a listed one, or a parent of an entry. -/
def isDirectory (files : Files) (path : EntryPath) : Bool :=
  path.isEmpty || files.directories.any (path.isPrefixOf ·) ||
    files.contents.any fun entry => path.isPrefixOf entry.1 && path.length < entry.1.length

/-- Where a walk is: in a directory of the store, or outside. -/
inductive Place where
  | inside (path : EntryPath)
  | outside
deriving DecidableEq, Repr

/-- Where a walk ends. -/
inductive Target where
  | file (path : EntryPath)
  | directory
  /-- An entry that an existing directory does not have. -/
  | missing (path : EntryPath)
deriving DecidableEq, Repr

/-- What a path is walked for. -/
inductive Purpose where
  | reading
  | appending
deriving DecidableEq, Repr

/-- The longest name of an entry. -/
def longestName : Nat := 255

/-- The longest path. -/
def longestPath : Nat := 4095

/-- Walks the parts of a path. A last name with a separator after it means a directory, so it is
refused for appending before it is looked for. -/
def walk (files : Files) (purpose : Purpose) : Place → List Text → Except FileError Target
  | _, [] => .ok .directory
  | place, part :: rest =>
    if part.isEmpty || part = text "." then files.walk purpose place rest
    else if part = text ".." then
      match place with
      | .inside (parent :: below) => files.walk purpose (.inside (parent :: below).dropLast) rest
      | _ => files.walk purpose .outside rest
    else if purpose = .appending && !rest.isEmpty && rest.all (·.isEmpty) then .error .isDirectory
    else if longestName < part.length then .error .nameTooLong
    else
      match place with
      | .outside => .error .notFound
      | .inside directory =>
        let path := directory ++ [part]
        if (files.content? path).isSome then
          if rest.isEmpty then .ok (.file path) else .error .notDirectory
        else if files.isDirectory path then files.walk purpose (.inside path) rest
        else if rest.isEmpty then .ok (.missing path)
        else .error .notFound

/-- The target of a path. -/
def resolve (files : Files) (purpose : Purpose) (path : Text) : Except FileError Target :=
  if path.contains 0 then .error .invalid
  else if longestPath < path.length then .error .nameTooLong
  else if path.isEmpty then .error .notFound
  else
    let start := if path.head? = some 0x2f then Place.outside else .inside []
    files.walk purpose start (Text.splitOn 0x2f path)

/-- Reads a whole file. -/
def read (files : Files) (path : Text) : Except FileFailure Text :=
  match files.resolve .reading path with
  | .ok (.file found) => .ok ((files.content? found).getD [])
  | .ok .directory => .error ⟨true, path, .isDirectory⟩
  | .ok (.missing _) => .error ⟨false, path, .notFound⟩
  | .error e => .error ⟨false, path, e⟩

/-- Adds bytes to the end of a file. -/
def extend (files : Files) (path : EntryPath) (bytes : Text) : Files :=
  { files with
    contents := files.contents.map fun entry =>
      if entry.1 = path then (entry.1, entry.2 ++ bytes) else entry }

/-- Adds an empty file. -/
def create (files : Files) (path : EntryPath) : Files :=
  { files with contents := files.contents ++ [(path, [])] }

/-- Opens a file for appending and creates it if it does not exist. -/
def openToAppend (files : Files) (path : Text) : Except FileFailure (EntryPath × Files) :=
  match files.resolve .appending path with
  | .ok (.file found) => .ok (found, files)
  | .ok .directory => .error ⟨false, path, .isDirectory⟩
  | .ok (.missing found) => .ok (found, files.create found)
  | .error e => .error ⟨false, path, e⟩

/-- The files that are new or have another content than `before`. -/
def changesSince (before after : Files) : List (EntryPath × Text) :=
  after.contents.filter fun entry => before.content? entry.1 != some entry.2

/-- A path as text. -/
def pathText (path : EntryPath) : Text := Text.joinWith (text "/") path

end Files

end Bhasha
