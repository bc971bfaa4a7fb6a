import ResourceNames.Files.Path
import ResourceNames.Table

/-!
# File systems

A tree of directories and files together with a working directory. Paths are looked up part by
part; a part can only be looked up in a directory, so a slash after the name of a file leads
nowhere.
-/

namespace ResourceNames.Files

/-- A file or a directory. The content of a file is missing if it is not UTF-8 text. -/
inductive Node where
  | file (content : Option String)
  | directory (entries : List (String × Node))
  deriving Repr, Inhabited

/-- Why a path leads nowhere, or what it leads to cannot be read. -/
inductive FileError where
  | notFound
  | notDirectory
  | isDirectory
  | notText
  deriving DecidableEq, Repr

namespace FileError

def message : FileError → String
  | notFound => "No such file or directory (os error 2)"
  | notDirectory => "Not a directory (os error 20)"
  | isDirectory => "Is a directory (os error 21)"
  | notText => "stream did not contain valid UTF-8"

end FileError

namespace Node

def isDirectory : Node → Bool
  | directory _ => true
  | file _ => false

def isFile (n : Node) : Bool := !n.isDirectory

/-- The node under a row of names. -/
def at? (n : Node) (names : List String) : Option Node :=
  match names, n with
  | [], n => some n
  | name :: names, directory entries => (Entries.find? name entries).bind (at? · names)
  | _ :: _, file _ => none

/-- Puts a node under a row of names, with directories above it as needed. -/
def put (n : Node) (names : List String) (new : Node) : Node :=
  match names with
  | [] => new
  | name :: names =>
    let entries :=
      match n with
      | directory entries => entries
      | file _ => []
    let below := (Entries.find? name entries).getD (directory [])
    directory (Entries.insert name (below.put names new) entries)

/-- Takes away the node under a row of names. -/
def remove (n : Node) (names : List String) : Node :=
  match names, n with
  | [name], directory entries => directory (Entries.erase name entries)
  | name :: names, directory entries =>
    match Entries.find? name entries with
    | some below => directory (Entries.insert name (below.remove names) entries)
    | none => directory entries
  | _, n => n

mutual

/-- Number of nodes in a tree. -/
def size : Node → Nat
  | file _ => 1
  | directory entries => 1 + sizeOfEntries entries

def sizeOfEntries : List (String × Node) → Nat
  | [] => 0
  | (_, n) :: rest => n.size + sizeOfEntries rest

end

end Node

/-- A tree and the working directory in it, from which relative paths start. -/
structure FileSystem where
  root : Node := .directory []
  workingDirectory : List String := []
  deriving Repr, Inhabited

namespace FileSystem

/-- The names that a row of path parts leads to, from the node under `names`. -/
def walk (root : Node) (names : List String) : List String → Except FileError (List String)
  | [] => .ok names
  | part :: parts =>
    match root.at? names with
    | none => .error .notFound
    | some (.file _) => .error .notDirectory
    | some (.directory _) =>
      if part = "" ∨ part = "." then walk root names parts
      else if part = ".." then walk root names.dropLast parts
      else walk root (names ++ [part]) parts

/-- The node that a path leads to. -/
def resolve (fs : FileSystem) (path : String) : Except FileError Node := do
  if path = "" then .error .notFound
  let start := if isAbsolute path then [] else fs.workingDirectory
  let names ← walk fs.root start (segments path)
  match fs.root.at? names with
  | some n => .ok n
  | none => .error .notFound

def find? (fs : FileSystem) (path : String) : Option Node := (fs.resolve path).toOption

def exists? (fs : FileSystem) (path : String) : Bool := (fs.find? path).isSome

def isDirectory (fs : FileSystem) (path : String) : Bool := (fs.find? path).any (·.isDirectory)

def isFile (fs : FileSystem) (path : String) : Bool := (fs.find? path).any (·.isFile)

/-- The names in a directory, in ascending order. -/
def list (fs : FileSystem) (path : String) : List String :=
  match fs.find? path with
  | some (.directory entries) => entries.map (·.1)
  | _ => []

/-- The text of a file. -/
def read (fs : FileSystem) (path : String) : Except FileError String :=
  match fs.resolve path with
  | .error e => .error e
  | .ok (.directory _) => .error .isDirectory
  | .ok (.file none) => .error .notText
  | .ok (.file (some content)) => .ok content

/-- The names from the root on that a path of names and dots stands for. -/
def target (fs : FileSystem) (path : String) : List String :=
  (components path).foldl (fun names c =>
    match c with
    | .root => []
    | .current => names
    | .parent => names.dropLast
    | .name s => names ++ [s]) fs.workingDirectory

/-- Writes a file, with the directories above it as needed. -/
def write (fs : FileSystem) (path : String) (content : Option String) : FileSystem :=
  { fs with root := fs.root.put (fs.target path) (.file content) }

/-- Makes a directory, with those above it as needed; one that is there stays as it is. -/
def makeDirectory (fs : FileSystem) (path : String) : FileSystem :=
  if fs.isDirectory path then fs
  else { fs with root := fs.root.put (fs.target path) (.directory []) }

/-- Removes a file or a whole directory. -/
def remove (fs : FileSystem) (path : String) : FileSystem :=
  { fs with root := fs.root.remove (fs.target path) }

end FileSystem

end ResourceNames.Files
