import ResourceNames.Text.Pieces

/-!
# Path texts

A path is a text whose parts stand between slashes. Two paths are the same if their components are,
and paths are ordered component by component.
-/

namespace ResourceNames.Files

/-- A component of a path. -/
inductive Component where
  | root
  | current
  | parent
  | name (s : String)
  deriving DecidableEq, Repr

namespace Component

/-- The rank of the kinds of component in the order of paths. -/
def rank : Component → Nat
  | root => 0
  | current => 1
  | parent => 2
  | name _ => 3

/-- Order of components: by kind, names by code points. -/
def compare (a b : Component) : Ordering :=
  match a, b with
  | name s, name t => if s < t then .lt else if s = t then .eq else .gt
  | a, b => Ord.compare a.rank b.rank

end Component

/-- The parts of a path text between the slashes. -/
def segments (path : String) : List String :=
  (path.toList.splitOn '/').map String.ofList

def isAbsolute (path : String) : Bool := path.toList.head? = some '/'

/-- The component that a part in the middle of a path stands for, if any. -/
def innerComponent? (segment : String) : Option Component :=
  if segment = "" ∨ segment = "." then none
  else if segment = ".." then some .parent
  else some (.name segment)

/-- The components of a path. Empty parts and dots count only at the start. -/
def components (path : String) : List Component :=
  match segments path with
  | [] => []
  | first :: rest =>
    let start :=
      if isAbsolute path then [Component.root]
      else if first = "." then [.current]
      else (innerComponent? first).toList
    start ++ rest.filterMap innerComponent?

/-- Order of paths: component by component, a shorter path before its continuations. -/
def compareComponents : List Component → List Component → Ordering
  | [], [] => .eq
  | [], _ :: _ => .lt
  | _ :: _, [] => .gt
  | a :: as, b :: bs =>
    match a.compare b with
    | .eq => compareComponents as bs
    | o => o

def comparePaths (a b : String) : Ordering := compareComponents (components a) (components b)

/-- Whether two path texts are the same path. -/
def samePath (a b : String) : Bool := components a = components b

/-- `path` as seen from `base`: an absolute path stays, any other is appended. -/
def joinPath (base path : String) : String :=
  if isAbsolute path then path
  else if base = "" || base.toList.getLast? == some '/' then base ++ path
  else base ++ "/" ++ path

/-- The last component, if it is a name. -/
def fileName? (path : String) : Option String :=
  match (components path).getLast? with
  | some (.name s) => some s
  | _ => none

/-- What follows the last dot of a file name, unless the dot begins the name. -/
def extension? (fileName : String) : Option String :=
  let reversed := fileName.toList.reverse
  match Text.cut? '.' reversed with
  | some (ending, _ :: _) => some (String.ofList ending.reverse)
  | _ => none

/-- Whether a file has one of the two extensions of YAML files. -/
def isYamlFile (path : String) : Bool :=
  match (fileName? path).bind extension? with
  | some e => e = "yaml" || e = "yml"
  | none => false

/-- Parts at the end that stand for no component, the first part of a path excepted. -/
def dropIdle : List String → List String
  | [] => []
  | [s] => [s]
  | s :: t :: rest =>
    match dropIdle (t :: rest) with
    | [last] => if last = "" ∨ last = "." then [s] else [s, last]
    | kept => s :: kept

/-- The path without its last component. -/
def parentPath (path : String) : String :=
  match dropIdle ((dropIdle (segments path)).dropLast) with
  | [] => ""
  | [""] => if isAbsolute path then "/" else ""
  | kept => "/".intercalate kept

example : parentPath "conf/s.yaml" = "conf" := by decide +kernel
example : parentPath "s.yaml" = "" := by decide +kernel
example : parentPath "./s.yaml" = "." := by decide +kernel
example : parentPath "a/./b" = "a" := by decide +kernel
example : parentPath "/x" = "/" := by decide +kernel
example : extension? ".yaml" = none := by decide +kernel

end ResourceNames.Files
