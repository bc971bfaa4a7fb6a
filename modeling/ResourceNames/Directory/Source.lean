import ResourceNames.Directory.Error
import ResourceNames.Files.Glob

/-!
# Sources of definitions

A source is a glob pattern or a directory. It covers the YAML files that the pattern leads to, as
often as it does, or those that lie at any depth below the directory, each once. They are ordered by
their path components.
-/

namespace ResourceNames

open Files

/-- Where type definitions come from. -/
inductive Source where
  | pattern (text : String)
  | directory (path : String)
  deriving DecidableEq, Repr

/-- Files in the order of their path components. -/
def sortPaths (paths : List String) : List String :=
  paths.mergeSort fun a b => comparePaths a b != .gt

/-- Paths after `last`, without those that are the same path as the one kept before. -/
def dropRepeatsAfter (last : String) : List String → List String
  | [] => []
  | path :: rest =>
    if samePath last path then dropRepeatsAfter last rest
    else path :: dropRepeatsAfter path rest

/-- Paths without those that are the same path as the one before. -/
def dropRepeats : List String → List String
  | [] => []
  | path :: rest => path :: dropRepeatsAfter path rest

/-- The YAML files that a glob pattern matches. -/
def yamlFiles (fs : FileSystem) (pattern : String) : Except DirectoryError (List String) :=
  match Glob.Pattern.parse pattern with
  | .error e => .error (.invalidPattern pattern e.message)
  | .ok p => .ok (sortPaths ((p.search fs).filter fun path => fs.isFile path && isYamlFile path))

namespace Source

/-- The source as it was given. -/
def text : Source → String
  | pattern text => text
  | directory path => path

/-- Whether two sources are the same: patterns by their text, directories by their path. -/
def same : Source → Source → Bool
  | pattern a, pattern b => a = b
  | directory a, directory b => samePath a b
  | _, _ => false

/-- The files that a source covers, of which there must be some. -/
def files (fs : FileSystem) : Source → Except DirectoryError (List String)
  | pattern text => do
    let found ← yamlFiles fs text
    if found.isEmpty then .error (.noMatchingFiles text) else .ok found
  | directory path => do
    let root := Glob.escape path
    let yaml ← yamlFiles fs (root ++ "/**/*.yaml")
    let yml ← yamlFiles fs (root ++ "/**/*.yml")
    let found := dropRepeats (sortPaths (yaml ++ yml))
    if found.isEmpty then .error (.noMatchingFiles (path ++ "/**/*.\x7byaml,yml\x7d"))
    else .ok found

end Source

end ResourceNames
