import ResourceNames.Config.Duration
import ResourceNames.Directory.Static
import ResourceNames.Files.Path

/-!
# Configuration of a directory

A configuration says which naming authority counts and where the type definitions come from: from
files (`Backend.files`) or from a control plane (`Backend.live`). `validate` refuses those that
cannot be meant, `buildStatic` makes the directory.
-/

namespace ResourceNames

open Files

/-- Where the types of a directory come from. -/
inductive Backend where
  /-- Files, by glob patterns and directories. -/
  | files (patterns directories : List String)
  /-- A control plane that is listed again and again. -/
  | live (namespaceName : String) (refreshInterval : Duration) (dryRun : Bool)
  deriving DecidableEq, Repr

/-- The configuration of a directory. -/
structure Config where
  authority : String
  backend : Backend
  deriving DecidableEq, Repr

/-- The naming authority if none is given. -/
def defaultAuthority : String := "ccrn.example.com"

def defaultNamespace : String := "default"

def defaultRefreshInterval : Duration := ⟨300, 0⟩

namespace Config

/-- Types from files. -/
def ofFiles (patterns directories : List String) : Config :=
  ⟨defaultAuthority, .files patterns directories⟩

/-- Types from a control plane. -/
def ofNamespace (namespaceName : String) : Config :=
  ⟨defaultAuthority, .live namespaceName defaultRefreshInterval false⟩

/-- The configuration with the relative sources seen from `base`. -/
def relativeTo (c : Config) (base : String) : Config :=
  match c.backend with
  | .files patterns directories =>
    { c with backend := .files (patterns.map (joinPath base)) (directories.map (joinPath base)) }
  | .live .. => c

/-- Refuses configurations without an authority, without sources, or without an interval. -/
def validate (c : Config) : Except DirectoryError Unit :=
  if Text.allBlank c.authority.toList then .error (.invalidConfig "namingAuthority must not be empty")
  else
    match c.backend with
    | .files patterns directories =>
      if patterns.isEmpty && directories.isEmpty then
        .error (.invalidConfig "static backend needs at least one source or directory")
      else .ok ()
    | .live namespaceName refreshInterval _ =>
      if namespaceName = "" then
        .error (.invalidConfig "live backend namespace must not be empty")
      else if refreshInterval = ⟨0, 0⟩ then
        .error (.invalidConfig "refreshInterval must be greater than zero")
      else .ok ()

/-- The directory of the types in all sources, patterns first. Every source must load. -/
def buildStatic (authority : String) (fs : FileSystem) (patterns directories : List String) :
    Except DirectoryError StaticDirectory :=
  let sources := patterns.map Source.pattern ++ directories.map Source.directory
  sources.foldlM (fun d source =>
    let (result, d) := (StaticDirectory.load fs source).run d
    result.map fun _ => d) { authority }

/-- The entries of a configuration's record. -/
def toRecord (c : Config) : Json :=
  let backend :=
    match c.backend with
    | .files patterns directories =>
      [("type", .str "static"), ("sources", .arr (patterns.map .str)),
        ("directories", .arr (directories.map .str))]
    | .live namespaceName refreshInterval dryRun =>
      [("type", .str "live"), ("namespace", .str namespaceName),
        ("refreshInterval", .str refreshInterval.text), ("dryRun", .bool dryRun)]
  .object [("namingAuthority", .str c.authority), ("backend", .object backend)]

end Config

end ResourceNames
