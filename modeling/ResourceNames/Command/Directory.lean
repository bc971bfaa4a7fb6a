import ResourceNames.Command.Output
import ResourceNames.Config.Read

/-!
# The directory of a command

Which directory a command works with is said by its arguments: by a configuration file, by the
name of a control plane's namespace, or by the sources of definitions.
-/

namespace ResourceNames

open Files

/-- The arguments that say which directory is meant. -/
structure DirectoryArgs where
  patterns : List String := []
  directories : List String := []
  authority : Option String := none
  live : Bool := false
  namespaceName : String := defaultNamespace
  config : Option String := none
  deriving DecidableEq, Repr

/-- The commands. -/
inductive Command where
  | validate (input : String) (template : Option String) (json : Bool)
  | convert (input : String) (json : Bool)
  | types (json : Bool)
  deriving DecidableEq, Repr

namespace DirectoryArgs

/-- The configuration that the arguments stand for. A configuration file counts before all other
arguments but the authority. -/
def config? (args : DirectoryArgs) (fs : FileSystem) : Except CommandError Config := do
  let config ←
    match args.config with
    | some path => (Config.ofFile fs path).mapError .ofDirectoryError
    | none =>
      if args.live then .ok (.ofNamespace args.namespaceName)
      else if args.patterns.isEmpty && args.directories.isEmpty then
        .error (.usage "no type definitions to validate against"
          (some "pass --crds <PATTERN>, --crd-dir <DIR>, --live or --config <FILE>"))
      else .ok (.ofFiles args.patterns args.directories)
  match args.authority with
  | some authority => return { config with authority }
  | none => return config

/-- The directory that the arguments stand for. There is no cluster to be reached from here. -/
def directory? (args : DirectoryArgs) (fs : FileSystem) :
    Except CommandError StaticDirectory := do
  let config ← args.config? fs
  config.validate.mapError .ofDirectoryError
  match config.backend with
  | .files patterns directories =>
    (Config.buildStatic config.authority fs patterns directories).mapError .ofDirectoryError
  | .live .. => .error (.ofDirectoryError (.api (.unreadable "no cluster to connect to")))

end DirectoryArgs

/-- Runs a command with a directory. -/
def Command.runWith {σ : Type} [TypeDirectory σ] : Command → StateM σ Outcome
  | validate input template json => runValidate input (template.getD "") json
  | convert input json => runConvert input json
  | types json => runTypes json

/-- Runs a command. -/
def Command.run (c : Command) (args : DirectoryArgs) (fs : FileSystem) : Outcome :=
  match args.directory? fs with
  | .error e => { failure := some e }
  | .ok directory => (c.runWith.run directory).1

end ResourceNames
