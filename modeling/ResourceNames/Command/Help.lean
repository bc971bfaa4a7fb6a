import ResourceNames.Command.Arguments

/-!
# Help

The texts that explain the commands and their options.
-/

namespace ResourceNames

namespace Flag

/-- The option as it is written. -/
def shown (f : Flag) : String :=
  match f with
  | crds => "--crds <CRDS>"
  | crdDir => "--crd-dir <CRD_DIR>"
  | authority => "--authority <AUTHORITY>"
  | live => "--live"
  | namespaceName => "--namespace <NAMESPACE>"
  | config => "--config <CONFIG>"
  | logLevel => "--log-level <LOG_LEVEL>"
  | template => "--template <TEMPLATE>"
  | json => "--json"
  | help => "--help"
  | version => "--version"

/-- What an option is for. -/
def about (command : Option CommandName) : Flag → String
  | crds => "Type definition files (glob pattern, repeatable)"
  | crdDir => "Directory searched recursively for type definition files"
  | authority => "Naming authority filtering the type definitions"
  | live => "Mirror type definitions from the cluster in the current kube context"
  | namespaceName =>
    "Namespace validation objects are created in (live only) [default: default]"
  | config => "Directory configuration file"
  | logLevel =>
    "Log filter (e.g. \x60debug\x60, \x60ccrn_directory=trace\x60) " ++
      "[env: RUST_LOG=off] [default: warn]"
  | template => "URN template to parse with instead of the type's own"
  | json =>
    match command with
    | some .convert => "Output the conversion as JSON"
    | some .types => "Output the type list as JSON"
    | _ => "Output the validation result as JSON"
  | help => "Print help"
  | version => "Print version"

end Flag

namespace Help

/-- A text filled up with blanks. -/
def padded (width : Nat) (s : String) : String :=
  s ++ String.ofList (List.replicate (width - s.length) ' ')

/-- The options in the order in which they are shown for a command. -/
def flags : Option CommandName → List Flag
  | none =>
    [.crds, .crdDir, .authority, .live, .namespaceName, .config, .logLevel, .help, .version]
  | some .validate =>
    [.crds, .template, .crdDir, .json, .authority, .live, .namespaceName, .config, .logLevel,
      .help, .version]
  | some _ =>
    [.crds, .json, .crdDir, .authority, .live, .namespaceName, .config, .logLevel, .help, .version]

def flagLine (command : Option CommandName) (f : Flag) : String :=
  let letter :=
    match f.short? with
    | some c => s!"  -{c}, "
    | none => "      "
  letter ++ padded 25 f.shown ++ f.about command

/-- What a command is for. -/
def about : CommandName → String
  | .validate => "Validate a resource name"
  | .convert => "Validate a resource name and print both surface forms"
  | .types => "List the known resource types"

def optionLines (command : Option CommandName) : List String :=
  "Options:" :: (flags command).map (flagLine command)

/-- The help text of a command, or of all. -/
def lines : Option CommandName → List String
  | none =>
    ["Validate and convert Common Cloud Resource Names", "",
      "Usage: ccrn [OPTIONS] <COMMAND>", "", "Commands:"] ++
      CommandName.all.map (fun c => "  " ++ padded 10 c.text ++ about c) ++
      ["  help      Print this message or the help of the given subcommand(s)", ""] ++
      optionLines none
  | some c =>
    let input :=
      if c.takesInput then
        ["Arguments:",
          "  <INPUT>  Field list (\x60ccrn=...\x60) or URN (\x60urn:ccrn:...\x60)", ""]
      else []
    [about c, "", s!"Usage: ccrn {c.text} [OPTIONS]" ++ if c.takesInput then " <INPUT>" else "",
      ""] ++ input ++ optionLines (some c)

end Help

end ResourceNames
