import ResourceNames.Command.Help

/-!
# The command line

`runCommandLine` does what the words of a command line ask for and says how it ended.
-/

namespace ResourceNames

/-- How a program ended. -/
structure Exit where
  code : Nat
  stdout : String := ""
  stderr : String := ""
  deriving DecidableEq, Repr

/-- The exit code for arguments that cannot be read. -/
def wrongArguments : Nat := 2

/-- The name and the version of the program or of a command of it. -/
def versionLine (command : Option CommandName) : String :=
  "ccrn" ++ (command.map fun c => "-" ++ c.text).getD "" ++ " 0.1.0"

/-- The lines about a failure. -/
def failureLines (e : CommandError) : List String :=
  [e.code, "  × " ++ e.message] ++ e.help?.toList.map ("  help: " ++ ·)

/-- Does what a command line asks for. -/
def runCommandLine (fs : Files.FileSystem) (words : List String) : Exit :=
  match readArguments? words with
  | none => { code := wrongArguments, stderr := printed ["error: wrong arguments"] }
  | some (.help command) => { code := 0, stdout := printed (Help.lines command) }
  | some (.version command) => { code := 0, stdout := printed [versionLine command] }
  | some (.run command args) =>
    let outcome := command.run args fs
    { code := outcome.exitCode
      stdout := outcome.stdout
      stderr := outcome.stderr ++ printed ((outcome.failure.map failureLines).getD []) }

end ResourceNames
