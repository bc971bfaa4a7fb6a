import ResourceNames.Verdict.Basic

/-!
# Failures of commands

A command that fails says why, gives advice where there is any, and ends with a code that tells the
kinds of failures apart.
-/

namespace ResourceNames

/-- Why a command failed. -/
inductive CommandError where
  /-- The input is not a valid resource name. -/
  | validation (fault : String) (help : Option String)
  /-- The directory could not be built or asked. -/
  | directory (fault : String) (help : Option String)
  /-- Files are missing or unreadable. -/
  | io (fault : String)
  /-- The arguments do not fit together. -/
  | usage (fault : String) (help : Option String)
  deriving DecidableEq, Repr

/-- What to try after a rejection. -/
def Reason.hint : Reason → String
  | .unknownFormat =>
    "use a field list 'ccrn=<kind>.<group>/<version>, key=value' or a 'urn:ccrn:' URN"
  | .malformedInput => "field lists are comma-separated key=value pairs"
  | .missingRequiredField => "a field list needs a 'ccrn' field naming the resource type"
  | .templateMismatch | .segmentCountMismatch =>
    "the URN needs one segment per placeholder of the type's URN template"
  | .unsupportedType => "run 'ccrn types' to list the known resource types"
  | .templateUnavailable => "the type has no URN template; use the field list form instead"
  | .schemaViolation => "field values must satisfy the type's schema"
  | .backend => "check the type definitions or the connection to the control plane"

namespace CommandError

def message : CommandError → String
  | validation fault _ => "Validation failed: " ++ fault
  | directory fault _ => "Directory error: " ++ fault
  | io fault => "IO error: " ++ fault
  | usage fault _ => fault

/-- The name of the kind of failure. -/
def kind : CommandError → String
  | validation .. => "Validation"
  | directory .. => "Directory"
  | io _ => "Io"
  | usage .. => "Usage"

/-- The identifier of the kind of failure. -/
def code : CommandError → String
  | validation .. => "ccrn::cli::validation"
  | directory .. => "ccrn::cli::directory"
  | io _ => "ccrn::cli::io"
  | usage .. => "ccrn::cli::usage"

def help? : CommandError → Option String
  | validation _ help | directory _ help | usage _ help => help
  | io _ => none

def exitCode : CommandError → Nat
  | validation .. => 2
  | directory .. => 1
  | io _ => 5
  | usage .. => 64

/-- The failure of a command whose input was rejected. -/
def rejected (v : Verdict) : CommandError :=
  let fault :=
    if v.errors.isEmpty then (v.reason.map Reason.name).getD "invalid input"
    else "; ".intercalate v.errors
  validation fault (v.reason.map Reason.hint)

/-- The failure of a command whose directory could not answer. -/
def ofDirectoryError (e : DirectoryError) : CommandError :=
  match e with
  | .io fault => io fault
  | .noMatchingFiles _ | .loadFailed .. => io e.message
  | .invalidConfig _ | .invalidPattern .. => usage e.message none
  | .api _ =>
    directory e.message (some "check the current kube context or use --crds/--crd-dir")
  | _ => directory e.message none

end CommandError

end ResourceNames
