import ResourceNames.Definition.Documents
import ResourceNames.Directory.Source
import ResourceNames.Schema.Check
import ResourceNames.Schema.Compile

/-!
# Loading definitions

`readSource` reads all documents of a source into a batch of descriptors and validators. Documents
and files that cannot be read are noted, and the source fails only if it yields nothing but those.
-/

namespace ResourceNames

open Files

/-- A document that was rejected, or a file that could not be read. -/
structure LoadIssue where
  source : String
  /-- The position of the document in its file. -/
  document : Nat
  fault : String
  deriving DecidableEq, Repr

def LoadIssue.text (issue : LoadIssue) : String :=
  s!"{issue.source} (document {issue.document}): {issue.fault}"

/-- What came of loading a source. -/
structure LoadSummary where
  files : Nat := 0
  /-- Number of documents with content. -/
  definitions : Nat := 0
  /-- The type keys in the order in which they were read, with repeats. -/
  loaded : List String := []
  /-- Number of documents outside the naming authority. -/
  skipped : Nat := 0
  issues : List LoadIssue := []
  deriving DecidableEq, Repr

/-- What was read from a source. -/
structure Batch where
  types : TypeIndex := {}
  validators : Table Validator := .empty
  summary : LoadSummary := {}

/-- The validator of a type, if it has a usable schema. -/
def TypeDescriptor.validator? (d : TypeDescriptor) : Option Validator :=
  if d.schema.isNull then none else Validator.compile? d.schema

namespace Batch

/-- Takes a descriptor in. A type without a validator keeps the one of an earlier document with the
same key. -/
def addType (b : Batch) (d : TypeDescriptor) : Batch where
  types := b.types.insert d
  validators :=
    match d.validator? with
    | some v => b.validators.insert d.typeKey v
    | none => b.validators
  summary := { b.summary with loaded := b.summary.loaded ++ [d.typeKey] }

def addIssue (b : Batch) (issue : LoadIssue) : Batch :=
  { b with summary := { b.summary with issues := b.summary.issues ++ [issue] } }

/-- What a YAML document holds for a naming authority, or what is wrong with it. -/
def readDocument (authority yaml : String) : Except String Extracted :=
  match Yaml.parse? yaml with
  | none => .error "failed to parse YAML: *"
  | some v => (Definition.extract v authority).mapError DirectoryError.message

/-- Takes a document of the file `source` in. -/
def addDocument (authority source : String) (b : Batch) (document : Nat × String) : Batch :=
  let b := { b with summary := { b.summary with definitions := b.summary.definitions + 1 } }
  match readDocument authority document.2 with
  | .ok (.types ds) => ds.foldl addType b
  | .ok (.irrelevant _) => { b with summary := { b.summary with skipped := b.summary.skipped + 1 } }
  | .error fault => b.addIssue ⟨source, document.1, fault⟩

/-- Takes a file in. -/
def addFile (authority : String) (fs : FileSystem) (b : Batch) (path : String) : Batch :=
  let b := { b with summary := { b.summary with files := b.summary.files + 1 } }
  match fs.read path with
  | .ok content => (splitDocuments content).foldl (addDocument authority path) b
  | .error e => b.addIssue ⟨path, 0, e.message⟩

end Batch

/-- What a source holds for a naming authority. It fails if it covers no files, or if there is
nothing in them but faults. -/
def readSource (authority : String) (fs : FileSystem) (source : Source) :
    Except DirectoryError Batch := do
  let files ← source.files fs
  let batch := files.foldl (Batch.addFile authority fs) {}
  if batch.summary.loaded.isEmpty && !batch.summary.issues.isEmpty then
    .error (.loadFailed source.text ("; ".intercalate (batch.summary.issues.map (·.text))))
  return batch

end ResourceNames
