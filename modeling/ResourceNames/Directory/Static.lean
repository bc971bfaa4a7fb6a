import ResourceNames.Directory.Basic
import ResourceNames.Directory.Load

/-!
# Static directories

A static directory knows the types that the definitions in its sources describe. It remembers its
sources, so that `reload` can read all of them anew. Values are checked with the validators compiled
from the schemas.
-/

namespace ResourceNames

open Files

/-- What was loaded, and from where. -/
structure StaticIndex where
  types : TypeIndex := {}
  /-- The validators of the types that have one, by type key. -/
  validators : Table Validator := .empty
  sources : List Source := []

namespace StaticIndex

/-- Takes a batch in. Its types replace those with the same keys, together with their
validators. -/
def absorb (index : StaticIndex) (b : Batch) : StaticIndex where
  types := index.types.merge b.types
  validators := (index.validators.restrict fun key => !b.types.types.contains key).extend b.validators
  sources := index.sources

/-- Notes a source, unless it is there already. -/
def addSource (index : StaticIndex) (source : Source) : StaticIndex :=
  if index.sources.any (·.same source) then index
  else { index with sources := index.sources ++ [source] }

end StaticIndex

/-- A directory of the types that definition files describe. -/
structure StaticDirectory where
  /-- Only types whose group contains the naming authority are known. -/
  authority : String
  index : StaticIndex := {}
  /-- How descriptors are gone through. -/
  order : TypeIndex.IterationOrder := .ascending

namespace StaticDirectory

/-- Loads a source. If that fails, the directory stays as it is. -/
def load (fs : FileSystem) (source : Source) : Lookup StaticDirectory LoadSummary := do
  let d ← get
  match readSource d.authority fs source with
  | .error e => throw e
  | .ok batch =>
    set { d with index := (d.index.absorb batch).addSource source }
    return batch.summary

/-- The index that some sources yield, and what went wrong with those that fail. -/
def rebuild (authority : String) (fs : FileSystem) (sources : List Source) :
    StaticIndex × List String :=
  sources.foldl (fun (index, faults) source =>
    let (next, faults) :=
      match readSource authority fs source with
      | .ok batch => (index.absorb batch, faults)
      | .error e => (index, faults ++ [s!"{source.text}: {e.message}"])
    ({ next with sources := next.sources ++ [source] }, faults)) ({}, [])

/-- Reads all sources anew. Those that fail are kept, and the others take effect. -/
def reload (fs : FileSystem) : Lookup StaticDirectory Unit := do
  let d ← get
  if d.index.sources.isEmpty then return
  let (index, faults) := rebuild d.authority fs d.index.sources
  set { d with index }
  if !faults.isEmpty then throw (.loadFailed "refresh" ("; ".intercalate faults))

/-- The keys of the types. -/
def typeKeys (d : StaticDirectory) : List String := d.index.types.keys

/-- The keys of the types with a validator. -/
def validatorKeys (d : StaticDirectory) : List String := d.index.validators.keys

/-- What a directory holds, in numbers. -/
structure Statistics where
  types : Nat
  validators : Nat
  sources : Nat
  authority : String
  deriving DecidableEq, Repr

def statistics (d : StaticDirectory) : Statistics where
  types := d.index.types.size
  validators := d.index.validators.size
  sources := d.index.sources.length
  authority := d.authority

/-- The keys of the types and of the validators at one moment. -/
structure Snapshot where
  typeKeys : List String
  validatorKeys : List String
  deriving DecidableEq, Repr

def snapshot (d : StaticDirectory) : Snapshot := ⟨d.typeKeys, d.validatorKeys⟩

/-! ## Answers -/

/-- The namespace of the objects that are checked. -/
def validationNamespace : String := "default"

/-- A violation with its place, without double quotes. -/
def violationText (v : Violation) : String :=
  let detail := String.ofList (Text.replaceChar '"' ['\''] v.message.toList)
  if v.path.isEmpty then detail else s!"{v.pointer}: {detail}"

/-- The descriptor of a type. -/
def getType (d : StaticDirectory) (key : String) : Except DirectoryError TypeDescriptor :=
  match d.index.types.find? key with
  | some t => .ok t
  | none => .error (.notFound key)

/-- Checks a resource against the schema of a type. -/
def validateValue (d : StaticDirectory) (key : String) (value : Resource) :
    Except DirectoryError Unit := do
  let t ← d.getType key
  let known := normalizeTypeKey key
  match d.index.validators.find? known with
  | none => .error (.noValidator known)
  | some validator =>
    let object := value.toObject validationNamespace s!"{Text.lower t.kind}-validation"
    match validator.violations object with
    | [] => .ok ()
    | found => .error (.schemaViolation known ("; ".intercalate (found.map violationText)))

/-- The URN template of a type at a version. -/
def getUrnTemplate (d : StaticDirectory) (name version : String) : Except DirectoryError String :=
  d.index.types.urnTemplate d.order name version

def isSupported (d : StaticDirectory) (key : String) : Bool := d.index.types.contains key

def hasValidator (d : StaticDirectory) (key : String) : Bool :=
  d.index.validators.contains (normalizeTypeKey key)

instance : TypeDirectory StaticDirectory where
  getType key := do liftExcept ((← get).getType key)
  validateValue key value := do liftExcept ((← get).validateValue key value)
  getUrnTemplate name version := do liftExcept ((← get).getUrnTemplate name version)
  listTypes := do return (← get).index.types.sortedTypes
  isSupported key := do return (← get).isSupported key
  hasValidator key := do return (← get).hasValidator key

end StaticDirectory

end ResourceNames
