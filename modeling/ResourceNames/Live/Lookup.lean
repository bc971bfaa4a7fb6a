import ResourceNames.Live.Basic

/-!
# Look-ups in live directories

The answers of a live directory, for anything that holds one and can refresh it (`LiveHolder`): the
directory itself, or a timeline on which other refreshes go on as well.
-/

namespace ResourceNames

/-- A state with a live directory in it. -/
class LiveHolder (τ : Type) (π : outParam Type) where
  directory : τ → LiveDirectory π
  setDirectory : τ → LiveDirectory π → τ
  /-- Refreshes the directory, waiting for refreshes that are under way. -/
  refresh : Lookup τ Unit

instance [ControlPlane π] : LiveHolder (LiveDirectory π) π where
  directory d := d
  setDirectory _ d := d
  refresh := LiveDirectory.refresh

namespace Live

variable {τ π : Type} [LiveHolder τ π]

/-- The index as it is now. -/
def index : Lookup τ TypeIndex := do
  return (LiveHolder.directory (← get)).index

/-- The descriptor of a type, after a refresh if it is not known. -/
def resolve (key : String) : Lookup τ TypeDescriptor := do
  match (← index).find? key with
  | some d => return d
  | none =>
    LiveHolder.refresh
    match (← index).find? key with
    | some d => return d
    | none => throw (.notFound key)

/-- The URN template of a type, after a refresh if the type is not known. -/
def getUrnTemplate (name version : String) : Lookup τ String := do
  match (LiveHolder.directory (← get)).urnTemplate name version with
  | .ok template => return template
  | .error e =>
    if e.isNotFound then
      LiveHolder.refresh
      liftExcept ((LiveHolder.directory (← get)).urnTemplate name version)
    else throw e

/-- The name of an object to be submitted. Its random part and its time are not determined and are
written as stars. -/
def objectName (kind : String) : String := s!"{Text.lower kind}-****-*"

/-- The entries of an object to be submitted, whose metadata the control plane sets. -/
def submission (value : Resource) (namespaceName name : String) : Json :=
  match value.toObject namespaceName name with
  | .obj entries => .obj (Entries.erase "metadata" entries)
  | v => v

variable [ControlPlane π]

/-- Has the control plane do something. -/
def ask (action : Lookup π α) : Lookup τ α := do
  let t ← get
  let (result, directory) := (LiveDirectory.ask action).run (LiveHolder.directory t)
  set (LiveHolder.setDirectory t directory)
  liftExcept result

/-- Submits a resource as an object of a type. -/
def validateValue (key : String) (value : Resource) : Lookup τ Unit := do
  let d ← resolve key
  let name := objectName d.kind
  let namespaceName := (LiveHolder.directory (← get)).namespaceName
  ask (ControlPlane.create d namespaceName name (submission value namespaceName name))

instance : TypeDirectory τ where
  getType := resolve
  validateValue := validateValue
  getUrnTemplate := getUrnTemplate
  listTypes := do return (← index).sortedTypes

end Live

end ResourceNames
