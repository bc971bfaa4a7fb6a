import ResourceNames.ControlPlane.Basic
import ResourceNames.Schema.Check
import ResourceNames.Schema.Compile

/-!
# A control plane in memory

It serves the documents it is given and admits the objects that fulfil the schema of their type.
-/

namespace ResourceNames

/-- An object that was admitted. -/
structure CreatedObject where
  typeKey : String
  namespaceName : String
  name : String
  object : Json
  deriving DecidableEq, Repr

/-- A control plane that holds all it serves. -/
structure MemoryPlane where
  definitions : List Json := []
  created : List CreatedObject := []
  /-- Number of listings that were started. -/
  lists : Nat := 0
  /-- Number of objects that were submitted. -/
  creates : Nat := 0
  unavailable : Bool := false
  /-- How many milliseconds a listing takes. -/
  latency : Nat := 0

namespace MemoryPlane

/-- Fails while the control plane is unavailable. -/
def checkAvailable : Lookup MemoryPlane Unit := do
  if (← get).unavailable then
    throw (.api (.refused "Failure" "control plane unavailable" "ServiceUnavailable" 503))

/-- The documents that are served. -/
def listing : Lookup MemoryPlane (List Json) := do
  checkAvailable
  return (← get).definitions

/-- Admits an object if it fulfils the schema of its type. -/
def create (d : TypeDescriptor) (namespaceName name : String) (object : Json) :
    Lookup MemoryPlane Unit := do
  modify fun p => { p with creates := p.creates + 1 }
  checkAvailable
  match Validator.compile? d.schema with
  | none =>
    throw (.invalidDefinition s!"schema of '{d.typeKey}' does not compile: *")
  | some validator =>
    match validator.violations object with
    | [] =>
      modify fun p => { p with created := p.created ++ [⟨d.typeKey, namespaceName, name, object⟩] }
    | found => throw (.schemaViolation d.typeKey ("; ".intercalate (found.map (·.message))))

instance : ControlPlane MemoryPlane where
  listingTime p := p.latency
  beginListing p := { p with lists := p.lists + 1 }
  listing := listing
  create := create

end MemoryPlane

end ResourceNames
