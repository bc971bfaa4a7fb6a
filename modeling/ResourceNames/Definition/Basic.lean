import ResourceNames.Types.Index
import ResourceNames.Text.Pieces

/-!
# Type definitions

A definition document describes a resource type and its versions. `Definition.ofJson` reads what
counts of it: the group, the names, the versions with their schemas, and the annotations with the
URN templates.
-/

namespace ResourceNames

/-- A version of a type as its definition lists it. -/
structure DefinedVersion where
  name : String
  served : Bool
  /-- The schema, which may be `null`, if the version has one. -/
  schema : Option Json
  deriving DecidableEq, Repr

/-- What a definition document says about a type. -/
structure Definition where
  name : String
  group : String
  kind : String
  plural : String
  singular : String
  annotations : Table String
  versions : List DefinedVersion
  deriving DecidableEq, Repr

/-- What a document holds for a naming authority. -/
inductive Extracted where
  /-- The type's group does not belong to the authority. -/
  | irrelevant (group : String)
  | types (ds : List TypeDescriptor)
  deriving DecidableEq, Repr

/-- The kind of definition documents. -/
def definitionKind : String := "CustomResourceDefinition"

/-- Whether a group belongs to a naming authority. -/
def isRelevant (group authority : String) : Bool := Text.occurs authority.toList group.toList

namespace Definition

/-- A text under a key that must be there and not be empty. -/
def requiredText (v : Json) (key fault : String) : Except DirectoryError String :=
  match v.getText? key with
  | some s => if s = "" then .error (.invalidDefinition fault) else .ok s
  | none => .error (.invalidDefinition fault)

/-- A version of the definition `name`. -/
def readVersion (name : String) (v : Json) : Except DirectoryError DefinedVersion := do
  let version ← requiredText v "name" s!"'{name}' has a version without 'name'"
  return {
    name := version
    served := ((v.get? "served").bind Json.bool?).getD false
    schema := (v.get? "schema").bind fun s => s.get? "openAPIV3Schema" }

/-- The versions that the definition `name` lists. -/
def readVersions (name : String) (versions : Option Json) :
    Except DirectoryError (List DefinedVersion) :=
  match versions.bind Json.items? with
  | some items => items.mapM (readVersion name)
  | none => .error (.invalidDefinition s!"'{name}' is missing 'spec.versions'")

/-- The entries of an object that are texts. -/
def textEntries (v : Option Json) : Table String :=
  match v with
  | some (.obj entries) => .ofList (entries.filterMap fun e => e.2.text?.map fun s => (e.1, s))
  | _ => .empty

/-- An entry that must be there. -/
def requiredEntry (v : Json) (key fault : String) : Except DirectoryError Json :=
  match v.get? key with
  | some value => .ok value
  | none => .error (.invalidDefinition fault)

/-- The definition that a document holds. It must have a served version with a schema. -/
def ofJson (v : Json) : Except DirectoryError Definition := do
  let some documentKind := v.getText? "kind"
    | .error (.invalidDefinition "missing 'kind' field")
  if documentKind ≠ definitionKind then
    .error (.invalidDefinition s!"expected {definitionKind}, got {documentKind}")
  let metadata ← requiredEntry v "metadata" "missing 'metadata' field"
  let name := (metadata.getText? "name").getD ""
  let spec ← requiredEntry v "spec" s!"'{name}' is missing 'spec'"
  let group ← requiredText spec "group" s!"'{name}' is missing 'spec.group'"
  let names ← requiredEntry spec "names" s!"'{name}' is missing 'spec.names'"
  let kind ← requiredText names "kind" s!"'{name}' is missing 'spec.names.kind'"
  let versions ← readVersions name (spec.get? "versions")
  if !versions.any fun v => v.served && v.schema.isSome then
    .error (.invalidDefinition s!"'{name}' has no served version with a structural schema")
  return {
    name, group, kind, versions
    plural := (names.getText? "plural").getD (Text.lower kind)
    singular := (names.getText? "singular").getD (Text.lower kind)
    annotations := textEntries (metadata.get? "annotations") }

/-- The descriptor of a version of a type. -/
def descriptor (d : Definition) (v : DefinedVersion) : TypeDescriptor where
  name := d.name
  group := d.group
  kind := d.kind
  version := v.name
  plural := d.plural
  singular := d.singular
  schema := v.schema.getD .null
  urnTemplate := (d.annotations.find? (templateAnnotationKey v.name)).getD ""

/-- The descriptors of the served versions of a type. -/
def descriptors (d : Definition) : List TypeDescriptor :=
  (d.versions.filter (·.served)).map d.descriptor

/-- What a document holds for a naming authority. Malformed documents are refused even if they would
be irrelevant. -/
def extract (v : Json) (authority : String) : Except DirectoryError Extracted := do
  let d ← ofJson v
  return if isRelevant d.group authority then .types d.descriptors else .irrelevant d.group

end Definition

end ResourceNames
