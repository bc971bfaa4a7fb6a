import ResourceNames.Json.Basic
import ResourceNames.Name.Record
import ResourceNames.Text.Blank
import ResourceNames.Text.LowerCase

/-!
# Type descriptors

A descriptor says what is known about one version of a resource type. Types are known by their key
`<kind>.<group>/<version>` in lower case.
-/

namespace ResourceNames

/-- The key of a type. -/
def typeKeyOf (kind group version : String) : String :=
  Text.asciiLower s!"{kind}.{group}/{version}"

/-- A type key as it is looked up: without blanks around it and in lower case. -/
def normalizeTypeKey (key : String) : String :=
  Text.asciiLower (String.ofList (Text.trim key.toList))

/-- The annotation that holds the URN template of a version. -/
def templateAnnotationKey (version : String) : String := s!"ccrn/{version}.urn-template"

/-- One version of a resource type. -/
structure TypeDescriptor where
  /-- The name of the document that defines the type. -/
  name : String
  group : String
  kind : String
  version : String
  plural : String
  singular : String
  /-- The schema of the type's objects, `null` if the version has none. -/
  schema : Json
  /-- The template of the type's URNs, empty if they have none. -/
  urnTemplate : String
  deriving DecidableEq, Repr, Inhabited

namespace TypeDescriptor

def typeKey (d : TypeDescriptor) : String := typeKeyOf d.kind d.group d.version

/-- The type key without the version. -/
def typeName (d : TypeDescriptor) : String := Text.asciiLower s!"{d.kind}.{d.group}"

def hasUrnTemplate (d : TypeDescriptor) : Bool := d.urnTemplate ≠ ""

/-- The descriptor that a record describes. Further entries do not count. -/
def ofRecord? (v : Json) : Option TypeDescriptor := do
  let name ← v.getText? "name"
  let group ← v.getText? "group"
  let kind ← v.getText? "kind"
  let version ← v.getText? "version"
  let plural ← v.getText? "pluralName"
  let singular ← Resource.optionalText? v "singularName"
  let schema ← v.get? "valueSchema"
  let urnTemplate ← Resource.optionalText? v "urnTemplate"
  some { name, group, kind, version, plural, singular, schema, urnTemplate }

/-- The entries of a descriptor's record. -/
def recordEntries (d : TypeDescriptor) : List (String × Json) :=
  [("name", .str d.name), ("group", .str d.group), ("kind", .str d.kind),
    ("version", .str d.version), ("pluralName", .str d.plural), ("singularName", .str d.singular),
    ("valueSchema", d.schema), ("urnTemplate", .str d.urnTemplate)]

end TypeDescriptor

end ResourceNames
