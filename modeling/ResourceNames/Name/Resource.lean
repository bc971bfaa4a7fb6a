import ResourceNames.Json.Basic
import ResourceNames.Name.Error
import ResourceNames.Name.Template
import ResourceNames.Text.Pieces

/-!
# Resources

A resource is what both written forms of a resource name stand for: named fields, one of which,
`ccrn`, holds the key of the resource's type, `<kind>.<group>/<version>`.
-/

namespace ResourceNames

/-- The two written forms of a resource name. -/
inductive Format where
  /-- `ccrn=<type>.<group>/<version>, key=value, …` -/
  | fieldList
  /-- `urn:ccrn:<type>.<group>/<version>/…` -/
  | urn
  deriving DecidableEq, Repr

/-- The name of the field that holds the type key. -/
def typeKeyField : String := "ccrn"

/-- The start of every field list. -/
def fieldListLead : String := "ccrn="

/-- The start of every URN and of every URN template. -/
def urnLead : String := "urn:ccrn:"

/-- Whether `input` starts with `lead`. -/
def startsWith (lead input : String) : Bool := (Text.after? lead.toList input.toList).isSome

namespace Format

def tag : Format → String
  | fieldList => "CCRN"
  | urn => "URN"

def ofTag? (s : String) : Option Format :=
  if s = "CCRN" then some fieldList else if s = "URN" then some urn else none

/-- The form that the start of a text promises. -/
def detect (input : String) : Except ParseError Format :=
  if startsWith fieldListLead input then .ok fieldList
  else if startsWith urnLead input then .ok urn
  else .error (.unknownFormat input)

end Format

/-- What a resource name stands for, together with how it was written. -/
structure Resource where
  format : Format
  fields : Table String
  rawInput : String
  /-- The template that a URN was read with, empty for a field list. -/
  urnTemplateUsed : String := ""
  deriving DecidableEq, Repr

/-- The text before the first `sep` and the text after it. -/
def cutText? (sep : Char) (s : String) : Option (String × String) :=
  (Text.cut? sep s.toList).map fun (a, b) => (String.ofList a, String.ofList b)

namespace Resource

/-- A resource of the given fields, which must hold a non-empty type key. -/
def ofFields (format : Format) (fields : Table String) (rawInput : String) :
    Except ParseError Resource :=
  match fields.find? typeKeyField with
  | some key =>
    if key = "" then .error (.missingField typeKeyField) else .ok ⟨format, fields, rawInput, ""⟩
  | none => .error (.missingField typeKeyField)

def field? (r : Resource) (name : String) : Option String := r.fields.find? name

/-- The key of the resource's type, `<kind>.<group>/<version>`. -/
def typeKey (r : Resource) : String := (r.fields.find? typeKeyField).getD ""

/-- The type key up to its first `/`. -/
def typeName (r : Resource) : String :=
  match cutText? '/' r.typeKey with
  | some (name, _) => name
  | none => r.typeKey

/-- The type key after its first `/`. -/
def version (r : Resource) : String :=
  match cutText? '/' r.typeKey with
  | some (_, version) => version
  | none => ""

/-- The type name up to its first dot. -/
def kind (r : Resource) : String :=
  match cutText? '.' r.typeName with
  | some (kind, _) => kind
  | none => r.typeName

/-- The type name after its first dot. -/
def group (r : Resource) : String :=
  match cutText? '.' r.typeName with
  | some (_, group) => group
  | none => r.typeName

/-- The object that is checked against the schema of the resource's type: the fields beside a
`metadata` block. A field named `metadata` is left out. -/
def toObject (r : Resource) (namespaceName name : String) : Json :=
  let fields := (r.fields.erase typeKeyField).erase "metadata"
  let fixed : List (String × Json) :=
    [(typeKeyField, .str r.typeKey),
      ("metadata", .object [("name", .str name), ("namespace", .str namespaceName)])]
  .object (fixed ++ fields.entries.map fun (k, v) => (k, .str v))

end Resource

end ResourceNames
