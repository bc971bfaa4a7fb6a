import ResourceNames.Definition.Basic

/-!
# Definitions of a fixed form

A cluster hands definition documents out in a fixed form: `Typed.definition?` keeps the entries that
belong to it, gives those that are missing their default, and refuses entries of the wrong kind.
-/

namespace ResourceNames.Typed

/-- What the value of an entry of a schema must be. -/
inductive Slot where
  | text
  | boolean
  | whole
  | number
  | texts
  | list
  | anything
  | schema
  | schemaOrBoolean
  | schemaOrList
  | schemaOrTexts
  | schemas
  | members

/-- The entries of a schema. -/
def schemaSlots : List (String × Slot) :=
  [("$ref", .text), ("$schema", .text), ("additionalItems", .schemaOrBoolean),
    ("additionalProperties", .schemaOrBoolean), ("allOf", .schemas), ("anyOf", .schemas),
    ("default", .anything), ("definitions", .members), ("dependencies", .schemaOrTexts),
    ("description", .text), ("enum", .list), ("example", .anything),
    ("exclusiveMaximum", .boolean), ("exclusiveMinimum", .boolean), ("externalDocs", .anything),
    ("format", .text), ("id", .text), ("items", .schemaOrList), ("maxItems", .whole),
    ("maxLength", .whole), ("maxProperties", .whole), ("maximum", .number), ("minItems", .whole),
    ("minLength", .whole), ("minProperties", .whole), ("minimum", .number), ("multipleOf", .number),
    ("not", .schema), ("nullable", .boolean), ("oneOf", .schemas), ("pattern", .text),
    ("patternProperties", .members), ("properties", .members), ("required", .texts),
    ("title", .text), ("type", .text), ("uniqueItems", .boolean),
    ("x-kubernetes-embedded-resource", .boolean), ("x-kubernetes-int-or-string", .boolean),
    ("x-kubernetes-list-map-keys", .texts), ("x-kubernetes-list-type", .text),
    ("x-kubernetes-map-type", .text), ("x-kubernetes-preserve-unknown-fields", .boolean),
    ("x-kubernetes-validations", .list)]

/-- A value without schemas in it, as it is handed out. -/
def plain? (v : Json) : Slot → Option Json
  | .text => v.text?.map .str
  | .boolean => v.bool?.map .bool
  | .whole =>
    match v with
    | .int n => some (.int n)
    | _ => none
  | .number =>
    match v with
    | .int n => some (.dec (Decimal.ofInt n))
    | .dec x => some (.dec x)
    | _ => none
  | .texts => do
    let texts ← (← v.items?).mapM Json.text?
    some (.arr (texts.map .str))
  | .list => v.items?.map .arr
  | .anything => some v
  | .schemaOrBoolean => v.bool?.map .bool
  | .schemaOrList | .schemaOrTexts | .schema | .schemas | .members => none

mutual

/-- The entries of a schema that belong to its form. -/
def schemaEntries? : List (String × Json) → Option (List (String × Json))
  | [] => some []
  | (name, v) :: rest => do
    let entry ←
      match Entries.find? name schemaSlots with
      | some slot => if v.isNull then some [] else (slot? slot v).map fun v => [(name, v)]
      | none => some []
    let entries ← schemaEntries? rest
    some (entry ++ entries)

/-- A value as it is handed out. -/
def slot? (slot : Slot) : Json → Option Json
  | .obj entries =>
    match slot with
    | .schema | .schemaOrBoolean | .schemaOrList => (schemaEntries? entries).map .obj
    | .members | .schemaOrTexts => (memberSchemas? entries).map .obj
    | slot => plain? (.obj entries) slot
  | .arr items =>
    match slot with
    | .schemas | .schemaOrList => (schemas? items).map .arr
    | slot => plain? (.arr items) slot
  | v => plain? v slot

def memberSchemas? : List (String × Json) → Option (List (String × Json))
  | [] => some []
  | (name, .obj entries) :: rest => do
    let schema ← schemaEntries? entries
    let members ← memberSchemas? rest
    some ((name, .obj schema) :: members)
  | (name, .arr items) :: rest => do
    let members ← memberSchemas? rest
    some ((name, .arr items) :: members)
  | _ :: _ => none

def schemas? : List Json → Option (List Json)
  | [] => some []
  | .obj entries :: rest => do
    let schema ← schemaEntries? entries
    let schemas ← schemas? rest
    some (.obj schema :: schemas)
  | _ :: _ => none

end

/-- An entry that may be missing or `null`, with what it must be. -/
def given? (v : Json) (key : String) (read? : Json → Option α) : Option (Option α) :=
  match v.get? key with
  | none | some .null => some none
  | some value => (read? value).map some

/-- An entry that has a default. -/
def givenOr? (v : Json) (key : String) (default : α) (read? : Json → Option α) : Option α :=
  (given? v key read?).map (·.getD default)

/-- An object whose entries are kept by `read?`. -/
def object? (read? : Json → Option Json) (v : Json) : Option Json :=
  if v.entries?.isSome then read? v else none

/-- A version of a definition. -/
def version? (v : Json) : Option Json := do
  let name ← givenOr? v "name" "" Json.text?
  let served ← givenOr? v "served" false Json.bool?
  let storage ← givenOr? v "storage" false Json.bool?
  let schema ← given? v "schema" <| object? fun s => do
    let inner ← given? s "openAPIV3Schema" (slot? .schema)
    some (.object (inner.toList.map fun v => ("openAPIV3Schema", v)))
  some (.object ([("name", .str name), ("served", .bool served), ("storage", .bool storage)] ++
    schema.toList.map fun s => ("schema", s)))

/-- The names of a type. -/
def names? (v : Json) : Option Json := do
  let kind ← givenOr? v "kind" "" Json.text?
  let plural ← givenOr? v "plural" "" Json.text?
  let singular ← given? v "singular" Json.text?
  some (.object ([("kind", .str kind), ("plural", .str plural)] ++
    singular.toList.map fun s => ("singular", .str s)))

/-- The part of a definition that describes the type. -/
def spec? (v : Json) : Option Json := do
  let group ← givenOr? v "group" "" Json.text?
  let names ← givenOr? v "names" (.obj [("kind", .str ""), ("plural", .str "")]) (object? names?)
  let versions ← givenOr? v "versions" [] fun vs => do (← vs.items?).mapM (object? version?)
  some (.object [("group", .str group), ("names", names), ("versions", .arr versions)])

/-- The part of a definition that is about the document. -/
def metadata? (v : Json) : Option Json := do
  let name ← given? v "name" Json.text?
  let annotations ← given? v "annotations" Resource.textTable?
  some (.object (name.toList.map (fun s => ("name", .str s)) ++
    annotations.toList.map fun t => ("annotations", .ofTexts t)))

/-- A definition document as it is handed out. -/
def definition? (v : Json) : Option Json := do
  let kind ← givenOr? v "kind" definitionKind Json.text?
  let version ← givenOr? v "apiVersion" "apiextensions.k8s.io/v1" Json.text?
  if kind ≠ definitionKind ∨ version ≠ "apiextensions.k8s.io/v1" then none
  let metadata ← givenOr? v "metadata" (.obj []) (object? metadata?)
  let spec ← givenOr? v "spec" (.obj []) (object? spec?)
  some (.object [("apiVersion", .str version), ("kind", .str kind), ("metadata", metadata),
    ("spec", spec)])

end ResourceNames.Typed
