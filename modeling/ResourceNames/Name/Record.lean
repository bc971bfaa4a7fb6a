import ResourceNames.Name.Resource

/-!
# Resources as JSON

The record of a resource: `format`, `fields`, `rawInput` and, unless it is empty,
`urnTemplateUsed`.
-/

namespace ResourceNames.Resource

/-- A table of texts from an object of texts. -/
def textTable? (v : Json) : Option (Table String) := do
  let entries ← (← v.entries?).mapM fun e => e.2.text?.map fun text => (e.1, text)
  some (Table.ofList entries)

/-- The text under a key that may be missing. -/
def optionalText? (v : Json) (key : String) : Option String :=
  match v.get? key with
  | some value => value.text?
  | none => some ""

/-- The resource that a record describes. Further entries do not count. -/
def ofRecord? (v : Json) : Option Resource := do
  let format ← Format.ofTag? (← v.getText? "format")
  let fields ← textTable? (← v.get? "fields")
  let rawInput ← v.getText? "rawInput"
  let template ← optionalText? v "urnTemplateUsed"
  some ⟨format, fields, rawInput, template⟩

/-- The entries of a resource's record in their order. -/
def recordEntries (r : Resource) : List (String × Json) :=
  [("format", .str r.format.tag), ("fields", .ofTexts r.fields), ("rawInput", .str r.rawInput)] ++
    if r.urnTemplateUsed = "" then [] else [("urnTemplateUsed", .str r.urnTemplateUsed)]

/-- The record that describes a resource. -/
def toRecord (r : Resource) : Json := .object r.recordEntries

end ResourceNames.Resource
