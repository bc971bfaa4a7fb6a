import ResourceNames.Command.Error
import ResourceNames.Verdict.Record
import ResourceNames.Verdict.Validate

/-!
# Commands

What the commands `validate`, `convert` and `types` print for a directory.
-/

namespace ResourceNames

/-- What a command printed, and whether it failed. -/
structure Outcome where
  stdout : String := ""
  stderr : String := ""
  failure : Option CommandError := none
  deriving DecidableEq, Repr

/-- The exit code of a command. -/
def Outcome.exitCode (o : Outcome) : Nat := (o.failure.map CommandError.exitCode).getD 0

/-- Lines as they are printed. -/
def printed (lines : List String) : String := String.join (lines.map (· ++ "\n"))

/-- The lines about an input that is not valid. -/
def rejectionLines (v : Verdict) : List String :=
  "✗ Invalid resource name" :: v.errors.map ("  • " ++ ·)

/-- The lines about a verdict. -/
def verdictLines (v : Verdict) : List String :=
  let lines :=
    match v.parsed, v.valid with
    | some r, true =>
      s!"✓ Valid {r.format.tag} for {r.typeKey}" ::
        (r.fields.erase typeKeyField).entries.map fun e => s!"  {e.1} = {e.2}"
    | _, _ => rejectionLines v
  lines ++ v.warnings.map ("  ⚠ " ++ ·)

/-- The lines about both written forms. -/
def conversionLines (c : Option Conversion) : List String :=
  match c with
  | some c => [s!"CCRN  {c.fieldList}", "URN   " ++ c.urn.getD "(none)"]
  | none => ["⚠ No conversion available"]

/-- The record of both written forms. -/
def conversionRecord (v : Verdict) : Json :=
  let text (s : Option String) : Json := (s.map Json.str).getD .null
  .object [("fieldList", text (v.conversion.map (·.fieldList))),
    ("urn", text (v.conversion.bind (·.urn))), ("warnings", .arr (v.warnings.map .str))]

/-- What is shown of a type. -/
structure TypeRow where
  typeKey : String
  plural : String
  urnTemplate : String
  validator : Bool
  deriving DecidableEq, Repr

namespace TypeRow

def layout (row : TypeRow) : Json.Layout :=
  .ofEntries ([("typeKey", .str row.typeKey), ("plural", .str row.plural)] ++
    (if row.urnTemplate = "" then [] else [("urnTemplate", .str row.urnTemplate)]) ++
    [("validator", .bool row.validator)])

def lines (row : TypeRow) : List String :=
  ((if row.validator then "  ✓ " else "  ✗ ") ++ row.typeKey) ::
    if row.urnTemplate = "" then [] else ["      " ++ row.urnTemplate]

end TypeRow

/-- The lines about all types. -/
def typeLines (rows : List TypeRow) : List String :=
  if rows.isEmpty then ["⚠ No resource types found"]
  else s!"→ {rows.length} resource type(s)" :: rows.flatMap (·.lines)

variable {σ : Type} [TypeDirectory σ]

/-- Checks a resource name. -/
def runValidate (input template : String) (json : Bool) : StateM σ Outcome := do
  let verdict ← validateWithTemplate input template
  return {
    stdout := printed (if json then [verdict.layout.pretty] else verdictLines verdict)
    failure := if verdict.valid then none else some (.rejected verdict) }

/-- Checks a resource name and shows both its forms. -/
def runConvert (input : String) (json : Bool) : StateM σ Outcome := do
  let verdict ← complete input
  if !verdict.valid then
    return {
      stdout := printed (if json then [verdict.layout.pretty] else rejectionLines verdict)
      failure := some (.rejected verdict) }
  else if json then return { stdout := printed [(conversionRecord verdict).pretty] }
  else
    return {
      stdout := printed (conversionLines verdict.conversion)
      stderr := printed (verdict.warnings.map ("⚠ " ++ ·)) }

/-- What is shown of the types. -/
def typeRows (ds : List TypeDescriptor) : StateM σ (List TypeRow) :=
  ds.mapM fun d => do
    let validator ← TypeDirectory.hasValidator d.typeKey
    return { typeKey := d.typeKey, plural := d.plural, urnTemplate := d.urnTemplate, validator }

/-- Lists all types. -/
def runTypes (json : Bool) : StateM σ Outcome := do
  match ← (TypeDirectory.listTypes : Lookup σ (List TypeDescriptor)).run with
  | .error e => return { failure := some (.ofDirectoryError e) }
  | .ok ds =>
    let rows ← typeRows ds
    return {
      stdout :=
        printed (if json then [(Json.Layout.list (rows.map (·.layout))).pretty]
          else typeLines rows) }

end ResourceNames
