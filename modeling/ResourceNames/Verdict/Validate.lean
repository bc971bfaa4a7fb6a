import ResourceNames.Directory.Basic
import ResourceNames.Verdict.Basic

/-!
# Validation

`validate` reads an input in the form that its start promises, asks the directory for the type, and
has it check the resource. URNs are read with the template that the directory has for their type, or
with a given one. `complete` adds both written forms of a valid resource, and `convert` makes them.
-/

namespace ResourceNames

variable {σ : Type} [TypeDirectory σ]

/-- The type name and the version in a type key. -/
def splitTypeKey (typeKey : String) : String × String := (cutText? '/' typeKey).getD (typeKey, "")

/-- The resource that a URN names, read with the template of its type. -/
def readUrn (input : String) : StateM σ (Except Verdict Resource) := do
  match Urn.parseTypeKey input with
  | .error e => return .error (.ofParseError e)
  | .ok typeKey =>
    let (typeName, version) := splitTypeKey typeKey
    match ← (TypeDirectory.getUrnTemplate typeName version).run with
    | .error e => return .error (.ofLookupFailure typeKey e)
    | .ok template => return (Urn.parse input template).mapError .ofParseError

/-- The resource that an input names. URNs are read with `template` unless it is empty. -/
def readInput (input template : String) : StateM σ (Except Verdict Resource) :=
  match Format.detect input with
  | .error e => return .error (.ofParseError e)
  | .ok .fieldList => return (FieldList.parse input).mapError .ofParseError
  | .ok .urn =>
    if template = "" then readUrn input
    else return (Urn.parse input template).mapError .ofParseError

/-- The verdict on a resource. -/
def judge (r : Resource) : StateM σ Verdict := do
  match ← (TypeDirectory.getType r.typeKey).run with
  | .error e => return (Verdict.ofLookupFailure r.typeKey e).withParsed r
  | .ok _ =>
    match ← (TypeDirectory.validateValue r.typeKey r).run with
    | .error e => return (Verdict.rejected (.ofDirectoryError e) e.message).withParsed r
    | .ok _ => return .accepted r

/-- The verdict on an input. URNs are read with `template` unless it is empty. -/
def validateWithTemplate (input template : String) : StateM σ Verdict := do
  match ← readInput input template with
  | .error verdict => return verdict
  | .ok r => judge r

/-- The verdict on an input. -/
def validate (input : String) : StateM σ Verdict := validateWithTemplate input ""

/-- The template for the URN of a resource: the one it was read with, or that of its type. -/
def conversionTemplate (r : Resource) : Lookup σ (Option String) :=
  if r.urnTemplateUsed = "" then
    tryCatch (some <$> TypeDirectory.getUrnTemplate r.typeName r.version) fun e =>
      match e with
      | .templateNotFound .. => return none
      | e => throw e
  else return some r.urnTemplateUsed

/-- The URN of a resource by a template, which must have a value for every placeholder. -/
def convertWith (r : Resource) (template : Option String) : Except DirectoryError Conversion :=
  match template with
  | none => .ok ⟨FieldList.render r.fields, none⟩
  | some template =>
    let urn := (r.toUrn? template).getD ""
    match Template.unresolved urn with
    | [] => .ok ⟨FieldList.render r.fields, some urn⟩
    | missing => .error (.incompleteConversion r.rawInput missing)

/-- Both written forms of a resource. -/
def convert (r : Resource) : Lookup σ Conversion := do
  let template ← conversionTemplate r
  liftExcept (convertWith r template)

/-- A verdict with a conversion, or with the reason why there is none. -/
def Verdict.withConversion (v : Verdict) (r : Resource) :
    Except DirectoryError Conversion → Verdict
  | .error e => { v with warnings := v.warnings ++ [e.message] }
  | .ok c =>
    let warnings :=
      if c.urn.isNone then
        [s!"type '{r.typeKey}' has no URN template, only the field-list form is available"]
      else []
    { v with warnings := v.warnings ++ warnings, conversion := some c }

/-- The verdict on an input, with both written forms if it is valid. -/
def complete (input : String) : StateM σ Verdict := do
  let verdict ← validate input
  match verdict.valid, verdict.parsed with
  | true, some r => return verdict.withConversion r (← (convert r).run)
  | _, _ => return verdict

end ResourceNames
