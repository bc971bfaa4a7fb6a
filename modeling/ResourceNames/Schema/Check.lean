import ResourceNames.Json.Printer
import ResourceNames.Schema.Basic

/-!
# Checking values against schemas

`Validator.violations` lists what is wrong with a value, each violation with the place of the part
it is about. Keywords report in their order, and of a negation or a choice between schemas only that
it failed.
-/

namespace ResourceNames

/-- What is wrong with the part of a value that the steps of `path` lead to. -/
structure Violation where
  path : List String
  message : String
  deriving DecidableEq, Repr

namespace Violation

/-- A step of a pointer with its escapes. -/
def escape (step : String) : String :=
  String.ofList (step.toList.flatMap fun c =>
    if c = '~' then ['~', '0'] else if c = '/' then ['~', '1'] else [c])

/-- The place of a violation, empty for the whole value. -/
def pointer (v : Violation) : String := String.join (v.path.map fun step => "/" ++ escape step)

end Violation

namespace Schema

/-- A number with a noun in the form that goes with it. -/
def counted (n : Nat) (one many : String) : String :=
  toString n ++ " " ++ if n = 1 then one else many

/-- The properties that must not be there. -/
def unexpected (kind : String) (names : List String) : String :=
  let quoted := ", ".intercalate (names.map fun name => "'" ++ name ++ "'")
  kind ++ " properties are not allowed (" ++ quoted ++
    if names.length = 1 then " was unexpected)" else " were unexpected)"

/-- The violations of a condition without schemas in it. -/
def checkPlain (value : Json) : Keyword → List String
  | .kinds kinds =>
    if kinds.any fun k => k.holds value then []
    else
      let names := kinds.map fun k => "\"" ++ k.name ++ "\""
      [value.render ++ (if kinds.length = 1 then " is not of type " else " is not of types ") ++
        ", ".intercalate names]
  | .constant expected =>
    if value = expected then [] else [expected.render ++ " was expected"]
  | .choice values =>
    if values.contains value then []
    else [value.render ++ " is not one of " ++ (Json.arr values).render]
  | .minLength n =>
    match value with
    | .str s =>
      if n ≤ s.length then []
      else [value.render ++ " is shorter than " ++ counted n "character" "characters"]
    | _ => []
  | .maxLength n =>
    match value with
    | .str s =>
      if s.length ≤ n then []
      else [value.render ++ " is longer than " ++ counted n "character" "characters"]
    | _ => []
  | .pattern text regex =>
    match value with
    | .str s =>
      if regex.occursIn s then [] else [value.render ++ " does not match \"" ++ text ++ "\""]
    | _ => []
  | .minProperties n =>
    match value with
    | .obj entries =>
      if n ≤ entries.length then []
      else [value.render ++ " has less than " ++ counted n "property" "properties"]
    | _ => []
  | .maxProperties n =>
    match value with
    | .obj entries =>
      if entries.length ≤ n then []
      else [value.render ++ " has more than " ++ counted n "property" "properties"]
    | _ => []
  | .required names =>
    match value with
    | .obj _ =>
      (names.filter fun name => (value.get? name).isNone).map fun name =>
        Json.quote name ++ " is a required property"
    | _ => []
  | _ => []

/-! ## What stands beside a keyword -/

def membersIn (words : List Keyword) : Option (List (String × Schema)) :=
  words.findSome? fun
    | .properties members => some members
    | _ => none

def patternsIn (words : List Keyword) : Option (List (Regex × Schema)) :=
  words.findSome? fun
    | .patternProperties members => some members
    | _ => none

/-- The schema of additional properties, if it restricts them. It then takes over the work of the
keywords for properties. -/
def additionalIn (words : List Keyword) : Option Schema :=
  words.findSome? fun
    | .additionalProperties .always => none
    | .additionalProperties schema => some schema
    | _ => none

def thenIn (words : List Keyword) : Option Schema :=
  words.findSome? fun
    | .thenSchema schema => some schema
    | _ => none

def elseIn (words : List Keyword) : Option Schema :=
  words.findSome? fun
    | .elseSchema schema => some schema
    | _ => none

/-! ## Checking -/

/-- How a value is checked against a schema, as the checks of one keyword need it. -/
abbrev Checker := Schema → Json → List Violation

/-- The violations of a property, seen from its object. -/
def checkProperty (check : Checker) (schema : Schema) (name : String) (value : Json) :
    List Violation :=
  (check schema value).map fun v => { v with path := name :: v.path }

/-- The schemas of the patterns that match a name. -/
def matching (patterns : List (Regex × Schema)) (name : String) : List Schema :=
  (patterns.filter fun e => e.1.occursIn name).map (·.2)

/-- The check of additional properties, together with those of all the others. -/
def checkAdditional (check : Checker) (words : List Keyword) (additional : Schema)
    (entries : List (String × Json)) : List Violation :=
  let members := (membersIn words).getD []
  let patterns := (patternsIn words).getD []
  let schemasOf (name : String) : List Schema :=
    (Entries.find? name members).toList ++ matching patterns name
  let listed (name : String) : Bool :=
    (Entries.find? name members).isSome || !(matching patterns name).isEmpty
  match additional, (membersIn words).isSome || (patternsIn words).isSome with
  | .never, false =>
    match entries with
    | [] => []
    | (_, value) :: _ => [⟨[], "False schema does not allow " ++ value.render⟩]
  | .never, true =>
    let known := entries.flatMap fun e =>
      (schemasOf e.1).flatMap fun schema => checkProperty check schema e.1 e.2
    let others := (entries.filter fun e => !listed e.1).map (·.1)
    known ++ if others.isEmpty then [] else [⟨[], unexpected "Additional" others⟩]
  | additional, _ =>
    entries.flatMap fun e =>
      let schemas := if listed e.1 then schemasOf e.1 else [additional]
      schemas.flatMap fun schema => checkProperty check schema e.1 e.2

/-- Whether a schema says something about the property `name` of an object. -/
def evaluates (named : String → Option Schema) (check : Checker) (object : Json) (name : String) :
    Nat → Schema → Bool
  | fuel + 1, .keywords words =>
    let within (schema : Schema) : Bool :=
      (check schema object).isEmpty && evaluates named check object name fuel schema
    words.any fun
      | .properties members => (Entries.find? name members).isSome
      | .patternProperties patterns => !(matching patterns name).isEmpty
      | .additionalProperties _ | .unevaluatedProperties .always => true
      | .allOf schemas | .anyOf schemas | .oneOf schemas => schemas.any within
      | .dependentSchemas members =>
        members.any fun e => (object.get? e.1).isSome && within e.2
      | .ifSchema schema =>
        if (check schema object).isEmpty then
          within schema || (thenIn words).any within
        else (elseIn words).any within
      | .reference target => (named target).any within
      | _ => false
  | _, _ => false

/-- The violations of one of the keywords `words`. -/
def checkWord (named : String → Option Schema) (check : Checker) (fuel : Nat)
    (words : List Keyword) (value : Json) (word : Keyword) : List Violation :=
  let here (message : String) : Violation := ⟨[], message⟩
  match word, value with
  | .properties members, .obj _ =>
    if (additionalIn words).isSome then []
    else
      members.flatMap fun e =>
        match value.get? e.1 with
        | some property => checkProperty check e.2 e.1 property
        | none => []
  | .patternProperties members, .obj entries =>
    if (additionalIn words).isSome then []
    else
      members.flatMap fun m =>
        (entries.filter fun e => m.1.occursIn e.1).flatMap fun e => checkProperty check m.2 e.1 e.2
  | .additionalProperties .always, _ => []
  | .additionalProperties schema, .obj entries => checkAdditional check words schema entries
  | .unevaluatedProperties schema, .obj entries =>
    let others := entries.filter fun e =>
      !(evaluates named check value e.1 fuel (.keywords (words.filter fun
        | .unevaluatedProperties _ => false
        | _ => true)) || (check schema e.2).isEmpty)
    if others.isEmpty then [] else [here (unexpected "Unevaluated" (others.map (·.1)))]
  | .propertyNames .never, .obj entries =>
    if entries.isEmpty then [] else [here ("False schema does not allow " ++ value.render)]
  | .propertyNames schema, .obj entries =>
    entries.flatMap fun e => (check schema (.str e.1)).map fun v => here v.message
  | .dependentSchemas members, .obj _ =>
    members.flatMap fun e => if (value.get? e.1).isSome then check e.2 value else []
  | .allOf schemas, _ => schemas.flatMap fun schema => check schema value
  | .anyOf schemas, _ =>
    if schemas.any fun schema => (check schema value).isEmpty then []
    else [here (value.render ++
      " is not valid under any of the schemas listed in the 'anyOf' keyword")]
  | .oneOf schemas, _ =>
    match schemas.countP fun schema => (check schema value).isEmpty with
    | 0 => [here (value.render ++
      " is not valid under any of the schemas listed in the 'oneOf' keyword")]
    | 1 => []
    | _ => [here (value.render ++
      " is valid under more than one of the schemas listed in the 'oneOf' keyword")]
  | .negation source schema, _ =>
    if (check schema value).isEmpty then
      [here (source.render ++ " is not allowed for " ++ value.render)]
    else []
  | .ifSchema schema, _ =>
    let branch := if (check schema value).isEmpty then thenIn words else elseIn words
    branch.toList.flatMap fun schema => check schema value
  | .reference target, _ => (named target).toList.flatMap fun schema => check schema value
  | word, _ => (checkPlain value word).map here

/-- The violations of a schema; steps into schemas are counted against `fuel`. -/
def check (named : String → Option Schema) : Nat → Schema → Json → List Violation
  | _, .always, _ => []
  | _, .never, value => [⟨[], "False schema does not allow " ++ value.render⟩]
  | 0, .keywords _, _ => []
  | fuel + 1, .keywords words, value =>
    words.flatMap (checkWord named (check named fuel) fuel words value)

end Schema

namespace Validator

/-- What is wrong with a value. Between two steps into the value come at most as many steps from
schema to schema as the schema has parts, unless it refers to itself in a circle. -/
def violations (v : Validator) (value : Json) : List Violation :=
  Schema.check (fun target => (v.targets.find? fun e => e.1 = target).map (·.2))
    ((v.size + 1) * (value.size + 1)) v.root value

/-- Whether a value fulfils the schema. -/
def accepts (v : Validator) (value : Json) : Bool := (v.violations value).isEmpty

end Validator

end ResourceNames
