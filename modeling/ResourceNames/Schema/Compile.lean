import ResourceNames.Regex.Parser
import ResourceNames.Schema.Basic

/-!
# Reading schemas

`Validator.compile?` reads a schema from JSON. There is none if a keyword has a value it cannot
have, at any place where a schema may stand, if a regular expression is malformed, or if a reference
names nothing. Keywords that are not known are ignored.
-/

namespace ResourceNames.Schema

/-- What the value of a keyword without schemas in it must be. -/
inductive Shape where
  | text
  | identifier
  | anchorName
  | boolean
  | number
  | positive
  | count
  | names
  | nameLists
  | booleans
  | list
  | kinds
  | pattern
  deriving DecidableEq, Repr

def shapes : List (String × Shape) :=
  [("$anchor", .anchorName), ("$comment", .text), ("$dynamicAnchor", .anchorName),
    ("$dynamicRef", .text), ("$id", .identifier), ("$recursiveAnchor", .anchorName),
    ("$recursiveRef", .text), ("$ref", .text), ("$schema", .text), ("$vocabulary", .booleans),
    ("contentEncoding", .text), ("contentMediaType", .text), ("dependentRequired", .nameLists),
    ("deprecated", .boolean), ("description", .text), ("enum", .list), ("examples", .list),
    ("exclusiveMaximum", .number), ("exclusiveMinimum", .number), ("format", .text),
    ("maxContains", .count), ("maxItems", .count), ("maxLength", .count), ("maxProperties", .count),
    ("maximum", .number), ("minContains", .count), ("minItems", .count), ("minLength", .count),
    ("minProperties", .count), ("minimum", .number), ("multipleOf", .positive),
    ("pattern", .pattern), ("readOnly", .boolean), ("required", .names), ("title", .text),
    ("type", .kinds), ("uniqueItems", .boolean), ("writeOnly", .boolean)]

/-- The keywords whose value is a schema. -/
def singleWords : List String :=
  ["additionalProperties", "contains", "contentSchema", "else", "if", "items", "not",
    "propertyNames", "then", "unevaluatedItems", "unevaluatedProperties"]

/-- The keywords whose value is a list of schemas. -/
def listWords : List String := ["allOf", "anyOf", "oneOf", "prefixItems"]

/-- The keywords whose value is an object of schemas. -/
def memberWords : List String :=
  ["$defs", "definitions", "dependentSchemas", "patternProperties", "properties"]

/-- The number that a JSON number without a fraction stands for, which never exceeds 64 bits. -/
def count? : Json → Option Nat
  | .int (.ofNat n) => some (min n (twoTo 64 - 1))
  | .dec x =>
    if x.digits = 0 then some 0
    else if x.negative ∨ x.exponent < 0 then none
    else some (min (x.digits * tenTo x.exponent.toNat) (twoTo 64 - 1))
  | _ => none

/-- Texts that all differ. -/
def names? (v : Json) : Option (List String) := do
  let names ← (← v.items?).mapM Json.text?
  if names.Nodup then some names else none

/-- The kinds that `type` lists, in their own order. -/
def kinds? : Json → Option (List ValueKind)
  | .str s => (ValueKind.ofName? s).map fun k => [k]
  | v => do
    let kinds ← (← names? v).mapM ValueKind.ofName?
    if kinds.isEmpty then none else some (ValueKind.all.filter (kinds.contains ·))

/-- Whether a text may name an anchor. -/
def isAnchorName (s : String) : Bool :=
  match s.toList with
  | c :: cs =>
    (c.isAlpha || c = '_') && cs.all fun c => c.isAlphanum || c = '-' || c = '.' || c = '_'
  | [] => false

/-- Whether a value has a shape. -/
def Shape.fits (v : Json) : Shape → Bool
  | .text => v.text?.isSome
  | .identifier => v.text?.any fun s => !(s.toList.dropLast.contains '#')
  | .anchorName => v.text?.any isAnchorName
  | .boolean => v.bool?.isSome
  | .number => ValueKind.number.holds v
  | .positive =>
    match v with
    | .int n => 0 < n
    | .dec x => !x.negative && x.digits ≠ 0
    | _ => false
  | .count => (count? v).isSome
  | .names => (names? v).isSome
  | .nameLists => v.entries?.any fun entries => entries.all fun e => (names? e.2).isSome
  | .booleans => v.entries?.any fun entries => entries.all fun e => e.2.bool?.isSome
  | .list => v.items?.isSome
  | .kinds => (kinds? v).isSome
  | .pattern => (v.text?.bind Regex.parse?).isSome

/-- The schema of objects with properties of the given names. -/
def requiring (names : List String) : Schema := .keywords [.required names]

/-- The condition that a keyword without schemas in it states. -/
def assertion? (name : String) (v : Json) : Option Keyword :=
  if name = "type" then (kinds? v).map .kinds
  else if name = "const" then some (.constant v)
  else if name = "enum" then v.items?.map .choice
  else if name = "minLength" then (count? v).map .minLength
  else if name = "maxLength" then (count? v).map .maxLength
  else if name = "minProperties" then (count? v).map .minProperties
  else if name = "maxProperties" then (count? v).map .maxProperties
  else if name = "required" then (names? v).map .required
  else if name = "pattern" then
    v.text?.bind fun text => (Regex.parse? text).map fun regex => .pattern text regex
  else if name = "dependentRequired" then
    v.entries?.map fun entries =>
      .dependentSchemas (entries.map fun e => (e.1, requiring ((names? e.2).getD [])))
  else if name = "$ref" ∨ name = "$dynamicRef" then v.text?.map .reference
  else none

/-- The conditions that a keyword without schemas in it states, unless its value is impossible. -/
def plainWord? (name : String) (v : Json) : Option (List Keyword) :=
  match Entries.find? name shapes with
  | some shape => if shape.fits v then some (assertion? name v).toList else none
  | none =>
    if name ∈ singleWords ∨ name ∈ listWords ∨ name ∈ memberWords ∨ name = "dependencies" then none
    else some (assertion? name v).toList

/-- The condition that a keyword with a schema states. -/
def singleWord (name : String) (source : Json) (schema : Schema) : List Keyword :=
  if name = "additionalProperties" then [.additionalProperties schema]
  else if name = "unevaluatedProperties" then [.unevaluatedProperties schema]
  else if name = "propertyNames" then [.propertyNames schema]
  else if name = "not" then [.negation source schema]
  else if name = "if" then [.ifSchema schema]
  else if name = "then" then [.thenSchema schema]
  else if name = "else" then [.elseSchema schema]
  else []

/-- The condition that a keyword with a list of schemas states. -/
def listWord (name : String) (schemas : List Schema) : List Keyword :=
  if name = "allOf" then [.allOf schemas]
  else if name = "anyOf" then [.anyOf schemas]
  else if name = "oneOf" then [.oneOf schemas]
  else []

/-- The condition that a keyword with an object of schemas states, unless a name is to be a regular
expression and is none. -/
def memberWord? (name : String) (members : List (String × Schema)) : Option (List Keyword) :=
  if name = "properties" then some [.properties members]
  else if name = "dependentSchemas" ∨ name = "dependencies" then some [.dependentSchemas members]
  else if name = "patternProperties" then do
    let members ← members.mapM fun e => (Regex.parse? e.1).map fun regex => (regex, e.2)
    some [.patternProperties members]
  else some []

mutual

/-- The schema that a value writes. -/
def compile? : Json → Option Schema
  | .bool b => some (if b then .always else .never)
  | .obj entries => (compileWords? entries).map .keywords
  | _ => none

def compileWords? : List (String × Json) → Option (List Keyword)
  | [] => some []
  | (name, v) :: rest => do
    let word ← compileWord? name v
    let words ← compileWords? rest
    some (word ++ words)

/-- The conditions that one keyword states. -/
def compileWord? (name : String) : Json → Option (List Keyword)
  | .obj entries =>
    if name ∈ singleWords then
      (compileWords? entries).map fun words => singleWord name (.obj entries) (.keywords words)
    else if name ∈ memberWords then (compileMembers? entries).bind (memberWord? name)
    else if name = "dependencies" then (compileDependencies? entries).bind (memberWord? name)
    else plainWord? name (.obj entries)
  | .arr items =>
    if name ∈ listWords then
      if items.isEmpty then none else (compileAll? items).map (listWord name)
    else plainWord? name (.arr items)
  | .bool b =>
    if name ∈ singleWords then some (singleWord name (.bool b) (if b then .always else .never))
    else plainWord? name (.bool b)
  | v => plainWord? name v

def compileAll? : List Json → Option (List Schema)
  | [] => some []
  | v :: vs => do
    let schema ← compile? v
    let schemas ← compileAll? vs
    some (schema :: schemas)

def compileMembers? : List (String × Json) → Option (List (String × Schema))
  | [] => some []
  | (name, v) :: rest => do
    let schema ← compile? v
    let members ← compileMembers? rest
    some ((name, schema) :: members)

/-- Members of which each is a schema or a list of names that are required. -/
def compileDependencies? : List (String × Json) → Option (List (String × Schema))
  | [] => some []
  | (name, .arr items) :: rest => do
    let names ← names? (.arr items)
    let members ← compileDependencies? rest
    some ((name, requiring names) :: members)
  | (name, v) :: rest => do
    let schema ← compile? v
    let members ← compileDependencies? rest
    some ((name, schema) :: members)

end

/-! ## References -/

/-- The references in a schema that is nested at most `fuel` deep. -/
def references : Nat → Schema → List String
  | fuel + 1, .keywords words =>
    words.flatMap fun word =>
      match word with
      | .reference target => [target]
      | word => word.children.flatMap (references fuel)
  | _, _ => []

/-- A step of a pointer with its escapes read. -/
def unescape : List Char → List Char
  | '~' :: '0' :: rest => '~' :: unescape rest
  | '~' :: '1' :: rest => '/' :: unescape rest
  | c :: rest => c :: unescape rest
  | [] => []

/-- The value that the steps of a pointer lead to. -/
def follow? (v : Json) : List String → Option Json
  | [] => some v
  | step :: steps => do
    let next ←
      match v with
      | .arr items => (step.toNat?).bind fun i => items[i]?
      | v => v.get? (String.ofList (unescape step.toList))
    follow? next steps

mutual

/-- The object that a name is given to by a keyword. -/
def anchored? (keyword name : String) : Json → Option Json
  | .obj entries =>
    if Entries.find? keyword entries = some (.str name) then some (.obj entries)
    else anchoredEntry? keyword name entries
  | .arr items => anchoredItem? keyword name items
  | _ => none

def anchoredEntry? (keyword name : String) : List (String × Json) → Option Json
  | [] => none
  | (_, v) :: rest => anchored? keyword name v <|> anchoredEntry? keyword name rest

def anchoredItem? (keyword name : String) : List Json → Option Json
  | [] => none
  | v :: rest => anchored? keyword name v <|> anchoredItem? keyword name rest

end

/-- The value that a reference within `root` names: a pointer or an anchor behind `#`. -/
def target? (root : Json) (reference : String) : Option Json :=
  match reference.toList with
  | ['#'] => some root
  | '#' :: '/' :: path => follow? root ((path.splitOn '/').map String.ofList)
  | '#' :: name =>
    let name := String.ofList name
    anchored? "$anchor" name root <|> anchored? "$dynamicAnchor" name root
  | _ => none

/-- The schemas that the pending references name, and those that these refer to in turn. -/
def targets? (root : Json) : Nat → List String → List (String × Schema) →
    Option (List (String × Schema))
  | _, [], known => some known
  | 0, _ :: _, _ => none
  | fuel + 1, reference :: pending, known =>
    if known.any fun e => e.1 = reference then targets? root fuel pending known
    else do
      let schema ← compile? (← target? root reference)
      targets? root fuel (references root.size schema ++ pending) ((reference, schema) :: known)

/-- The dialects that `$schema` may name, all read alike. -/
def dialects : List String :=
  ["http://json-schema.org/draft-04/schema", "http://json-schema.org/draft-06/schema",
    "http://json-schema.org/draft-07/schema", "https://json-schema.org/draft/2019-09/schema",
    "https://json-schema.org/draft/2020-12/schema"]

def dialectKnown (v : Json) : Bool :=
  match v.getText? "$schema" with
  | some s =>
    let base := String.ofList (s.toList.reverse.dropWhile (· = '#')).reverse
    dialects.contains base
  | none => true

end Schema

/-- The validator that a schema describes. -/
def Validator.compile? (v : Json) : Option Validator := do
  if !Schema.dialectKnown v then none
  let root ← Schema.compile? v
  let targets ← Schema.targets? v ((v.size + 1) * (v.size + 1)) (Schema.references v.size root) []
  some ⟨root, targets, v.size⟩

end ResourceNames
