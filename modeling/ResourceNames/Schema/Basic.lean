import ResourceNames.Json.Basic
import ResourceNames.Regex.Basic

/-!
# Schemas

A schema states conditions on JSON values. Its keywords stand in the order in which they are
applied. The values checked here are texts and objects of texts, so keywords for numbers and arrays
state nothing and are left out.
-/

namespace ResourceNames

/-- The kinds of JSON values that a schema can ask for, in the order in which they are named. -/
inductive ValueKind where
  | array
  | boolean
  | integer
  | null
  | number
  | object
  | string
  deriving DecidableEq, Repr

namespace ValueKind

def all : List ValueKind := [array, boolean, integer, null, number, object, string]

def name : ValueKind → String
  | array => "array"
  | boolean => "boolean"
  | integer => "integer"
  | null => "null"
  | number => "number"
  | object => "object"
  | string => "string"

def ofName? (s : String) : Option ValueKind := all.find? fun k => k.name = s

/-- Whether a value is of a kind. -/
def holds : ValueKind → Json → Bool
  | array, .arr _ => true
  | boolean, .bool _ => true
  | integer, .int _ => true
  | integer, .dec x => 0 ≤ x.exponent
  | null, .null => true
  | number, .int _ => true
  | number, .dec _ => true
  | object, .obj _ => true
  | string, .str _ => true
  | _, _ => false

end ValueKind

mutual

/-- A condition on JSON values. -/
inductive Schema where
  | always
  | never
  | keywords (words : List Keyword)

/-- One of the conditions that a schema is made of. -/
inductive Keyword where
  | kinds (kinds : List ValueKind)
  | constant (value : Json)
  /-- One of some values. -/
  | choice (values : List Json)
  | minLength (n : Nat)
  | maxLength (n : Nat)
  | pattern (text : String) (regex : Regex)
  | minProperties (n : Nat)
  | maxProperties (n : Nat)
  | required (names : List String)
  | properties (members : List (String × Schema))
  | patternProperties (members : List (Regex × Schema))
  /-- The schema of the properties that no other keyword beside this one is about. -/
  | additionalProperties (schema : Schema)
  /-- The schema of the properties that nothing in the whole schema is about. -/
  | unevaluatedProperties (schema : Schema)
  | propertyNames (schema : Schema)
  /-- Schemas that hold for objects with a property of that name. -/
  | dependentSchemas (members : List (String × Schema))
  | allOf (schemas : List Schema)
  | anyOf (schemas : List Schema)
  | oneOf (schemas : List Schema)
  /-- The negation of a schema, with its text. -/
  | negation (source : Json) (schema : Schema)
  | ifSchema (schema : Schema)
  | thenSchema (schema : Schema)
  | elseSchema (schema : Schema)
  /-- The schema that a reference names. -/
  | reference (target : String)

end

instance : Inhabited Schema := ⟨.always⟩

/-- The schemas within a keyword. -/
def Keyword.children : Keyword → List Schema
  | properties members => members.map (·.2)
  | patternProperties members => members.map (·.2)
  | dependentSchemas members => members.map (·.2)
  | additionalProperties schema => [schema]
  | unevaluatedProperties schema => [schema]
  | propertyNames schema => [schema]
  | negation _ schema => [schema]
  | ifSchema schema => [schema]
  | thenSchema schema => [schema]
  | elseSchema schema => [schema]
  | allOf schemas => schemas
  | anyOf schemas => schemas
  | oneOf schemas => schemas
  | _ => []

/-- A schema with the schemas that its references name. -/
structure Validator where
  root : Schema
  targets : List (String × Schema)
  /-- Number of values that the schema was read from, a bound on how deep it is nested. -/
  size : Nat

end ResourceNames
