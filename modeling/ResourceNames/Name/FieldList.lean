import ResourceNames.Name.Resource
import ResourceNames.Text.Blank

/-!
# Field lists

The written form `ccrn=<type>.<group>/<version>, key=value, …`: entries between commas, each cut
at its first `=`. Blanks around keys and values and one pair of quotes around a value do not count,
and blank entries are passed over.
-/

namespace ResourceNames.FieldList

/-- The value without the pair of quotes around it, if there is one. -/
def unquote (value : List Char) : List Char :=
  match value with
  | '"' :: rest => if rest.getLast? = some '"' then rest.dropLast else value
  | _ => value

/-- The key and the value of an entry that is not blank. -/
def readEntry (entry : List Char) : Except ParseError (String × String) :=
  match Text.cut? '=' entry with
  | none => .error (.malformed (.noEquals (String.ofList entry)))
  | some (key, value) =>
    let key := Text.trim key
    if key.isEmpty then .error (.malformed (.emptyKey (String.ofList entry)))
    else .ok (String.ofList key, String.ofList (unquote (Text.trim value)))

/-- Adds the entries one after the other to `fields`. -/
def readEntries (fields : Table String) : List (List Char) → Except ParseError (Table String)
  | [] => .ok fields
  | piece :: pieces =>
    let entry := Text.trim piece
    if entry.isEmpty then readEntries fields pieces
    else
      match readEntry entry with
      | .error e => .error e
      | .ok (key, value) =>
        if fields.contains key then .error (.malformed (.duplicateField key))
        else readEntries (fields.insert key value) pieces

/-- The resource that a field list stands for. -/
def parse (input : String) : Except ParseError Resource :=
  if startsWith fieldListLead input then
    match readEntries .empty (input.toList.splitOn ',') with
    | .error e => .error e
    | .ok fields => Resource.ofFields .fieldList fields input
  else .error (.malformed (.notFieldList input))

/-- The field list of the given fields: the type key first, then the other fields in ascending
order. Values are written as they are. -/
def render (fields : Table String) : String :=
  fieldListLead ++ (fields.find? typeKeyField).getD "" ++
    String.join ((fields.erase typeKeyField).entries.map fun (k, v) => ", " ++ k ++ "=" ++ v)

end ResourceNames.FieldList
