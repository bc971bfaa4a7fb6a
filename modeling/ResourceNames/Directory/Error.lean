/-!
# Why a directory cannot answer

`DirectoryError` holds the causes, `message` their wording. Two of them are answers about what was
asked and no failures: the type is not known (`isNotFound`), and the value breaks the schema of its
type (`isSchemaViolation`).
-/

namespace ResourceNames

/-- What a control plane answers to a request that it does not fulfil. -/
inductive ApiError where
  | refused (status message reason : String) (code : Nat)
  /-- An answer that is not of the form that was asked for. -/
  | unreadable (fault : String)
  deriving DecidableEq, Repr

/-- Why a directory cannot answer. -/
inductive DirectoryError where
  | notFound (typeKey : String)
  | templateNotFound (typeName annotation : String)
  | noValidator (typeKey : String)
  | schemaViolation (typeKey fault : String)
  | loadFailed (source fault : String)
  | noMatchingFiles (pattern : String)
  | invalidPattern (pattern fault : String)
  | invalidDefinition (fault : String)
  | api (error : ApiError)
  | io (fault : String)
  | serialization (fault : String)
  /-- A URN that lacks values for some placeholders of its template. -/
  | incompleteConversion (input : String) (placeholders : List String)
  | invalidConfig (fault : String)
  deriving DecidableEq, Repr

namespace ApiError

/-- Whether a character is written by its number in quoted text. -/
def isHidden (n : Nat) : Bool :=
  n < 0x20 || (0x7F ≤ n && n ≤ 0xA0) || n = 0xAD || n = 0x61C || n = 0x1680 || n = 0x180E ||
    (0x2000 ≤ n && n ≤ 0x200F) || (0x2028 ≤ n && n ≤ 0x202F) || (0x205F ≤ n && n ≤ 0x206F) ||
    n = 0x3000 || (0xE000 ≤ n && n ≤ 0xF8FF) || n = 0xFEFF || (0xFFF0 ≤ n && n ≤ 0xFFFB)

/-- A character as it stands in quoted text. -/
def escape (c : Char) : String :=
  if c = '"' then "\\\""
  else if c = '\\' then "\\\\"
  else if c = '\n' then "\\n"
  else if c = '\r' then "\\r"
  else if c = '\t' then "\\t"
  else if c.toNat = 0 then "\\0"
  else if isHidden c.toNat then
    "\\u\x7b" ++ String.ofList (Nat.toDigits 16 c.toNat) ++ "\x7d"
  else c.toString

/-- A text in quotes, with what would not be seen in it escaped. -/
def quoted (s : String) : String := "\"" ++ String.join (s.toList.map escape) ++ "\""

def message : ApiError → String
  | refused status message reason code =>
    s!"ApiError: {message}: {reason} (ErrorResponse \x7b status: {quoted status}, " ++
      s!"message: {quoted message}, reason: {quoted reason}, code: {code} \x7d)"
  | unreadable fault => "Error deserializing response: " ++ fault

end ApiError

namespace DirectoryError

def message : DirectoryError → String
  | notFound typeKey => s!"resource type '{typeKey}' not found"
  | templateNotFound typeName annotation =>
    s!"URN template annotation '{annotation}' not found for '{typeName}'"
  | noValidator typeKey => s!"no schema validator available for '{typeKey}'"
  | schemaViolation typeKey fault => s!"validation failed for '{typeKey}': {fault}"
  | loadFailed source fault => s!"failed to load any resource types from '{source}': {fault}"
  | noMatchingFiles pattern => s!"no files found matching pattern '{pattern}'"
  | invalidPattern pattern fault => s!"invalid file pattern '{pattern}': {fault}"
  | invalidDefinition fault => s!"invalid type definition: {fault}"
  | api error => "Kubernetes API error: " ++ error.message
  | io fault => s!"IO error: {fault}"
  | serialization fault => s!"serialization error: {fault}"
  | incompleteConversion input placeholders =>
    let names := ", ".intercalate (placeholders.map fun name => s!"<{name}>")
    s!"incomplete conversion of '{input}': no value for {names}"
  | invalidConfig fault => s!"invalid configuration: {fault}"

/-- The name of the kind of error. -/
def kind : DirectoryError → String
  | notFound _ => "NotFound"
  | templateNotFound .. => "TemplateNotFound"
  | noValidator _ => "NoValidator"
  | schemaViolation .. => "SchemaViolation"
  | loadFailed .. => "LoadFailed"
  | noMatchingFiles _ => "NoMatchingFiles"
  | invalidPattern .. => "InvalidPattern"
  | invalidDefinition _ => "InvalidDefinition"
  | api _ => "Api"
  | io _ => "Io"
  | serialization _ => "Serialization"
  | incompleteConversion .. => "IncompleteConversion"
  | invalidConfig _ => "InvalidConfig"

def isNotFound : DirectoryError → Bool
  | notFound _ => true
  | _ => false

def isSchemaViolation : DirectoryError → Bool
  | schemaViolation .. => true
  | _ => false

end DirectoryError

end ResourceNames
