import ResourceNames.Directory.Error
import ResourceNames.Name.FieldList
import ResourceNames.Name.Record
import ResourceNames.Name.Urn

/-!
# Verdicts

A verdict says whether an input names a resource that its type accepts, and if not, why.
-/

namespace ResourceNames

/-- Why an input is not valid. -/
inductive Reason where
  | unknownFormat
  | malformedInput
  | missingRequiredField
  | templateMismatch
  | segmentCountMismatch
  /-- The type is not known to the directory. -/
  | unsupportedType
  /-- The type has no template to read URNs with. -/
  | templateUnavailable
  /-- The resource breaks the schema of its type. -/
  | schemaViolation
  /-- The directory failed, for whatever else reason. -/
  | backend
  deriving DecidableEq, Repr

namespace Reason

def all : List Reason :=
  [unknownFormat, malformedInput, missingRequiredField, templateMismatch, segmentCountMismatch,
    unsupportedType, templateUnavailable, schemaViolation, backend]

def name : Reason → String
  | unknownFormat => "UnknownFormat"
  | malformedInput => "MalformedInput"
  | missingRequiredField => "MissingRequiredField"
  | templateMismatch => "TemplateMismatch"
  | segmentCountMismatch => "SegmentCountMismatch"
  | unsupportedType => "UnsupportedType"
  | templateUnavailable => "TemplateUnavailable"
  | schemaViolation => "SchemaViolation"
  | backend => "Backend"

def ofName? (s : String) : Option Reason := all.find? fun r => r.name = s

def ofParseError : ParseError → Reason
  | .malformed _ => malformedInput
  | .missingField _ => missingRequiredField
  | .templateMismatch .. => templateMismatch
  | .segmentCount .. => segmentCountMismatch
  | .unknownFormat _ => unknownFormat

def ofDirectoryError : DirectoryError → Reason
  | .notFound _ => unsupportedType
  | .templateNotFound .. => templateUnavailable
  | .schemaViolation .. => schemaViolation
  | _ => backend

end Reason

/-- Both written forms of a resource. -/
structure Conversion where
  fieldList : String
  /-- There is none if the type has no URN template. -/
  urn : Option String
  deriving DecidableEq, Repr

namespace Conversion

def recordEntries (c : Conversion) : List (String × Json) :=
  [("fieldList", .str c.fieldList), ("urn", (c.urn.map Json.str).getD .null)]

end Conversion

/-- What is to be said about an input. -/
structure Verdict where
  valid : Bool
  /-- The resource that the input names, as far as it could be read. -/
  parsed : Option Resource := none
  errors : List String := []
  warnings : List String := []
  reason : Option Reason := none
  conversion : Option Conversion := none
  deriving DecidableEq, Repr

namespace Verdict

def accepted (r : Resource) : Verdict := { valid := true, parsed := some r }

def rejected (reason : Reason) (error : String) : Verdict :=
  { valid := false, errors := [error], reason := some reason }

def withParsed (v : Verdict) (r : Resource) : Verdict := { v with parsed := some r }

/-- The verdict on an input that is not a resource name. -/
def ofParseError (e : ParseError) : Verdict := rejected (.ofParseError e) e.message

/-- The verdict on an input whose type the directory does not answer for. -/
def ofLookupFailure (typeKey : String) (e : DirectoryError) : Verdict :=
  if e.isNotFound then rejected .unsupportedType s!"unsupported resource type '{typeKey}'"
  else rejected (.ofDirectoryError e) e.message

end Verdict

end ResourceNames
