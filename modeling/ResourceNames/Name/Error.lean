/-!
# Why a text is not a resource name

`ParseError` holds the causes, `message` their wording, `code` the identifier under which tools
know them.
-/

namespace ResourceNames

/-- What is wrong with the form of a resource name or of a URN template. -/
inductive Malformed where
  /-- A field list that does not start with `ccrn=`. -/
  | notFieldList (input : String)
  /-- An entry without `=`. -/
  | noEquals (entry : String)
  /-- An entry with nothing before its `=`. -/
  | emptyKey (entry : String)
  /-- A second entry with the same key. -/
  | duplicateField (key : String)
  /-- A URN that does not start with `urn:ccrn:`. -/
  | notUrn (input : String)
  /-- A URN template that does not start with `urn:ccrn:`. -/
  | templateNotUrn (template : String)
  /-- A URN whose first two segments are not both there and non-empty. -/
  | noTypeKey (input : String)
  /-- A template that starts neither with `<ccrn>` nor with two non-empty segments. -/
  | templateHead (template : String)
  /-- A template with the segment `<ccrn>` after its head. -/
  | typeKeyInTail (template : String)
  /-- A URN with nothing where the template has a placeholder. -/
  | emptySegment (input segment : String)
  deriving DecidableEq, Repr

/-- Why a text is not a resource name. -/
inductive ParseError where
  | malformed (fault : Malformed)
  | missingField (name : String)
  | templateMismatch (expected actual : String)
  | segmentCount (template input : String) (expected found : Nat)
  | unknownFormat (input : String)
  deriving DecidableEq, Repr

namespace Malformed

def message : Malformed → String
  | notFieldList input => s!"'{input}' must start with 'ccrn='"
  | noEquals entry => s!"invalid field '{entry}' (must be key=value)"
  | emptyKey entry => s!"invalid field '{entry}' (empty key)"
  | duplicateField key => s!"duplicate field '{key}'"
  | notUrn input => s!"URN '{input}' must start with 'urn:ccrn:'"
  | templateNotUrn template => s!"URN template '{template}' must start with 'urn:ccrn:'"
  | noTypeKey input => s!"URN '{input}' must contain '<type>.<group>/<version>' after 'urn:ccrn:'"
  | templateHead template =>
    s!"URN template '{template}' must begin with '<ccrn>' or '<type>.<group>/<version>'"
  | typeKeyInTail template =>
    s!"URN template '{template}' may only use '<ccrn>' as its first segment"
  | emptySegment input segment => s!"URN '{input}' has an empty segment for '{segment}'"

end Malformed

namespace ParseError

def message : ParseError → String
  | malformed fault => "malformed input: " ++ fault.message
  | missingField name => s!"missing required field: {name}"
  | templateMismatch expected actual =>
    s!"URN segment '{actual}' does not match template segment '{expected}'"
  | segmentCount template input expected found =>
    s!"URN '{input}' has {found} segment(s) after the type key, template '{template}' " ++
      s!"expects {expected}"
  | unknownFormat input =>
    s!"unknown format: '{input}' must start with 'ccrn=' or 'urn:ccrn:'"

/-- The name of the kind of error. -/
def kind : ParseError → String
  | malformed _ => "MalformedInput"
  | missingField _ => "MissingRequiredField"
  | templateMismatch .. => "TemplateMismatch"
  | segmentCount .. => "SegmentCountMismatch"
  | unknownFormat _ => "UnknownFormat"

/-- The identifier of the kind of error. -/
def code : ParseError → String
  | malformed _ => "ccrn::parse::malformed"
  | missingField _ => "ccrn::parse::missing_field"
  | templateMismatch .. => "ccrn::parse::template_mismatch"
  | segmentCount .. => "ccrn::parse::segment_count"
  | unknownFormat _ => "ccrn::parse::unknown_format"

/-- Advice on what to write instead, where there is one. -/
def help? : ParseError → Option String
  | missingField _ =>
    some "every identifier must carry a non-empty \x60ccrn=<type>.<group>/<version>\x60 entry"
  | _ => none

end ParseError

end ResourceNames
