import ResourceNames.Definition.Basic
import ResourceNames.Yaml.Value

/-!
# Documents in a text

A text may hold several documents, each after a line that starts with `---`.
-/

namespace ResourceNames

namespace Documents

/-- A line without the carriage return at its end. -/
def dropReturn (line : List Char) : List Char :=
  if line.getLast? = some '\r' then line.dropLast else line

/-- The lines of a text. A line break at the end does not start another line. -/
def lines (s : List Char) : List (List Char) :=
  let parts := s.splitOn '\n'
  let last := parts.getLast?.getD []
  (parts.dropLast.map dropReturn) ++ if last.isEmpty then [] else [last]

/-- Whether a line ends the document before it. -/
def isSeparator (line : List Char) : Bool := (Text.after? ['-', '-', '-'] line).isSome

/-- Whether a line is neither blank nor a comment. -/
def hasContent (line : List Char) : Bool :=
  match Text.trimStart line with
  | [] => false
  | c :: _ => c ≠ '#'

/-- The document made of some lines, unless it has no content. -/
def document? (lines : List (List Char)) (position : Nat) : Option (Nat × String) :=
  if lines.any hasContent then
    some (position, String.ofList (lines.flatMap fun line => line ++ ['\n']))
  else none

end Documents

/-- The documents of a text that have content, each with its position among all. -/
def splitDocuments (text : String) : List (Nat × String) :=
  let parts := (Documents.lines text.toList).splitOnP Documents.isSeparator
  parts.zipIdx.filterMap fun (lines, position) => Documents.document? lines position

/-- The value that a YAML text writes. What is wrong with a malformed text is not said. -/
def readYaml (text : String) : Except DirectoryError Json :=
  match Yaml.parse? text with
  | some v => .ok v
  | none => .error (.serialization "failed to parse YAML: *")

/-- The definition in a YAML document. -/
def Definition.ofYaml (text : String) : Except DirectoryError Definition := do
  ofJson (← readYaml text)

end ResourceNames
