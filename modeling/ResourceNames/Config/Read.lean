import ResourceNames.Config.Basic
import ResourceNames.Yaml.Value

/-!
# Configuration files

`Config.ofFile` reads a YAML file. Entries that are not known do not count; those that are must be
of the right form and stand only once. Relative sources are seen from the directory of the file.
-/

namespace ResourceNames.Config

open Files

/-- The entries of a mapping with plain keys. -/
def nodeEntries? (d : Yaml.Document) (jumps : Nat) (entries : List (Yaml.Node × Yaml.Node)) :
    Option (List (String × Yaml.Node)) :=
  entries.mapM fun (k, v) =>
    match d.follow? jumps k with
    | some (.scalar _ key _, _) => some (key, v)
    | _ => none

/-- The one entry under a key. It is an error if there are several. -/
def only? (entries : List (String × α)) (key : String) : Option (Option α) :=
  match entries.filter fun e => e.1 = key with
  | [] => some none
  | [(_, v)] => some (some v)
  | _ => none

/-- An entry that may be left out. -/
def optional? (v : Json) (key : String) (default : α) (read? : Json → Option α) : Option α :=
  match v.get? key with
  | none => some default
  | some value => read? value

def texts? (v : Json) : Option (List String) := do (← v.items?).mapM Json.text?

/-- The backend that a record describes. -/
def backendOfRecord? (v : Json) : Option Backend := do
  let kind ← v.getText? "type"
  if kind = "static" then
    let patterns ← optional? v "sources" [] texts?
    let directories ← optional? v "directories" [] texts?
    some (.files patterns directories)
  else if kind = "live" then
    let namespaceName ← optional? v "namespace" defaultNamespace Json.text?
    let refreshInterval ←
      optional? v "refreshInterval" defaultRefreshInterval fun v => v.text?.bind Duration.parse?
    let dryRun ← optional? v "dryRun" false Json.bool?
    some (.live namespaceName refreshInterval dryRun)
  else none

/-- The entries that count for the backend of a kind, in their order. -/
def backendKeys (kind : String) : List String :=
  if kind = "static" then ["sources", "directories"]
  else ["namespace", "refreshInterval", "dryRun"]

/-- The record with the values of a list, the kind first. -/
def recordOfList? : List Json → Option Json
  | .str kind :: values =>
    let keys := backendKeys kind
    if keys.length < values.length then none
    else some (.object (("type", .str kind) :: keys.zip values))
  | _ => none

/-- Whether the entries that count stand only once. -/
def standOnce (d : Yaml.Document) (jumps : Nat) (n : Yaml.Node) (kind : String) : Bool :=
  match d.follow? jumps n with
  | some (.mapping _ entries, _) =>
    match nodeEntries? d jumps entries with
    | some entries => ("type" :: backendKeys kind).all fun key => (only? entries key).isSome
    | none => false
  | _ => true

/-- The backend that a node describes. -/
def backendOfNode? (d : Yaml.Document) (jumps : Nat) (n : Yaml.Node) : Option Backend := do
  let (v, _) ← d.value? (Yaml.maxDepth - 1) jumps n
  let record ←
    match v with
    | .arr items => recordOfList? items
    | v => some v
  if !standOnce d jumps n ((record.getText? "type").getD "") then none
  backendOfRecord? record

/-- The authority that a node names: the text of any scalar. -/
def authorityOfNode? (d : Yaml.Document) (jumps : Nat) (n : Yaml.Node) : Option String :=
  match d.follow? jumps n with
  | some (.scalar _ text _, _) => some text
  | _ => none

/-- The configuration that a document describes. -/
def ofDocument? (d : Yaml.Document) : Option Config := do
  let jumps := 100 * d.events
  let (authority, backend) ←
    match d.root with
    | .mapping _ entries => do
      let entries ← nodeEntries? d jumps entries
      let backend ← only? entries "backend"
      some (← only? entries "namingAuthority", ← backend)
    | .sequence _ [authority, backend] => some (some authority, backend)
    | _ => none
  let authority ←
    match authority with
    | some n => authorityOfNode? d jumps n
    | none => some defaultAuthority
  some ⟨authority, ← backendOfNode? d jumps backend⟩

/-- The configuration in a file. -/
def ofFile (fs : FileSystem) (path : String) : Except DirectoryError Config := do
  let content ← (fs.read path).mapError fun e => .io e.message
  match (Yaml.Document.ofText? content).bind ofDocument? with
  | some c => return c.relativeTo (parentPath path)
  | none => .error (.serialization "*")

end ResourceNames.Config
