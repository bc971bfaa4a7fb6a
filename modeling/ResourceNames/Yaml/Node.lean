import ResourceNames.Yaml.Token

/-!
# YAML documents

`Document.ofText?` reads the one document of a stream as a tree of nodes. Aliases keep the number
of the anchor they name; the nodes that carry anchors stand in a list beside the tree.
-/

namespace ResourceNames.Yaml

/-- A node of a document. -/
inductive Node where
  | scalar (tag : Option String) (text : String) (plain : Bool)
  | alias (anchor : Nat)
  | sequence (tag : Option String) (items : List Node)
  | mapping (tag : Option String) (entries : List (Node × Node))
  deriving Repr, Inhabited

namespace Node

/-- The node that stands for what is left out. -/
def missing : Node := .scalar none "" true

mutual

/-- Number of scalars, aliases and ends of collections in a node. -/
def events : Node → Nat
  | .scalar .. => 1
  | .alias _ => 1
  | .sequence _ items => 2 + eventsOfItems items
  | .mapping _ entries => 2 + eventsOfEntries entries

def eventsOfItems : List Node → Nat
  | [] => 0
  | n :: ns => n.events + eventsOfItems ns

def eventsOfEntries : List (Node × Node) → Nat
  | [] => 0
  | (k, v) :: es => k.events + v.events + eventsOfEntries es

end

end Node

/-- A document: its root, and each anchored node under the number of its anchor, latest first. -/
structure Document where
  root : Node
  anchored : List (Nat × Node) := []

namespace Document

/-- What is known while the tokens of a document are read: the tokens that are left, the numbers of
the anchors' names, the places of anchored nodes by the order in which they begin, and the texts
that tag handles stand for. -/
structure Reading where
  tokens : List Token
  names : List (String × Nat) := []
  started : Nat := 0
  anchored : List (Nat × Nat × Node) := []
  handles : List (String × String) := []

namespace Reading

def peek? (r : Reading) : Option Token := r.tokens.head?

def at? (r : Reading) (t : Token) : Bool := r.tokens.head? == some t

def skip (r : Reading) : Reading := { r with tokens := r.tokens.tail }

/-- Whether the next token is one of those that end or separate entries. -/
def atAny (r : Reading) (ts : List Token) : Bool :=
  match r.tokens.head? with
  | none => true
  | some t => t ∈ ts

/-- Gives the name of an anchor its number. A name that comes again gets a new number: that of the
next new name. -/
def nameAnchor (r : Reading) (name : String) : Nat × Reading :=
  let number := r.names.length
  (number, { r with names := (name, number) :: r.names.filter (·.1 ≠ name) })

end Reading

/-- Anchor and tag in front of a node, in either order. -/
def properties (r : Reading) : Option String × Option (String × String) × Reading :=
  match r.tokens with
  | .anchor a :: .tag h s :: rest => (some a, some (h, s), { r with tokens := rest })
  | .tag h s :: .anchor a :: rest => (some a, some (h, s), { r with tokens := rest })
  | .anchor a :: rest => (some a, none, { r with tokens := rest })
  | .tag h s :: rest => (none, some (h, s), { r with tokens := rest })
  | _ => (none, none, r)

/-- The full text of a tag, whose handle must be known. -/
def fullTag (r : Reading) : Option (String × String) → Option (Option String)
  | none => some none
  | some (handle, suffix) =>
    if handle.isEmpty then some (some suffix)
    else
      match r.handles.find? (·.1 = handle) with
      | some (_, lead) => some (some (lead ++ suffix))
      | none => none

/-- Where the readings of nodes differ: which kinds of block may begin. -/
inductive Place where
  /-- Inside brackets: no block. -/
  | flow
  /-- As a list item: any block. -/
  | item
  /-- As a key or value: any block, and list items that are not indented. -/
  | entry
  deriving DecidableEq

/-- What may stand where an entry of a mapping between brackets ends. -/
def mappingStops : List Token := [.flowEntry, .flowMappingEnd]

/-- What may stand where an item of a sequence between brackets ends. -/
def sequenceStops : List Token := [.flowEntry, .flowSequenceEnd]

/-- What may stand where a key or value of a block ends. -/
def blockStops : List Token := [.key, .value, .blockEnd]

mutual

/-- The node in front. -/
def node (fuel : Nat) (place : Place) (r : Reading) : Option (Node × Reading) :=
  match fuel with
  | 0 => none
  | fuel + 1 =>
    match r.tokens with
    | .alias name :: rest =>
      match r.names.find? (·.1 = name) with
      | some (_, number) => some (.alias number, { r with tokens := rest })
      | none => none
    | _ => do
      let (anchor?, tag?, r) := properties r
      let tag ← fullTag r tag?
      let (number?, r) :=
        match anchor? with
        | some name =>
          let (n, r) := r.nameAnchor name
          (some n, r)
        | none => (none, r)
      let order := r.started
      let r := { r with started := order + 1 }
      let (n, r) ← content fuel place tag (anchor?.isSome || tag.isSome) r
      let r :=
        match number? with
        | some number => { r with anchored := (number, order, n) :: r.anchored }
        | none => r
      some (n, r)

/-- What follows the properties of a node; after properties it may be missing. -/
def content (fuel : Nat) (place : Place) (tag : Option String) (optional : Bool) (r : Reading) :
    Option (Node × Reading) :=
  match fuel with
  | 0 => none
  | fuel + 1 =>
    match r.tokens with
    | .scalar text plain :: rest =>
      let r := { r with tokens := rest }
      some (.scalar (if tag = some "!" then none else tag) text plain, r)
    | .flowSequenceStart :: rest => do
      let (items, r) ← flowItems fuel true [] { r with tokens := rest }
      some (.sequence tag items.reverse, r)
    | .flowMappingStart :: rest => do
      let (entries, r) ← flowEntries fuel true [] { r with tokens := rest }
      some (.mapping tag entries.reverse, r)
    | t :: rest =>
      if t = .blockEntry ∧ place = .entry then do
        let (items, r) ← looseItems fuel [] r
        some (.sequence tag items.reverse, r)
      else if t = .blockSequenceStart ∧ place ≠ .flow then do
        let (items, r) ← blockItems fuel [] { r with tokens := rest }
        some (.sequence tag items.reverse, r)
      else if t = .blockMappingStart ∧ place ≠ .flow then do
        let (entries, r) ← blockEntries fuel [] { r with tokens := rest }
        some (.mapping tag entries.reverse, r)
      else if optional then some (.scalar tag "" true, r)
      else none
    | [] => if optional then some (.scalar tag "" true, r) else none

/-- The items of an indented list, in reverse. -/
def blockItems (fuel : Nat) (acc : List Node) (r : Reading) : Option (List Node × Reading) :=
  match fuel with
  | 0 => none
  | fuel + 1 =>
    if r.at? .blockEntry then do
      let r := r.skip
      if r.atAny [.blockEntry, .blockEnd] then blockItems fuel (.missing :: acc) r
      else
        let (n, r) ← node fuel .item r
        blockItems fuel (n :: acc) r
    else if r.at? .blockEnd then some (acc, r.skip)
    else none

/-- The items of a list that is not indented, in reverse. -/
def looseItems (fuel : Nat) (acc : List Node) (r : Reading) : Option (List Node × Reading) :=
  match fuel with
  | 0 => none
  | fuel + 1 =>
    if r.at? .blockEntry then do
      let r := r.skip
      if r.atAny (.blockEntry :: blockStops) then looseItems fuel (.missing :: acc) r
      else
        let (n, r) ← node fuel .item r
        looseItems fuel (n :: acc) r
    else some (acc, r)

/-- The entries of an indented mapping, in reverse. -/
def blockEntries (fuel : Nat) (acc : List (Node × Node)) (r : Reading) :
    Option (List (Node × Node) × Reading) :=
  match fuel with
  | 0 => none
  | fuel + 1 =>
    if r.at? .key then do
      let r := r.skip
      let (k, r) ← if r.atAny blockStops then some (.missing, r) else node fuel .entry r
      let (v, r) ←
        if r.at? .value then
          let r := r.skip
          if r.atAny blockStops then some (.missing, r) else node fuel .entry r
        else some (.missing, r)
      blockEntries fuel ((k, v) :: acc) r
    else if r.at? .blockEnd then some (acc, r.skip)
    else none

/-- The items of a sequence between brackets, in reverse. A key among them makes a mapping of one
entry. -/
def flowItems (fuel : Nat) (first : Bool) (acc : List Node) (r : Reading) :
    Option (List Node × Reading) :=
  match fuel with
  | 0 => none
  | fuel + 1 =>
    if r.at? .flowSequenceEnd then some (acc, r.skip)
    else if !first && !r.at? .flowEntry then none
    else do
      let r := if first then r else r.skip
      if r.at? .key then
        let r := r.skip
        let (k, r) ←
          if r.atAny (.value :: sequenceStops) then some (.missing, r.skip)
          else node fuel .flow r
        let (v, r) ←
          if r.at? .value then
            let r := r.skip
            if r.atAny sequenceStops then some (.missing, r) else node fuel .flow r
          else some (.missing, r)
        flowItems fuel false (.mapping none [(k, v)] :: acc) r
      else if r.at? .flowSequenceEnd then some (acc, r.skip)
      else
        let (n, r) ← node fuel .flow r
        flowItems fuel false (n :: acc) r

/-- The entries of a mapping between brackets, in reverse. -/
def flowEntries (fuel : Nat) (first : Bool) (acc : List (Node × Node)) (r : Reading) :
    Option (List (Node × Node) × Reading) :=
  match fuel with
  | 0 => none
  | fuel + 1 =>
    if r.at? .flowMappingEnd then some (acc, r.skip)
    else if !first && !r.at? .flowEntry then none
    else do
      let r := if first then r else r.skip
      if r.at? .key then
        let r := r.skip
        let (k, r) ←
          if r.atAny (.value :: mappingStops) then some (.missing, r) else node fuel .flow r
        let (v, r) ←
          if r.at? .value then
            let r := r.skip
            if r.atAny mappingStops then some (.missing, r) else node fuel .flow r
          else some (.missing, r)
        flowEntries fuel false ((k, v) :: acc) r
      else if r.at? .flowMappingEnd then some (acc, r.skip)
      else
        let (k, r) ← node fuel .flow r
        flowEntries fuel false ((k, .missing) :: acc) r

end

/-! ## The document of a stream -/

/-- The handles that need no directive. -/
def defaultHandles : List (String × String) := [("!", "!"), ("!!", "tag:yaml.org,2002:")]

/-- Reads the directives in front of a document: at most one version, 1.1 or 1.2, and at most one
text for each handle. -/
def directives : (versioned : Bool) → (handles : List (String × String)) → List Token →
    Option (List (String × String) × List Token)
  | versioned, handles, .versionDirective major minor :: rest =>
    if versioned || major ≠ 1 || (minor ≠ 1 && minor ≠ 2) then none
    else directives true handles rest
  | versioned, handles, .tagDirective handle lead :: rest =>
    if handles.any (·.1 = handle) then none
    else directives versioned ((handle, lead) :: handles) rest
  | _, handles, rest => some (handles, rest)

/-- The tokens that may follow the start of a document whose content is missing. -/
def isOutside : Token → Bool
  | .versionDirective .. | .tagDirective .. | .documentStart | .documentEnd => true
  | _ => false

/-- The document of a stream of tokens, which must be the only one; an empty stream counts as a
document with nothing in it. -/
def ofTokens? (tokens : List Token) : Option Document := do
  let (handles, rest) ← directives false [] tokens
  let known := handles ++ defaultHandles.filter fun d => !handles.any (·.1 = d.1)
  let explicit := rest.head? == some .documentStart
  if tokens.isEmpty then some ⟨.missing, []⟩
  else if !explicit && tokens.head?.any fun t =>
      match t with
      | .versionDirective .. | .tagDirective .. => true
      | _ => false then none
  else
    let rest := if explicit then rest.tail else rest
    let r : Reading := { tokens := rest, handles := known }
    let (root, r) ←
      if explicit && (rest.isEmpty || rest.head?.any isOutside) then some (.missing, r)
      else node (4 * rest.length + 16) .item r
    if r.tokens.all (· = .documentEnd) then
      let byStart := r.anchored.mergeSort fun a b => b.2.1 ≤ a.2.1
      some ⟨root, byStart.map fun (number, _, n) => (number, n)⟩
    else none

/-- The document of a stream. -/
def ofText? (text : String) : Option Document := do
  ofTokens? (← Token.ofText? text)

/-- The node that carries the anchor of the given number. -/
def anchor? (d : Document) (number : Nat) : Option Node :=
  (d.anchored.find? (·.1 = number)).map (·.2)

/-- Number of events in the stream of a document's nodes. -/
def events (d : Document) : Nat := d.root.events

end Document

end ResourceNames.Yaml
