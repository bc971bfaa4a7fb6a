import ResourceNames.Json.Basic

/-!
# JSON text

`render` writes a value without blanks, `Layout` and `pretty` on indented lines. A text is quoted;
quotes, backslashes and control characters in it are escaped.
-/

namespace ResourceNames.Json

/-- A character as it stands in a quoted text. -/
def escape (c : Char) : List Char :=
  if c = '"' then ['\\', '"']
  else if c = '\\' then ['\\', '\\']
  else if c = '\n' then ['\\', 'n']
  else if c = '\r' then ['\\', 'r']
  else if c = '\t' then ['\\', 't']
  else if c.toNat = 8 then ['\\', 'b']
  else if c.toNat = 12 then ['\\', 'f']
  else if c.toNat < 0x20 then
    ['\\', 'u', '0', '0', Nat.digitChar (c.toNat / 16), Nat.digitChar (c.toNat % 16)]
  else [c]

/-- A text between quotes. -/
def quote (s : String) : String :=
  "\"" ++ String.ofList (s.toList.flatMap escape) ++ "\""

mutual

/-- The text of a value without blanks. -/
def render : Json → String
  | .null => "null"
  | .bool b => if b then "true" else "false"
  | .int n => toString n
  | .dec x => x.render Decimal.jsonStyle
  | .str s => quote s
  | .arr items => "[" ++ ",".intercalate (renderItems items) ++ "]"
  | .obj entries => "\x7b" ++ ",".intercalate (renderEntries entries) ++ "\x7d"

def renderItems : List Json → List String
  | [] => []
  | v :: vs => v.render :: renderItems vs

def renderEntries : List (String × Json) → List String
  | [] => []
  | (k, v) :: vs => (quote k ++ ":" ++ v.render) :: renderEntries vs

end

/-! ## Indented text -/

/-- A value to be written with its entries in a chosen order. -/
inductive Layout where
  | value (v : Json)
  | list (items : List Layout)
  | record (entries : List (String × Layout))
  deriving Inhabited

mutual

/-- The layout that keeps a value's own order. -/
def layout : Json → Layout
  | .arr items => .list (layoutItems items)
  | .obj entries => .record (layoutEntries entries)
  | v => .value v

def layoutItems : List Json → List Layout
  | [] => []
  | v :: vs => v.layout :: layoutItems vs

def layoutEntries : List (String × Json) → List (String × Layout)
  | [] => []
  | (k, v) :: vs => (k, v.layout) :: layoutEntries vs

end

namespace Layout

/-- Two blanks for each level. -/
def indent (level : Nat) : String := String.ofList (List.replicate (2 * level) ' ')

/-- Lines between brackets, one level further in. -/
def bracketed (opening closing : String) (level : Nat) (lines : List String) : String :=
  if lines.isEmpty then opening ++ closing
  else
    opening ++ "\n" ++ ",\n".intercalate (lines.map (indent (level + 1) ++ ·)) ++
      "\n" ++ indent level ++ closing

mutual

/-- The indented text, its first line at `level`. -/
def renderAt (level : Nat) : Layout → String
  | .value v => v.render
  | .list items => bracketed "[" "]" level (renderItemsAt (level + 1) items)
  | .record entries => bracketed "\x7b" "\x7d" level (renderEntriesAt (level + 1) entries)

def renderItemsAt (level : Nat) : List Layout → List String
  | [] => []
  | v :: vs => v.renderAt level :: renderItemsAt level vs

def renderEntriesAt (level : Nat) : List (String × Layout) → List String
  | [] => []
  | (k, v) :: vs => (quote k ++ ": " ++ v.renderAt level) :: renderEntriesAt level vs

end

mutual

/-- The value that a layout writes. -/
def content : Layout → Json
  | .value v => v
  | .list items => .arr (contentItems items)
  | .record entries => .object (contentEntries entries)

def contentItems : List Layout → List Json
  | [] => []
  | v :: vs => v.content :: contentItems vs

def contentEntries : List (String × Layout) → List (String × Json)
  | [] => []
  | (k, v) :: vs => (k, v.content) :: contentEntries vs

end

/-- The layout of an object whose entries stand in the given order. -/
def ofEntries (entries : List (String × Json)) : Layout :=
  .record (entries.map fun (k, v) => (k, v.layout))

/-- The indented text of a layout. -/
def pretty (l : Layout) : String := l.renderAt 0

end Layout

/-- The indented text of a value. -/
def pretty (v : Json) : String := v.layout.pretty

end ResourceNames.Json
