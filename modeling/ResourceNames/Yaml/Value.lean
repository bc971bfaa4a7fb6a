import ResourceNames.Json.Parser
import ResourceNames.Text.Pieces
import ResourceNames.Yaml.Node

/-!
# JSON values of YAML documents

`Yaml.parse?` reads the document of a stream as a JSON value. A plain scalar is null, a truth value
or a number if it has the form of one, else a text. Keys are texts, whatever their form; of entries
with one key the last counts.
-/

namespace ResourceNames.Yaml

/-! ## Plain scalars -/

def isNullText (s : String) : Bool := s ∈ ["null", "Null", "NULL", "~"]

def boolOfText? (s : String) : Option Bool :=
  if s ∈ ["true", "True", "TRUE"] then some true
  else if s ∈ ["false", "False", "FALSE"] then some false
  else none

/-- A row of digits to the given base, with a sign in front if `signed`. -/
def digits? (base : Nat) (s : List Char) : Option Nat :=
  if s.isEmpty then none
  else do
    let ds ← s.mapM Json.hexDigit?
    if ds.all (· < base) then some (ds.foldl (fun n d => n * base + d) 0) else none

/-- Several digits of which the first is `0`: a text, not a number. -/
def hasIdleZero (s : List Char) : Bool :=
  let s :=
    match s with
    | '-' :: r => r
    | '+' :: r => r
    | r => r
  1 < s.length && s.head? == some '0' && s.all Char.isDigit

/-- A natural number: decimal, or to base 16, 8 or 2 after `0x`, `0o` or `0b`; perhaps after `+`. -/
def natOfText? (s : List Char) : Option Nat :=
  let body :=
    match s with
    | '+' :: r => r
    | r => r
  match body with
  | '0' :: 'x' :: r => digits? 16 r
  | '0' :: 'o' :: r => digits? 8 r
  | '0' :: 'b' :: r => digits? 2 r
  | _ => if hasIdleZero s then none else digits? 10 body

/-- The amount of a negative number, written like a natural number after `-`. -/
def negOfText? (s : List Char) : Option Nat :=
  match s with
  | '-' :: '0' :: 'x' :: r => digits? 16 r
  | '-' :: '0' :: 'o' :: r => digits? 8 r
  | '-' :: '0' :: 'b' :: r => digits? 2 r
  | '-' :: r => if hasIdleZero s then none else digits? 10 r
  | _ => none

/-- A decimal: digits with a point among, before or after them, and perhaps an exponent. -/
def decimalOfText? (s : List Char) : Option Decimal := do
  let (negative, s) :=
    match s with
    | '-' :: r => (true, r)
    | '+' :: r => (false, r)
    | r => (false, r)
  let (whole, rest) := Json.takeDigits s
  let (frac, rest) :=
    match rest with
    | '.' :: r => Json.takeDigits r
    | r => ([], r)
  if whole.isEmpty && frac.isEmpty then none
  let (exp, rest) ← Json.exponent? rest
  if !rest.isEmpty then none
  Decimal.ofScientific? negative (Json.digitsValue (whole ++ frac))
    (exp.getD 0 - (frac.length : Int))

def isNotFinite (s : String) : Bool :=
  s ∈ [".inf", ".Inf", ".INF", "+.inf", "+.Inf", "+.INF", "-.inf", "-.Inf", "-.INF", ".nan", ".NaN",
    ".NAN"]

/-- A whole number, `none` inside if it is too wide for 64 bits but not for 128. -/
def intOfText? (s : List Char) : Option (Option Int) :=
  match natOfText? s, negOfText? s with
  | some n, _ =>
    if n < twoTo 64 then some (some n) else if n < twoTo 128 then some none else none
  | none, some n =>
    if n ≤ twoTo 63 then some (some (-n)) else if n ≤ twoTo 127 then some none else none
  | none, none => none

/-- The value of a plain scalar. Whole numbers between 64 and 128 bits are refused, infinite
numbers count as null. -/
def plainValue? (text : String) : Option Json :=
  let s := text.toList
  if text.isEmpty || isNullText text then some .null
  else
    match boolOfText? text with
    | some b => some (.bool b)
    | none =>
      match intOfText? s with
      | some (some n) => some (.int n)
      | some none => none
      | none =>
        if isNotFinite text then some .null
        else if hasIdleZero s then some (.str text)
        else
          match decimalOfText? s with
          | some x => some (.dec x)
          | none => some (.str text)

/-- The value of a scalar: the standard tags ask for a form, tags of one's own are refused, and
every other tag makes it a text. -/
def scalarValue? (tag : Option String) (text : String) (plain : Bool) : Option Json :=
  let standard (name : String) := tag = some ("tag:yaml.org,2002:" ++ name)
  if tag.any (·.toList.head? = some '!') then none
  else if standard "bool" then (boolOfText? text).map .bool
  else if standard "int" then
    match intOfText? text.toList with
    | some (some n) => some (.int n)
    | _ => none
  else if standard "float" then
    if isNotFinite text then some .null else (decimalOfText? text.toList).map .dec
  else if standard "null" then if isNullText text then some .null else none
  else if tag.isNone && plain then plainValue? text
  else some (.str text)

/-! ## Documents -/

/-- The node that an alias stands for, the node itself if it is none, and how many more aliases may
be followed. -/
def Document.follow? (d : Document) (jumps : Nat) (n : Node) : Option (Node × Nat) :=
  match n with
  | .alias number =>
    match jumps with
    | 0 => none
    | jumps + 1 => (d.anchor? number).map (·, jumps)
  | n => some (n, jumps)

/-- Whether a collection may carry the tag: not one of one's own. -/
def collectionTag (tag : Option String) : Bool := !tag.any (·.toList.head? = some '!')

/-- The values of list items, each read by `value`, and how many more aliases may be followed. -/
def itemValues? (value : Nat → Node → Option (Json × Nat)) (jumps : Nat) :
    List Node → Option (List Json × Nat)
  | [] => some ([], jumps)
  | n :: ns => do
    let (v, jumps) ← value jumps n
    let (vs, jumps) ← itemValues? value jumps ns
    some (v :: vs, jumps)

/-- The entries `acc` with those of a mapping, whose values are read by `value`, and how many more
aliases may be followed. -/
def Document.entryValues? (d : Document) (value : Nat → Node → Option (Json × Nat)) (jumps : Nat)
    (acc : List (String × Json)) : List (Node × Node) → Option (List (String × Json) × Nat)
  | [] => some (acc, jumps)
  | (k, v) :: es => do
    let (k, jumps) ← d.follow? jumps k
    match k with
    | .scalar _ key _ =>
      let (v, jumps) ← value jumps v
      d.entryValues? value jumps (Entries.insert key v acc) es
    | _ => none

/-- The JSON value of a node with at most `depth` levels of collections, and how many more aliases
may be followed. -/
def Document.value? (d : Document) (depth jumps : Nat) (n : Node) : Option (Json × Nat) := do
  let (n, jumps) ← d.follow? jumps n
  match n, depth with
  | .scalar tag text plain, _ => (scalarValue? tag text plain).map (·, jumps)
  | .alias _, _ | .sequence .., 0 | .mapping .., 0 => none
  | .sequence tag items, depth + 1 =>
    if collectionTag tag then
      (itemValues? (d.value? depth) jumps items).map fun (vs, j) => (.arr vs, j)
    else none
  | .mapping tag entries, depth + 1 =>
    if collectionTag tag then
      (d.entryValues? (d.value? depth) jumps [] entries).map fun (es, j) => (.obj es, j)
    else none

/-- How deep collections may be nested. -/
def maxDepth : Nat := 128

/-- The JSON value of a document. -/
def Document.toJson? (d : Document) : Option Json :=
  (d.value? maxDepth (100 * d.events) d.root).map (·.1)

/-- The JSON value of the document of a stream. -/
def parse? (text : String) : Option Json := do (← Document.ofText? text).toJson?

end ResourceNames.Yaml
