import ResourceNames.Json.Basic

/-!
# Reading JSON text

`Json.parse?` reads one value, with blanks around it and nothing else. Of entries with one key the
last counts. Whole numbers beyond 64 bits are read as decimals; a decimal too large for the 64-bit
binary format, a lone surrogate and more than 127 levels of nesting are refused.
-/

namespace ResourceNames.Json

/-- Blanks between the tokens of JSON text. -/
def isJsonBlank (c : Char) : Bool := c = ' ' || c = '\n' || c = '\t' || c = '\r'

def skipBlanks (s : List Char) : List Char := s.dropWhile isJsonBlank

/-- The number that a digit to base 16 stands for. -/
def hexDigit? (c : Char) : Option Nat :=
  if c.isDigit then some (c.toNat - '0'.toNat)
  else if 'a' ≤ c ∧ c ≤ 'f' then some (c.toNat - 'a'.toNat + 10)
  else if 'A' ≤ c ∧ c ≤ 'F' then some (c.toNat - 'A'.toNat + 10)
  else none

/-- Four digits to base 16. -/
def hex4? : List Char → Option (Nat × List Char)
  | a :: b :: c :: d :: rest => do
    let a ← hexDigit? a
    let b ← hexDigit? b
    let c ← hexDigit? c
    let d ← hexDigit? d
    some (((a * 16 + b) * 16 + c) * 16 + d, rest)
  | _ => none

/-- The character of a `\u` escape, whose `\u` has been read; characters beyond the first plane are
written as two escapes. -/
def unicodeEscape? (s : List Char) : Option (Char × List Char) := do
  let (high, rest) ← hex4? s
  if 0xD800 ≤ high ∧ high < 0xDC00 then
    match rest with
    | '\\' :: 'u' :: rest =>
      let (low, rest) ← hex4? rest
      if 0xDC00 ≤ low ∧ low < 0xE000 then
        some (Char.ofNat (0x10000 + (high - 0xD800) * 0x400 + (low - 0xDC00)), rest)
      else none
    | _ => none
  else if 0xDC00 ≤ high ∧ high < 0xE000 then none
  else some (Char.ofNat high, rest)

/-- The characters of a quoted text, whose opening quote has been read, in reverse. -/
def quotedRest? : Nat → List Char → List Char → Option (List Char × List Char)
  | 0, _, _ => none
  | fuel + 1, acc, s =>
    match s with
    | [] => none
    | '"' :: rest => some (acc, rest)
    | '\\' :: 'u' :: rest => do
      let (c, rest) ← unicodeEscape? rest
      quotedRest? fuel (c :: acc) rest
    | '\\' :: e :: rest =>
      let plain : Option Char :=
        if e = '"' ∨ e = '\\' ∨ e = '/' then some e
        else if e = 'b' then some '\x08'
        else if e = 'f' then some '\x0c'
        else if e = 'n' then some '\n'
        else if e = 'r' then some '\r'
        else if e = 't' then some '\t'
        else none
      match plain with
      | some c => quotedRest? fuel (c :: acc) rest
      | none => none
    | c :: rest => if c.toNat < 0x20 then none else quotedRest? fuel (c :: acc) rest

/-- A quoted text, whose opening quote has been read. -/
def quoted? (s : List Char) : Option (String × List Char) :=
  (quotedRest? (s.length + 1) [] s).map fun (cs, rest) => (String.ofList cs.reverse, rest)

/-- The number that a row of decimal digits stands for. -/
def digitsValue (ds : List Char) : Nat :=
  ds.foldl (fun n d => n * 10 + (d.toNat - '0'.toNat)) 0

/-- The longest row of digits in front. -/
def takeDigits (s : List Char) : List Char × List Char :=
  (s.takeWhile Char.isDigit, s.dropWhile Char.isDigit)

/-- The digits after the point, if there is one. -/
def fraction? : List Char → Option (Option (List Char) × List Char)
  | '.' :: rest =>
    let (ds, rest) := takeDigits rest
    if ds.isEmpty then none else some (some ds, rest)
  | s => some (none, s)

/-- The exponent, if there is one. -/
def exponent? : List Char → Option (Option Int × List Char)
  | c :: rest =>
    if c = 'e' ∨ c = 'E' then
      let (negative, rest) :=
        match rest with
        | '-' :: r => (true, r)
        | '+' :: r => (false, r)
        | r => (false, r)
      let (ds, rest) := takeDigits rest
      if ds.isEmpty then none
      else
        let n : Int := digitsValue ds
        some (some (if negative then -n else n), rest)
    else some (none, c :: rest)
  | [] => some (none, [])

/-- A number, whose sign has been read. -/
def number? (negative : Bool) (s : List Char) : Option (Json × List Char) := do
  let (ds, rest) := takeDigits s
  if ds.isEmpty ∨ (ds.head? = some '0' ∧ 1 < ds.length) then none
  else
    let (frac, rest) ← fraction? rest
    let (exp, rest) ← exponent? rest
    match frac, exp with
    | none, none =>
      let n := digitsValue ds
      let value : Int := if negative then -n else n
      if (negative ∧ n = 0) ∨ value < -(twoTo 63 : Int) ∨ (twoTo 64 : Int) ≤ value then
        let x ← Decimal.ofScientific? negative n 0
        some (.dec x, rest)
      else some (.int value, rest)
    | _, _ =>
      let frac := frac.getD []
      let x ← Decimal.ofScientific? negative (digitsValue (ds ++ frac))
        (exp.getD 0 - (frac.length : Int))
      some (.dec x, rest)

mutual

/-- A value in front of a text; `fuel` bounds the steps, `depth` the levels that are left. -/
def readValue? (fuel depth : Nat) (s : List Char) : Option (Json × List Char) :=
  match fuel with
  | 0 => none
  | fuel + 1 =>
    match skipBlanks s with
    | 'n' :: 'u' :: 'l' :: 'l' :: rest => some (.null, rest)
    | 't' :: 'r' :: 'u' :: 'e' :: rest => some (.bool true, rest)
    | 'f' :: 'a' :: 'l' :: 's' :: 'e' :: rest => some (.bool false, rest)
    | '"' :: rest => (quoted? rest).map fun (t, rest) => (.str t, rest)
    | '-' :: rest => number? true rest
    | '[' :: rest =>
      match depth with
      | 0 => none
      | depth + 1 =>
        match skipBlanks rest with
        | ']' :: rest => some (.arr [], rest)
        | rest => (readItems? fuel depth [] rest).map fun (vs, rest) => (.arr vs.reverse, rest)
    | '\x7b' :: rest =>
      match depth with
      | 0 => none
      | depth + 1 =>
        match skipBlanks rest with
        | '\x7d' :: rest => some (.obj [], rest)
        | rest => (readMembers? fuel depth [] rest).map fun (es, rest) => (.obj es, rest)
    | rest => number? false rest

/-- The items of a list from one on, `acc` those before it in reverse. -/
def readItems? (fuel depth : Nat) (acc : List Json) (s : List Char) :
    Option (List Json × List Char) :=
  match fuel with
  | 0 => none
  | fuel + 1 => do
    let (v, rest) ← readValue? fuel depth s
    match skipBlanks rest with
    | ',' :: rest => readItems? fuel depth (v :: acc) rest
    | ']' :: rest => some (v :: acc, rest)
    | _ => none

/-- The entries of an object from one on, `acc` those before it. -/
def readMembers? (fuel depth : Nat) (acc : List (String × Json)) (s : List Char) :
    Option (List (String × Json) × List Char) :=
  match fuel with
  | 0 => none
  | fuel + 1 =>
    match skipBlanks s with
    | '"' :: rest => do
      let (k, rest) ← quoted? rest
      match skipBlanks rest with
      | ':' :: rest =>
        let (v, rest) ← readValue? fuel depth rest
        let acc := Entries.insert k v acc
        match skipBlanks rest with
        | ',' :: rest => readMembers? fuel depth acc rest
        | '\x7d' :: rest => some (acc, rest)
        | _ => none
      | _ => none
    | _ => none

end

/-- The value that a text holds. -/
def parse? (s : String) : Option Json :=
  let cs := s.toList
  match readValue? (cs.length + 1) 127 cs with
  | some (v, rest) => if (skipBlanks rest).isEmpty then some v else none
  | none => none

end ResourceNames.Json
