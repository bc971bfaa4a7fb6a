import ResourceNames.Json.Parser
import ResourceNames.Regex.Basic

/-!
# Reading regular expressions

`Regex.parse?` reads the usual notation: sets with nested sets, ranges and set operations, groups,
flags, counted repetitions, anchors and conditions on what surrounds a place. `\d` and `\w` know
ASCII only. References to groups are refused.
-/

namespace ResourceNames.Regex

/-- The switches that flags in groups set. -/
structure Flags where
  anyCase : Bool := false
  multiLine : Bool := false
  dotAll : Bool := false
  verbose : Bool := false

/-- The blanks of `\s`. -/
def spaceChars : List Char :=
  [' ', '\t', '\n', '\r', '\x0b', '\x0c', '\u2003', '\uFEFF', '\u2029', '\u00A0']

/-- A set as the flags ask for it. -/
def Flags.set (f : Flags) (s : CharSet) : CharSet := if f.anyCase then .anyCase s else s

/-- The set that a letter after a backslash stands for. -/
def classEscape? (c : Char) : Option CharSet :=
  if c = 'd' then some .digit
  else if c = 'D' then some (.complement .digit)
  else if c = 'w' then some .word
  else if c = 'W' then some (.complement .word)
  else if c = 's' then some (.ofChars spaceChars)
  else if c = 'S' then some (.complement (.ofChars spaceChars))
  else none

/-- A character given by its number, of `n` digits or between braces. -/
def numbered? (n : Nat) (s : List Char) : Option (Char × List Char) := do
  let (digits, rest) ←
    match s with
    | '\x7b' :: s => do
      let digits := s.takeWhile (· ≠ '\x7d')
      let rest ← (s.dropWhile (· ≠ '\x7d')).tail?
      some (digits, rest)
    | s => if s.length < n then none else some (s.take n, s.drop n)
  if digits.isEmpty then none
  let values ← digits.mapM Json.hexDigit?
  let code := values.foldl (fun acc d => acc * 16 + d) 0
  if code.isValidChar then some (Char.ofNat code, rest) else none

/-- The single character that an escape stands for, whose backslash has been read. -/
def charEscape? (s : List Char) : Option (Char × List Char) := do
  match s with
  | [] => none
  | c :: rest =>
    if c = 'n' then some ('\n', rest)
    else if c = 't' then some ('\t', rest)
    else if c = 'r' then some ('\r', rest)
    else if c = 'f' then some ('\x0c', rest)
    else if c = 'v' then some ('\x0b', rest)
    else if c = 'a' then some ('\x07', rest)
    else if c = 'x' then numbered? 2 rest
    else if c = 'u' then numbered? 4 rest
    else if c = 'U' then numbered? 8 rest
    else if c = 'c' then
      match rest with
      | l :: rest => if l.isAlpha then some (Char.ofNat (l.toNat % 32), rest) else none
      | [] => none
    else if c.isAlphanum || c = '<' || c = '>' || 0x80 ≤ c.toNat then none
    else some (c, rest)

/-- The named sets of the form `[:name:]`. -/
def namedSet? (name : List Char) : Option CharSet :=
  let upper := CharSet.range 'A' 'Z'
  let lower := CharSet.range 'a' 'z'
  let sets : List (String × CharSet) :=
    [("alnum", .union [upper, lower, .digit]), ("alpha", .union [upper, lower]),
      ("ascii", .range '\x00' '\x7f'), ("blank", .ofChars [' ', '\t']),
      ("cntrl", .union [.range '\x00' '\x1f', .single '\x7f']), ("digit", .digit),
      ("graph", .range '!' '~'), ("lower", lower), ("print", .range ' ' '~'),
      ("punct", .union [.range '!' '/', .range ':' '@', .range '[' '\x60', .range '\x7b' '~']),
      ("space", .ofChars ['\t', '\n', '\x0b', '\x0c', '\r', ' ']), ("upper", upper),
      ("word", .word), ("xdigit", .union [.digit, .range 'A' 'F', .range 'a' 'f'])]
  (sets.find? (·.1.toList = name)).map (·.2)

/-- A named set, whose `[` has been read. -/
def readNamedSet? (s : List Char) : Option (CharSet × List Char) :=
  match s with
  | ':' :: s =>
    let (negated, s) :=
      match s with
      | '^' :: s => (true, s)
      | s => (false, s)
    let name := s.takeWhile Char.isAlpha
    match s.dropWhile Char.isAlpha, namedSet? name with
    | ':' :: ']' :: rest, some chars =>
      some (if negated then .complement chars else chars, rest)
    | _, _ => none
  | _ => none

/-- One end of a range in a set, or a set that an escape stands for. -/
def setAtom? (s : List Char) : Option ((Char ⊕ CharSet) × List Char) :=
  match s with
  | '\\' :: c :: rest =>
    match classEscape? c with
    | some chars => some (.inr chars, rest)
    | none => (charEscape? (c :: rest)).map fun (c, rest) => (.inl c, rest)
  | '\\' :: [] => none
  | c :: rest => some (.inl c, rest)
  | [] => none

/-- The operations between the parts of a set. -/
inductive SetOp where
  | both
  | except
  | oneSided

def SetOp.apply : Option SetOp → CharSet → CharSet → CharSet
  | none, _, b => b
  | some .both, a, b => .both a b
  | some .except, a, b => .except a b
  | some .oneSided, a, b => .oneSided a b

mutual

/-- A set, whose `[` has been read. -/
def readSet? (fuel : Nat) (s : List Char) : Option (CharSet × List Char) :=
  match fuel with
  | 0 => none
  | fuel + 1 =>
    let (negated, s) :=
      match s with
      | '^' :: s => (true, s)
      | s => (false, s)
    let dashes := s.takeWhile (· = '-')
    let s := s.dropWhile (· = '-')
    let first := if dashes.isEmpty then [] else [CharSet.single '-']
    let (first, s) :=
      match first, s with
      | [], ']' :: s => ([CharSet.single ']'], s)
      | first, s => (first, s)
    (readSetItems? fuel none .all first s).map fun (chars, rest) =>
      (if negated then .complement chars else chars, rest)

/-- The rest of a set: `left` and `op` are what stands before the last operation, `items` what
follows it so far. -/
def readSetItems? (fuel : Nat) (op : Option SetOp) (left : CharSet) (items : List CharSet)
    (s : List Char) : Option (CharSet × List Char) :=
  match fuel with
  | 0 => none
  | fuel + 1 =>
    let whole := SetOp.apply op left (.union items)
    match s with
    | [] => none
    | ']' :: rest => some (whole, rest)
    | '&' :: '&' :: rest => readSetItems? fuel (some .both) whole [] rest
    | '-' :: '-' :: rest => readSetItems? fuel (some .except) whole [] rest
    | '~' :: '~' :: rest => readSetItems? fuel (some .oneSided) whole [] rest
    | '[' :: rest =>
      match readNamedSet? rest with
      | some (chars, rest) => readSetItems? fuel op left (chars :: items) rest
      | none => do
        let (chars, rest) ← readSet? fuel rest
        readSetItems? fuel op left (chars :: items) rest
    | s => do
      let (atom, rest) ← setAtom? s
      match atom, rest with
      | .inr chars, rest => readSetItems? fuel op left (chars :: items) rest
      | .inl low, '-' :: next :: rest' =>
        if next = ']' ∨ next = '-' then readSetItems? fuel op left (.single low :: items) rest
        else
          let (high, rest) ← setAtom? (next :: rest')
          match high with
          | .inl high =>
            if high < low then none
            else readSetItems? fuel op left (.range low high :: items) rest
          | .inr _ => none
      | .inl c, rest => readSetItems? fuel op left (.single c :: items) rest

end

/-- A counted repetition, whose opening brace has been read. -/
def readCount? (s : List Char) : Option (Nat × Option Nat × List Char) :=
  let (low, s) := Json.takeDigits s
  if low.isEmpty then none
  else
    let n := Json.digitsValue low
    match s with
    | '\x7d' :: rest => some (n, some n, rest)
    | ',' :: '\x7d' :: rest => some (n, none, rest)
    | ',' :: s =>
      let (high, s) := Json.takeDigits s
      match s with
      | '\x7d' :: rest =>
        let m := Json.digitsValue high
        if high.isEmpty || m < n then none else some (n, some m, rest)
      | _ => none
    | _ => none

/-- Flags up to the `:` or `)` behind them. -/
def readFlags? (f : Flags) (on : Bool) : List Char → Option (Flags × Char × List Char)
  | [] => none
  | c :: rest =>
    if c = ':' ∨ c = ')' then some (f, c, rest)
    else if c = '-' then if on then readFlags? f false rest else none
    else if c = 'i' then readFlags? { f with anyCase := on } on rest
    else if c = 'm' then readFlags? { f with multiLine := on } on rest
    else if c = 's' then readFlags? { f with dotAll := on } on rest
    else if c = 'x' then readFlags? { f with verbose := on } on rest
    else if c ∈ ['U', 'u', 'R'] then readFlags? f on rest
    else none

/-- What follows the name of a group. -/
def groupName? (s : List Char) : Option (List Char) :=
  let name := s.takeWhile (· ≠ '>')
  let ok := name.all fun c => c.isAlphanum || c = '_' || c = '.' || c = '[' || c = ']'
  if name.isEmpty || !ok || name.any fun c => name.head? == some c && c.isDigit then none
  else (s.dropWhile (· ≠ '>')).tail?

/-- Blanks and comments, which do not count in verbose patterns. -/
def skipVerbose (f : Flags) : Nat → List Char → List Char
  | 0, s => s
  | fuel + 1, s =>
    if f.verbose then
      match s with
      | '#' :: rest => skipVerbose f fuel (rest.dropWhile (· ≠ '\n'))
      | c :: rest => if Text.isBlank c then skipVerbose f fuel rest else c :: rest
      | [] => []
    else s

/-- Whether an expression may be repeated. -/
def repeatable : Regex → Bool
  | .empty | .anchor _ | .look _ _ _ => false
  | _ => true

/-- What follows the mark that makes a repetition lazy or possessive. -/
def afterMark (s : List Char) : List Char :=
  match s with
  | '?' :: rest => rest
  | '+' :: rest => rest
  | s => s

/-- The repetition after an atom, if there is one. -/
def readRepeat? (f : Flags) (r : Regex) (s : List Char) : Option (Regex × List Char) :=
  let counted (low : Nat) (high : Option Nat) (rest : List Char) :=
    if repeatable r then some (.repeated r low high, afterMark rest) else none
  match skipVerbose f (s.length + 1) s with
  | '*' :: rest => counted 0 none rest
  | '+' :: rest => counted 1 none rest
  | '?' :: rest => counted 0 (some 1) rest
  | '\x7b' :: rest => do
    let (low, high, rest) ← readCount? rest
    counted low high rest
  | s => some (r, s)

mutual

/-- Alternatives up to the end or a closing parenthesis. -/
def readAlternatives? (fuel : Nat) (f : Flags) (s : List Char) :
    Option (Regex × List Char) :=
  match fuel with
  | 0 => none
  | fuel + 1 => do
    let (first, f, rest) ← readSequence? fuel f [] s
    match rest with
    | '|' :: rest =>
      let (others, rest) ← readAlternatives? fuel f rest
      some (.alt first others, rest)
    | rest => some (first, rest)

/-- Repeated atoms, `acc` those before in reverse. Flags set on the way stay set. -/
def readSequence? (fuel : Nat) (f : Flags) (acc : List Regex) (s : List Char) :
    Option (Regex × Flags × List Char) :=
  match fuel with
  | 0 => none
  | fuel + 1 =>
    match skipVerbose f (s.length + 1) s with
    | [] => some (ofSeq acc.reverse, f, [])
    | '|' :: rest => some (ofSeq acc.reverse, f, '|' :: rest)
    | ')' :: rest => some (ofSeq acc.reverse, f, ')' :: rest)
    | s => do
      let (atom?, f, rest) ← readAtom? fuel f s
      match atom? with
      | none => readSequence? fuel f acc rest
      | some atom =>
        let (r, rest) ← readRepeat? f atom rest
        readSequence? fuel f (r :: acc) rest

/-- One atom; a group of flags alone is none and changes the flags. -/
def readAtom? (fuel : Nat) (f : Flags) (s : List Char) :
    Option (Option Regex × Flags × List Char) :=
  match fuel with
  | 0 => none
  | fuel + 1 =>
    let atom (r : Regex) (rest : List Char) := some (some r, f, rest)
    let group (f' : Flags) (wrap : Regex → Regex) (s : List Char) :
        Option (Option Regex × Flags × List Char) := do
      let (r, rest) ← readAlternatives? fuel f' s
      match rest with
      | ')' :: rest => some (some (wrap r), f, rest)
      | _ => none
    match s with
    | [] => none
    | '(' :: '?' :: '=' :: s => group f (.look true false) s
    | '(' :: '?' :: '!' :: s => group f (.look true true) s
    | '(' :: '?' :: '<' :: '=' :: s => group f (.look false false) s
    | '(' :: '?' :: '<' :: '!' :: s => group f (.look false true) s
    | '(' :: '?' :: 'P' :: '<' :: s => (groupName? s).bind (group f id)
    | '(' :: '?' :: '<' :: s => (groupName? s).bind (group f id)
    | '(' :: '?' :: s => do
      let (f', stop, rest) ← readFlags? f true s
      if stop = ')' then if s.head? = some ')' then none else some (none, f', rest)
      else group f' id rest
    | '(' :: s => group f id s
    | '[' :: s => do
      let (chars, rest) ← readSet? fuel s
      atom (.set (f.set chars)) rest
    | '.' :: rest =>
      atom (.set (if f.dotAll then .all else .complement (.single '\n'))) rest
    | '^' :: rest => atom (.anchor (if f.multiLine then .lineStart else .textStart)) rest
    | '$' :: rest => atom (.anchor (if f.multiLine then .lineEnd else .textEnd)) rest
    | '*' :: _ | '+' :: _ | '?' :: _ | '\x7b' :: _ => none
    | '\\' :: 'A' :: rest => atom (.anchor .textStart) rest
    | '\\' :: 'z' :: rest => atom (.anchor .textEnd) rest
    | '\\' :: 'b' :: rest => atom (.anchor .wordBoundary) rest
    | '\\' :: 'B' :: rest => atom (.anchor .noWordBoundary) rest
    | '\\' :: c :: rest =>
      match classEscape? c with
      | some chars => atom (.set chars) rest
      | none => do
        let (c, rest) ← charEscape? (c :: rest)
        atom (.set (f.set (.single c))) rest
    | '\\' :: [] => none
    | c :: rest => atom (.set (f.set (.single c))) rest

end

/-- The regular expression that a text writes, unless it is malformed. -/
def parse? (pattern : String) : Option Regex :=
  let s := pattern.toList
  match readAlternatives? (4 * s.length + 8) {} s with
  | some (r, []) => some r
  | _ => none

end ResourceNames.Regex
