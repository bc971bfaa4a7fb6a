import ResourceNames.Text.Blank
import ResourceNames.Text.LowerCase

/-!
# Regular expressions

`Regex.ends` gives the places where a match that starts at a place may end; `occursIn` asks whether
there is a match anywhere in a text. Only whether there is one counts, so it makes no difference
which of several matches comes first.
-/

namespace ResourceNames

/-- A set of characters. -/
inductive CharSet where
  | all
  | range (low high : Char)
  /-- The characters with the Unicode property `White_Space`. -/
  | blank
  | union (members : List CharSet)
  | both (a b : CharSet)
  | except (a b : CharSet)
  | oneSided (a b : CharSet)
  | complement (a : CharSet)
  /-- The set with the other cases of its letters. -/
  | anyCase (a : CharSet)
  deriving Repr, Inhabited

namespace CharSet

def single (c : Char) : CharSet := .range c c

def ofChars (cs : List Char) : CharSet := .union (cs.map single)

def digit : CharSet := .range '0' '9'

def word : CharSet := .union [.range 'A' 'Z', .range 'a' 'z', .range '0' '9', single '_']

/-- The letter that all cases of a letter have in common. -/
def folded (c : Char) : Char :=
  if c = 'ſ' then 's' else if c = 'ς' then 'σ' else Text.lowerChar c

/-- The characters that differ from `c` only in case. -/
def cases (c : Char) : List Char :=
  let f := folded c
  let capitals := Text.lowerCaseRuns.filterMap fun r =>
    let m := ((f.toNat : Int) - r.shift).toNat
    if r.first ≤ m ∧ m ≤ r.last ∧ (m - r.first) % r.step = 0 then some (Char.ofNat m) else none
  let further := if f = 's' then ['ſ'] else if f = 'σ' then ['ς'] else []
  c :: f :: (further ++ capitals)

mutual

/-- Whether a set holds a character. -/
def holds : CharSet → Char → Bool
  | all, _ => true
  | range low high, c => low ≤ c && c ≤ high
  | blank, c => Text.isBlank c
  | union members, c => anyHolds members c
  | both a b, c => a.holds c && b.holds c
  | except a b, c => a.holds c && !b.holds c
  | oneSided a b, c => a.holds c != b.holds c
  | complement a, c => !a.holds c
  | anyCase a, c => (cases c).any fun d => a.holds d

def anyHolds : List CharSet → Char → Bool
  | [], _ => false
  | s :: rest, c => s.holds c || anyHolds rest c

end

end CharSet

/-- A condition on a place in a text. -/
inductive Anchor where
  | textStart
  | textEnd
  | lineStart
  | lineEnd
  | wordBoundary
  | noWordBoundary
  deriving DecidableEq, Repr

/-- A regular expression. -/
inductive Regex where
  | empty
  | set (s : CharSet)
  | seq (a b : Regex)
  | alt (a b : Regex)
  | repeated (r : Regex) (min : Nat) (max : Option Nat)
  | anchor (a : Anchor)
  /-- A condition on what follows a place, or on what precedes it. -/
  | look (ahead negated : Bool) (r : Regex)
  deriving Repr, Inhabited

namespace Regex

def isWordAt (s : Array Char) (i : Nat) : Bool :=
  match s[i]? with
  | some c => CharSet.word.holds c || (0x80 ≤ c.toNat && Text.isCased c)
  | none => false

/-- Whether a word begins or ends at place `i`. -/
def atBoundary (s : Array Char) (i : Nat) : Bool :=
  (0 < i && isWordAt s (i - 1)) != isWordAt s i

namespace Anchor

/-- Whether the condition is met at place `i`. -/
def holdsAt (s : Array Char) (i : Nat) : Anchor → Bool
  | .textStart => i = 0
  | .textEnd => i = s.size
  | .lineStart => i = 0 || s[i - 1]? == some '\n'
  | .lineEnd => i = s.size || s[i]? == some '\n'
  | .wordBoundary => atBoundary s i
  | .noWordBoundary => !atBoundary s i

end Anchor

/-- The places of both lists, each once. -/
def merge (xs ys : List Nat) : List Nat := xs ++ ys.filter fun y => !xs.contains y

/-- The places that a step leads to from any of the given ones. -/
def spread (step : Nat → List Nat) (places : List Nat) : List Nat :=
  places.foldl (fun acc i => merge acc (step i)) []

/-- The places that up to `n` steps lead to. -/
def closure (step : Nat → List Nat) : Nat → List Nat → List Nat
  | 0, places => places
  | n + 1, places =>
    let next := merge places (spread step places)
    if next.length = places.length then places else closure step n next

/-- The places that just `n` steps lead to. -/
def after (step : Nat → List Nat) : Nat → List Nat → List Nat
  | 0, places => places
  | n + 1, places => if places.isEmpty then [] else after step n (spread step places)

/-- The places where a match from place `i` on may end. -/
def ends (s : Array Char) : Regex → Nat → List Nat
  | empty, i => [i]
  | set chars, i =>
    match s[i]? with
    | some c => if chars.holds c then [i + 1] else []
    | none => []
  | seq a b, i => spread (ends s b) (ends s a i)
  | alt a b, i => merge (ends s a i) (ends s b i)
  | repeated r min max, i =>
    let first := after (ends s r) min [i]
    match max with
    | some max => closure (ends s r) (max - min) first
    | none => closure (ends s r) (s.size + 1) first
  | anchor a, i => if Anchor.holdsAt s i a then [i] else []
  | look ahead negated r, i =>
    let found :=
      if ahead then !(ends s r i).isEmpty
      else (List.range (i + 1)).any fun j => (ends s r j).contains i
    if found != negated then [i] else []

/-- Whether there is a match anywhere in a text. -/
def occursIn (r : Regex) (text : String) : Bool :=
  let s := text.toList.toArray
  (List.range (s.size + 1)).any fun i => !(r.ends s i).isEmpty

/-- The expressions one after the other. -/
def ofSeq : List Regex → Regex
  | [] => .empty
  | [r] => r
  | r :: rs => .seq r (ofSeq rs)

end Regex

end ResourceNames
