import ResourceNames.Json.Parser
import ResourceNames.Text.Blank

/-!
# Durations

Durations are written as amounts with units, such as `1h 30m` or `1.5h`. `Duration.parse?` reads
them, `Duration.text` writes them in the largest units that fit.
-/

namespace ResourceNames

/-- A span of time. -/
structure Duration where
  seconds : Nat
  /-- Less than a second's worth. -/
  nanos : Nat := 0
  deriving DecidableEq, Repr, Inhabited

/-- A unit of time. -/
structure TimeUnit where
  names : List String
  seconds : Nat
  nanos : Nat

namespace TimeUnit

def all : List TimeUnit :=
  [⟨["nanos", "nsec", "ns"], 0, 1⟩, ⟨["usec", "us", "µs"], 0, 1000⟩,
    ⟨["millis", "msec", "ms"], 0, 1000000⟩, ⟨["seconds", "second", "secs", "sec", "s"], 1, 0⟩,
    ⟨["minutes", "minute", "min", "mins", "m"], 60, 0⟩,
    ⟨["hours", "hour", "hrs", "hr", "h"], 3600, 0⟩, ⟨["days", "day", "d"], 86400, 0⟩,
    ⟨["weeks", "week", "wk", "wks", "w"], 604800, 0⟩, ⟨["months", "month", "M"], 2630016, 0⟩,
    ⟨["years", "year", "yr", "yrs", "y"], 31557600, 0⟩]

def ofName? (name : List Char) : Option TimeUnit :=
  all.find? fun u => u.names.any fun n => n.toList = name

end TimeUnit

namespace Duration

/-- A number that fits in 64 bits. -/
def checked (n : Nat) : Option Nat := if n < twoTo 64 then some n else none

/-- A sum of durations, unless it is too long. -/
def add? (d : Duration) (seconds nanos : Nat) : Option Duration := do
  let nanos ← checked (d.nanos + nanos)
  let seconds ← checked (d.seconds + seconds + nanos / tenTo 9)
  some ⟨seconds, nanos % tenTo 9⟩

/-- A fraction of a unit that is not a whole number of the smallest steps is refused. -/
def divide? (n d : Nat) : Option Nat := do
  let n ← checked n
  if n % d = 0 then some (n / d) else none

/-- Adds `whole + numerator / denominator` units. -/
def addUnits? (d : Duration) (whole : Nat) (fraction : Option (Nat × Nat)) (u : TimeUnit) :
    Option Duration := do
  let d ← d.add? (← checked (whole * u.seconds)) (← checked (whole * u.nanos))
  match fraction with
  | none => some d
  | some (numerator, denominator) =>
    if u.seconds < 2630016 then
      d.add? 0 (← divide? (numerator * (u.seconds * tenTo 9 + u.nanos)) denominator)
    else d.add? (← divide? (numerator * u.seconds) denominator) 0

/-- Whether a character can be part of the name of a unit. -/
def isUnitChar (c : Char) : Bool := c.isAlpha || c = 'µ'

/-- The digits behind a decimal point as a fraction, and the rest from the unit on. -/
def readFraction? (numerator denominator : Nat) : List Char → Option ((Nat × Nat) × List Char)
  | c :: rest =>
    if c.isDigit then do
      let denominator ← checked (denominator * 10)
      let numerator ← checked (numerator * 10 + (c.toNat - '0'.toNat))
      readFraction? numerator denominator rest
    else if Text.isBlank c then readFraction? numerator denominator rest
    else if isUnitChar c && 1 < denominator then some ((numerator, denominator), c :: rest)
    else none
  | [] => none

/-- The amount before a unit, and the rest from the unit on. -/
def readAmount? (n : Nat) : List Char → Option (Nat × Option (Nat × Nat) × List Char)
  | c :: rest =>
    if c.isDigit then do readAmount? (← checked (n * 10 + (c.toNat - '0'.toNat))) rest
    else if Text.isBlank c then readAmount? n rest
    else if isUnitChar c then some (n, none, c :: rest)
    else if c = '.' then
      (readFraction? 0 1 rest).map fun (fraction, rest) => (n, some fraction, rest)
    else none
  | [] => none

/-- Adds the amounts that a text lists, of which there must be one. -/
def readAll? : Nat → Duration → List Char → Option Duration
  | 0, _, _ => none
  | fuel + 1, d, s => do
    match Text.trimStart s with
    | [] => none
    | c :: rest =>
      if !c.isDigit then none
      let (n, fraction, rest) ← readAmount? 0 (c :: rest)
      let u ← TimeUnit.ofName? (rest.takeWhile isUnitChar)
      let d ← d.addUnits? n fraction u
      let rest := rest.dropWhile isUnitChar
      match rest.head? with
      | some c => if !c.isDigit && !Text.isBlank c then none
      | none => pure ()
      if Text.allBlank rest then some d else readAll? fuel d rest

/-- The duration that a text writes. -/
def parse? (text : String) : Option Duration :=
  if text = "0" then some ⟨0, 0⟩ else readAll? (text.length + 1) ⟨0, 0⟩ text.toList

/-- The duration in the largest units that fit. -/
def text (d : Duration) : String :=
  let rest := d.seconds % 31557600
  let day := rest % 2630016
  let counted (n : Nat) (unit : String) : List String :=
    if n = 0 then [] else [toString n ++ unit]
  let named (n : Nat) (unit : String) : List String :=
    if n = 0 then [] else [toString n ++ unit ++ if n = 1 then "" else "s"]
  let parts :=
    named (d.seconds / 31557600) "year" ++ named (rest / 2630016) "month" ++
      named (day / 86400) "day" ++ counted (day % 86400 / 3600) "h" ++
      counted (day % 3600 / 60) "m" ++ counted (day % 60) "s" ++
      counted (d.nanos / 1000000) "ms" ++ counted (d.nanos / 1000 % 1000) "us" ++
      counted (d.nanos % 1000) "ns"
  if parts.isEmpty then "0s" else " ".intercalate parts

end Duration

end ResourceNames
