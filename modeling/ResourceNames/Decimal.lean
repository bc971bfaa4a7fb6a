/-!
# Binary floating-point numbers and the decimals that name them

A finite number of the 64-bit binary format is `± m · 2 ^ q`. `nearest?` finds the one closest to a
decimal, `shortest` the decimal with the fewest digits that reads back as a given one. A `Decimal`
is such a shortest decimal, so equal numbers are equal values.
-/

namespace ResourceNames

/-- A power of two. -/
def twoTo (n : Nat) : Nat := Nat.pow 2 n

/-- A power of ten. -/
def tenTo (n : Nat) : Nat := Nat.pow 10 n

/-- The number `± digits · 10 ^ exponent`. -/
structure Decimal where
  negative : Bool
  digits : Nat
  exponent : Int
  deriving DecidableEq, Repr, Inhabited

namespace Decimal

/-- Number of decimal digits, `0` for zero. -/
def width (n : Nat) : Nat := if n = 0 then 0 else (Nat.toDigits 10 n).length

/-- `num / den` rounded to the nearest natural number, halves to the even neighbour. -/
def roundDiv (num den : Nat) : Nat :=
  let low := num / den
  let twice := 2 * (num % den)
  if twice < den then low
  else if den < twice then low + 1
  else if low % 2 = 0 then low else low + 1

/-- `num / den · 2 ^ (-q)` as numerator and denominator. -/
def scaled (num den : Nat) (q : Int) : Nat × Nat :=
  if 0 ≤ q then (num, den * twoTo q.toNat) else (num * twoTo (-q).toNat, den)

/-- The significand `m < 2 ^ 53` and exponent `q ≥ -1074` of the binary number nearest to
`num / den`, unless that number is too large. -/
def nearestRatio? (num den : Nat) : Option (Nat × Int) :=
  if num = 0 then some (0, 0)
  else
    let guess : Int := (Nat.log2 num : Int) - Nat.log2 den - 52
    let (n, d) := scaled num den guess
    let q := if n / d < twoTo 52 then guess - 1 else if twoTo 53 ≤ n / d then guess + 1 else guess
    let q := max q (-1074)
    let (n, d) := scaled num den q
    let m := roundDiv n d
    let (m, q) := if m = twoTo 53 then (twoTo 52, q + 1) else (m, q)
    if 971 < q then none else some (m, q)

/-- The binary number nearest to `digits · 10 ^ exponent`. -/
def nearest? (digits : Nat) (exponent : Int) : Option (Nat × Int) :=
  if digits = 0 then some (0, 0)
  else if 400 < exponent + width digits then none
  else if exponent + width digits < -400 then some (0, 0)
  else if 0 ≤ exponent then nearestRatio? (digits * tenTo exponent.toNat) 1
  else nearestRatio? digits (tenTo (-exponent).toNat)

/-- Digits without zeros at the end, each of which moves into the exponent. -/
def normal : Nat → Nat → Int → Nat × Int
  | 0, digits, exponent => (digits, exponent)
  | fuel + 1, digits, exponent =>
    if digits ≠ 0 ∧ digits % 10 = 0 then normal fuel (digits / 10) (exponent + 1)
    else (digits, exponent)

/-- Compares `a · 2 ^ p` with `d · 10 ^ k`. -/
def compareScaled (a : Nat) (p : Int) (d : Nat) (k : Int) : Ordering :=
  let left := a * twoTo p.toNat * tenTo (-k).toNat
  let right := d * tenTo k.toNat * twoTo (-p).toNat
  compare left right

/-- The decimals on the grid `10 ^ k` next to `m · 2 ^ q`, below and above. -/
def neighbours (m : Nat) (q k : Int) : Nat × Nat :=
  let num := m * twoTo q.toNat * tenTo (-k).toNat
  let den := twoTo (-q).toNat * tenTo k.toNat
  (num / den, if num % den = 0 then num / den else num / den + 1)

/-- Whether `d · 10 ^ k` reads back as `m · 2 ^ q`: it lies in the interval of the reals nearest to
it, whose ends belong to it exactly if `m` is even. -/
def readsBack (m : Nat) (q : Int) (d : Nat) (k : Int) : Bool :=
  let lowest := m = twoTo 52 ∧ -1074 < q
  let below :=
    if lowest then compareScaled (4 * m - 1) (q - 2) d k
    else compareScaled (2 * m - 1) (q - 1) d k
  let above := compareScaled (2 * m + 1) (q - 1) d k
  let ends := m % 2 = 0
  (below = .lt ∨ (below = .eq ∧ ends)) ∧ (above = .gt ∨ (above = .eq ∧ ends))

/-- Whether the lower neighbour is at most as far from `m · 2 ^ q` as the upper one. -/
def lowerIsNearer (m : Nat) (q : Int) (low high : Nat) (k : Int) : Bool :=
  match compareScaled (2 * m) q (low + high) k with
  | .lt => true
  | .gt => false
  | .eq => low % 2 = 0

/-- Searches the grids from the coarsest on for a decimal that reads back. -/
def shortestOn (m : Nat) (q : Int) : Nat → Int → Nat × Int
  | 0, k => (0, k)
  | grids + 1, k =>
    let (low, high) := neighbours m q k
    match readsBack m q low k, readsBack m q high k with
    | true, true => if lowerIsNearer m q low high k then (low, k) else (high, k)
    | true, false => (low, k)
    | false, true => (high, k)
    | false, false => shortestOn m q grids (k - 1)

/-- The exponent of the leading decimal digit of `m · 2 ^ q`, or one more. -/
def leading (m : Nat) (q : Int) : Int :=
  let num := m * twoTo q.toNat
  let den := twoTo (-q).toNat
  if den ≤ num then width (num / den) else 1 - width (den / num)

/-- The decimal with the fewest digits that reads back as `± m · 2 ^ q`. -/
def shortest (negative : Bool) (m : Nat) (q : Int) : Decimal :=
  if m = 0 then ⟨negative, 0, 0⟩
  else
    let (digits, k) := shortestOn m q 22 (leading m q)
    let (digits, k) := normal 400 digits k
    ⟨negative, digits, k⟩

/-- The binary number nearest to `± digits · 10 ^ exponent`, named by its shortest decimal. -/
def ofScientific? (negative : Bool) (digits : Nat) (exponent : Int) : Option Decimal :=
  (nearest? digits exponent).map fun (m, q) => shortest negative m q

/-- The binary number nearest to an integer. -/
def ofInt (n : Int) : Decimal :=
  (ofScientific? (n < 0) n.natAbs 0).getD ⟨n < 0, n.natAbs, 0⟩

/-- Which numbers are written positionally. -/
structure Style where
  /-- The point of positional text stands at most this many places after the first digit. -/
  maxPoint : Int
  /-- The point of positional text stands fewer than this many places before the first digit. -/
  minPoint : Int

/-- Positional from `0.00001` to below `10 ^ 16`, otherwise with an exponent. -/
def jsonStyle : Style := ⟨16, 5⟩

/-- The text of a decimal: whole numbers end in `.0`, others show all their digits. -/
def render (style : Style) (x : Decimal) : String :=
  let sign := if x.negative then "-" else ""
  if x.digits = 0 then sign ++ "0.0"
  else
    let ds := Nat.toDigits 10 x.digits
    let n : Int := ds.length
    let point := n + x.exponent
    let text (cs : List Char) := String.ofList cs
    let zeros (k : Int) := text (List.replicate k.toNat '0')
    sign ++
      if 0 ≤ x.exponent ∧ point ≤ style.maxPoint then text ds ++ zeros x.exponent ++ ".0"
      else if 0 < point ∧ point ≤ style.maxPoint then
        text (ds.take point.toNat) ++ "." ++ text (ds.drop point.toNat)
      else if -style.minPoint < point ∧ point ≤ 0 then "0." ++ zeros (-point) ++ text ds
      else
        let mantissa :=
          match ds with
          | [d] => text [d]
          | d :: rest => text [d] ++ "." ++ text rest
          | [] => ""
        mantissa ++ "e" ++ toString (point - 1)

example : (ofScientific? false 25 (-1)).map (render jsonStyle) = some "2.5" := by decide +kernel
example : (ofScientific? false 1 3).map (render jsonStyle) = some "1000.0" := by decide +kernel
example : (ofScientific? false 1 16).map (render jsonStyle) = some "1e16" := by decide +kernel
example : (ofScientific? true 1 (-6)).map (render jsonStyle) = some "-1e-6" := by decide +kernel
example : (ofScientific? false 5 (-324)).map (render jsonStyle) = some "5e-324" := by decide +kernel
example : ofScientific? false 1 309 = none := by decide +kernel

end Decimal

end ResourceNames
