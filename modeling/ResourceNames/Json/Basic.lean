import ResourceNames.Decimal
import ResourceNames.Table

/-!
# JSON values

Objects hold their entries in ascending order of the keys, as `Json.object` and the reader build
them, so values with the same content are equal.
-/

namespace ResourceNames

/-- A JSON value. Whole numbers written without a point or exponent are `int`, all others `dec`. -/
inductive Json where
  | null
  | bool (b : Bool)
  | int (n : Int)
  | dec (x : Decimal)
  | str (s : String)
  | arr (items : List Json)
  | obj (entries : List (String × Json))
  deriving Repr, Inhabited

namespace Json

mutual

/-- Equality of values, decided entry by entry. -/
def decEq (a b : Json) : Decidable (a = b) :=
  match a, b with
  | .null, .null => isTrue rfl
  | .bool x, .bool y => if h : x = y then isTrue (h ▸ rfl) else isFalse (by simpa using h)
  | .int x, .int y => if h : x = y then isTrue (h ▸ rfl) else isFalse (by simpa using h)
  | .dec x, .dec y => if h : x = y then isTrue (h ▸ rfl) else isFalse (by simpa using h)
  | .str x, .str y => if h : x = y then isTrue (h ▸ rfl) else isFalse (by simpa using h)
  | .arr xs, .arr ys =>
    match decEqItems xs ys with
    | isTrue h => isTrue (h ▸ rfl)
    | isFalse h => isFalse (by simpa using h)
  | .obj xs, .obj ys =>
    match decEqEntries xs ys with
    | isTrue h => isTrue (h ▸ rfl)
    | isFalse h => isFalse (by simpa using h)
  | .null, .bool _ | .null, .int _ | .null, .dec _ | .null, .str _ | .null, .arr _ | .null, .obj _
  | .bool _, .null | .bool _, .int _ | .bool _, .dec _ | .bool _, .str _ | .bool _, .arr _
  | .bool _, .obj _ | .int _, .null | .int _, .bool _ | .int _, .dec _ | .int _, .str _
  | .int _, .arr _ | .int _, .obj _ | .dec _, .null | .dec _, .bool _ | .dec _, .int _
  | .dec _, .str _ | .dec _, .arr _ | .dec _, .obj _ | .str _, .null | .str _, .bool _
  | .str _, .int _ | .str _, .dec _ | .str _, .arr _ | .str _, .obj _ | .arr _, .null
  | .arr _, .bool _ | .arr _, .int _ | .arr _, .dec _ | .arr _, .str _ | .arr _, .obj _
  | .obj _, .null | .obj _, .bool _ | .obj _, .int _ | .obj _, .dec _ | .obj _, .str _
  | .obj _, .arr _ => isFalse (by simp)

def decEqItems (xs ys : List Json) : Decidable (xs = ys) :=
  match xs, ys with
  | [], [] => isTrue rfl
  | [], _ :: _ | _ :: _, [] => isFalse (by simp)
  | x :: xs, y :: ys =>
    match decEq x y, decEqItems xs ys with
    | isTrue h, isTrue hs => isTrue (h ▸ hs ▸ rfl)
    | isFalse h, _ => isFalse (by simp [h])
    | _, isFalse hs => isFalse (by simp [hs])

def decEqEntries (xs ys : List (String × Json)) : Decidable (xs = ys) :=
  match xs, ys with
  | [], [] => isTrue rfl
  | [], _ :: _ | _ :: _, [] => isFalse (by simp)
  | (k, x) :: xs, (j, y) :: ys =>
    match decEq x y, decEqEntries xs ys with
    | isTrue h, isTrue hs =>
      if hk : k = j then isTrue (h ▸ hs ▸ hk ▸ rfl) else isFalse (by simp [hk])
    | isFalse h, _ => isFalse (by simp [h])
    | _, isFalse hs => isFalse (by simp [hs])

end

instance : DecidableEq Json := decEq

/-- An object of the given entries; of entries with one key the last counts. -/
def object (entries : List (String × Json)) : Json :=
  .obj (entries.foldl (fun acc e => Entries.insert e.1 e.2 acc) [])

/-- An object with text values. -/
def ofTexts (t : Table String) : Json := .obj (t.entries.map fun (k, v) => (k, .str v))

/-- The entry under `key` of an object; other values have no entries. -/
def get? (v : Json) (key : String) : Option Json :=
  match v with
  | .obj entries => Entries.find? key entries
  | _ => none

def text? : Json → Option String
  | .str s => some s
  | _ => none

def bool? : Json → Option Bool
  | .bool b => some b
  | _ => none

def items? : Json → Option (List Json)
  | .arr items => some items
  | _ => none

def entries? : Json → Option (List (String × Json))
  | .obj entries => some entries
  | _ => none

def nat? : Json → Option Nat
  | .int (.ofNat n) => some n
  | _ => none

/-- The text under `key`, if there is an entry and it is a text. -/
def getText? (v : Json) (key : String) : Option String := (v.get? key).bind text?

def isNull : Json → Bool
  | .null => true
  | _ => false

mutual

/-- Number of values in a value, itself included. -/
def size : Json → Nat
  | .arr items => 1 + itemsSize items
  | .obj entries => 1 + entriesSize entries
  | _ => 1

def itemsSize : List Json → Nat
  | [] => 0
  | v :: vs => v.size + itemsSize vs

def entriesSize : List (String × Json) → Nat
  | [] => 0
  | (_, v) :: vs => v.size + entriesSize vs

end

end Json

end ResourceNames
