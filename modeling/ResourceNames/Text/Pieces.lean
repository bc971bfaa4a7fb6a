/-!
# Cutting texts into pieces

Cutting a text at the first separator or at the first few, and looking for parts of it.
(`List.splitOn` cuts at every separator, `List.intercalate` joins again.)

* `cut?_eq_some_iff`: the first cut falls on the first separator.
* `after?_eq_some_iff`: a text starts with a lead exactly if it is the lead and something more.
-/

namespace ResourceNames.Text

/-- The text before the first separator and the text after it. -/
def cut? (sep : Char) : List Char → Option (List Char × List Char)
  | [] => none
  | c :: rest =>
    if c = sep then some ([], rest)
    else (cut? sep rest).map fun (before, after) => (c :: before, after)

/-- At most `n` pieces: the text is cut at its first `n - 1` separators. -/
def splitUpTo (sep : Char) : Nat → List Char → List (List Char)
  | 0, _ => []
  | 1, s => [s]
  | n + 2, s =>
    match cut? sep s with
    | none => [s]
    | some (before, after) => before :: splitUpTo sep (n + 1) after

/-- What follows `lead` in a text that starts with it. -/
def after? : (lead s : List Char) → Option (List Char)
  | [], s => some s
  | _ :: _, [] => none
  | l :: lead, c :: s => if l = c then after? lead s else none

/-- What precedes `tail` in a text that ends with it. -/
def before? (tail s : List Char) : Option (List Char) :=
  (after? tail.reverse s.reverse).map List.reverse

/-- Whether `part` occurs in a text. -/
def occurs (part : List Char) : List Char → Bool
  | [] => part.isEmpty
  | c :: s => (after? part (c :: s)).isSome || occurs part s

/-- Puts `new` for every occurrence of the character `old`. -/
def replaceChar (old : Char) (new : List Char) (s : List Char) : List Char :=
  s.flatMap fun c => if c = old then new else [c]

/-- The first cut falls on the first separator. -/
theorem cut?_eq_some_iff {sep : Char} {s before after : List Char} :
    cut? sep s = some (before, after) ↔ s = before ++ sep :: after ∧ sep ∉ before := by
  induction s generalizing before with
  | nil => simp [cut?]
  | cons c rest ih =>
    unfold cut?
    split
    · rename_i h
      subst h
      cases before with
      | nil => simp
      | cons b bs => simp; intro h; simp [h]
    · rename_i h
      cases before with
      | nil => simp [h]
      | cons b bs =>
        constructor
        · intro he
          obtain ⟨⟨x, y⟩, hx, hxy⟩ := Option.map_eq_some_iff.1 he
          cases hxy
          obtain ⟨rfl, hn⟩ := ih.1 hx
          exact ⟨rfl, by simp [Ne.symm h, hn]⟩
        · rintro ⟨he, hn⟩
          cases he
          have e := (@ih bs).2 ⟨rfl, fun hm => hn (List.mem_cons_of_mem _ hm)⟩
          rw [e]
          rfl

theorem cut?_eq_none_iff {sep : Char} {s : List Char} : cut? sep s = none ↔ sep ∉ s := by
  induction s with
  | nil => simp [cut?]
  | cons c rest ih =>
    unfold cut?
    split
    · rename_i h; simp [h]
    · rename_i h; simp [ih, Ne.symm h]

theorem after?_eq_some_iff {lead s rest : List Char} :
    after? lead s = some rest ↔ s = lead ++ rest := by
  induction lead generalizing s with
  | nil => simp [after?]
  | cons l lead ih =>
    cases s with
    | nil => simp [after?]
    | cons c s =>
      unfold after?
      split
      · rename_i h; subst h; simp [ih]
      · rename_i h; simp [Ne.symm h]

end ResourceNames.Text
