import ResourceNames.Table

/-!
# Placeholders in templates

A placeholder is `<name>` with a non-empty name without angle brackets. `pieces` reads a text as
placeholders and single characters, `fill` writes values for the placeholders and `unresolved`
lists those that a text still holds.

* `written_pieces`: the pieces of a text, written one after the other, are the text.
-/

namespace ResourceNames.Template

/-- A placeholder or a character outside of all placeholders. -/
inductive Piece where
  | literal (c : Char)
  | placeholder (name : List Char)
  deriving DecidableEq, Repr

def isBracket (c : Char) : Bool := c = '<' || c = '>'

/-- The name of the placeholder whose `<` has been read and the text after its `>`. -/
def name? (s : List Char) : Option (List Char × List Char) :=
  match s.takeWhile (!isBracket ·), s.dropWhile (!isBracket ·) with
  | c :: cs, '>' :: rest => some (c :: cs, rest)
  | _, _ => none

theorem eq_of_name? {s name rest : List Char} (h : name? s = some (name, rest)) :
    s = name ++ '>' :: rest ∧ name ≠ [] := by
  unfold name? at h
  split at h
  · rename_i c cs r ht hd
    cases h
    refine ⟨?_, by simp⟩
    rw [← ht, ← hd, List.takeWhile_append_dropWhile]
  · simp at h

theorem length_of_name? {s name rest : List Char} (h : name? s = some (name, rest)) :
    rest.length < s.length := by
  obtain ⟨rfl, -⟩ := eq_of_name? h
  simp only [List.length_append, List.length_cons]
  omega

/-- The placeholders and other characters of a text, from left to right. -/
def pieces : List Char → List Piece
  | [] => []
  | c :: s =>
    if c = '<' then
      match h : name? s with
      | some (name, rest) =>
        have := length_of_name? h
        .placeholder name :: pieces rest
      | none => .literal c :: pieces s
    else .literal c :: pieces s
termination_by s => s.length
decreasing_by all_goals simp_wf <;> omega

namespace Piece

/-- A piece as it stands in a text. -/
def written : Piece → List Char
  | literal c => [c]
  | placeholder name => '<' :: (name ++ ['>'])

def name? : Piece → Option (List Char)
  | literal _ => none
  | placeholder name => some name

end Piece

/-- Writes the pieces with the values of `fields` for the placeholders. Of several placeholders
with one name only the first gets the value; one without a value stays as it is. `used` are the
names that have got theirs. -/
def fillPieces (fields : Table String) (used : List (List Char)) : List Piece → List Char
  | [] => []
  | .literal c :: ps => c :: fillPieces fields used ps
  | .placeholder name :: ps =>
    match fields.find? (String.ofList name) with
    | some value =>
      if name ∈ used then (Piece.placeholder name).written ++ fillPieces fields used ps
      else value.toList ++ fillPieces fields (name :: used) ps
    | none => (Piece.placeholder name).written ++ fillPieces fields used ps

/-- The template with the values of `fields` in the places of its placeholders. -/
def fill (fields : Table String) (template : String) : String :=
  String.ofList (fillPieces fields [] (pieces template.toList))

/-- The names of the placeholders in a text, from left to right with repeats. -/
def unresolved (text : String) : List String :=
  (pieces text.toList).filterMap fun p => p.name?.map String.ofList

/-- The pieces of a text, written one after the other, are the text. -/
theorem written_pieces (s : List Char) : (pieces s).flatMap Piece.written = s := by
  fun_induction pieces s with
  | case1 => rfl
  | case2 s name rest h _ ih =>
    obtain ⟨rfl, -⟩ := eq_of_name? h
    simp [Piece.written, ih]
  | case3 s h ih => simp [Piece.written, ih]
  | case4 c s hc ih => simp [Piece.written, ih]

end ResourceNames.Template
