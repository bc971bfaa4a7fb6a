import Mathlib.Data.List.Forall2
import ResourceNames.Proofs.Files.Reaching

/-!
# Texts that are read as themselves

A text without special characters is read as a pattern of its characters, and so is an escaped text
with a set for each special character (`Writes`). A path that is written so is read part by part
(`ReadsAs`).

* `tokens_append_of_writes`: such a text is read before whatever follows.
* `readsAs_escape`, `readsAs_self`: an escaped path, and a path without special characters.
* `ReadsAs.segments`: the parts of a path are read as themselves.
-/

namespace ResourceNames.Files.Glob

/-- A written text that is read as a part, which spells a text. -/
inductive Writes : (written : List Char) → Part → (text : List Char) → Prop where
  | nil : Writes [] [] []
  | char {c : Char} {written : List Char} {part : Part} {text : List Char} :
    c ∉ ['?', '*', '['] → Writes written part text →
      Writes (c :: written) (.char c :: part) (c :: text)
  | set {c : Char} {written : List Char} {part : Part} {text : List Char} :
    c ∈ specialChars → Writes written part text →
      Writes ('[' :: c :: ']' :: written) (.oneOf [⟨c, c⟩] :: part) (c :: text)

namespace Writes

variable {written : List Char} {part : Part} {text : List Char}

theorem spells (h : Writes written part text) : Spells part text := by
  induction h with
  | nil => exact .nil
  | char _ _ ih => exact .char _ ih
  | set hc _ ih => exact .set hc ih

theorem length_le (h : Writes written part text) : text.length ≤ written.length := by
  induction h with
  | nil => exact Nat.le_refl _
  | char _ _ ih => simpa using ih
  | set _ _ ih =>
    simp only [List.length_cons]
    omega

end Writes

theorem readTokens_char {c : Char} (hc : c ∉ ['?', '*', '[']) (fuel position : Nat) (before : Bool)
    (s : List Char) :
    readTokens (fuel + 1) position before (c :: s) =
      (.char c :: ·) <$> readTokens fuel (position + 1) (c = '/') s := by
  simp only [List.mem_cons, List.not_mem_nil, or_false, not_or] at hc
  rw [readTokens.eq_def]
  simp only [hc.1, hc.2.1, hc.2.2, if_false]
  rfl

theorem readTokens_set (c : Char) (hc : c ∈ specialChars) (fuel position : Nat) (before : Bool)
    (s : List Char) :
    readTokens (fuel + 1) position before ('[' :: c :: ']' :: s) =
      (.oneOf [⟨c, c⟩] :: ·) <$> readTokens fuel (position + 3) false s := by
  have hne : c ≠ '!' := by
    rintro rfl
    revert hc
    decide
  have hbody : setBody? (c :: ']' :: s) = some ([c], s) := rfl
  rw [readTokens.eq_def]
  simp [hne, hbody, readSet]

/-- A text that is read as itself is read before whatever follows. -/
theorem readTokens_append_of_writes {written : List Char} {part : Part} {text : List Char}
    (h : Writes written part text) (fuel position : Nat) (before : Bool) (rest : List Char) :
    ∃ position' before', readTokens (text.length + fuel) position before (written ++ rest) =
      (part ++ ·) <$> readTokens fuel position' before' rest := by
  induction h generalizing position before with
  | nil => exact ⟨position, before, by simp⟩
  | @char c written part text hc _ ih =>
    obtain ⟨position', before', hread⟩ := ih (position + 1) (c = '/')
    refine ⟨position', before', ?_⟩
    rw [List.length_cons, Nat.add_right_comm, List.cons_append, readTokens_char hc, hread]
    simp [Functor.map_map]
  | @set c written part text hc _ ih =>
    obtain ⟨position', before', hread⟩ := ih (position + 3) false
    refine ⟨position', before', ?_⟩
    rw [List.length_cons, Nat.add_right_comm, List.cons_append, List.cons_append, List.cons_append,
      readTokens_set c hc, hread]
    simp [Functor.map_map]

theorem tokens_append_of_writes {written : List Char} {part : Part} {text : List Char}
    (h : Writes written part text) (rest : List Char) :
    ∃ position before, tokens (written ++ rest) =
      (part ++ ·) <$> readTokens (written.length - text.length + (rest.length + 1)) position
        before rest := by
  have hlength := h.length_le
  obtain ⟨position, before, hread⟩ := readTokens_append_of_writes h
    (written.length - text.length + (rest.length + 1)) 0 true rest
  refine ⟨position, before, ?_⟩
  rw [tokens, ← hread, List.length_append]
  congr 1
  omega

/-- A text that is read as itself is one part. -/
theorem tokens_of_writes {written : List Char} {part : Part} {text : List Char}
    (h : Writes written part text) : tokens written = .ok part := by
  obtain ⟨position, before, hread⟩ := tokens_append_of_writes h []
  rw [List.append_nil] at hread
  rw [hread, List.length_nil, Nat.zero_add, readTokens.eq_def]
  exact congrArg Except.ok (List.append_nil part)

/-! ## Paths -/

/-- A text that is read in patterns as a path. -/
def ReadsAs (written path : String) : Prop :=
  ∃ part, Writes written.toList part path.toList

theorem readsAs_escape (path : String) : ReadsAs (escape path) path := by
  have hwrites : ∀ text : List Char, ∃ part, Writes
      (text.flatMap fun c => if c ∈ specialChars then ['[', c, ']'] else [c]) part text := by
    intro text
    induction text with
    | nil => exact ⟨[], .nil⟩
    | cons c text ih =>
      obtain ⟨part, hpart⟩ := ih
      rw [List.flatMap_cons]
      split
      · rename_i hc
        exact ⟨_, .set hc hpart⟩
      · rename_i hc
        exact ⟨_, .char (fun hmem => hc (List.mem_append_left [']'] hmem)) hpart⟩
  unfold ReadsAs escape
  rw [String.toList_ofList]
  exact hwrites path.toList

/-- A path without special characters, the closing bracket excepted, is read as it stands. -/
theorem readsAs_self {path : String} (h : ∀ c ∈ path.toList, c ∉ ['?', '*', '[']) :
    ReadsAs path path := by
  unfold ReadsAs
  generalize path.toList = text at h
  induction text with
  | nil => exact ⟨[], .nil⟩
  | cons c text ih =>
    obtain ⟨hc, htext⟩ := List.forall_mem_cons.1 h
    obtain ⟨part, hpart⟩ := ih htext
    exact ⟨_, .char hc hpart⟩

theorem slash_ne_of_special {c : Char} (h : c ∈ specialChars) : c ≠ '/' := by
  rintro rfl
  revert h
  decide

theorem forall₂_modifyHead {α β : Type} {r : α → β → Prop} {f : α → α} {g : β → β}
    (hr : ∀ a b, r a b → r (f a) (g b)) {xs : List α} {ys : List β} (h : List.Forall₂ r xs ys) :
    List.Forall₂ r (xs.modifyHead f) (ys.modifyHead g) := by
  cases h with
  | nil => exact .nil
  | cons hx hrest => exact .cons (hr _ _ hx) hrest

/-- No slash is written in a set, so that the written parts are those of the text. -/
theorem Writes.forall₂_splitOn {written : List Char} {part : Part} {text : List Char}
    (h : Writes written part text) :
    List.Forall₂ (fun w t => ∃ part, Writes w part t) (written.splitOn '/') (text.splitOn '/') := by
  unfold List.splitOn
  induction h with
  | nil => exact .cons ⟨[], .nil⟩ .nil
  | @char c written part text hc _ ih =>
    rw [List.splitOnP_cons_eq_if_modifyHead, List.splitOnP_cons_eq_if_modifyHead]
    split
    · exact .cons ⟨[], .nil⟩ ih
    · refine forall₂_modifyHead (fun w t hw => ?_) ih
      obtain ⟨part, hpart⟩ := hw
      exact ⟨_, .char hc hpart⟩
  | @set c written part text hc _ ih =>
    have hopen : '[' ≠ '/' := by decide
    have hclose : ']' ≠ '/' := by decide
    simp only [List.splitOnP_cons_eq_if_modifyHead, beq_iff_eq, slash_ne_of_special hc, hopen,
      hclose, if_false, List.modifyHead_modifyHead]
    refine forall₂_modifyHead (fun w t hw => ?_) ih
    obtain ⟨part, hpart⟩ := hw
    exact ⟨_, .set hc hpart⟩

namespace ReadsAs

variable {written path : String}

theorem segments (h : ReadsAs written path) :
    List.Forall₂ ReadsAs (Files.segments written) (Files.segments path) := by
  obtain ⟨part, hpart⟩ := h
  unfold Files.segments
  rw [List.forall₂_map_left_iff, List.forall₂_map_right_iff]
  exact hpart.forall₂_splitOn.imp fun w t hw => by
    simpa [ReadsAs] using hw

theorem isAbsolute_eq (h : ReadsAs written path) : isAbsolute written = isAbsolute path := by
  obtain ⟨part, hpart⟩ := h
  unfold isAbsolute
  generalize written.toList = w at hpart
  generalize path.toList = t at hpart
  cases hpart with
  | nil => rfl
  | char => rfl
  | set hc => simp [slash_ne_of_special hc]

theorem eq_empty_iff (h : ReadsAs written path) : written = "" ↔ path = "" := by
  obtain ⟨part, hpart⟩ := h
  rw [← String.toList_eq_nil_iff, ← String.toList_eq_nil_iff]
  generalize written.toList = w at hpart
  generalize path.toList = t at hpart
  cases hpart <;> simp

end ReadsAs

end ResourceNames.Files.Glob
