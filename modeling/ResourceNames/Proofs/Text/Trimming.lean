import Mathlib.Data.List.DropRight
import ResourceNames.Text.Blank

/-!
# Trimmed texts

* `trim_eq_self_iff`: a text is trimmed exactly if it is `Tight`, without blanks at its ends.
* `trim_append_cons`: trimming goes no further than to a character that is no blank, so the two
  sides of such a character are trimmed on their own.
-/

namespace ResourceNames.Text

/-- A text that neither begins nor ends with a blank. -/
def Tight (s : List Char) : Prop :=
  (∀ c ∈ s.head?, isBlank c = false) ∧ ∀ c ∈ s.getLast?, isBlank c = false

theorem suffix_trimStart (s : List Char) : trimStart s <:+ s := List.dropWhile_suffix _

theorem prefix_trimEnd (s : List Char) : trimEnd s <+: s := by
  have h := List.dropWhile_suffix isBlank (l := s.reverse)
  rw [← List.reverse_prefix, List.reverse_reverse] at h
  exact h

theorem trim_sublist (s : List Char) : (trim s).Sublist s :=
  (prefix_trimEnd _).sublist.trans (suffix_trimStart s).sublist

theorem head?_dropWhile_isBlank {s : List Char} {c : Char}
    (h : (s.dropWhile isBlank).head? = some c) : isBlank c = false := by
  have hnot := List.head?_dropWhile_not isBlank s
  rwa [h] at hnot

theorem getLast?_trimEnd {s : List Char} {c : Char} (h : (trimEnd s).getLast? = some c) :
    isBlank c = false := by
  rw [trimEnd, List.getLast?_reverse] at h
  exact head?_dropWhile_isBlank h

theorem head?_trim {s : List Char} {c : Char} (h : (trim s).head? = some c) :
    isBlank c = false := by
  obtain ⟨t, ht⟩ := prefix_trimEnd (trimStart s)
  refine head?_dropWhile_isBlank (s := s) (?_ : (trimStart s).head? = some c)
  rw [← ht, List.head?_append, show (trimEnd (trimStart s)).head? = some c from h]
  rfl

/-- A text is trimmed exactly if it has no blanks at its ends. -/
theorem trim_eq_self_iff {s : List Char} : trim s = s ↔ Tight s := by
  constructor
  · intro h
    exact ⟨fun c hc => head?_trim (h.symm ▸ hc), fun c hc => getLast?_trimEnd (s := trimStart s)
      (show (trim s).getLast? = some c from h.symm ▸ hc)⟩
  · exact fun ⟨hhead, hlast⟩ => trim_of_edges hhead hlast

theorem trim_trim (s : List Char) : trim (trim s) = trim s :=
  trim_of_edges (fun _ hc => head?_trim hc) fun _ hc => getLast?_trimEnd hc

theorem trim_cons_space (s : List Char) : trim (' ' :: s) = trim s := rfl

theorem trim_eq_nil_iff {s : List Char} : trim s = [] ↔ allBlank s = true := by
  have hend : trimEnd (trimStart s) = [] ↔ ∀ c ∈ trimStart s, isBlank c = true :=
    List.rdropWhile_eq_nil_iff
  rw [trim, hend, allBlank, List.all_eq_true]
  constructor
  · intro h
    cases hs : trimStart s with
    | nil => exact List.dropWhile_eq_nil_iff.1 hs
    | cons c r =>
      have hblank := h c (hs ▸ List.mem_cons_self)
      rw [head?_dropWhile_isBlank (s := s) (c := c) (congrArg List.head? hs)] at hblank
      cases hblank
  · exact fun h c hc => h c ((suffix_trimStart s).subset hc)

/-! ## Texts around a character that is no blank -/

theorem trimEnd_append_cons {c : Char} (h : isBlank c = false) (a b : List Char) :
    trimEnd (a ++ c :: b) = a ++ c :: trimEnd b := by
  unfold trimEnd
  rw [List.reverse_append, List.reverse_cons, List.append_assoc, List.dropWhile_append]
  cases hd : b.reverse.dropWhile isBlank with
  | nil => simp [h]
  | cons d ds => simp

theorem trimStart_append_cons {c : Char} (h : isBlank c = false) (a b : List Char) :
    trimStart (a ++ c :: b) = trimStart a ++ c :: b := by
  unfold trimStart
  rw [List.dropWhile_append]
  cases hd : a.dropWhile isBlank with
  | nil => simp [h]
  | cons d ds => simp

theorem trim_append_cons {c : Char} (h : isBlank c = false) (a b : List Char) :
    trim (a ++ c :: b) = trimStart a ++ c :: trimEnd b := by
  rw [trim, trimStart_append_cons h, trimEnd_append_cons h]

/-! ## Trimming what has been trimmed at one end -/

theorem trimStart_trimStart (s : List Char) : trimStart (trimStart s) = trimStart s :=
  List.dropWhile_idempotent isBlank s

theorem trimEnd_trimEnd (s : List Char) : trimEnd (trimEnd s) = trimEnd s :=
  List.rdropWhile_idempotent isBlank s

theorem trim_trimStart (s : List Char) : trim (trimStart s) = trim s := by
  rw [trim, trimStart_trimStart, trim]

theorem trim_trimEnd (s : List Char) : trim (trimEnd s) = trim s := by
  by_cases hs : allBlank s = true
  · have hend : allBlank (trimEnd s) = true :=
      List.all_eq_true.2 fun c hc => List.all_eq_true.1 hs c ((prefix_trimEnd s).subset hc)
    rw [trim_eq_nil_iff.2 hs, trim_eq_nil_iff.2 hend]
  · -- A character that is no blank parts the text, and each end is trimmed on its own side.
    obtain ⟨c, hc, hblank⟩ : ∃ c ∈ s, isBlank c = false := by simpa [allBlank] using hs
    obtain ⟨a, b, rfl⟩ := List.append_of_mem hc
    rw [trimEnd_append_cons hblank, trim_append_cons hblank, trim_append_cons hblank,
      trimEnd_trimEnd]

end ResourceNames.Text
