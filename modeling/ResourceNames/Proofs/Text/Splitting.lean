import ResourceNames.Text.Pieces

/-!
# Splitting and joining

A joined text is its first piece followed by the others, each behind a separator.

* `splitOn_eq_cons_iff`: the pieces of `List.splitOn` are the pieces without separators that join
  to the text.
* `splitUpTo_eq_cons_iff`: the same for `Text.splitUpTo` when it finds as many pieces as it may;
  the last piece may hold separators.
-/

namespace ResourceNames.Text

/-- Some pieces, each behind a separator. -/
def behind (sep : Char) (pieces : List (List Char)) : List Char := pieces.flatMap (sep :: ·)

@[simp] theorem behind_nil (sep : Char) : behind sep [] = [] := rfl

@[simp] theorem behind_cons (sep : Char) (x : List Char) (xs : List (List Char)) :
    behind sep (x :: xs) = sep :: (x ++ behind sep xs) := rfl

theorem behind_append (sep : Char) (xs ys : List (List Char)) :
    behind sep (xs ++ ys) = behind sep xs ++ behind sep ys := List.flatMap_append

/-- A row of pieces behind separators is empty or begins with a separator. -/
theorem behind_eq_nil_or_cons (sep : Char) (xs : List (List Char)) :
    behind sep xs = [] ∨ ∃ t, behind sep xs = sep :: t := by
  cases xs with
  | nil => exact .inl rfl
  | cons x xs => exact .inr ⟨_, rfl⟩

theorem after?_append (lead s : List Char) : after? lead (lead ++ s) = some s :=
  after?_eq_some_iff.2 rfl

theorem isSome_after?_iff {lead s : List Char} : (after? lead s).isSome = true ↔ lead <+: s := by
  rw [Option.isSome_iff_exists]
  simp only [after?_eq_some_iff]
  constructor
  · rintro ⟨rest, rfl⟩
    exact List.prefix_append lead rest
  · rintro ⟨rest, rfl⟩
    exact ⟨rest, rfl⟩

theorem after?_eq_none {lead s : List Char} (h : ¬ lead <+: s) : after? lead s = none := by
  rw [← isSome_after?_iff, Bool.not_eq_true, Option.isSome_eq_false_iff] at h
  exact Option.isNone_iff_eq_none.1 h

/-- A part occurs in a text exactly if the text is something around it. -/
theorem occurs_iff {part s : List Char} : occurs part s = true ↔ part <:+: s := by
  induction s with
  | nil => simp [occurs]
  | cons c s ih => rw [occurs, Bool.or_eq_true, isSome_after?_iff, ih, List.infix_cons_iff]

theorem before?_eq_some_iff {tail s rest : List Char} :
    before? tail s = some rest ↔ s = rest ++ tail := by
  unfold before?
  rw [Option.map_eq_some_iff]
  constructor
  · rintro ⟨a, ha, rfl⟩
    have := congrArg List.reverse (after?_eq_some_iff.1 ha)
    simpa using this
  · rintro rfl
    exact ⟨rest.reverse, after?_eq_some_iff.2 (by simp), by simp⟩

theorem cut?_append {sep : Char} {a : List Char} (h : sep ∉ a) (b : List Char) :
    cut? sep (a ++ sep :: b) = some (a, b) :=
  cut?_eq_some_iff.2 ⟨rfl, h⟩

/-- The part of a text before its first separator is the same for equal texts. -/
theorem append_sep_inj {sep : Char} {a a' b b' : List Char} (ha : sep ∉ a) (ha' : sep ∉ a')
    (h : a ++ sep :: b = a' ++ sep :: b') : a = a' ∧ b = b' := by
  have e := cut?_append ha b
  rw [h, cut?_append ha'] at e
  cases e
  exact ⟨rfl, rfl⟩

theorem infix_append_behind_of_mem {sep : Char} {x y : List Char} {xs : List (List Char)}
    (h : y ∈ x :: xs) : y <:+: x ++ behind sep xs := by
  rcases List.mem_cons.1 h with rfl | h
  · exact (List.prefix_append _ _).isInfix
  · obtain ⟨l, r, rfl⟩ := List.append_of_mem h
    refine ⟨x ++ (behind sep l ++ [sep]), behind sep r, ?_⟩
    simp [behind_append]

/-- A part without some member stands on one side of it. -/
theorem infix_append_cons_iff {α : Type} {part a b : List α} {x : α} (hne : part ≠ [])
    (hx : x ∉ part) : part <:+: a ++ x :: b ↔ part <:+: a ∨ part <:+: b := by
  constructor
  · rintro ⟨l, r, h⟩
    rw [List.append_assoc] at h
    rcases List.append_eq_append_iff.1 h with ⟨u, rfl, hu⟩ | ⟨u, rfl, hu⟩
    · -- The part begins before the member, so it ends there.
      rcases List.append_eq_append_iff.1 hu with ⟨w, rfl, -⟩ | ⟨w, rfl, hw⟩
      · exact .inl ⟨l, w, by simp⟩
      · cases w with
        | nil => exact .inl ⟨l, [], by simp⟩
        | cons y w =>
          obtain rfl := (List.cons.inj hw).1
          exact absurd (by simp) hx
    · cases u with
      | nil =>
        obtain ⟨y, ys, rfl⟩ := List.exists_cons_of_ne_nil hne
        obtain rfl := (List.cons.inj hu).1
        exact absurd List.mem_cons_self hx
      | cons y u => exact .inr ⟨u, r, by simpa using (List.cons.inj hu).2.symm⟩
  · rintro (h | h)
    · exact h.trans (List.prefix_append a _).isInfix
    · exact h.trans ⟨a ++ [x], [], by simp⟩

/-- A part without separators stands in one of the pieces. -/
theorem infix_append_behind {sep : Char} {part : List Char} (hne : part ≠ []) (hsep : sep ∉ part)
    {x : List Char} {xs : List (List Char)} (h : part <:+: x ++ behind sep xs) :
    ∃ y ∈ x :: xs, part <:+: y := by
  induction xs generalizing x with
  | nil => exact ⟨x, List.mem_cons_self, by simpa using h⟩
  | cons y ys ih =>
    rw [behind_cons, infix_append_cons_iff hne hsep] at h
    obtain h | h := h
    · exact ⟨x, List.mem_cons_self, h⟩
    · obtain ⟨z, hz, hpart⟩ := ih h
      exact ⟨z, List.mem_cons_of_mem x hz, hpart⟩

/-! ## Every separator -/

theorem intercalate_cons_eq (sep : Char) (x : List Char) (xs : List (List Char)) :
    List.intercalate [sep] (x :: xs) = x ++ behind sep xs := by
  induction xs generalizing x with
  | nil => simp
  | cons y ys ih =>
    have h : List.intercalate [sep] (x :: y :: ys) =
        x ++ [sep] ++ List.intercalate [sep] (y :: ys) := by
      simp [List.intercalate]
    rw [h, ih]
    simp

/-- No piece of a split holds the separator. -/
theorem not_mem_of_mem_splitOn {sep : Char} {s w : List Char} (h : w ∈ s.splitOn sep) :
    sep ∉ w := by
  induction s generalizing w with
  | nil =>
    rw [List.splitOn_nil, List.mem_singleton] at h
    simp [h]
  | cons c s ih =>
    rw [List.splitOn_cons_eq_if_modifyHead] at h
    obtain ⟨x, xs, hx⟩ := List.exists_cons_of_ne_nil (List.splitOn_ne_nil sep s)
    rw [hx] at h ih
    split at h
    · rcases List.mem_cons.1 h with rfl | h
      · simp
      · exact ih h
    · rename_i hc
      rcases List.mem_cons.1 h with rfl | h
      · have hx' := ih List.mem_cons_self
        simp only [beq_iff_eq] at hc
        simp [Ne.symm hc, hx']
      · exact ih (List.mem_cons_of_mem _ h)

theorem splitOn_eq_cons_iff {sep : Char} {s x : List Char} {xs : List (List Char)} :
    s.splitOn sep = x :: xs ↔ s = x ++ behind sep xs ∧ ∀ y ∈ x :: xs, sep ∉ y := by
  constructor
  · intro h
    refine ⟨?_, fun y hy => not_mem_of_mem_splitOn (h ▸ hy)⟩
    rw [← intercalate_cons_eq, ← h, List.intercalate_splitOn]
  · rintro ⟨rfl, h⟩
    rw [← intercalate_cons_eq]
    exact List.splitOn_intercalate sep h (by simp)

/-! ## The first few separators -/

/-- There is one piece more than separators at most, and no more pieces than allowed. -/
theorem length_splitUpTo (sep : Char) (n : Nat) (s : List Char) :
    (splitUpTo sep n s).length = min n (s.count sep + 1) := by
  fun_induction splitUpTo sep n s with
  | case1 => simp
  | case2 => simp
  | case3 n s h =>
    rw [List.count_eq_zero.2 (cut?_eq_none_iff.1 h)]
    simp
  | case4 n s before after h ih =>
    obtain ⟨rfl, hbefore⟩ := cut?_eq_some_iff.1 h
    rw [List.length_cons, ih, List.count_append, List.count_cons_self,
      List.count_eq_zero.2 hbefore]
    omega

theorem splitUpTo_join {sep : Char} {x : List Char} {xs : List (List Char)}
    (h : ∀ y ∈ (x :: xs).dropLast, sep ∉ y) :
    splitUpTo sep (xs.length + 1) (x ++ behind sep xs) = x :: xs := by
  induction xs generalizing x with
  | nil => simp [splitUpTo]
  | cons y ys ih =>
    have hx : sep ∉ x := h x (by simp)
    have hys : ∀ z ∈ (y :: ys).dropLast, sep ∉ z := fun z hz => h z (by simp [hz])
    simp only [List.length_cons, behind_cons, splitUpTo, cut?_append hx, ih hys]

/-- A split into as many pieces as allowed cuts at the first separators. -/
theorem splitUpTo_eq_cons_iff {sep : Char} {s x : List Char} {xs : List (List Char)} :
    splitUpTo sep (xs.length + 1) s = x :: xs ↔
      s = x ++ behind sep xs ∧ ∀ y ∈ (x :: xs).dropLast, sep ∉ y := by
  refine ⟨fun h => ?_, fun ⟨he, h⟩ => he ▸ splitUpTo_join h⟩
  induction xs generalizing s x with
  | nil =>
    simp only [List.length_nil, Nat.zero_add, splitUpTo, List.cons.injEq, and_true] at h
    simp [h]
  | cons y ys ih =>
    simp only [List.length_cons, splitUpTo] at h
    split at h
    · simp at h
    · rename_i before after hcut
      obtain ⟨rfl, hn⟩ := cut?_eq_some_iff.1 hcut
      obtain ⟨rfl, hrest⟩ := List.cons.inj h
      obtain ⟨rfl, hys⟩ := ih hrest
      refine ⟨by simp, fun z hz => ?_⟩
      rcases List.mem_cons.1 (List.dropLast_cons_cons ▸ hz) with rfl | hz
      · exact hn
      · exact hys z hz

end ResourceNames.Text
