import Mathlib.Data.List.Infix
import ResourceNames.Proofs.Name.Scanning
import ResourceNames.Proofs.Text.Splitting

/-!
# Placeholders that filling leaves

Which placeholders of a filled text were left in it is not noted, but found by another scan. That
sees all of them, and also what the characters of values and of the template spell.

* `kept`: the placeholders that have no value or come again.
* `names_fill`: another scan sees them all, and nothing else exactly if no placeholder is spelled
  by characters.
* `nodup_of_unresolved_fill`: if it sees nothing, every name had a value and none came twice.
-/

namespace ResourceNames.Template

/-! ## What is left -/

/-- Of the names of some placeholders, those that filling leaves in the text, as they have no value
or had it put before. `used` are the names that have got their values. -/
def kept (fields : Table String) (used : List (List Char)) : List (List Char) → List (List Char)
  | [] => []
  | name :: names =>
    if (fields.find? (String.ofList name)).isSome && !used.contains name then
      kept fields (name :: used) names
    else name :: kept fields used names

theorem kept_sublist (fields : Table String) (used ns : List (List Char)) :
    (kept fields used ns).Sublist ns := by
  fun_induction kept fields used ns with
  | case1 => exact List.Sublist.slnil
  | case2 used name names h ih => exact ih.cons name
  | case3 used name names h ih => exact ih.cons_cons name

/-- Nothing is left exactly if every name has a value that was not put before and none comes
twice. -/
theorem kept_eq_nil_iff {fields : Table String} {used ns : List (List Char)} :
    kept fields used ns = [] ↔
      ns.Nodup ∧ ∀ n ∈ ns, n ∉ used ∧ (fields.find? (String.ofList n)).isSome := by
  fun_induction kept fields used ns with
  | case1 => simp
  | case2 used name names h ih =>
    rw [Bool.and_eq_true, Bool.not_eq_true', List.contains_eq_mem, decide_eq_false_iff_not] at h
    rw [ih, List.nodup_cons, List.forall_mem_cons]
    constructor
    · rintro ⟨hnodup, hall⟩
      exact ⟨⟨fun hm => (hall name hm).1 List.mem_cons_self, hnodup⟩, ⟨h.2, h.1⟩,
        fun n hn => ⟨fun hm => (hall n hn).1 (List.mem_cons_of_mem name hm), (hall n hn).2⟩⟩
    · rintro ⟨⟨hname, hnodup⟩, -, hall⟩
      refine ⟨hnodup, fun n hn => ⟨fun hm => ?_, (hall n hn).2⟩⟩
      obtain rfl | hm := List.mem_cons.1 hm
      · exact hname hn
      · exact (hall n hn).1 hm
  | case3 used name names h ih =>
    rw [Bool.and_eq_true, Bool.not_eq_true', List.contains_eq_mem, decide_eq_false_iff_not] at h
    refine iff_of_false (List.cons_ne_nil _ _) fun ⟨_, hall⟩ => h ?_
    obtain ⟨hused, hbound⟩ := hall name List.mem_cons_self
    exact ⟨hbound, hused⟩

/-- What filling makes of some pieces: the characters of the text and of the values, and the
placeholders that it leaves. -/
def filledPieces (fields : Table String) (used : List (List Char)) : List Piece → List Piece
  | [] => []
  | .literal c :: ps => .literal c :: filledPieces fields used ps
  | .placeholder name :: ps =>
    match fields.find? (String.ofList name) with
    | some value =>
      if used.contains name then .placeholder name :: filledPieces fields used ps
      else value.toList.map .literal ++ filledPieces fields (name :: used) ps
    | none => .placeholder name :: filledPieces fields used ps

theorem flatMap_written_literals (s : List Char) :
    (s.map Piece.literal).flatMap Piece.written = s := by
  rw [List.flatMap_map]
  exact List.flatMap_singleton' s

theorem filterMap_name?_literals (s : List Char) :
    (s.map Piece.literal).filterMap Piece.name? = [] := by
  simp [List.filterMap_map, Piece.name?, Function.comp_def]

theorem written_filledPieces (fields : Table String) (used : List (List Char)) (ps : List Piece) :
    (filledPieces fields used ps).flatMap Piece.written = fillPieces fields used ps := by
  fun_induction filledPieces fields used ps with
  | case1 => rfl
  | case2 used c ps ih => simp [fillPieces, Piece.written, ih]
  | case3 used name ps value hvalue hused ih =>
    rw [List.contains_iff_mem] at hused
    simp [fillPieces, Piece.written, hvalue, hused, ih]
  | case4 used name ps value hvalue hused ih =>
    rw [List.contains_iff_mem] at hused
    rw [List.flatMap_append, flatMap_written_literals, ih]
    simp [fillPieces, hvalue, hused]
  | case5 used name ps hvalue ih => simp [fillPieces, Piece.written, hvalue, ih]

theorem names_filledPieces (fields : Table String) (used : List (List Char)) (ps : List Piece) :
    (filledPieces fields used ps).filterMap Piece.name? =
      kept fields used (ps.filterMap Piece.name?) := by
  fun_induction filledPieces fields used ps with
  | case1 => rfl
  | case2 used c ps ih => exact ih
  | case3 used name ps value hvalue hused ih =>
    rw [List.contains_iff_mem] at hused
    simp [kept, Piece.name?, hvalue, hused, ih]
  | case4 used name ps value hvalue hused ih =>
    rw [List.contains_iff_mem] at hused
    rw [List.filterMap_append, filterMap_name?_literals, ih]
    simp [kept, Piece.name?, hvalue, hused]
  | case5 used name ps hvalue ih => simp [kept, Piece.name?, hvalue, ih]

/-! ## What another scan sees -/

/-- No placeholder is spelled by characters that stand side by side. -/
def Unspelled (ps : List Piece) : Prop :=
  ∀ name, IsName name → ¬ (Piece.placeholder name).written.map .literal <:+: ps

theorem unspelled_literals_iff {s : List Char} :
    Unspelled (s.map .literal) ↔ names s = [] := by
  unfold Unspelled
  constructor
  · intro h
    refine List.eq_nil_iff_forall_not_mem.2 fun name hm => ?_
    have hname := isName_of_mem_names hm
    exact h name hname (((Template.mem_names_iff_infix hname s).1 hm).map Piece.literal)
  · intro h name hname hinfix
    have hwritten := hinfix.flatMap Piece.written
    rw [flatMap_written_literals, flatMap_written_literals, ← Template.mem_names_iff_infix hname, h]
      at hwritten
    cases hwritten

theorem unspelled_append_placeholder_iff {ps qs : List Piece} {n : List Char} :
    Unspelled (ps ++ .placeholder n :: qs) ↔ Unspelled ps ∧ Unspelled qs := by
  have hsplit : ∀ name : List Char,
      (Piece.placeholder name).written.map Piece.literal <:+: ps ++ .placeholder n :: qs ↔
        (Piece.placeholder name).written.map Piece.literal <:+: ps ∨
          (Piece.placeholder name).written.map Piece.literal <:+: qs := fun name =>
    Text.infix_append_cons_iff (by simp [Piece.written]) (by simp)
  unfold Unspelled
  constructor
  · intro h
    exact ⟨fun name hname hinfix => h name hname ((hsplit name).2 (.inl hinfix)),
      fun name hname hinfix => h name hname ((hsplit name).2 (.inr hinfix))⟩
  · rintro ⟨hps, hqs⟩ name hname hinfix
    exact ((hsplit name).1 hinfix).elim (hps name hname) (hqs name hname)

/-- A scan sees all placeholders, wherever they stand, and nothing else exactly if none is
spelled. `before` are characters that were passed since the last placeholder. -/
theorem names_append_written (before : List Char) {ps : List Piece}
    (hnames : ∀ n ∈ ps.filterMap Piece.name?, IsName n) :
    (ps.filterMap Piece.name?).Sublist (names (before ++ ps.flatMap Piece.written)) ∧
      (names (before ++ ps.flatMap Piece.written) = ps.filterMap Piece.name? ↔
        Unspelled (before.map .literal ++ ps)) := by
  induction ps generalizing before with
  | nil =>
    rw [List.append_nil, unspelled_literals_iff]
    simp
  | cons p ps ih =>
    cases p with
    | literal c =>
      have h := ih (before ++ [c]) hnames
      rw [List.map_append, List.append_assoc, List.append_assoc] at h
      exact h
    | placeholder n =>
      have hn : IsName n := hnames n List.mem_cons_self
      have hrest := ih [] fun m hm => hnames m (List.mem_cons_of_mem n hm)
      rw [List.map_nil, List.nil_append, List.nil_append] at hrest
      obtain ⟨hsub, hiff⟩ := hrest
      have hcons : (Piece.placeholder n :: ps).filterMap Piece.name? =
          n :: ps.filterMap Piece.name? := rfl
      have hseen : names (before ++ (Piece.placeholder n :: ps).flatMap Piece.written) =
          names before ++ n :: names (ps.flatMap Piece.written) := by
        rw [← names_append_placeholder hn]
        simp [Piece.written]
      rw [hseen, hcons, unspelled_append_placeholder_iff, unspelled_literals_iff, ← hiff]
      refine ⟨(hsub.cons_cons n).trans (List.sublist_append_right _ _), ?_⟩
      constructor
      · intro h
        have hlength := congrArg List.length h
        simp only [List.length_append, List.length_cons] at hlength
        have hle := hsub.length_le
        have hbefore : names before = [] := List.eq_nil_of_length_eq_zero (by omega)
        rw [hbefore] at h
        exact ⟨hbefore, (List.cons.inj h).2⟩
      · rintro ⟨hbefore, hps⟩
        rw [hbefore, hps, List.nil_append]

/-- Another scan of a filled text sees what was left, and nothing else exactly if no placeholder is
spelled by the characters of values and of the template. -/
theorem names_fill (fields : Table String) (template : String) :
    (kept fields [] (names template.toList)).Sublist (names (fill fields template).toList) ∧
      (names (fill fields template).toList = kept fields [] (names template.toList) ↔
        Unspelled (filledPieces fields [] (pieces template.toList))) := by
  have hnames : ∀ n ∈ (filledPieces fields [] (pieces template.toList)).filterMap Piece.name?,
      IsName n := by
    intro n hn
    rw [names_filledPieces] at hn
    exact isName_of_mem_names ((kept_sublist fields [] _).subset hn)
  have h := names_append_written [] hnames
  rwa [names_filledPieces, List.nil_append, written_filledPieces, List.map_nil, List.nil_append,
    ← String.toList_ofList (l := fillPieces _ _ _)] at h

/-- A text filled without a placeholder left had a value for every name and no name twice. -/
theorem nodup_of_unresolved_fill {fields : Table String} {template : String}
    (h : unresolved (fill fields template) = []) :
    (names template.toList).Nodup ∧
      ∀ n ∈ names template.toList, (fields.find? (String.ofList n)).isSome := by
  rw [unresolved_eq, List.map_eq_nil_iff] at h
  have hsub := (names_fill fields template).1
  rw [h] at hsub
  obtain ⟨hnodup, hall⟩ := kept_eq_nil_iff.1 (List.sublist_nil.1 hsub)
  exact ⟨hnodup, fun n hn => (hall n hn).2⟩

end ResourceNames.Template
