import ResourceNames.Name.Template

/-!
# Scanning and filling templates

Where the placeholders of a text are does not depend on what stands before a `<`, so a scan can be
cut there.

* `pieces_append_open`: the pieces of a text, cut before a `<`.
* `names_append_placeholder`: a placeholder is seen wherever it stands.
* `toList_fill`: with a value for every name and no name twice, filling puts its value for each
  placeholder.
-/

namespace ResourceNames.Template

/-- What can stand between the brackets of a placeholder. -/
structure IsName (name : List Char) : Prop where
  ne_nil : name ≠ []
  unbracketed : ∀ c ∈ name, isBracket c = false

theorem isBracket_open : isBracket '<' = true := rfl

theorem isBracket_close : isBracket '>' = true := rfl

theorem IsName.open_not_mem {name : List Char} (h : IsName name) : '<' ∉ name := fun hm => by
  have := h.unbracketed _ hm
  rw [isBracket_open] at this
  cases this

theorem name?_append_close {name : List Char} (h : IsName name) (rest : List Char) :
    name? (name ++ '>' :: rest) = some (name, rest) := by
  have hp : ∀ c ∈ name, (!isBracket c) = true := fun c hc => by rw [h.unbracketed c hc]; rfl
  have ht : (name ++ '>' :: rest).takeWhile (!isBracket ·) = name := by
    rw [List.takeWhile_append_of_pos hp]
    simp [isBracket_close]
  have hd : (name ++ '>' :: rest).dropWhile (!isBracket ·) = '>' :: rest := by
    rw [List.dropWhile_append_of_pos hp]
    simp [isBracket_close]
  obtain ⟨c, cs, rfl⟩ := List.exists_cons_of_ne_nil h.ne_nil
  unfold name?
  rw [ht, hd]
  rfl

theorem isName_of_name? {s name rest : List Char} (h : name? s = some (name, rest)) :
    IsName name := by
  refine ⟨(eq_of_name? h).2, fun c hc => ?_⟩
  unfold name? at h
  split at h
  · rename_i d ds r ht hd
    cases h
    rw [← ht] at hc
    simpa using List.all_eq_true.1 List.all_takeWhile c hc
  · cases h

theorem name?_eq_some_iff {s name rest : List Char} :
    name? s = some (name, rest) ↔ s = name ++ '>' :: rest ∧ IsName name :=
  ⟨fun h => ⟨(eq_of_name? h).1, isName_of_name? h⟩, fun ⟨he, h⟩ => he ▸ name?_append_close h rest⟩

/-! ## Pieces -/

theorem pieces_nil : pieces [] = [] := by rw [pieces]

theorem pieces_cons_of_ne {c : Char} (h : c ≠ '<') (s : List Char) :
    pieces (c :: s) = .literal c :: pieces s := by
  rw [pieces, if_neg h]

theorem pieces_open_of_name?_eq_none {s : List Char} (h : name? s = none) :
    pieces ('<' :: s) = .literal '<' :: pieces s := by
  rw [pieces, if_pos rfl]
  split
  · rename_i hs
    rw [h] at hs
    cases hs
  · rfl

theorem pieces_placeholder {name : List Char} (h : IsName name) (s : List Char) :
    pieces ('<' :: (name ++ '>' :: s)) = .placeholder name :: pieces s := by
  have hn := name?_append_close h s
  rw [pieces, if_pos rfl]
  split
  · rename_i hs
    rw [hn] at hs
    cases hs
    rfl
  · rename_i hs
    rw [hn] at hs
    cases hs

theorem pieces_of_open_not_mem {s : List Char} (h : '<' ∉ s) : pieces s = s.map .literal := by
  induction s with
  | nil => exact pieces_nil
  | cons c s ih =>
    obtain ⟨hc, hs⟩ := not_or.1 (fun hm => h (List.mem_cons.2 hm))
    rw [pieces_cons_of_ne (Ne.symm hc), ih hs, List.map_cons]

/-- A `<` that begins no placeholder begins none either if the text goes on with another `<`. -/
theorem name?_append_open {s : List Char} (h : name? s = none) (t : List Char) :
    name? (s ++ '<' :: t) = none := by
  refine Option.eq_none_iff_forall_ne_some.2 fun ⟨name, rest⟩ hn => ?_
  obtain ⟨he, hname⟩ := name?_eq_some_iff.1 hn
  rcases List.append_eq_append_iff.1 he with ⟨u, rfl, hu⟩ | ⟨u, rfl, hu⟩
  · cases u with
    | nil => cases hu
    | cons c u =>
      cases hu
      exact hname.open_not_mem (by simp)
  · cases u with
    | nil => cases hu
    | cons c u =>
      cases hu
      rw [name?_append_close hname] at h
      cases h

/-- A scan can be cut before any `<`. -/
theorem pieces_append_open (a t : List Char) :
    pieces (a ++ '<' :: t) = pieces a ++ pieces ('<' :: t) := by
  fun_induction pieces a with
  | case1 => rfl
  | case2 s name rest h _ ih =>
    obtain ⟨rfl, hname⟩ := name?_eq_some_iff.1 h
    rw [List.cons_append, List.append_assoc, List.cons_append, pieces_placeholder hname, ih,
      List.cons_append]
  | case3 s h ih =>
    rw [List.cons_append, pieces_open_of_name?_eq_none (name?_append_open h t), ih,
      List.cons_append]
  | case4 c s hc ih => rw [List.cons_append, pieces_cons_of_ne hc, ih, List.cons_append]

/-! ## Names -/

/-- The names of the placeholders in a text, from left to right with repeats. -/
def names (s : List Char) : List (List Char) := (pieces s).filterMap Piece.name?

theorem unresolved_eq (text : String) :
    unresolved text = (names text.toList).map String.ofList := by
  unfold unresolved names
  rw [List.map_filterMap]

theorem isName_of_mem_pieces {s name : List Char} (h : .placeholder name ∈ pieces s) :
    IsName name := by
  fun_induction pieces s with
  | case1 => cases h
  | case2 s n rest hs _ ih =>
    rcases List.mem_cons.1 h with he | h
    · cases he
      exact isName_of_name? hs
    · exact ih h
  | case3 s hs ih => exact ih (by simpa using h)
  | case4 c s hc ih => exact ih (by simpa using h)

theorem mem_names_iff {s name : List Char} : name ∈ names s ↔ .placeholder name ∈ pieces s := by
  unfold names
  rw [List.mem_filterMap]
  constructor
  · rintro ⟨p, hp, hn⟩
    cases p with
    | literal c => cases hn
    | placeholder m => cases hn; exact hp
  · exact fun h => ⟨_, h, rfl⟩

theorem isName_of_mem_names {s name : List Char} (h : name ∈ names s) : IsName name :=
  isName_of_mem_pieces (mem_names_iff.1 h)

@[simp] theorem names_nil : names [] = [] := by simp [names, pieces_nil]

theorem names_of_open_not_mem {s : List Char} (h : '<' ∉ s) : names s = [] := by
  simp [names, pieces_of_open_not_mem h, Piece.name?]

/-- A placeholder is seen wherever it stands. -/
theorem names_append_placeholder {name : List Char} (h : IsName name) (a b : List Char) :
    names (a ++ '<' :: (name ++ '>' :: b)) = names a ++ name :: names b := by
  unfold names
  rw [pieces_append_open, pieces_placeholder h, List.filterMap_append, List.filterMap_cons]
  rfl

theorem mem_names_append_written {name : List Char} (h : IsName name) (a b : List Char) :
    name ∈ names (a ++ ((Piece.placeholder name).written ++ b)) := by
  have e : a ++ ((Piece.placeholder name).written ++ b) = a ++ '<' :: (name ++ '>' :: b) := by
    simp [Piece.written]
  rw [e, names_append_placeholder h]
  simp

/-- A name is in a text exactly if it stands there in brackets. -/
theorem mem_names_iff_infix {name : List Char} (h : IsName name) (s : List Char) :
    name ∈ names s ↔ (Piece.placeholder name).written <:+: s := by
  constructor
  · intro hm
    obtain ⟨l, r, hlr⟩ := List.append_of_mem (mem_names_iff.1 hm)
    have hs := written_pieces s
    rw [hlr, List.flatMap_append, List.flatMap_cons, ← List.append_assoc] at hs
    exact ⟨_, _, hs⟩
  · rintro ⟨a, b, rfl⟩
    rw [List.append_assoc]
    exact mem_names_append_written h a b

theorem pieces_append_of_open_not_mem {a : List Char} (h : '<' ∉ a) (s : List Char) :
    pieces (a ++ s) = a.map .literal ++ pieces s := by
  induction a with
  | nil => rfl
  | cons c a ih =>
    obtain ⟨hc, ha⟩ := not_or.1 (fun hm => h (List.mem_cons.2 hm))
    rw [List.cons_append, pieces_cons_of_ne (Ne.symm hc), ih ha, List.map_cons, List.cons_append]

theorem names_append_of_open_not_mem {a : List Char} (h : '<' ∉ a) (s : List Char) :
    names (a ++ s) = names s := by
  unfold names
  rw [pieces_append_of_open_not_mem h, List.filterMap_append]
  simp [List.filterMap_map, Piece.name?, Function.comp_def]

theorem names_cons_of_ne {c : Char} (h : c ≠ '<') (s : List Char) : names (c :: s) = names s := by
  unfold names
  rw [pieces_cons_of_ne h]
  rfl

theorem names_open_of_name?_eq_none {s : List Char} (h : name? s = none) :
    names ('<' :: s) = names s := by
  unfold names
  rw [pieces_open_of_name?_eq_none h]
  rfl

theorem names_placeholder {name : List Char} (h : IsName name) (s : List Char) :
    names ('<' :: (name ++ '>' :: s)) = name :: names s := by
  simpa using names_append_placeholder h [] s

/-- If a text must go on to close a placeholder at its front, no `<` follows in it. -/
theorem open_not_mem_of_name?_append {s t name rest : List Char} (h : name? s = none)
    (ht : name? (s ++ t) = some (name, rest)) : '<' ∉ s := by
  obtain ⟨he, hname⟩ := name?_eq_some_iff.1 ht
  rcases List.append_eq_append_iff.1 he with ⟨u, rfl, -⟩ | ⟨u, rfl, hu⟩
  · exact fun hm => hname.open_not_mem (List.mem_append_left _ hm)
  · cases u with
    | nil => simpa using hname.open_not_mem
    | cons c u =>
      cases hu
      rw [name?_append_close hname] at h
      cases h

/-- A longer text has at least the placeholders of a shorter one. -/
theorem names_sublist_append (a t : List Char) : (names a).Sublist (names (a ++ t)) := by
  fun_induction pieces a with
  | case1 => simp
  | case2 s name rest h _ ih =>
    obtain ⟨rfl, hname⟩ := name?_eq_some_iff.1 h
    rw [names_placeholder hname, List.cons_append, List.append_assoc, List.cons_append,
      names_placeholder hname]
    exact ih.cons_cons name
  | case3 s h ih =>
    rw [names_open_of_name?_eq_none h, List.cons_append]
    cases ht : name? (s ++ t) with
    | none => rwa [names_open_of_name?_eq_none ht]
    | some p =>
      rw [names_of_open_not_mem (open_not_mem_of_name?_append h ht)]
      exact List.nil_sublist _
  | case4 c s hc ih =>
    rwa [List.cons_append, names_cons_of_ne hc, names_cons_of_ne hc]

/-- A text without placeholders is read character by character. -/
theorem pieces_of_names_eq_nil {s : List Char} (h : names s = []) : pieces s = s.map .literal := by
  fun_induction pieces s with
  | case1 => rfl
  | case2 s name rest hs _ ih =>
    obtain ⟨rfl, hname⟩ := name?_eq_some_iff.1 hs
    rw [names_placeholder hname] at h
    cases h
  | case3 s hs ih =>
    rw [names_open_of_name?_eq_none hs] at h
    rw [ih h, List.map_cons]
  | case4 c s hc ih =>
    rw [names_cons_of_ne hc] at h
    rw [ih h, List.map_cons]

/-- What is added to a text without a further placeholder coming up is read character by
character. -/
theorem pieces_append_of_names_eq {a t : List Char} (h : names (a ++ t) = names a) :
    pieces (a ++ t) = pieces a ++ t.map .literal := by
  fun_induction pieces a with
  | case1 => simpa using pieces_of_names_eq_nil (by simpa using h)
  | case2 s name rest hs _ ih =>
    obtain ⟨rfl, hname⟩ := name?_eq_some_iff.1 hs
    rw [List.cons_append, List.append_assoc, List.cons_append] at h ⊢
    rw [names_placeholder hname, names_placeholder hname] at h
    rw [pieces_placeholder hname, ih (List.cons.inj h).2, List.cons_append]
  | case3 s hs ih =>
    rw [names_open_of_name?_eq_none hs] at h
    rw [List.cons_append] at h ⊢
    cases ht : name? (s ++ t) with
    | none =>
      rw [names_open_of_name?_eq_none ht] at h
      rw [pieces_open_of_name?_eq_none ht, ih h, List.cons_append]
    | some p =>
      obtain ⟨he, hname⟩ := name?_eq_some_iff.1 ht
      rw [he, names_placeholder hname,
        names_of_open_not_mem (open_not_mem_of_name?_append hs ht)] at h
      cases h
  | case4 c s hc ih =>
    rw [List.cons_append, names_cons_of_ne hc, names_cons_of_ne hc] at h
    rw [List.cons_append, pieces_cons_of_ne hc, ih h, List.cons_append]

/-! ## Filling -/

/-- The value of a name, empty if it has none. -/
def value (fields : Table String) (name : List Char) : List Char :=
  ((fields.find? (String.ofList name)).getD "").toList

namespace Piece

/-- A piece, or the value for it if it is a placeholder. -/
def filled (fields : Table String) : Piece → List Char
  | literal c => [c]
  | placeholder name => value fields name

end Piece

/-- A text with the value for each of its placeholders. -/
def filled (fields : Table String) (s : List Char) : List Char :=
  (pieces s).flatMap (Piece.filled fields)

theorem filled_append_placeholder (fields : Table String) {name : List Char} (h : IsName name)
    (a b : List Char) :
    filled fields (a ++ '<' :: (name ++ '>' :: b)) =
      filled fields a ++ (value fields name ++ filled fields b) := by
  unfold filled
  rw [pieces_append_open, pieces_placeholder h, List.flatMap_append, List.flatMap_cons]
  rfl

theorem filled_append_of_names_eq (fields : Table String) {a t : List Char}
    (h : names (a ++ t) = names a) : filled fields (a ++ t) = filled fields a ++ t := by
  unfold filled
  rw [pieces_append_of_names_eq h, List.flatMap_append]
  simp [List.flatMap_map, Piece.filled]

theorem filled_append_of_open_not_mem (fields : Table String) {a : List Char} (h : '<' ∉ a)
    (s : List Char) : filled fields (a ++ s) = a ++ filled fields s := by
  unfold filled
  rw [pieces_append_of_open_not_mem h, List.flatMap_append]
  simp [List.flatMap_map, Piece.filled]

@[simp] theorem filled_nil (fields : Table String) : filled fields [] = [] := by
  simp [filled, pieces_nil]

theorem filled_of_names_eq_nil (fields : Table String) {s : List Char} (h : names s = []) :
    filled fields s = s := by
  simpa using filled_append_of_names_eq fields (a := []) (t := s) (by simpa using h)

/-- Filling puts its value for each placeholder if every name has one and none comes twice. -/
theorem fillPieces_eq_flatMap {fields : Table String} {used : List (List Char)} {ps : List Piece}
    (hbound : ∀ n ∈ ps.filterMap Piece.name?, (fields.find? (String.ofList n)).isSome)
    (hnew : ∀ n ∈ ps.filterMap Piece.name?, n ∉ used)
    (hnodup : (ps.filterMap Piece.name?).Nodup) :
    fillPieces fields used ps = ps.flatMap (Piece.filled fields) := by
  induction ps generalizing used with
  | nil => rfl
  | cons p ps ih =>
    cases p with
    | literal c => rw [fillPieces, ih hbound hnew hnodup]; rfl
    | placeholder n =>
      have hn : n ∈ (Piece.placeholder n :: ps).filterMap Piece.name? := by simp [Piece.name?]
      obtain ⟨hfresh, hrest⟩ := List.nodup_cons.1 hnodup
      obtain ⟨v, hv⟩ := Option.isSome_iff_exists.1 (hbound n hn)
      have hnew' : ∀ m ∈ ps.filterMap Piece.name?, m ∉ n :: used := fun m hm hmu => by
        rcases List.mem_cons.1 hmu with rfl | hmu
        · exact hfresh hm
        · exact hnew m (List.mem_cons_of_mem _ hm) hmu
      rw [fillPieces, hv]
      simp only [hnew n hn, if_false]
      rw [ih (fun m hm => hbound m (List.mem_cons_of_mem _ hm)) hnew' hrest]
      simp [Piece.filled, value, hv]

theorem toList_fill {fields : Table String} {template : String}
    (hbound : ∀ n ∈ names template.toList, (fields.find? (String.ofList n)).isSome)
    (hnodup : (names template.toList).Nodup) :
    (fill fields template).toList = filled fields template.toList := by
  rw [fill, String.toList_ofList]
  exact fillPieces_eq_flatMap hbound (by simp) hnodup

end ResourceNames.Template
