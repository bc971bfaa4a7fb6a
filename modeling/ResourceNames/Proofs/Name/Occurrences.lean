import ResourceNames.Proofs.Name.Scanning

/-!
# Where placeholders stand

A scan goes on behind a placeholder that it has read, or behind a single character. It steps over no
placeholder that way, as none begins inside of another one.

* `placed`: the positions of the placeholders among some pieces.
* `mem_placed_pieces_iff`: in a text, these are all the positions at which one stands.
* `unresolved_eq_occurrences`: so a scan finds each occurrence of a placeholder, and no other name.
-/

namespace ResourceNames.Template

/-! ## Positions of pieces -/

/-- The placeholders among some pieces, each with the position at which it stands in the text of the
pieces. The text begins at position `start`. -/
def placed (start : Nat) : List Piece → List (Nat × List Char)
  | [] => []
  | .literal _ :: ps => placed (start + 1) ps
  | .placeholder name :: ps =>
    (start, name) :: placed (start + (Piece.placeholder name).written.length) ps

theorem map_snd_placed (start : Nat) (ps : List Piece) :
    (placed start ps).map (·.2) = ps.filterMap Piece.name? := by
  induction ps generalizing start with
  | nil => rfl
  | cons p ps ih =>
    cases p with
    | literal c => exact ih _
    | placeholder name => exact congrArg (name :: ·) (ih _)

/-- A piece stands behind all that is written before it. -/
theorem mem_placed_iff {start i : Nat} {ps : List Piece} {name : List Char} :
    (i, name) ∈ placed start ps ↔
      ∃ before after, ps = before ++ .placeholder name :: after ∧
        i = start + (before.flatMap Piece.written).length := by
  induction ps generalizing start with
  | nil => simp [placed]
  | cons p ps ih =>
    -- The first piece is either the one in question, or it is written before it.
    have hlater : (∃ before after, ps = before ++ .placeholder name :: after ∧
          i = start + p.written.length + (before.flatMap Piece.written).length) ↔
        ∃ before after, p :: ps = p :: before ++ .placeholder name :: after ∧
          i = start + ((p :: before).flatMap Piece.written).length := by
      simp [Nat.add_assoc]
    cases p with
    | literal c =>
      rw [placed, ih, show start + 1 = start + (Piece.literal c).written.length from rfl, hlater]
      constructor
      · rintro ⟨before, after, h⟩
        exact ⟨_, after, h⟩
      · rintro ⟨before, after, h, hi⟩
        cases before with
        | nil => cases h
        | cons p before =>
          obtain ⟨rfl, -⟩ := List.cons.inj h
          exact ⟨before, after, h, hi⟩
    | placeholder found =>
      rw [placed, List.mem_cons, ih, hlater]
      constructor
      · rintro (h | ⟨before, after, h⟩)
        · obtain ⟨rfl, rfl⟩ := Prod.mk.inj h
          exact ⟨[], ps, rfl, rfl⟩
        · exact ⟨_, after, h⟩
      · rintro ⟨before, after, h, hi⟩
        cases before with
        | nil =>
          obtain ⟨he, -⟩ := List.cons.inj h
          cases he
          exact .inl (congrArg (·, name) hi)
        | cons p before =>
          obtain ⟨rfl, -⟩ := List.cons.inj h
          exact .inr ⟨before, after, h, hi⟩

theorem le_of_mem_placed {start : Nat} {ps : List Piece} {o : Nat × List Char}
    (h : o ∈ placed start ps) : start ≤ o.1 := by
  obtain ⟨before, -, -, hi⟩ := mem_placed_iff.1 h
  omega

/-- The positions ascend, as no placeholder is written without a character. -/
theorem pairwise_placed (start : Nat) (ps : List Piece) :
    (placed start ps).Pairwise fun a b => a.1 < b.1 := by
  induction ps generalizing start with
  | nil => exact List.Pairwise.nil
  | cons p ps ih =>
    cases p with
    | literal c => exact ih _
    | placeholder name =>
      refine List.pairwise_cons.2 ⟨fun o ho => ?_, ih _⟩
      have hle := le_of_mem_placed ho
      simp only [Piece.written, List.length_cons] at hle
      omega

/-! ## Positions in texts -/

/-- A scan comes to every position at which a placeholder stands. -/
theorem mem_placed_pieces_iff {start i : Nat} {s name : List Char} :
    (i, name) ∈ placed start (pieces s) ↔
      IsName name ∧ ∃ before after, s = before ++ (Piece.placeholder name).written ++ after ∧
        i = start + before.length := by
  rw [mem_placed_iff]
  constructor
  · rintro ⟨before, after, hpieces, rfl⟩
    refine ⟨isName_of_mem_pieces (hpieces ▸ List.mem_append_right _ List.mem_cons_self),
      before.flatMap Piece.written, after.flatMap Piece.written, ?_, rfl⟩
    rw [List.append_assoc, ← List.flatMap_cons, ← List.flatMap_append, ← hpieces, written_pieces]
  · rintro ⟨hname, before, after, rfl, rfl⟩
    refine ⟨pieces before, pieces after, ?_, by rw [written_pieces]⟩
    rw [← pieces_placeholder hname, ← pieces_append_open]
    simp [Piece.written]

/-- At position `i` of a text stands `<name>`, with a name that is not empty and has no brackets. -/
structure OccursAt (text : String) (i : Nat) (name : String) : Prop where
  stands : ∃ before after, text = before ++ "<" ++ name ++ ">" ++ after ∧ before.length = i
  ne_empty : name ≠ ""
  open_not_mem : '<' ∉ name.toList
  close_not_mem : '>' ∉ name.toList

theorem isName_iff {name : List Char} : IsName name ↔ name ≠ [] ∧ '<' ∉ name ∧ '>' ∉ name := by
  constructor
  · exact fun h => ⟨h.ne_nil, h.open_not_mem, fun hm => by cases h.unbracketed _ hm⟩
  · rintro ⟨hne, hopen, hclose⟩
    refine ⟨hne, fun c hc => ?_⟩
    simp only [isBracket, Bool.or_eq_false_iff, decide_eq_false_iff_not]
    exact ⟨fun h => hopen (h ▸ hc), fun h => hclose (h ▸ hc)⟩

theorem occursAt_iff {text name : String} {i : Nat} :
    OccursAt text i name ↔ (i, name.toList) ∈ placed 0 (pieces text.toList) := by
  rw [mem_placed_pieces_iff, isName_iff]
  constructor
  · rintro ⟨⟨before, after, rfl, rfl⟩, hne, hopen, hclose⟩
    exact ⟨⟨mt String.toList_eq_nil_iff.1 hne, hopen, hclose⟩, before.toList, after.toList,
      by simp [Piece.written], by rw [Nat.zero_add, String.length_toList]⟩
  · rintro ⟨⟨hne, hopen, hclose⟩, before, after, htext, rfl⟩
    refine ⟨⟨String.ofList before, String.ofList after, ?_, by simp⟩,
      mt String.toList_eq_nil_iff.2 hne, hopen, hclose⟩
    rw [← String.toList_inj, htext]
    simp [Piece.written]

/-- **A scan is exact.** What it reads, written one after the other, is the text. The names that it
finds are those of all the occurrences of placeholders in the text, from left to right with
repeats. -/
theorem unresolved_eq_occurrences (text : String) :
    (pieces text.toList).flatMap Piece.written = text.toList ∧
      ∃ occurrences : List (Nat × String),
        unresolved text = occurrences.map (·.2) ∧
        (occurrences.Pairwise fun a b => a.1 < b.1) ∧
        ∀ i name, (i, name) ∈ occurrences ↔ OccursAt text i name := by
  refine ⟨written_pieces _,
    (placed 0 (pieces text.toList)).map fun o => (o.1, String.ofList o.2), ?_, ?_, fun i name => ?_⟩
  · have hnames : names text.toList = (placed 0 (pieces text.toList)).map (·.2) :=
      (map_snd_placed 0 _).symm
    rw [unresolved_eq, hnames, List.map_map, List.map_map]
    rfl
  · exact List.pairwise_map.2 (pairwise_placed 0 _)
  · rw [occursAt_iff, List.mem_map]
    constructor
    · rintro ⟨o, ho, he⟩
      obtain ⟨rfl, rfl⟩ := Prod.mk.inj he
      rwa [String.toList_ofList]
    · exact fun h => ⟨_, h, by rw [String.ofList_toList]⟩

/-- Stray and nested brackets hide no placeholder. -/
example : unresolved "<a<b>><>>c><d><b>" = ["b", "d", "b"] := by decide +kernel

end ResourceNames.Template
