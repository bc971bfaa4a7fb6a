import Mathlib.Data.List.Basic
import ResourceNames.Proofs.Definition.ContentLines

/-!
# Joined documents

Documents that are joined by separators are cut apart again.

* `lines_text`: a text of whole lines is cut into these lines.
* `splitOnP_intercalate`: groups of lines with a separator between them are cut into the groups.
* `splitDocuments_intercalate`: both together, for documents of which some have no content.
-/

namespace ResourceNames.Documents

/-! ## Texts of whole lines -/

/-- A separator with nothing behind its dashes. -/
def dashes : List Char := ['-', '-', '-']

/-- A line as it may stand in a document: on its own, and no separator. -/
structure IsPlain (line : List Char) : Prop where
  newline_not_mem : '\n' ∉ line
  /-- A carriage return at the end would be taken for part of the line break. -/
  getLast?_ne : line.getLast? ≠ some '\r'
  no_dashes : ¬ dashes <+: line

/-- The text of some lines, each with a line break behind it. -/
def text (ls : List (List Char)) : List Char := ls.flatMap fun line => line ++ ['\n']

theorem IsPlain.dropReturn_eq {line : List Char} (h : IsPlain line) : dropReturn line = line :=
  if_neg h.getLast?_ne

theorem IsPlain.isSeparator_eq {line : List Char} (h : IsPlain line) : isSeparator line = false :=
  Bool.eq_false_iff.2 fun hlead => h.no_dashes (Text.isSome_after?_iff.1 hlead)

/-- A text of whole lines is cut into these lines. -/
theorem lines_text {ls : List (List Char)} (hnewline : ∀ line ∈ ls, '\n' ∉ line)
    (hreturn : ∀ line ∈ ls, dropReturn line = line) : lines (text ls) = ls := by
  have hsplit : (text ls).splitOn '\n' = ls ++ [[]] := splitOn_document hnewline
  have hmap : ls.map dropReturn = ls := List.map_congr_left hreturn |>.trans (List.map_id ls)
  simp [lines, hsplit, hmap]

/-! ## Groups of lines -/

theorem text_append (xs ys : List (List Char)) : text (xs ++ ys) = text xs ++ text ys :=
  List.flatMap_append

/-- Documents joined by separators are the text of all their lines, with the separators between
them. -/
theorem intercalate_text (groups : List (List (List Char))) :
    List.intercalate (text [dashes]) (groups.map text) =
      text (List.intercalate [dashes] groups) := by
  induction groups with
  | nil => rfl
  | cons x xs ih =>
    cases xs with
    | nil => simp
    | cons y ys =>
      rw [List.map_cons, List.map_cons, List.intercalate_cons_cons, ← List.map_cons, ih,
        List.intercalate_cons_cons, text_append, text_append]

theorem mem_intercalate {α : Type} {sep a : α} {groups : List (List α)}
    (h : a ∈ List.intercalate [sep] groups) : a = sep ∨ ∃ group ∈ groups, a ∈ group := by
  induction groups with
  | nil => cases h
  | cons x xs ih =>
    cases xs with
    | nil => exact .inr ⟨x, List.mem_cons_self, by simpa using h⟩
    | cons y ys =>
      rw [List.intercalate_cons_cons, List.append_assoc, List.mem_append, List.mem_append,
        List.mem_singleton] at h
      rcases h with h | rfl | h
      · exact .inr ⟨x, List.mem_cons_self, h⟩
      · exact .inl rfl
      · exact (ih h).imp_right fun ⟨group, hgroup, ha⟩ =>
          ⟨group, List.mem_cons_of_mem x hgroup, ha⟩

/-- Groups of members with separators between them are cut into these groups. -/
theorem splitOnP_intercalate {α : Type} {p : α → Bool} {sep : α} (hsep : p sep = true)
    {x : List α} {xs : List (List α)} (h : ∀ group ∈ x :: xs, ∀ a ∈ group, p a = false) :
    (List.intercalate [sep] (x :: xs)).splitOnP p = x :: xs := by
  induction xs generalizing x with
  | nil => simpa using List.splitOnP_eq_singleton (h x List.mem_cons_self)
  | cons y ys ih =>
    have hx := h x List.mem_cons_self
    rw [List.intercalate_cons_cons, List.append_assoc, List.singleton_append,
      List.splitOnP_append_cons_of_forall_mem hx sep hsep,
      ih fun group hgroup => h group (List.mem_cons_of_mem x hgroup)]

/-! ## Documents -/

/-- A document of whole lines, in which no line ends it. -/
def IsWhole (document : String) : Prop :=
  ∃ ls : List (List Char), document.toList = text ls ∧ ∀ line ∈ ls, IsPlain line

/-- The lines of a document of whole lines. -/
theorem IsWhole.lines {document : String} (h : IsWhole document) :
    document.toList = text (lines document.toList) ∧
      ∀ line ∈ Documents.lines document.toList, IsPlain line := by
  obtain ⟨ls, htext, hplain⟩ := h
  have hlines : Documents.lines document.toList = ls := by
    rw [htext]
    exact lines_text (fun line hline => (hplain line hline).newline_not_mem)
      fun line hline => (hplain line hline).dropReturn_eq
  rw [hlines]
  exact ⟨htext, hplain⟩

/-- A document of whole lines comes out as it went in, unless it has no content. -/
theorem document?_lines {document : String} (h : IsWhole document) (position : Nat) :
    document? (lines document.toList) position =
      if contentLines document = [] then none else some (position, document) := by
  obtain ⟨htext, hplain⟩ := h.lines
  have hcontent : contentLines document = (lines document.toList).filter hasContent := by
    rw [contentLines, htext, text,
      splitOn_document fun line hline => (hplain line hline).newline_not_mem,
      ← text, ← htext, List.filter_append]
    simp [hasContent, Text.trimStart]
  have hany : (lines document.toList).any hasContent = true ↔ ¬ contentLines document = [] := by
    rw [hcontent, List.filter_eq_nil_iff, List.any_eq_true]
    simp
  have hdocument : String.ofList (text (lines document.toList)) = document := by
    rw [← htext, String.ofList_toList]
  unfold document?
  by_cases hnone : contentLines document = []
  · rw [if_pos hnone, if_neg fun h => hany.1 h hnone]
  · rw [if_neg hnone, if_pos (hany.2 hnone)]
    exact congrArg (fun d => some (position, d)) hdocument

/-- **Splitting undoes joining.** Documents of whole lines that are joined by separators are cut
apart again: each that has content comes out unchanged, with its position among all of them. -/
theorem splitDocuments_intercalate {documents : List String}
    (h : ∀ document ∈ documents, IsWhole document) :
    splitDocuments ("---\n".intercalate documents) =
      documents.zipIdx.filterMap fun (document, position) =>
        if contentLines document = [] then none else some (position, document) := by
  cases documents with
  | nil => decide +kernel
  | cons first rest =>
    let cut (document : String) : List (List Char) := lines document.toList
    have hplain : ∀ group ∈ (first :: rest).map cut, ∀ line ∈ group, IsPlain line := by
      intro group hgroup
      obtain ⟨document, hmem, rfl⟩ := List.mem_map.1 hgroup
      exact (h document hmem).lines.2
    have htext : ("---\n".intercalate (first :: rest)).toList =
        text (List.intercalate [dashes] ((first :: rest).map cut)) := by
      rw [String.toList_intercalate, ← intercalate_text, List.map_map]
      exact congrArg _ (List.map_congr_left fun document hmem => (h document hmem).lines.1)
    have hlines : lines ("---\n".intercalate (first :: rest)).toList =
        List.intercalate [dashes] ((first :: rest).map cut) := by
      rw [htext]
      refine lines_text (fun line hline => ?_) fun line hline => ?_
      all_goals
        rcases mem_intercalate hline with rfl | ⟨group, hgroup, hmem⟩
      · decide
      · exact (hplain group hgroup line hmem).newline_not_mem
      · decide
      · exact (hplain group hgroup line hmem).dropReturn_eq
    have hparts : (lines ("---\n".intercalate (first :: rest)).toList).splitOnP isSeparator =
        (first :: rest).map cut := by
      rw [hlines]
      exact splitOnP_intercalate (by decide) fun group hgroup line hline =>
        (hplain group hgroup line hline).isSeparator_eq
    unfold splitDocuments
    simp only [hparts]
    rw [List.zipIdx_map, List.filterMap_map]
    refine List.filterMap_congr fun numbered hnumbered => ?_
    exact document?_lines (h _ (List.fst_mem_of_mem_zipIdx hnumbered)) numbered.2

/-- A comment and an empty document count, but do not come out. -/
theorem splitDocuments_intercalate_sample :
    (∀ document ∈ ["# a\n", "b\n\n", "", "c\n"], IsWhole document) ∧
      splitDocuments "# a\n---\nb\n\n---\n---\nc\n" = [(1, "b\n\n"), (3, "c\n")] := by
  have hplain : IsPlain [] ∧ IsPlain ['#', ' ', 'a'] ∧ IsPlain ['b'] ∧ IsPlain ['c'] := by
    refine ⟨?_, ?_, ?_, ?_⟩ <;> constructor <;> decide
  have hwhole : ∀ document ∈ ["# a\n", "b\n\n", "", "c\n"], IsWhole document := by
    intro document hmem
    simp only [List.mem_cons, List.not_mem_nil, or_false] at hmem
    rcases hmem with rfl | rfl | rfl | rfl
    · exact ⟨[['#', ' ', 'a']], by decide, by simpa using hplain.2.1⟩
    · exact ⟨[['b'], []], by decide, by simpa using ⟨hplain.2.2.1, hplain.1⟩⟩
    · exact ⟨[], by decide, nofun⟩
    · exact ⟨[['c']], by decide, by simpa using hplain.2.2.2⟩
  exact ⟨hwhole, (splitDocuments_intercalate hwhole).trans (by decide +kernel)⟩

end ResourceNames.Documents
