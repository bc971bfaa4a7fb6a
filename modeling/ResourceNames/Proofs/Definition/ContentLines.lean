import ResourceNames.Definition.Documents
import ResourceNames.Proofs.Text.Splitting

/-!
# Lines in documents

A text is cut into documents at its separators, which are all lines that start with `---`, whatever
follows.

* `splitOn_document`: a document is cut into the lines that it was made of.
* `pairwise_splitDocuments`: documents come in the order of their positions.
* `contentLines_splitDocuments`: of the lines with content, the documents hold all but the
  separators, each once and in their order.
* `not_forall_line_infix`: so what a separator holds behind its dashes is in no document.
-/

namespace ResourceNames.Documents

/-! ## Lines -/

theorem dropReturn_sublist (line : List Char) : (dropReturn line).Sublist line := by
  unfold dropReturn
  split
  · exact List.dropLast_sublist line
  · exact List.Sublist.refl line

/-- A line holds no line break. -/
theorem newline_not_mem_of_mem_lines {s line : List Char} (h : line ∈ lines s) : '\n' ∉ line := by
  obtain ⟨part, hpart, hsub⟩ : ∃ part ∈ s.splitOn '\n', line.Sublist part := by
    rcases List.mem_append.1 h with h | h
    · obtain ⟨part, hpart, rfl⟩ := List.mem_map.1 h
      exact ⟨part, List.dropLast_subset _ hpart, dropReturn_sublist part⟩
    · have hlast := List.getLast?_eq_some_getLast (List.splitOn_ne_nil '\n' s)
      simp only [hlast, Option.getD_some] at h
      split at h
      · cases h
      · obtain rfl := List.mem_singleton.1 h
        exact ⟨_, List.getLast_mem _, List.Sublist.refl _⟩
  exact fun hm => Text.not_mem_of_mem_splitOn hpart (hsub.subset hm)

/-- A text made of some lines is cut into these lines and nothing behind the last one. -/
theorem splitOn_document {ls : List (List Char)} (h : ∀ line ∈ ls, '\n' ∉ line) :
    (ls.flatMap fun line => line ++ ['\n']).splitOn '\n' = ls ++ [[]] := by
  induction ls with
  | nil => rfl
  | cons line ls ih =>
    obtain ⟨hline, hls⟩ := List.forall_mem_cons.1 h
    rw [List.flatMap_cons, List.append_assoc, List.singleton_append,
      List.splitOn_append_cons_self, List.splitOn_eq_singleton hline, ih hls]
    rfl

/-- The parts of a split hold the members that do not separate. -/
theorem flatten_splitOnP {α : Type} (p : α → Bool) (xs : List α) :
    (xs.splitOnP p).flatten = xs.filter fun x => !p x := by
  induction xs with
  | nil => simp
  | cons x xs ih =>
    obtain ⟨part, parts, hparts⟩ := List.exists_cons_of_ne_nil (List.splitOnP_ne_nil p xs)
    rw [List.splitOnP_cons_eq_if_modifyHead, hparts]
    rw [hparts, List.flatten_cons] at ih
    split
    · rename_i hx
      rw [List.filter_cons_of_neg (by simp [hx]), ← ih]
      rfl
    · rename_i hx
      rw [List.filter_cons_of_pos (by simp [hx]), ← ih]
      rfl

/-! ## Positions -/

theorem fst_of_document? {ls : List (List Char)} {position : Nat} {d : Nat × String}
    (h : document? ls position = some d) : d.1 = position := by
  unfold document? at h
  split at h
  · cases h
    rfl
  · cases h

/-- The documents of a text come in the order of their positions. -/
theorem pairwise_splitDocuments (text : String) :
    (splitDocuments text).Pairwise fun a b => a.1 < b.1 := by
  have hpositions : ∀ parts : List (List (List Char)),
      parts.zipIdx.Pairwise fun a b => a.2 < b.2 := fun parts =>
    List.pairwise_map.1 (by rw [List.zipIdx_map_snd]; exact List.pairwise_lt_range')
  refine (hpositions _).filterMap _ fun a b hab d hd e he => ?_
  rw [fst_of_document? hd, fst_of_document? he]
  exact hab

/-! ## Content -/

/-- The lines with content of a document. -/
def contentLines (document : String) : List (List Char) :=
  (document.toList.splitOn '\n').filter hasContent

/-- The document made of some lines keeps their content. -/
theorem contentLines_document? {ls : List (List Char)} (h : ∀ line ∈ ls, '\n' ∉ line)
    (position : Nat) :
    ((document? ls position).toList.flatMap fun d => contentLines d.2) = ls.filter hasContent := by
  unfold document?
  split
  · simp only [Option.toList_some, List.flatMap_singleton, contentLines, String.toList_ofList]
    rw [splitOn_document h, List.filter_append]
    simp [hasContent, Text.trimStart]
  · rename_i hnone
    simpa using hnone

theorem flatMap_contentLines {numbered : List (List (List Char) × Nat)}
    (h : ∀ part ∈ numbered, ∀ line ∈ part.1, '\n' ∉ line) :
    ((numbered.filterMap fun (ls, position) => document? ls position).flatMap
        fun d => contentLines d.2) =
      (numbered.map (·.1)).flatten.filter hasContent := by
  induction numbered with
  | nil => rfl
  | cons part numbered ih =>
    obtain ⟨ls, position⟩ := part
    obtain ⟨hpart, hnumbered⟩ := List.forall_mem_cons.1 h
    have hdocument := contentLines_document? hpart position
    rw [List.map_cons, List.flatten_cons, List.filter_append, ← ih hnumbered, ← hdocument]
    cases hd : document? ls position with
    | none => simp [hd]
    | some d => simp [hd]

/-- **Lines in documents.** The lines with content that stand in the documents of a text are those
of the text that are no separators, in the same order. -/
theorem contentLines_splitDocuments (text : String) :
    ((splitDocuments text).flatMap fun d => contentLines d.2) =
      (lines text.toList).filter fun line => hasContent line && !isSeparator line := by
  have hparts := flatten_splitOnP isSeparator (lines text.toList)
  rw [splitDocuments, flatMap_contentLines, List.zipIdx_map_fst, hparts, List.filter_filter]
  intro part hpart line hline
  have hmem : line ∈ ((lines text.toList).splitOnP isSeparator).flatten :=
    List.mem_flatten.2 ⟨part.1, List.fst_mem_of_mem_zipIdx hpart, hline⟩
  rw [hparts] at hmem
  exact newline_not_mem_of_mem_lines (List.mem_filter.1 hmem).1

/-- A separator with nothing behind its dashes but blanks or a comment. -/
def isBareSeparator (line : List Char) : Bool :=
  match Text.after? ['-', '-', '-'] line with
  | some rest => !hasContent rest
  | none => false

/-- A line that merely begins with three dashes is in no document, nor is what a separator holds
behind its dashes. -/
theorem not_forall_line_infix :
    (¬ ∀ (text : String) (line : List Char), line ∈ lines text.toList →
      hasContent line = true → isBareSeparator line = false →
      ∃ d ∈ splitDocuments text, line <:+: d.2.toList) ∧
    ¬ ∀ (text : String) (rest : List Char), ['-', '-', '-', ' '] ++ rest ∈ lines text.toList →
      hasContent rest = true → ∃ d ∈ splitDocuments text, rest <:+: d.2.toList := by
  have hdocuments : splitDocuments "a\n---b" = [(0, "a\n")] ∧
      splitDocuments "a\n--- b" = [(0, "a\n")] := by decide +kernel
  have hb : ∀ line : List Char, 'b' ∈ line → ¬ line <:+: "a\n".toList := fun line hmem hpart =>
    absurd (hpart.subset hmem) (by decide +kernel)
  constructor
  · intro h
    obtain ⟨d, hd, hpart⟩ := h "a\n---b" ['-', '-', '-', 'b'] (by decide +kernel) (by decide)
      (by decide)
    rw [hdocuments.1] at hd
    obtain rfl := List.mem_singleton.1 hd
    exact hb _ (by decide) hpart
  · intro h
    obtain ⟨d, hd, hpart⟩ := h "a\n--- b" ['b'] (by decide +kernel) (by decide)
    rw [hdocuments.2] at hd
    obtain rfl := List.mem_singleton.1 hd
    exact hb _ (by decide) hpart

end ResourceNames.Documents
