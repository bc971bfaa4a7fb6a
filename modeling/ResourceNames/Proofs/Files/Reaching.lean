import Mathlib.Data.List.Nodup
import ResourceNames.Files.Glob
import ResourceNames.Proofs.Files.Walking

/-!
# What the parts of a pattern reach

A search, told without path texts: the parts of a pattern lead from row of names to row of names
(`reach`).

* `mem_rowsBelow_iff`, `nodup_rowsBelow`: the rows at any depth below a directory.
* `reach_append_of_spells`: parts that spell names are a walk along them.
-/

namespace ResourceNames.Files

namespace Node

mutual

/-- The rows of names below a node, each after those below it. -/
def rows : Node → List (List String)
  | file _ => []
  | directory entries => rowsOf entries

def rowsOf : List (String × Node) → List (List String)
  | [] => []
  | (name, n) :: rest => n.rows.map (name :: ·) ++ [name] :: rowsOf rest

end

/-- The rows that stand directly in the directory `here`. -/
def rowsIn (root : Node) (here : List String) : List (List String) :=
  match root.at? here with
  | some (directory entries) => entries.map fun e => here ++ [e.1]
  | _ => []

/-- The rows at any depth below `here`. -/
def rowsBelow (root : Node) (here : List String) : List (List String) :=
  ((root.at? here).map rows).getD [] |>.map (here ++ ·)

end Node

namespace Glob

open FileSystem

/-- The row that a part without wildcards leads to, if there is anything under it. -/
def reached? (root : Node) (here : List String) (part : String) : Option (List String) :=
  (walk? root here [part]).filter fun row => (root.at? row).isSome

/-- The rows of names that the parts lead to from `here`. -/
def reach (root : Node) (wantsDirectory : Bool) :
    (below : Bool) → List Part → (here : List String) → List (List String)
  | false, [], here => if !wantsDirectory || root.isDirectoryAt here then [here] else []
  | true, [], here => (root.rowsBelow here).filter root.isDirectoryAt
  | below, part :: parts, here =>
    let byName (rows : List (List String)) : List (List String) :=
      rows.flatMap fun row =>
        if matchesName part (row.getLast?.getD "").toList then
          reach root wantsDirectory false parts row
        else []
    if part.isDirectories then reach root wantsDirectory true parts here
    else if below then byName (root.rowsBelow here)
    else
      match part.text? with
      | some name =>
        ((reached? root here (String.ofList name)).map
          (reach root wantsDirectory false parts)).getD []
      | none =>
        let dots :=
          if root.isDirectoryAt here && part.head? = some (.char '.') then
            [".", ".."].flatMap fun name =>
              if matchesName part name.toList then
                reach root wantsDirectory false parts (enter here name)
              else []
          else []
        byName (root.rowsIn here) ++ dots

end Glob

/-! ## Rows -/

namespace Node

theorem mem_rowsOf_iff {entries : List (String × Node)} {row : List String} :
    row ∈ rowsOf entries ↔
      ∃ e ∈ entries, ∃ below, row = e.1 :: below ∧ (below = [] ∨ below ∈ e.2.rows) := by
  induction entries with
  | nil => simp [rowsOf]
  | cons e rest ih =>
    obtain ⟨name, n⟩ := e
    rw [rowsOf, List.mem_append, List.mem_cons, ih, List.exists_mem_cons_iff, List.mem_map]
    constructor
    · rintro (⟨below, hbelow, rfl⟩ | rfl | h)
      · exact .inl ⟨below, rfl, .inr hbelow⟩
      · exact .inl ⟨[], rfl, .inl rfl⟩
      · exact .inr h
    · rintro (⟨below, rfl, rfl | hbelow⟩ | h)
      · exact .inr (.inl rfl)
      · exact .inl ⟨below, hbelow, rfl⟩
      · exact .inr (.inr h)

/-- Below a node stands what its names lead to. -/
theorem mem_rows_iff {n : Node} (hn : n.isProper = true) {row : List String} :
    row ∈ n.rows ↔ row ≠ [] ∧ (n.at? row).isSome = true := by
  induction row generalizing n with
  | nil =>
    cases n with
    | file content => simp [rows]
    | directory entries => simp [rows, mem_rowsOf_iff]
  | cons name below ih =>
    cases n with
    | file content => simp [rows, at?]
    | directory entries =>
      obtain ⟨hascending, hall⟩ := isProper_directory_iff.1 hn
      rw [rows, mem_rowsOf_iff, at?]
      constructor
      · rintro ⟨⟨_, m⟩, hmem, _, heq, hbelow⟩
        obtain ⟨rfl, rfl⟩ := List.cons.inj heq
        rw [Entries.find?_eq_some_of_mem hascending hmem, Option.bind_some]
        refine ⟨by simp, ?_⟩
        obtain rfl | hbelow := hbelow
        · simp [at?]
        · exact ((ih (hall _ hmem).2).1 hbelow).2
      · rintro ⟨-, hsome⟩
        obtain ⟨found, hfound⟩ := Option.isSome_iff_exists.1 hsome
        obtain ⟨m, hm, hbelow⟩ := Option.bind_eq_some_iff.1 hfound
        have hmem := Entries.mem_of_find?_eq_some hm
        refine ⟨_, hmem, below, rfl, ?_⟩
        by_cases hnil : below = []
        · exact .inl hnil
        · exact .inr ((ih (hall _ hmem).2).2 ⟨hnil, by simp [hbelow]⟩)

mutual

theorem nodup_rows {n : Node} (hn : n.isProper = true) : n.rows.Nodup := by
  cases n with
  | file content => exact List.nodup_nil
  | directory entries => exact nodup_rowsOf hn

theorem nodup_rowsOf {entries : List (String × Node)} (h : (directory entries).isProper = true) :
    (rowsOf entries).Nodup := by
  cases entries with
  | nil => exact List.nodup_nil
  | cons e rest =>
    obtain ⟨name, n⟩ := e
    obtain ⟨hascending, hall⟩ := isProper_directory_iff.1 h
    obtain ⟨hhead, htail⟩ := List.pairwise_cons.1 hascending
    obtain ⟨⟨-, hn⟩, hrest⟩ := List.forall_mem_cons.1 hall
    have hafter := nodup_rowsOf (isProper_directory_iff.2 ⟨htail, hrest⟩)
    -- The rows of later entries begin with other names.
    have hother : ∀ below, name :: below ∉ rowsOf rest := by
      intro below hmem
      obtain ⟨e, he, _, heq, -⟩ := mem_rowsOf_iff.1 hmem
      have hlt : name < e.1 := hhead e he
      rw [(List.cons.inj heq).1] at hlt
      exact String.lt_irrefl _ hlt
    have hsingle : [name] ∉ n.rows.map (name :: ·) := by
      simp [mem_rows_iff hn]
    rw [rowsOf, List.nodup_append]
    refine ⟨(nodup_rows hn).map List.cons_injective, List.nodup_cons.2 ⟨hother [], hafter⟩, ?_⟩
    rintro row hrow row' hrow' rfl
    obtain ⟨below, -, rfl⟩ := List.mem_map.1 hrow
    obtain heq | hmem := List.mem_cons.1 hrow'
    · exact hsingle (heq ▸ hrow)
    · exact hother below hmem

end

theorem mem_rowsBelow_iff {root : Node} (hroot : root.isProper = true) {here row : List String} :
    row ∈ root.rowsBelow here ↔
      ∃ names, names ≠ [] ∧ row = here ++ names ∧ (root.at? row).isSome = true := by
  unfold rowsBelow
  rw [List.mem_map]
  constructor
  · rintro ⟨names, hnames, rfl⟩
    cases hat : root.at? here with
    | none => simp [hat] at hnames
    | some n =>
      simp only [hat, Option.map_some, Option.getD_some] at hnames
      obtain ⟨hne, hsome⟩ := (mem_rows_iff (isProper_at? hroot hat)).1 hnames
      exact ⟨names, hne, rfl, by rwa [at?_append, hat]⟩
  · rintro ⟨names, hne, rfl, hsome⟩
    refine ⟨names, ?_, rfl⟩
    rw [at?_append] at hsome
    cases hat : root.at? here with
    | none => simp [hat] at hsome
    | some n =>
      rw [hat] at hsome
      exact (mem_rows_iff (isProper_at? hroot hat)).2 ⟨hne, hsome⟩

theorem nodup_rowsBelow {root : Node} (hroot : root.isProper = true) (here : List String) :
    (root.rowsBelow here).Nodup := by
  unfold rowsBelow
  refine List.Nodup.map (List.append_right_injective here) ?_
  cases hat : root.at? here with
  | none => exact List.nodup_nil
  | some n => exact nodup_rows (isProper_at? hroot hat)

/-- Nothing stands below what is no directory. -/
theorem rowsBelow_eq_nil {root : Node} {here : List String}
    (h : root.isDirectoryAt here = false) : root.rowsBelow here = [] := by
  unfold rowsBelow
  unfold isDirectoryAt at h
  cases hat : root.at? here with
  | none => rfl
  | some n =>
    cases n with
    | file content => rfl
    | directory entries => simp [hat, isDirectory] at h

theorem rowsIn_eq_nil {root : Node} {here : List String}
    (h : root.isDirectoryAt here = false) : root.rowsIn here = [] := by
  unfold rowsIn
  unfold isDirectoryAt at h
  split
  · rename_i entries hat
    simp [hat, isDirectory] at h
  · rfl

end Node

namespace Glob

open FileSystem

/-- No part leads on from what is no directory. -/
theorem reach_eq_nil {root : Node} {here : List String} (h : root.isDirectoryAt here = false)
    (wantsDirectory : Bool) {below : Bool} {parts : List Part}
    (hparts : below = true ∨ parts ≠ []) :
    reach root wantsDirectory below parts here = [] := by
  induction parts generalizing below with
  | nil =>
    obtain rfl : below = true := hparts.resolve_right (by simp)
    rw [reach, Node.rowsBelow_eq_nil h]
    rfl
  | cons part parts ih =>
    unfold reach
    simp only [Node.rowsBelow_eq_nil h, Node.rowsIn_eq_nil h, List.flatMap_nil, List.nil_append, h,
      Bool.false_and, Bool.false_eq_true, if_false]
    split
    · exact ih (.inl rfl)
    · split
      · rfl
      · split
        · rw [reached?, walk?_singleton, h]
          rfl
        · rfl

/-! ## Parts that spell names -/

theorem text?_eq_some_iff {part : Part} {name : List Char} :
    part.text? = some name ↔ part = name.map Token.char := by
  induction part generalizing name with
  | nil => cases name <;> simp [Part.text?]
  | cons t part ih =>
    cases t with
    | char c =>
      rw [Part.text?, Option.map_eq_some_iff]
      cases name with
      | nil => simp
      | cons d name => simp [ih, and_comm]
    | _ => cases name <;> simp [Part.text?]

/-- A part that matches one text: each character of it, or the set of a special one. -/
inductive Spells : Part → List Char → Prop where
  | nil : Spells [] []
  | char (c : Char) {part : Part} {text : List Char} :
    Spells part text → Spells (.char c :: part) (c :: text)
  | set {c : Char} {part : Part} {text : List Char} :
    c ∈ specialChars → Spells part text → Spells (.oneOf [⟨c, c⟩] :: part) (c :: text)

theorem holds_self_iff {c d : Char} : CharRange.holds ⟨c, c⟩ d = true ↔ d = c := by
  simp only [CharRange.holds, Bool.and_eq_true, decide_eq_true_eq]
  exact ⟨fun ⟨hle, hge⟩ => Char.le_antisymm hge hle, fun h => h ▸ ⟨Char.le_refl _, Char.le_refl _⟩⟩

namespace Spells

variable {part : Part} {text : List Char}

theorem matchesName_iff (h : Spells part text) {name : List Char} :
    matchesName part name = true ↔ name = text := by
  induction h generalizing name with
  | nil => simp [matchesName]
  | char c _ ih =>
    cases name with
    | nil => simp [matchesName]
    | cons d name => simpa [matchesName, ih] using fun _ => eq_comm
  | set _ _ ih => cases name <;> simp [matchesName, ih, holds_self_iff]

theorem isDirectories_eq_false (h : Spells part text) : part.isDirectories = false := by
  unfold Part.isDirectories
  rw [decide_eq_false_iff_not]
  rintro rfl
  cases h

/-- A part with sets spells a name with special characters, which is neither empty nor dots. -/
theorem text?_cases (h : Spells part text) :
    part.text? = some text ∨ part.text? = none ∧ ∃ c ∈ text, c ∈ specialChars := by
  induction h with
  | nil => exact .inl rfl
  | char c _ ih =>
    obtain htext | ⟨hnone, d, hd, hspecial⟩ := ih
    · exact .inl (by simp [Part.text?, htext])
    · exact .inr ⟨by simp [Part.text?, hnone], d, List.mem_cons_of_mem c hd, hspecial⟩
  | set hc _ _ => exact .inr ⟨rfl, _, List.mem_cons_self, hc⟩

theorem slash_not_mem (h : Spells part text) (hslash : '/' ∉ text) : Token.char '/' ∉ part := by
  induction h with
  | nil => simp
  | char c _ ih =>
    rw [List.mem_cons, not_or] at hslash ⊢
    exact ⟨fun he => hslash.1 (Token.char.inj he), ih hslash.2⟩
  | set _ _ ih =>
    rw [List.mem_cons, not_or] at hslash
    simpa using ih hslash.2

end Spells

/-- Parts that match one name each. -/
abbrev SpellsEach (spelled : List Part) (texts : List String) : Prop :=
  List.Forall₂ (fun part text => Spells part text.toList) spelled texts

theorem slash_not_mem_of_spells {spelled : List Part} {texts : List String}
    (h : SpellsEach spelled texts)
    (hslash : ∀ text ∈ texts, '/' ∉ text.toList) : ∀ part ∈ spelled, Token.char '/' ∉ part := by
  induction h with
  | nil => simp
  | cons hpart _ ih =>
    obtain ⟨htext, htexts⟩ := List.forall_mem_cons.1 hslash
    exact List.forall_mem_cons.2 ⟨hpart.slash_not_mem htext, ih htexts⟩

theorem isName_of_special {text : List Char} (hslash : '/' ∉ text) {c : Char} (hc : c ∈ text)
    (hspecial : c ∈ specialChars) : isName (String.ofList text) = true := by
  have hdots : ∀ d ∈ specialChars, d ≠ '.' := by simp [specialChars]
  refine isName_iff.2 ⟨?_, ?_, ?_, by rwa [String.toList_ofList]⟩
  all_goals
    intro he
    have htext := congrArg String.toList he
    rw [String.toList_ofList] at htext
    subst htext
    simp at hc
  · exact hdots c hspecial hc
  · exact hdots c hspecial hc

/-- Among entries with different names, one at most has a given name. -/
theorem flatMap_ite_name {β : Type} {entries : List (String × Node)}
    (h : Entries.Ascending entries) (name : String) (f : String → List β) :
    (entries.flatMap fun e => if e.1 = name then f e.1 else []) =
      if (Entries.find? name entries).isSome then f name else [] := by
  induction entries with
  | nil => rfl
  | cons e rest ih =>
    obtain ⟨k, n⟩ := e
    obtain ⟨hhead, hrest⟩ := List.pairwise_cons.1 h
    rw [List.flatMap_cons, ih hrest, Entries.find?_cons]
    split
    · rename_i hk
      subst hk
      have hnone : Entries.find? k rest = none := by
        cases hfind : Entries.find? k rest with
        | none => rfl
        | some m =>
          exact absurd (hhead _ (Entries.mem_of_find?_eq_some hfind)) (String.lt_irrefl k)
      simp [hnone]
    · rfl

/-- A part that spells a name leads where the name does. -/
theorem reach_cons_of_spells {root : Node} (hroot : root.isProper = true) (wantsDirectory : Bool)
    {part : Part} {text : List Char} (h : Spells part text) (hslash : '/' ∉ text)
    (parts : List Part) (here : List String) :
    reach root wantsDirectory false (part :: parts) here =
      ((reached? root here (String.ofList text)).map
        (reach root wantsDirectory false parts)).getD [] := by
  unfold reach
  simp only [h.isDirectories_eq_false, Bool.false_eq_true, if_false]
  obtain htext | ⟨hnone, c, hc, hspecial⟩ := h.text?_cases
  · rw [htext]
  · have hname := isName_of_special hslash hc hspecial
    have hdots : ∀ dots ∈ [".", ".."], matchesName part dots.toList = false := by
      intro dots hmem
      rw [← Bool.not_eq_true, h.matchesName_iff]
      rintro rfl
      rw [String.ofList_toList] at hname
      obtain rfl | rfl : dots = "." ∨ dots = ".." := by simpa using hmem
      all_goals exact absurd hname (by decide)
    simp only [hnone, List.flatMap_cons, List.flatMap_nil, hdots ".", hdots "..", List.mem_cons,
      true_or, or_true, Bool.false_eq_true, if_false, List.append_nil, ite_self]
    unfold reached?
    rw [walk?_singleton]
    cases hdir : root.isDirectoryAt here with
    | false =>
      rw [Node.rowsIn_eq_nil hdir]
      rfl
    | true =>
      obtain ⟨entries, hat⟩ := Node.isDirectoryAt_iff.1 hdir
      have hascending := (Node.isProper_directory_iff.1 (Node.isProper_at? hroot hat)).1
      have hmatch : ∀ name : String,
          (matchesName part name.toList = true) = (name = String.ofList text) := by
        intro name
        rw [h.matchesName_iff, ← String.toList_inj, String.toList_ofList]
      rw [enter_of_isName hname]
      simp only [Node.rowsIn, hat, List.flatMap_map, List.getLast?_concat, Option.getD_some, hmatch,
        if_true]
      rw [flatMap_ite_name hascending _ fun name =>
        reach root wantsDirectory false parts (here ++ [name])]
      cases hfind : Entries.find? (String.ofList text) entries <;>
        simp [Option.filter_some, Node.at?_concat_of_directory hat, hfind]

/-- Parts that spell names are a walk along them, whatever comes after. -/
theorem reach_append_of_spells {root : Node} (hroot : root.isProper = true)
    (wantsDirectory : Bool) {spelled rest : List Part} {texts : List String}
    (h : SpellsEach spelled texts)
    (hslash : ∀ text ∈ texts, '/' ∉ text.toList) (hrest : rest ≠ []) (here : List String) :
    reach root wantsDirectory false (spelled ++ rest) here =
      ((walk? root here texts).map (reach root wantsDirectory false rest)).getD [] := by
  induction h generalizing here with
  | nil => rfl
  | @cons part text spelled texts hpart _ ih =>
    obtain ⟨htext, htexts⟩ := List.forall_mem_cons.1 hslash
    rw [List.cons_append, reach_cons_of_spells hroot wantsDirectory hpart htext,
      String.ofList_toList, reached?, walk?_singleton, walk?_cons]
    cases hdir : root.isDirectoryAt here with
    | false => rfl
    | true =>
      simp only [if_true]
      cases hsome : (root.at? (enter here text)).isSome with
      | true => simp [Option.filter_some, hsome, ih htexts]
      | false =>
        -- There is nothing at the end of this part, so nothing leads on from there.
        have hnone : root.isDirectoryAt (enter here text) = false := by
          unfold Node.isDirectoryAt
          rw [Option.isSome_eq_false_iff, Option.isNone_iff_eq_none] at hsome
          rw [hsome]
          rfl
        have hnil : reach root wantsDirectory false (spelled ++ rest) (enter here text) = [] :=
          reach_eq_nil hnone wantsDirectory (.inr (by simp [hrest]))
        rw [ih htexts] at hnil
        simp [Option.filter_some, hsome, hnil]

end ResourceNames.Files.Glob
