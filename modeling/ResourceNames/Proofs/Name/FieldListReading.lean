import ResourceNames.Name.FieldList
import ResourceNames.Proofs.Tables
import ResourceNames.Proofs.Text.Splitting
import ResourceNames.Proofs.Text.Trimming

/-!
# How field lists are read

* `Reads pieces entries`: the entries that stand in the pieces between commas, blank pieces left
  out.
* `parse_eq_ok_iff`: parsing succeeds exactly if the pieces have entries with different keys and a
  type key among them, and gives these entries.
-/

namespace ResourceNames.FieldList

open Text

theorem fieldListLead_eq : fieldListLead.toList = typeKeyField.toList ++ ['='] := by
  decide +kernel

theorem isBlank_equals : isBlank '=' = false := by decide

/-! ## Entries -/

/-- A value within a pair of quotes is read without them. -/
theorem unquote_quoted (value : List Char) : unquote ('"' :: (value ++ ['"'])) = value := by
  simp [unquote]

theorem unquote_eq_self_iff {value : List Char} :
    unquote value = value ↔ ∀ inner, value ≠ '"' :: (inner ++ ['"']) := by
  constructor
  · rintro h inner rfl
    rw [unquote_quoted] at h
    have := congrArg List.length h
    simp at this
    omega
  · intro h
    unfold unquote
    split
    · rename_i rest
      split
      · rename_i hlast
        obtain ⟨inner, rfl⟩ := List.getLast?_eq_some_iff.1 hlast
        exact absurd rfl (h inner)
      · rfl
    · rfl

theorem unquote_sublist (value : List Char) : (unquote value).Sublist value := by
  unfold unquote
  split
  · split
    · exact (List.dropLast_sublist _).trans (List.sublist_cons_self _ _)
    · exact List.Sublist.refl _
  · exact List.Sublist.refl _

theorem readEntry_eq_ok_iff {entry : List Char} {e : String × String} :
    readEntry entry = .ok e ↔
      ∃ key value, entry = key ++ '=' :: value ∧ '=' ∉ key ∧ trim key ≠ [] ∧
        e = (String.ofList (trim key), String.ofList (unquote (trim value))) := by
  unfold readEntry
  constructor
  · intro h
    split at h
    · cases h
    · rename_i key value hcut
      obtain ⟨rfl, hkey⟩ := cut?_eq_some_iff.1 hcut
      simp only at h
      split at h
      · cases h
      · rename_i hne
        cases h
        exact ⟨key, value, rfl, hkey, fun he => hne (by rw [he]; rfl), rfl⟩
  · rintro ⟨key, value, rfl, hkey, hne, rfl⟩
    simp only [cut?_append hkey, List.isEmpty_iff, hne, if_false]

/-- The entries in some pieces of a field list. -/
inductive Reads : List (List Char) → List (String × String) → Prop where
  | nil : Reads [] []
  | blank {piece pieces entries} : trim piece = [] → Reads pieces entries →
      Reads (piece :: pieces) entries
  | entry {piece pieces e entries} : trim piece ≠ [] → readEntry (trim piece) = .ok e →
      Reads pieces entries → Reads (piece :: pieces) (e :: entries)

namespace Reads

variable {pieces : List (List Char)} {entries : List (String × String)}

/-- The pieces determine the entries. -/
theorem unique {others : List (String × String)} (h : Reads pieces entries)
    (h' : Reads pieces others) : entries = others := by
  induction h generalizing others with
  | nil =>
    cases h'
    rfl
  | blank hblank _ ih =>
    cases h' with
    | blank _ h' => exact ih h'
    | entry hne => exact absurd hblank hne
  | entry hne he _ ih =>
    cases h' with
    | blank hblank => exact absurd hblank hne
    | entry _ he' h' =>
      cases he.symm.trans he'
      rw [ih h']

/-- An entry stands in one of the pieces. -/
theorem exists_piece (h : Reads pieces entries) {e : String × String} (he : e ∈ entries) :
    ∃ piece ∈ pieces, readEntry (trim piece) = .ok e := by
  induction h with
  | nil => cases he
  | blank _ _ ih =>
    obtain ⟨piece, hmem, hread⟩ := ih he
    exact ⟨piece, List.mem_cons_of_mem _ hmem, hread⟩
  | entry _ hread _ ih =>
    rcases List.mem_cons.1 he with rfl | he
    · exact ⟨_, List.mem_cons_self, hread⟩
    · obtain ⟨piece, hmem, hread⟩ := ih he
      exact ⟨piece, List.mem_cons_of_mem _ hmem, hread⟩

theorem blank_iff {piece : List Char} (hblank : trim piece = []) :
    Reads (piece :: pieces) entries ↔ Reads pieces entries := by
  constructor
  · intro h
    cases h with
    | blank _ h => exact h
    | entry hne => exact absurd hblank hne
  · exact .blank hblank

theorem entry_iff {piece : List Char} (hne : trim piece ≠ []) :
    Reads (piece :: pieces) entries ↔
      ∃ e rest, readEntry (trim piece) = .ok e ∧ entries = e :: rest ∧ Reads pieces rest := by
  constructor
  · intro h
    cases h with
    | blank hblank => exact absurd hblank hne
    | entry _ he h => exact ⟨_, _, he, rfl, h⟩
  · rintro ⟨e, rest, he, rfl, h⟩
    exact .entry hne he h

end Reads

/-- Entries can be added if their keys are new and differ from each other. -/
def Addable (fields : Table String) (entries : List (String × String)) : Prop :=
  (entries.map (·.1)).Nodup ∧ ∀ k ∈ entries.map (·.1), fields.find? k = none

theorem addable_cons_iff {fields : Table String} {key value : String}
    {entries : List (String × String)} :
    Addable fields ((key, value) :: entries) ↔
      fields.find? key = none ∧ Addable (fields.insert key value) entries := by
  unfold Addable
  rw [List.map_cons, List.nodup_cons, List.forall_mem_cons]
  constructor
  · rintro ⟨⟨hkey, hnodup⟩, hfind, hnew⟩
    refine ⟨hfind, hnodup, fun k hk => ?_⟩
    have hne : key ≠ k := fun he => hkey (he ▸ hk)
    rw [Table.find?_insert, if_neg hne]
    exact hnew k hk
  · rintro ⟨hfind, hnodup, hnew⟩
    have hkey : key ∉ entries.map (·.1) := fun hm => by
      have := hnew key hm
      rw [Table.find?_insert_self] at this
      cases this
    refine ⟨⟨hkey, hnodup⟩, hfind, fun k hk => ?_⟩
    have hne : key ≠ k := fun he => hkey (he ▸ hk)
    have hnone := hnew k hk
    rwa [Table.find?_insert, if_neg hne] at hnone

theorem readEntries_eq_ok_iff {fields out : Table String} {pieces : List (List Char)} :
    readEntries fields pieces = .ok out ↔
      ∃ entries, Reads pieces entries ∧ Addable fields entries ∧
        out = fields.insertAll entries := by
  induction pieces generalizing fields with
  | nil =>
    constructor
    · intro h
      cases h
      exact ⟨[], .nil, ⟨List.nodup_nil, by simp⟩, rfl⟩
    · rintro ⟨entries, hreads, -, rfl⟩
      cases hreads
      rfl
  | cons piece pieces ih =>
    unfold readEntries
    by_cases hblank : trim piece = []
    · simp only [hblank, List.isEmpty_nil, if_true, ih, Reads.blank_iff hblank]
    · simp only [List.isEmpty_iff, hblank, if_false, Reads.entry_iff hblank]
      cases hread : readEntry (trim piece) with
      | error e => simp
      | ok e =>
        obtain ⟨key, value⟩ := e
        by_cases hcontains : fields.contains key = true
        · have hsome : fields.find? key ≠ none := Option.isSome_iff_ne_none.1 hcontains
          simp only [hcontains, if_true, reduceCtorEq, false_iff]
          rintro ⟨entries, ⟨e, rest, he, rfl, -⟩, hadd, -⟩
          cases he
          exact hsome (addable_cons_iff.1 hadd).1
        · have hnone : fields.find? key = none := by simpa [Table.contains] using hcontains
          simp only [hcontains, if_false, Bool.false_eq_true, ih]
          constructor
          · rintro ⟨entries, hreads, hadd, rfl⟩
            exact ⟨_, ⟨_, _, rfl, rfl, hreads⟩, addable_cons_iff.2 ⟨hnone, hadd⟩, rfl⟩
          · rintro ⟨entries, ⟨e, rest, he, rfl, hreads⟩, hadd, rfl⟩
            cases he
            exact ⟨rest, hreads, (addable_cons_iff.1 hadd).2, rfl⟩

/-! ## Whole field lists -/

theorem startsWith_iff {lead input : String} :
    startsWith lead input = true ↔ ∃ rest, input.toList = lead.toList ++ rest := by
  unfold startsWith
  rw [Option.isSome_iff_exists]
  exact exists_congr fun rest => after?_eq_some_iff

/-- **Parsing a field list.** -/
theorem parse_eq_ok_iff {input : String} {r : Resource} :
    parse input = .ok r ↔
      startsWith fieldListLead input = true ∧
        ∃ entries, Reads (input.toList.splitOn ',') entries ∧ (entries.map (·.1)).Nodup ∧
          (∃ key, (Table.empty.insertAll entries).find? typeKeyField = some key ∧ key ≠ "") ∧
          r = ⟨.fieldList, Table.empty.insertAll entries, input, ""⟩ := by
  unfold parse
  by_cases hstart : startsWith fieldListLead input = true
  · simp only [hstart, if_true, true_and]
    constructor
    · intro h
      split at h
      · cases h
      · rename_i fields hfields
        obtain ⟨entries, hreads, ⟨hnodup, -⟩, rfl⟩ := readEntries_eq_ok_iff.1 hfields
        unfold Resource.ofFields at h
        split at h
        · rename_i key hkey
          split at h
          · cases h
          · rename_i hne
            cases h
            exact ⟨entries, hreads, hnodup, ⟨key, hkey, hne⟩, rfl⟩
        · cases h
    · rintro ⟨entries, hreads, hnodup, ⟨key, hkey, hne⟩, rfl⟩
      rw [readEntries_eq_ok_iff.2 ⟨entries, hreads, ⟨hnodup, fun _ _ => rfl⟩, rfl⟩]
      simp only [Resource.ofFields, hkey, hne, if_false]
  · simp [hstart]

end ResourceNames.FieldList
