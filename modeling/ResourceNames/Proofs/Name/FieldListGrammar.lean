import ResourceNames.Proofs.Name.FieldListReading

/-!
# The grammar of field lists

Whether a text is a field list, and of which fields, is said by its pieces between commas, each on
its own, and by their keys.

* `Keyed`, `pairOf`: when a piece stands for a key and a value, and for which.
* `Grammatical`: the conditions under which a text is read entry by entry.
* `parse_of_grammatical`, `exists_malformed_of_not_grammatical`: the two ways in which a text is
  read.
* `parse_grammar`: what is accepted, with which fields, and which errors there are. Neither the
  order of the pieces behind the first one nor blank pieces among them count.
-/

namespace ResourceNames.FieldList

open Text

/-! ## Pieces -/

/-- What stands in front of the first `=` of a piece. -/
def keyText (piece : List Char) : List Char := piece.takeWhile (· ≠ '=')

/-- What stands behind the first `=` of a piece. -/
def valueText (piece : List Char) : List Char := (piece.dropWhile (· ≠ '=')).tail

/-- The key and the value that a piece stands for. -/
def pairOf (piece : List Char) : String × String :=
  (String.ofList (trim (keyText piece)), String.ofList (unquote (trim (valueText piece))))

/-- A piece with an `=` and something else than blanks in front of the first one. -/
structure Keyed (piece : List Char) : Prop where
  equals : '=' ∈ piece
  key : allBlank (keyText piece) = false

section

variable {key : List Char} (h : '=' ∉ key) (value : List Char)

include h

theorem forall_ne_equals : ∀ c ∈ key, decide (c ≠ '=') = true := fun _ hc =>
  decide_eq_true fun he => h (he ▸ hc)

theorem keyText_append : keyText (key ++ '=' :: value) = key := by
  rw [keyText, List.takeWhile_append_of_pos (forall_ne_equals h),
    List.takeWhile_cons_of_neg (by simp), List.append_nil]

theorem valueText_append : valueText (key ++ '=' :: value) = value := by
  rw [valueText, List.dropWhile_append_of_pos (forall_ne_equals h),
    List.dropWhile_cons_of_neg (by simp), List.tail_cons]

theorem keyed_append_iff : Keyed (key ++ '=' :: value) ↔ allBlank key = false := by
  constructor
  · intro hkeyed
    have hblank := hkeyed.key
    rwa [keyText_append h] at hblank
  · intro hblank
    refine ⟨by simp, ?_⟩
    rwa [keyText_append h]

/-- An entry is read from its piece, blanks around its parts left out. -/
theorem readEntry_trim_append {e : String × String} :
    readEntry (trim (key ++ '=' :: value)) = .ok e ↔
      Keyed (key ++ '=' :: value) ∧ e = pairOf (key ++ '=' :: value) := by
  have hstart : '=' ∉ trimStart key := fun hm => h ((suffix_trimStart key).subset hm)
  have hblank : trim key ≠ [] ↔ allBlank key = false := by rw [ne_eq, trim_eq_nil_iff]; simp
  rw [trim_append_cons isBlank_equals, readEntry_eq_ok_iff, keyed_append_iff h, pairOf,
    keyText_append h, valueText_append h, ← hblank]
  constructor
  · rintro ⟨key', value', heq, hkey', hne, rfl⟩
    obtain ⟨rfl, rfl⟩ := append_sep_inj hstart hkey' heq
    rw [trim_trimStart] at hne
    rw [trim_trimStart, trim_trimEnd]
    exact ⟨hne, rfl⟩
  · rintro ⟨hne, rfl⟩
    refine ⟨_, _, rfl, hstart, ?_, ?_⟩
    · rwa [trim_trimStart]
    · rw [trim_trimStart, trim_trimEnd]

end

theorem readEntry_trim_iff {piece : List Char} {e : String × String} :
    readEntry (trim piece) = .ok e ↔ Keyed piece ∧ e = pairOf piece := by
  by_cases hequals : '=' ∈ piece
  · obtain ⟨key, value, rfl, hkey⟩ := List.eq_append_cons_of_mem hequals
    exact readEntry_trim_append hkey value
  · constructor
    · intro h
      obtain ⟨key, value, heq, -, -, -⟩ := readEntry_eq_ok_iff.1 h
      exact absurd ((trim_sublist piece).subset (heq ▸ by simp)) hequals
    · exact fun h => absurd h.1.equals hequals

/-- The pieces with something else than blanks in them. -/
def filled (pieces : List (List Char)) : List (List Char) := pieces.filter fun p => !allBlank p

theorem mem_filled_iff {piece : List Char} {pieces : List (List Char)} :
    piece ∈ filled pieces ↔ piece ∈ pieces ∧ allBlank piece = false := by
  rw [filled, List.mem_filter, Bool.not_eq_true']

theorem filled_cons (piece : List Char) (pieces : List (List Char)) :
    filled (piece :: pieces) = if allBlank piece then filled pieces else piece :: filled pieces := by
  unfold filled
  cases h : allBlank piece <;> simp [h]

theorem reads_iff {pieces : List (List Char)} {entries : List (String × String)} :
    Reads pieces entries ↔
      (∀ piece ∈ filled pieces, Keyed piece) ∧ entries = (filled pieces).map pairOf := by
  induction pieces generalizing entries with
  | nil =>
    constructor
    · intro h
      cases h
      exact ⟨by simp [filled], rfl⟩
    · rintro ⟨-, rfl⟩
      exact .nil
  | cons piece pieces ih =>
    rw [filled_cons]
    by_cases hblank : allBlank piece = true
    · rw [if_pos hblank, Reads.blank_iff (trim_eq_nil_iff.2 hblank), ih]
    · rw [if_neg hblank, Reads.entry_iff (trim_eq_nil_iff.not.2 hblank), List.forall_mem_cons,
        List.map_cons]
      constructor
      · rintro ⟨e, rest, he, rfl, hrest⟩
        obtain ⟨hkeyed, rfl⟩ := readEntry_trim_iff.1 he
        obtain ⟨hall, rfl⟩ := ih.1 hrest
        exact ⟨⟨hkeyed, hall⟩, rfl⟩
      · rintro ⟨⟨hkeyed, hall⟩, rfl⟩
        exact ⟨_, _, readEntry_trim_iff.2 ⟨hkeyed, rfl⟩, rfl, ih.2 ⟨hall, rfl⟩⟩

/-! ## Whole texts -/

/-- The pieces of a text that count. -/
def entryPieces (input : String) : List (List Char) := filled (input.toList.splitOn ',')

/-- The value of the first piece of a text. -/
def givenTypeKey (input : String) : String := (pairOf ((input.toList.splitOn ',').headD [])).2

/-- A text in the form of a field list. -/
structure Grammatical (input : String) : Prop where
  lead : fieldListLead.toList <+: input.toList
  keyed : ∀ piece ∈ entryPieces input, Keyed piece
  distinct : ((entryPieces input).map fun piece => (pairOf piece).1).Nodup

/-- The fields that a text in the form of a field list stands for. -/
def fieldsOf (input : String) : Table String :=
  Table.empty.insertAll ((entryPieces input).map pairOf)

theorem Grammatical.nodup {input : String} (h : Grammatical input) :
    (((entryPieces input).map pairOf).map (·.1)).Nodup := by
  rw [List.map_map]
  exact h.distinct

theorem Grammatical.find?_fieldsOf_iff {input : String} (h : Grammatical input) {k v : String} :
    (fieldsOf input).find? k = some v ↔ ∃ piece ∈ entryPieces input, pairOf piece = (k, v) := by
  rw [fieldsOf, Table.find?_insertAll h.nodup, Table.find?_empty, ← List.mem_map,
    ← Entries.find?_eq_some_iff h.nodup]
  simp

theorem readEntries_iff {input : String} {fields : Table String} :
    readEntries .empty (input.toList.splitOn ',') = .ok fields ↔
      (∀ piece ∈ entryPieces input, Keyed piece) ∧
        ((entryPieces input).map fun piece => (pairOf piece).1).Nodup ∧
          fields = fieldsOf input := by
  have hadd : ∀ entries, Addable .empty entries ↔ (entries.map (·.1)).Nodup := fun entries =>
    ⟨fun h => h.1, fun h => ⟨h, fun _ _ => rfl⟩⟩
  rw [readEntries_eq_ok_iff]
  constructor
  · rintro ⟨entries, hreads, hadds, rfl⟩
    obtain ⟨hkeyed, rfl⟩ := reads_iff.1 hreads
    rw [hadd, List.map_map] at hadds
    exact ⟨hkeyed, hadds, rfl⟩
  · rintro ⟨hkeyed, hnodup, rfl⟩
    refine ⟨_, reads_iff.2 ⟨hkeyed, rfl⟩, (hadd _).2 ?_, rfl⟩
    rwa [List.map_map]

theorem exists_malformed_of_readEntry {entry : List Char} {e : ParseError}
    (h : readEntry entry = .error e) : ∃ fault, e = .malformed fault := by
  unfold readEntry at h
  split at h
  · cases h
    exact ⟨_, rfl⟩
  · simp only at h
    split at h
    · cases h
      exact ⟨_, rfl⟩
    · cases h

/-- The entries of a text go wrong in one way only. -/
theorem exists_malformed_of_readEntries {fields : Table String} {pieces : List (List Char)}
    {e : ParseError} (h : readEntries fields pieces = .error e) :
    ∃ fault, e = .malformed fault := by
  induction pieces generalizing fields with
  | nil => cases h
  | cons piece pieces ih =>
    unfold readEntries at h
    simp only at h
    split at h
    · exact ih h
    · split at h
      · rename_i hread
        cases h
        exact exists_malformed_of_readEntry hread
      · split at h
        · cases h
          exact ⟨_, rfl⟩
        · exact ih h

/-- A text in the form of a field list is read entry by entry. -/
theorem parse_of_grammatical {input : String} (h : Grammatical input) :
    parse input = Resource.ofFields .fieldList (fieldsOf input) input := by
  have hstart : startsWith fieldListLead input = true := isSome_after?_iff.2 h.lead
  unfold parse
  rw [if_pos hstart, readEntries_iff.2 ⟨h.keyed, h.distinct, rfl⟩]

/-- Any other text is malformed. -/
theorem exists_malformed_of_not_grammatical {input : String} (h : ¬ Grammatical input) :
    ∃ fault, parse input = .error (.malformed fault) := by
  unfold parse
  split
  · rename_i hstart
    cases hread : readEntries .empty (input.toList.splitOn ',') with
    | error e =>
      obtain ⟨fault, rfl⟩ := exists_malformed_of_readEntries hread
      exact ⟨fault, rfl⟩
    | ok fields =>
      obtain ⟨hkeyed, hdistinct, -⟩ := readEntries_iff.1 hread
      exact absurd ⟨isSome_after?_iff.1 hstart, hkeyed, hdistinct⟩ h
  · exact ⟨_, rfl⟩

/-! ## The first piece -/

theorem comma_not_mem_typeKeyField : ',' ∉ typeKeyField.toList := by decide +kernel

theorem equals_not_mem_typeKeyField : '=' ∉ typeKeyField.toList := by decide +kernel

theorem tight_typeKeyField : trim typeKeyField.toList = typeKeyField.toList := by decide +kernel

/-- A text starts as field lists do exactly if its first piece does. -/
theorem lead_iff {input : String} {first : List Char} {rest : List (List Char)}
    (h : input.toList.splitOn ',' = first :: rest) :
    fieldListLead.toList <+: input.toList ↔
      ∃ value, first = typeKeyField.toList ++ '=' :: value := by
  have hinput := (splitOn_eq_cons_iff.1 h).1
  have hfirst : ',' ∉ first := (splitOn_eq_cons_iff.1 h).2 first List.mem_cons_self
  constructor
  · rintro ⟨tail, htail⟩
    -- The lead holds no comma, so the text is cut behind it.
    obtain ⟨value, values, hvalues⟩ := List.exists_cons_of_ne_nil (List.splitOn_ne_nil ',' tail)
    obtain ⟨rfl, hcommas⟩ := splitOn_eq_cons_iff.1 hvalues
    have hsplit : input.toList.splitOn ',' = (fieldListLead.toList ++ value) :: values := by
      refine splitOn_eq_cons_iff.2 ⟨by rw [← htail, List.append_assoc], fun piece hpiece => ?_⟩
      rcases List.mem_cons.1 hpiece with rfl | hpiece
      · rw [fieldListLead_eq]
        simp [comma_not_mem_typeKeyField, hcommas value List.mem_cons_self]
      · exact hcommas piece (List.mem_cons_of_mem _ hpiece)
    obtain ⟨rfl, -⟩ := List.cons.inj (h.symm.trans hsplit)
    exact ⟨value, by rw [fieldListLead_eq, List.append_assoc]; rfl⟩
  · rintro ⟨value, rfl⟩
    rw [hinput, fieldListLead_eq]
    exact ⟨value ++ behind ',' rest, by simp⟩

/-- The type key of a field list is the value of its first piece. -/
theorem Grammatical.find?_typeKeyField {input : String} (h : Grammatical input) :
    (fieldsOf input).find? typeKeyField = some (givenTypeKey input) := by
  obtain ⟨first, rest, hsplit⟩ :=
    List.exists_cons_of_ne_nil (List.splitOn_ne_nil ',' input.toList)
  obtain ⟨value, rfl⟩ := (lead_iff hsplit).1 h.lead
  have hfilled : typeKeyField.toList ++ '=' :: value ∈ entryPieces input := by
    refine mem_filled_iff.2 ⟨hsplit ▸ List.mem_cons_self, ?_⟩
    rw [allBlank, List.all_eq_false]
    exact ⟨'=', by simp, by simp [isBlank_equals]⟩
  refine h.find?_fieldsOf_iff.2 ⟨_, hfilled, ?_⟩
  rw [givenTypeKey, hsplit, List.headD_cons, pairOf, keyText_append equals_not_mem_typeKeyField,
    tight_typeKeyField, String.ofList_toList]

/-! ## Other orders of the pieces -/

/-- Texts with the same first piece and, behind it, the same pieces in any order, with blank pieces
among them or without. -/
def Rearranged (input other : String) : Prop :=
  ∃ first rest rest', input.toList.splitOn ',' = first :: rest ∧
    other.toList.splitOn ',' = first :: rest' ∧ (filled rest).Perm (filled rest')

namespace Rearranged

variable {input other : String}

theorem symm (h : Rearranged input other) : Rearranged other input := by
  obtain ⟨first, rest, rest', hinput, hother, hperm⟩ := h
  exact ⟨first, rest', rest, hother, hinput, hperm.symm⟩

theorem perm (h : Rearranged input other) : (entryPieces input).Perm (entryPieces other) := by
  obtain ⟨first, rest, rest', hinput, hother, hperm⟩ := h
  rw [entryPieces, entryPieces, hinput, hother, filled_cons, filled_cons]
  split
  · exact hperm
  · exact hperm.cons first

theorem givenTypeKey_eq (h : Rearranged input other) : givenTypeKey other = givenTypeKey input := by
  obtain ⟨first, rest, rest', hinput, hother, -⟩ := h
  rw [givenTypeKey, givenTypeKey, hinput, hother, List.headD_cons, List.headD_cons]

theorem grammatical (h : Rearranged input other) (hinput : Grammatical input) :
    Grammatical other where
  lead := by
    obtain ⟨first, rest, rest', hsplit, hsplit', -⟩ := h
    exact (lead_iff hsplit').2 ((lead_iff hsplit).1 hinput.lead)
  keyed piece hpiece := hinput.keyed piece (h.perm.mem_iff.2 hpiece)
  distinct := (h.perm.map _).nodup_iff.1 hinput.distinct

theorem grammatical_iff (h : Rearranged input other) : Grammatical other ↔ Grammatical input :=
  ⟨h.symm.grammatical, h.grammatical⟩

theorem fieldsOf_eq (h : Rearranged input other) (hinput : Grammatical input) :
    fieldsOf other = fieldsOf input := by
  refine Table.ext_find? fun k => Option.ext fun v => ?_
  rw [(h.grammatical hinput).find?_fieldsOf_iff, hinput.find?_fieldsOf_iff]
  exact exists_congr fun piece => and_congr_left fun _ => h.perm.symm.mem_iff

end Rearranged

/-- The fields that a text stands for, or the kind of its error. -/
def reading (input : String) : Except String (Table String) :=
  ((parse input).map (·.fields)).mapError ParseError.kind

/-! ## What is accepted -/

section

variable {input : String}

theorem parse_of_typeKey (h : Grammatical input) (hkey : givenTypeKey input ≠ "") :
    parse input = .ok ⟨.fieldList, fieldsOf input, input, ""⟩ := by
  rw [parse_of_grammatical h]
  simp only [Resource.ofFields, h.find?_typeKeyField, hkey, if_false]

theorem parse_of_no_typeKey (h : Grammatical input) (hkey : givenTypeKey input = "") :
    parse input = .error (.missingField typeKeyField) := by
  rw [parse_of_grammatical h]
  simp only [Resource.ofFields, h.find?_typeKeyField, hkey, if_true]

theorem reading_of_typeKey (h : Grammatical input) (hkey : givenTypeKey input ≠ "") :
    reading input = .ok (fieldsOf input) := by
  rw [reading, parse_of_typeKey h hkey]
  rfl

theorem reading_of_no_typeKey (h : Grammatical input) (hkey : givenTypeKey input = "") :
    reading input = .error "MissingRequiredField" := by
  rw [reading, parse_of_no_typeKey h hkey]
  rfl

theorem reading_of_not_grammatical (h : ¬ Grammatical input) :
    reading input = .error "MalformedInput" := by
  obtain ⟨fault, hfault⟩ := exists_malformed_of_not_grammatical h
  rw [reading, hfault]
  rfl

theorem Rearranged.reading_eq {other : String} (h : Rearranged input other) :
    reading other = reading input := by
  have hsame := h.givenTypeKey_eq
  by_cases hinput : Grammatical input
  · have hother := h.grammatical hinput
    by_cases hkey : givenTypeKey input = ""
    · exact (reading_of_no_typeKey hother (hsame.trans hkey)).trans
        (reading_of_no_typeKey hinput hkey).symm
    · calc reading other
        _ = .ok (fieldsOf other) := reading_of_typeKey hother (hsame.trans_ne hkey)
        _ = .ok (fieldsOf input) := congrArg Except.ok (h.fieldsOf_eq hinput)
        _ = reading input := (reading_of_typeKey hinput hkey).symm
  · exact (reading_of_not_grammatical (h.grammatical_iff.not.2 hinput)).trans
      (reading_of_not_grammatical hinput).symm

end

/-- **The grammar of field lists.** Exactly the texts in the form of a field list with a type key
are read; their fields are the pairs for which the pieces stand. A text in this form without a type
key misses that field, and any other text is malformed. Rearranged texts are read alike. -/
theorem parse_grammar (input : String) :
    ((∃ r, parse input = .ok r) ↔ Grammatical input ∧ givenTypeKey input ≠ "") ∧
      (∀ r, parse input = .ok r → ∀ k v,
        r.fields.find? k = some v ↔ ∃ piece ∈ entryPieces input, pairOf piece = (k, v)) ∧
      (parse input = .error (.missingField typeKeyField) ↔
        Grammatical input ∧ givenTypeKey input = "") ∧
      ((∃ fault, parse input = .error (.malformed fault)) ↔ ¬ Grammatical input) ∧
      ∀ other, Rearranged input other → reading other = reading input := by
  have hrearranged : ∀ other, Rearranged input other → reading other = reading input :=
    fun _ h => h.reading_eq
  by_cases h : Grammatical input
  · by_cases hkey : givenTypeKey input = ""
    · have hparse := parse_of_no_typeKey h hkey
      refine ⟨?_, ?_, ?_, ?_, hrearranged⟩ <;> simp [hparse, h, hkey]
    · have hparse := parse_of_typeKey h hkey
      refine ⟨?_, ?_, ?_, ?_, hrearranged⟩
      · simp [hparse, h, hkey]
      · rintro r hr k v
        cases hparse.symm.trans hr
        exact h.find?_fieldsOf_iff
      · simp [hparse, hkey]
      · simp [hparse, h]
  · obtain ⟨fault, hparse⟩ := exists_malformed_of_not_grammatical h
    refine ⟨?_, ?_, ?_, ?_, hrearranged⟩ <;> simp [hparse, h]

end ResourceNames.FieldList
