import ResourceNames.Proofs.Name.FieldListReading

/-!
# Field lists that are read as they are written

* `reads_pieces`: what is read from the pieces of a written field list, if its keys are plain.
* `plain_of_parse_render`, `parse_render_of_plain`: fields are read back from their field list only
  if all keys and values are plain, and then they are.
* `parse_render_fields_iff`: which fields are read back, said character by character.
-/

namespace ResourceNames.FieldList

open Text

/-- A key that is read as it is written. -/
structure PlainKey (key : List Char) : Prop where
  ne_nil : key ≠ []
  trimmed : trim key = key
  no_comma : ',' ∉ key
  no_equals : '=' ∉ key

/-- A value that is read as it is written. -/
structure PlainValue (value : List Char) : Prop where
  trimmed : trim value = value
  no_comma : ',' ∉ value
  unquoted : ∀ inner, value ≠ '"' :: (inner ++ ['"'])

instance (key : List Char) : Decidable (PlainKey key) :=
  decidable_of_iff (key ≠ [] ∧ trim key = key ∧ ',' ∉ key ∧ '=' ∉ key)
    ⟨fun ⟨hne, ht, hc, he⟩ => ⟨hne, ht, hc, he⟩,
      fun h => ⟨h.ne_nil, h.trimmed, h.no_comma, h.no_equals⟩⟩

instance (value : List Char) : Decidable (PlainValue value) :=
  decidable_of_iff (trim value = value ∧ ',' ∉ value ∧ unquote value = value)
    ⟨fun ⟨ht, hc, hu⟩ => ⟨ht, hc, unquote_eq_self_iff.1 hu⟩,
      fun h => ⟨h.trimmed, h.no_comma, unquote_eq_self_iff.2 h.unquoted⟩⟩

/-- Fields whose keys and values are all read as they are written. -/
def Plain (fields : Table String) : Prop :=
  ∀ k v, fields.find? k = some v → PlainKey k.toList ∧ PlainValue v.toList

instance (fields : Table String) : Decidable (Plain fields) :=
  decidable_of_iff
    (∀ e ∈ fields.entries, PlainKey e.1.toList ∧ PlainValue e.2.toList)
    ⟨fun h k v hfind => h (k, v) ((fields.mem_entries_iff k v).2 hfind),
      fun h e he => h e.1 e.2 ((fields.mem_entries_iff e.1 e.2).1 he)⟩

/-- Fields whose field list is cut where it should be. -/
def Clean (fields : Table String) : Prop :=
  ∀ k v, fields.find? k = some v → PlainKey k.toList ∧ ',' ∉ v.toList

/-! ## Writing -/

/-- An entry as it is written. -/
def written (e : String × String) : List Char := e.1.toList ++ '=' :: e.2.toList

/-- The fields in the order in which they are written. -/
def ordered (fields : Table String) : List (String × String) :=
  (typeKeyField, (fields.find? typeKeyField).getD "") :: (fields.erase typeKeyField).entries

/-- What stands between the commas of a written field list. -/
def pieces (fields : Table String) : List (List Char) :=
  written (typeKeyField, (fields.find? typeKeyField).getD "") ::
    (fields.erase typeKeyField).entries.map fun e => ' ' :: written e

theorem toList_render (fields : Table String) :
    (render fields).toList =
      written (typeKeyField, (fields.find? typeKeyField).getD "") ++
        behind ',' ((fields.erase typeKeyField).entries.map fun e => ' ' :: written e) := by
  have hentry : ∀ e : String × String,
      (", " ++ e.1 ++ "=" ++ e.2).toList = ',' :: ' ' :: written e := by
    intro e
    simp [written, String.toList_append]
  unfold render
  rw [String.toList_append, String.toList_append, fieldListLead_eq, String.toList_join]
  simp [written, behind, List.flatMap_map, hentry]

theorem startsWith_render (fields : Table String) :
    startsWith fieldListLead (render fields) = true := by
  rw [startsWith_iff, toList_render, fieldListLead_eq]
  simp only [written, List.append_assoc, List.cons_append]
  exact ⟨_, rfl⟩

theorem find?_ordered {fields : Table String} {key : String}
    (h : fields.find? typeKeyField = some key) (k : String) :
    Entries.find? k (ordered fields) = fields.find? k := by
  unfold ordered
  rw [Entries.find?_cons, h]
  split
  · rename_i hk
    rw [← hk, h]
    rfl
  · rename_i hk
    exact (Table.find?_erase fields typeKeyField k).trans (if_neg hk)

theorem nodup_ordered (fields : Table String) : ((ordered fields).map (·.1)).Nodup := by
  refine List.nodup_cons.2 ⟨?_, Entries.nodup_of_ascending (fields.erase typeKeyField).ascending⟩
  refine Entries.find?_eq_none_iff.1 ?_
  exact (Table.find?_erase fields typeKeyField typeKeyField).trans (if_pos rfl)

theorem splitOn_render {fields : Table String} {key : String} (hclean : Clean fields)
    (h : fields.find? typeKeyField = some key) :
    (render fields).toList.splitOn ',' = pieces fields := by
  have hwritten : ∀ e ∈ ordered fields, ',' ∉ written e := by
    intro e he
    have hfind : fields.find? e.1 = some e.2 := by
      rw [← find?_ordered h]
      exact (Entries.find?_eq_some_iff (nodup_ordered fields)).2 he
    obtain ⟨hk, hv⟩ := hclean _ _ hfind
    simp [written, hk.no_comma, hv]
  refine splitOn_eq_cons_iff.2 ⟨toList_render fields, fun piece hpiece => ?_⟩
  rcases List.mem_cons.1 hpiece with rfl | hpiece
  · exact hwritten _ List.mem_cons_self
  · obtain ⟨e, he, rfl⟩ := List.mem_map.1 hpiece
    have hno := hwritten e (List.mem_cons_of_mem _ he)
    simpa using hno

/-! ## Reading what was written -/

/-- What is read for a value. -/
def readValue (value : String) : String :=
  String.ofList (unquote (trim (trimEnd value.toList)))

/-- A written entry is read with its key. -/
theorem readEntry_written {e : String × String} (hkey : PlainKey e.1.toList) :
    trim (written e) ≠ [] ∧ readEntry (trim (written e)) = .ok (e.1, readValue e.2) := by
  have htrim : trim (written e) = e.1.toList ++ '=' :: trimEnd e.2.toList := by
    rw [written, trim_append_cons isBlank_equals,
      trimStart_of_head (trim_eq_self_iff.1 hkey.trimmed).1]
  rw [htrim]
  refine ⟨by simp, readEntry_eq_ok_iff.2 ⟨_, _, rfl, hkey.no_equals, ?_, ?_⟩⟩
  · rw [hkey.trimmed]
    exact hkey.ne_nil
  · rw [hkey.trimmed, String.ofList_toList]
    rfl

theorem reads_map {entries : List (String × String)} {piece : String × String → List Char}
    (htrim : ∀ e, trim (piece e) = trim (written e))
    (hkeys : ∀ e ∈ entries, PlainKey e.1.toList) :
    Reads (entries.map piece) (entries.map fun e => (e.1, readValue e.2)) := by
  induction entries with
  | nil => exact .nil
  | cons e entries ih =>
    obtain ⟨hkey, hrest⟩ := List.forall_mem_cons.1 hkeys
    obtain ⟨hne, hread⟩ := readEntry_written hkey
    exact .entry (by rwa [htrim]) (by rwa [htrim]) (ih hrest)

/-- The fields that are read from a written field list. -/
def reread (fields : Table String) : Table String :=
  Table.empty.insertAll ((ordered fields).map fun e => (e.1, readValue e.2))

theorem reads_pieces {fields : Table String}
    (hkeys : ∀ e ∈ ordered fields, PlainKey e.1.toList) :
    Reads (pieces fields) ((ordered fields).map fun e => (e.1, readValue e.2)) := by
  obtain ⟨hkey, hrest⟩ := List.forall_mem_cons.1 hkeys
  obtain ⟨hne, hread⟩ := readEntry_written hkey
  exact .entry hne hread (reads_map (fun e => trim_cons_space _) hrest)

theorem find?_reread {fields : Table String} {key : String}
    (h : fields.find? typeKeyField = some key) (k : String) :
    (reread fields).find? k = (fields.find? k).map readValue := by
  have hnodup : (((ordered fields).map fun e => (e.1, readValue e.2)).map (·.1)).Nodup := by
    rw [List.map_map]
    exact nodup_ordered fields
  unfold reread
  rw [Table.find?_insertAll hnodup, Entries.find?_map, find?_ordered h, Table.find?_empty]
  cases fields.find? k <;> rfl

/-- A field list that is cut where it should be is read entry by entry. -/
theorem parse_render_iff_of_clean {fields : Table String} {key : String} (hclean : Clean fields)
    (h : fields.find? typeKeyField = some key) {r : Resource} :
    parse (render fields) = .ok r ↔
      readValue key ≠ "" ∧ r = ⟨.fieldList, reread fields, render fields, ""⟩ := by
  have hkeys : ∀ e ∈ ordered fields, PlainKey e.1.toList := by
    intro e he
    have hfind := (Entries.find?_eq_some_iff (nodup_ordered fields)).2 he
    rw [find?_ordered h] at hfind
    exact (hclean _ _ hfind).1
  have hreads := reads_pieces hkeys
  have hkey : (reread fields).find? typeKeyField = some (readValue key) := by
    rw [find?_reread h, h]
    rfl
  rw [parse_eq_ok_iff, splitOn_render hclean h]
  constructor
  · rintro ⟨-, entries, hentries, -, ⟨key', hkey', hne⟩, rfl⟩
    obtain rfl := hentries.unique hreads
    cases hkey.symm.trans hkey'
    exact ⟨hne, rfl⟩
  · rintro ⟨hne, rfl⟩
    refine ⟨startsWith_render fields, _, hreads, ?_, ⟨_, hkey, hne⟩, rfl⟩
    rw [List.map_map]
    exact nodup_ordered fields

/-! ## Fields that are read back -/

/-- The entries of any field list that is read have plain keys and no commas. -/
theorem clean_of_parse {input : String} {r : Resource} (h : parse input = .ok r) :
    Clean r.fields := by
  obtain ⟨-, entries, hreads, hnodup, -, rfl⟩ := parse_eq_ok_iff.1 h
  intro k v hfind
  rw [Table.find?_insertAll hnodup, Table.find?_empty] at hfind
  have hmem : (k, v) ∈ entries := Entries.mem_of_find?_eq_some (by simpa using hfind)
  obtain ⟨piece, hpiece, hread⟩ := hreads.exists_piece hmem
  obtain ⟨key, value, hentry, hequals, hne, he⟩ := readEntry_eq_ok_iff.1 hread
  obtain ⟨rfl, rfl⟩ := Prod.mk.inj he
  have hcomma : ',' ∉ key ++ '=' :: value := fun hm => by
    rw [← hentry] at hm
    exact not_mem_of_mem_splitOn hpiece ((trim_sublist piece).subset hm)
  rw [String.toList_ofList, String.toList_ofList]
  refine ⟨⟨hne, trim_trim key, fun hm => hcomma ?_, fun hm => hequals ?_⟩, fun hm => hcomma ?_⟩
  · exact List.mem_append_left _ ((trim_sublist key).subset hm)
  · exact (trim_sublist key).subset hm
  · have hv := (trim_sublist value).subset ((unquote_sublist _).subset hm)
    exact List.mem_append_right _ (List.mem_cons_of_mem _ hv)

/-- A value that is read as it is written is plain. -/
theorem plainValue_of_readValue {value : String} (h : readValue value = value)
    (hcomma : ',' ∉ value.toList) : PlainValue value.toList := by
  have hread : unquote (trim value.toList) = value.toList := by
    rw [← trim_trimEnd, ← String.toList_ofList (l := unquote _)]
    exact congrArg String.toList h
  -- Both steps of reading only leave characters out, so neither of them does.
  have htrim : trim value.toList = value.toList := by
    refine (trim_sublist _).eq_of_length_le ?_
    rw [← congrArg List.length hread]
    exact (unquote_sublist _).length_le
  rw [htrim] at hread
  exact ⟨htrim, hcomma, unquote_eq_self_iff.1 hread⟩

theorem readValue_of_plain {value : String} (h : PlainValue value.toList) :
    readValue value = value := by
  unfold readValue
  rw [trim_trimEnd, h.trimmed, unquote_eq_self_iff.2 h.unquoted, String.ofList_toList]

/-- Fields that are read back from their field list are plain. -/
theorem plain_of_parse_render {fields : Table String} {r : Resource}
    (h : parse (render fields) = .ok r) (hfields : r.fields = fields) : Plain fields := by
  have hclean : Clean fields := hfields ▸ clean_of_parse h
  obtain ⟨key, hkey⟩ : ∃ key, fields.find? typeKeyField = some key := by
    obtain ⟨-, entries, -, -, ⟨key, hkey, -⟩, rfl⟩ := parse_eq_ok_iff.1 h
    exact ⟨key, hfields ▸ hkey⟩
  obtain ⟨-, rfl⟩ := (parse_render_iff_of_clean hclean hkey).1 h
  intro k v hfind
  obtain ⟨hk, hcomma⟩ := hclean k v hfind
  refine ⟨hk, plainValue_of_readValue ?_ hcomma⟩
  have hread := find?_reread hkey k
  rw [show reread fields = fields from hfields, hfind] at hread
  exact (Option.some.inj hread).symm

/-- Plain fields are read back from their field list. -/
theorem parse_render_of_plain {fields : Table String} {key : String} (hplain : Plain fields)
    (hkey : fields.find? typeKeyField = some key) (hne : key ≠ "") :
    ∃ r, parse (render fields) = .ok r ∧ r.fields = fields := by
  have hclean : Clean fields := fun k v h => ⟨(hplain k v h).1, (hplain k v h).2.no_comma⟩
  have hread : ∀ k v, fields.find? k = some v → readValue v = v := fun k v h =>
    readValue_of_plain (hplain k v h).2
  refine ⟨_, (parse_render_iff_of_clean hclean hkey).2 ⟨?_, rfl⟩, ?_⟩
  · rwa [hread _ _ hkey]
  · refine Table.ext_find? fun k => ?_
    rw [find?_reread hkey]
    cases hfind : fields.find? k with
    | none => rfl
    | some v => exact congrArg some (hread k v hfind)

theorem plain_iff {fields : Table String} :
    Plain fields ↔ ∀ k v, fields.find? k = some v →
      (k ≠ "" ∧ Tight k.toList ∧ ',' ∉ k.toList ∧ '=' ∉ k.toList) ∧
        Tight v.toList ∧ ',' ∉ v.toList ∧ ∀ inner, v.toList ≠ '"' :: (inner ++ ['"']) := by
  have hempty : ∀ k : String, k.toList ≠ [] ↔ k ≠ "" := fun k => by simp
  constructor
  · intro h k v hfind
    obtain ⟨hk, hv⟩ := h k v hfind
    exact ⟨⟨(hempty k).1 hk.ne_nil, trim_eq_self_iff.1 hk.trimmed, hk.no_comma, hk.no_equals⟩,
      trim_eq_self_iff.1 hv.trimmed, hv.no_comma, hv.unquoted⟩
  · intro h k v hfind
    obtain ⟨⟨hne, htight, hcomma, hequals⟩, hvtight, hvcomma, hunquoted⟩ := h k v hfind
    exact ⟨⟨(hempty k).2 hne, trim_eq_self_iff.2 htight, hcomma, hequals⟩,
      trim_eq_self_iff.2 hvtight, hvcomma, hunquoted⟩

/-- **Reading back what was written.** Fields are read back from their field list exactly if they
have a type key and hold nothing that field lists give a meaning of its own: no commas, no blanks at
ends, no empty keys, no keys with an `=` and no values between quotes. -/
theorem parse_render_fields_iff (fields : Table String) :
    (∃ r, parse (render fields) = .ok r ∧ r.fields = fields) ↔
      (∃ key, fields.find? typeKeyField = some key ∧ key ≠ "") ∧
        ∀ k v, fields.find? k = some v →
          (k ≠ "" ∧ Tight k.toList ∧ ',' ∉ k.toList ∧ '=' ∉ k.toList) ∧
            Tight v.toList ∧ ',' ∉ v.toList ∧ ∀ inner, v.toList ≠ '"' :: (inner ++ ['"']) := by
  rw [← plain_iff]
  constructor
  · rintro ⟨r, hr, hfields⟩
    obtain ⟨-, entries, -, -, hkey, rfl⟩ := parse_eq_ok_iff.1 hr
    exact ⟨hfields ▸ hkey, plain_of_parse_render hr hfields⟩
  · rintro ⟨⟨key, hkey, hne⟩, hplain⟩
    exact parse_render_of_plain hplain hkey hne

end ResourceNames.FieldList
