import ResourceNames.Proofs.Name.Leftovers
import ResourceNames.Proofs.Name.UrnReading

/-!
# Templates that are read as they are filled

Filling looks for placeholders anywhere in a template, reading only for whole segments behind the
head. `Shape template` says that both find the same.

* `filled_append_behind`: filling such a template fills it segment by segment.
* `Shape.render_eq_iff`: with the fields that a URN is read as, it is filled as that URN, except in
  its head.
* `Shape.parse_render_iff_suits`: the URN of some fields reads back as these fields exactly if
  they suit the template.
-/

namespace ResourceNames.Urn

open Text
open Template (IsName names value filled)

theorem isName_typeKeyField : IsName typeKeyField.toList where
  ne_nil := by simp [typeKeyField]
  unbracketed := by simp [typeKeyField, Template.isBracket]

/-! ## Tails -/

/-- The names of the placeholders among some segments. -/
def tailNames (tail : List (List Char)) : List (List Char) := tail.filterMap placeholderName?

/-- A segment, or the value for it if it is a placeholder. -/
def segmentValue (fields : Table String) (segment : List Char) : List Char :=
  match placeholderName? segment with
  | some name => value fields name
  | none => segment

theorem tailNames_cons_literal {e : List Char} (h : placeholderName? e = none)
    (tail : List (List Char)) : tailNames (e :: tail) = tailNames tail := by
  simp [tailNames, h]

theorem tailNames_cons_placeholder {e n : List Char} (h : placeholderName? e = some n)
    (tail : List (List Char)) : tailNames (e :: tail) = n :: tailNames tail := by
  simp [tailNames, h]

theorem typeKeyField_not_mem_tailNames {tail : List (List Char)} (h : typeKeySegment ∉ tail) :
    typeKeyField.toList ∉ tailNames tail := by
  intro hm
  obtain ⟨e, he, hname⟩ := List.mem_filterMap.1 hm
  rw [(placeholderName?_eq_some_iff.1 hname).1, ← typeKeySegment_eq] at he
  exact h he

/-- A text before a placeholder segment, which stands behind its slash. -/
theorem append_behind_placeholder {e n : List Char} (h : placeholderName? e = some n)
    (before : List Char) (tail : List (List Char)) :
    before ++ behind '/' (e :: tail) =
      (before ++ ['/']) ++ '<' :: (n ++ '>' :: behind '/' tail) := by
  rw [behind_cons, (placeholderName?_eq_some_iff.1 h).1]
  simp

theorem append_behind_literal (before e : List Char) (tail : List (List Char)) :
    before ++ behind '/' (e :: tail) = (before ++ '/' :: e) ++ behind '/' tail := by
  simp

/-- Filling sees all placeholders that reading sees. -/
theorem names_append_tailNames_sublist {tail : List (List Char)}
    (hname : ∀ n ∈ tailNames tail, IsName n) (before : List Char) :
    (names before ++ tailNames tail).Sublist (names (before ++ behind '/' tail)) := by
  induction tail generalizing before with
  | nil => simp [tailNames]
  | cons e tail ih =>
    cases hn : placeholderName? e with
    | none =>
      rw [tailNames_cons_literal hn] at hname ⊢
      rw [append_behind_literal]
      exact ((Template.names_sublist_append before _).append_right _).trans (ih hname _)
    | some n =>
      rw [tailNames_cons_placeholder hn] at hname ⊢
      obtain ⟨hname, hrest⟩ := List.forall_mem_cons.1 hname
      rw [append_behind_placeholder hn, Template.names_append_placeholder hname]
      have htail := ih hrest []
      rw [Template.names_nil, List.nil_append, List.nil_append] at htail
      exact (Template.names_sublist_append before _).append (htail.cons_cons n)

/-- If filling sees only the placeholders that reading sees, it fills segment by segment. -/
theorem filled_append_behind {fields : Table String} {tail : List (List Char)}
    {before : List Char}
    (h : names (before ++ behind '/' tail) = names before ++ tailNames tail) :
    filled fields (before ++ behind '/' tail) =
      filled fields before ++ behind '/' (tail.map (segmentValue fields)) := by
  have hname : ∀ n ∈ tailNames tail, IsName n := fun n hn =>
    Template.isName_of_mem_names (h ▸ List.mem_append_right _ hn)
  induction tail generalizing before with
  | nil => simp
  | cons e tail ih =>
    cases hn : placeholderName? e with
    | none =>
      rw [tailNames_cons_literal hn] at h hname
      rw [append_behind_literal] at h ⊢
      -- The segment brings no placeholder of its own, as there are no more than expected.
      have hsub := Template.names_sublist_append before ('/' :: e)
      have hall := names_append_tailNames_sublist hname (before ++ '/' :: e)
      have hlen := h ▸ hall.length_le
      have heq : names (before ++ '/' :: e) = names before := by
        refine (hsub.eq_of_length_le ?_).symm
        simp only [List.length_append] at hlen
        omega
      rw [ih (heq ▸ h) hname, Template.filled_append_of_names_eq fields heq]
      simp [segmentValue, hn]
    | some n =>
      rw [tailNames_cons_placeholder hn] at h hname
      obtain ⟨hn', hrest⟩ := List.forall_mem_cons.1 hname
      rw [append_behind_placeholder hn, Template.names_append_placeholder hn'] at h
      rw [append_behind_placeholder hn, Template.filled_append_placeholder fields hn']
      have hsub := Template.names_sublist_append before ['/']
      have hall := names_append_tailNames_sublist hrest []
      rw [Template.names_nil, List.nil_append, List.nil_append] at hall
      have hlen := congrArg List.length h
      simp only [List.length_append, List.length_cons] at hlen
      have hbefore : names (before ++ ['/']) = names before :=
        (hsub.eq_of_length_le (by have := hall.length_le; omega)).symm
      have htail : names (behind '/' tail) = tailNames tail :=
        (hall.eq_of_length_le (by have := hsub.length_le; omega)).symm
      have hfill := @ih [] (by simpa using htail) hrest
      rw [List.nil_append, Template.filled_nil, List.nil_append] at hfill
      rw [hfill, Template.filled_append_of_names_eq fields hbefore]
      simp [segmentValue, hn]

/-! ## Templates -/

/-- A template whose placeholders are the type key in its head and whole segments behind it. -/
structure Shape (template : String) where
  head : List Char
  tail : List (List Char)
  isHead : IsHead head
  text_eq : template.toList = urnLead.toList ++ (head ++ behind '/' tail)
  whole : ∀ e ∈ tail, '/' ∉ e
  no_key : typeKeySegment ∉ tail
  names_eq : names template.toList = names head ++ tailNames tail
  key_only : ∀ n ∈ names head, n = typeKeyField.toList

/-- The names that URNs of a template have values for. -/
def carried (template : String) (name : String) : Bool :=
  name = typeKeyField || name ∈ Template.unresolved template

theorem carried_iff {template name : String} :
    carried template name = true ↔
      name = typeKeyField ∨ ∃ n ∈ names template.toList, name = String.ofList n := by
  unfold carried
  rw [Template.unresolved_eq, Bool.or_eq_true, decide_eq_true_eq, decide_eq_true_eq, List.mem_map]
  exact or_congr_right (exists_congr fun n => and_congr_right fun _ => eq_comm)

theorem open_not_mem_urnLead : '<' ∉ urnLead.toList := by decide +kernel

/-- Fields that can be read back from their URN by a template. -/
structure Shape.Suits {template : String} (shape : Shape template) (fields : Table String) :
    Prop where
  /-- The filled head is the type key; without a tail more may follow behind a slash. -/
  key : ∃ key more, IsKey key ∧ fields.find? typeKeyField = some (String.ofList key) ∧
    filled fields shape.head = key ++ more ∧ (more = [] ∨ shape.tail = [] ∧ ∃ s, more = '/' :: s)
  bound : ∀ n ∈ tailNames shape.tail, ∃ v, fields.find? (String.ofList n) = some v ∧ v ≠ ""
  /-- Only the value in the last segment may hold slashes. -/
  cut : ∀ e ∈ shape.tail.dropLast, '/' ∉ segmentValue fields e
  some_text : shape.tail ≠ [[]]

namespace Shape

variable {template : String}

theorem toList_render (shape : Shape template) {fields : Table String}
    (hnodup : (names template.toList).Nodup)
    (hbound : ∀ n ∈ names template.toList, (fields.find? (String.ofList n)).isSome) :
    (render fields template).toList = urnLead.toList ++
      (filled fields shape.head ++ behind '/' (shape.tail.map (segmentValue fields))) := by
  have hnames := shape.names_eq
  rw [shape.text_eq, Template.names_append_of_open_not_mem open_not_mem_urnLead] at hnames
  unfold render
  rw [Template.toList_fill hbound hnodup, shape.text_eq,
    Template.filled_append_of_open_not_mem fields open_not_mem_urnLead,
    filled_append_behind hnames]

/-- A reading with the template goes by its head and tail. -/
theorem eq_of_reading (shape : Shape template) {input : String} (reading : Reading input template) :
    reading.head = shape.head ∧ reading.pairing.map (·.1) = shape.tail := by
  have h := reading.template_eq
  rw [shape.text_eq] at h
  exact head_tail_unique reading.isHead shape.isHead reading.whole shape.whole reading.no_key
    (List.append_cancel_left h).symm

theorem value_of_find? {fields : Table String} {n v : List Char}
    (h : fields.find? (String.ofList n) = some (String.ofList v)) : value fields n = v := by
  simp [value, h]

theorem eq_ofList_typeKeyField : typeKeyField = String.ofList typeKeyField.toList :=
  String.ofList_toList.symm

/-- A pairing that gives the placeholders their values is the filled tail. -/
theorem map_snd_eq {fields : Table String} {pairing : Pairing}
    (hfits : ∀ p ∈ pairing, Fits p.1 p.2)
    (hvalue : ∀ p ∈ pairing, ∀ n, placeholderName? p.1 = some n →
      fields.find? (String.ofList n) = some (String.ofList p.2)) :
    pairing.map (·.2) = (pairing.map (·.1)).map (segmentValue fields) := by
  rw [List.map_map]
  refine List.map_congr_left fun p hp => ?_
  unfold segmentValue
  cases hn : placeholderName? p.1 with
  | none =>
    simp only [Function.comp_apply, hn]
    exact ((hfits p hp).eq hn).symm
  | some n => simp only [Function.comp_apply, hn, value_of_find? (hvalue p hp n hn)]

theorem nodup_tailNames (shape : Shape template) (hnodup : (names template.toList).Nodup) :
    (tailNames shape.tail).Nodup :=
  (shape.names_eq ▸ hnodup).sublist (List.sublist_append_right _ _)

/-- All placeholders have values if the type key and those behind the head have. -/
theorem isSome_find?_of_mem_names (shape : Shape template) (fields : Table String)
    (hkey : (fields.find? typeKeyField).isSome)
    (htail : ∀ n ∈ tailNames shape.tail, (fields.find? (String.ofList n)).isSome) :
    ∀ n ∈ names template.toList, (fields.find? (String.ofList n)).isSome := by
  intro n hn
  rw [shape.names_eq] at hn
  rcases List.mem_append.1 hn with hn | hn
  · rwa [shape.key_only n hn, ← eq_ofList_typeKeyField]
  · exact htail n hn

/-! ## Readings -/

section

variable {input : String} (shape : Shape template) (hnodup : (names template.toList).Nodup)
  (reading : Reading input template)

theorem tailNames_of_reading :
    (reading.pairing.filterMap fun p => placeholderName? p.1) = tailNames shape.tail := by
  rw [← (shape.eq_of_reading reading).2, tailNames, List.filterMap_map]
  rfl

/-- Something is left over only if the template has no tail, and then behind a slash. -/
theorem surplus_of_reading :
    reading.surplus = [] ∨ shape.tail = [] ∧ ∃ s, reading.surplus = '/' :: s := by
  rcases reading.pairs.surplus_eq with hs | hp
  · exact .inl hs
  · have hrest := reading.pairs.rest_eq
    rw [hp] at hrest
    rcases hr : reading.rest with _ | s
    · exact .inl (by simpa [hr, continued] using hrest.symm)
    · exact .inr ⟨by simp [← (shape.eq_of_reading reading).2, hp], s,
        by simpa [hr, continued] using hrest.symm⟩

include shape hnodup in
/-- A placeholder is read as what stands in its place. -/
theorem find?_fields_of_mem_pairing {p : List Char × List Char} {n : List Char}
    (hp : p ∈ reading.pairing) (hn : placeholderName? p.1 = some n) :
    reading.fields.find? (String.ofList n) = some (String.ofList p.2) :=
  (find?_fieldsOf_eq_some_iff reading.no_key
    (shape.tailNames_of_reading reading ▸ shape.nodup_tailNames hnodup)).2
      (.inr ⟨p, hp, n, hn, rfl, rfl⟩)

include hnodup in
/-- With the fields that a URN is read as, a template is filled as the URN, except in its head. -/
theorem render_eq_iff :
    render reading.fields template = input ↔
      filled reading.fields shape.head = reading.key ++ reading.surplus := by
  have hvalue : ∀ p ∈ reading.pairing, ∀ n, placeholderName? p.1 = some n →
      reading.fields.find? (String.ofList n) = some (String.ofList p.2) :=
    fun p hp n hn => shape.find?_fields_of_mem_pairing hnodup reading hp hn
  have hbound := shape.isSome_find?_of_mem_names reading.fields
    (by rw [Reading.fields, find?_typeKeyField_fieldsOf _ reading.no_key]; rfl) fun n hn => by
      rw [← shape.tailNames_of_reading reading] at hn
      obtain ⟨p, hp, hname⟩ := List.mem_filterMap.1 hn
      rw [hvalue p hp n hname]
      rfl
  rw [← String.toList_inj, shape.toList_render hnodup hbound, reading.input_eq,
    List.append_cancel_left_eq, ← (shape.eq_of_reading reading).2,
    ← map_snd_eq reading.pairs.fits hvalue, reading.append_behind_eq_iff]

end

/-! ## Fields that are read back suit the template -/

section

variable (shape : Shape template) {fields : Table String}
  (hnodup : (names template.toList).Nodup)
  (reading : Reading (render fields template) template)
  (hfields : reading.fields = fields.restrict (carried template))

include hfields in
theorem find?_typeKeyField_of_reading :
    fields.find? typeKeyField = some (String.ofList reading.key) := by
  have hread : reading.fields.find? typeKeyField = some (String.ofList reading.key) :=
    find?_typeKeyField_fieldsOf _ reading.no_key
  rw [hfields] at hread
  exact (Table.find?_of_find?_restrict hread).2

include shape hnodup hfields

/-- A placeholder is read as the value that it was filled with. -/
theorem find?_of_mem_pairing {p : List Char × List Char} {n : List Char}
    (hp : p ∈ reading.pairing) (hn : placeholderName? p.1 = some n) :
    fields.find? (String.ofList n) = some (String.ofList p.2) := by
  have hread := shape.find?_fields_of_mem_pairing hnodup reading hp hn
  rw [hfields] at hread
  exact (Table.find?_of_find?_restrict hread).2

theorem map_snd_of_reading :
    reading.pairing.map (·.2) = shape.tail.map (segmentValue fields) := by
  rw [map_snd_eq reading.pairs.fits fun p hp n hn =>
    shape.find?_of_mem_pairing hnodup reading hfields hp hn, (shape.eq_of_reading reading).2]

theorem bound_of_reading {n : List Char} (hn : n ∈ tailNames shape.tail) :
    ∃ v, fields.find? (String.ofList n) = some v ∧ v ≠ "" := by
  rw [← (shape.eq_of_reading reading).2] at hn
  obtain ⟨e, he, hname⟩ := List.mem_filterMap.1 hn
  obtain ⟨p, hp, rfl⟩ := List.mem_map.1 he
  have hne := (reading.pairs.fits p hp).ne_nil hname
  exact ⟨_, shape.find?_of_mem_pairing hnodup reading hfields hp hname,
    fun he => hne (by simpa using congrArg String.toList he)⟩

/-- The filled head is what is read as the type key, and what is left over behind it. -/
theorem filled_head_of_reading : filled fields shape.head = reading.key ++ reading.surplus := by
  have hbound := shape.isSome_find?_of_mem_names fields
    (by rw [find?_typeKeyField_of_reading reading hfields]; rfl) fun n hn => by
      obtain ⟨v, hv, -⟩ := shape.bound_of_reading hnodup reading hfields hn
      rw [hv]
      rfl
  have hinput := reading.input_eq
  rw [shape.toList_render hnodup hbound,
    ← shape.map_snd_of_reading hnodup reading hfields] at hinput
  exact reading.append_behind_eq_iff.1 (List.append_cancel_left hinput)

/-- Fields that are read back from their URN suit the template. -/
theorem suits_of_reading : shape.Suits fields where
  key := ⟨reading.key, reading.surplus, reading.isKey,
    find?_typeKeyField_of_reading reading hfields,
    shape.filled_head_of_reading hnodup reading hfields, shape.surplus_of_reading reading⟩
  bound := fun _ hn => shape.bound_of_reading hnodup reading hfields hn
  cut := by
    intro e he
    refine reading.pairs.cut _ ?_
    rw [shape.map_snd_of_reading hnodup reading hfields, ← List.map_dropLast]
    exact List.mem_map_of_mem he
  some_text := by
    intro he
    refine reading.pairs.some_text ?_
    rw [shape.map_snd_of_reading hnodup reading hfields, he]
    rfl

end

/-! ## Fields that suit the template are read back -/

theorem exists_continued_eq {s : List Char} (h : s = [] ∨ ∃ t, s = '/' :: t) :
    ∃ rest, continued rest = s := by
  rcases h with rfl | ⟨t, rfl⟩
  · exact ⟨none, rfl⟩
  · exact ⟨some t, rfl⟩

/-- The placeholders behind the head are the names besides the type key. -/
theorem carried_iff_mem_tailNames (shape : Shape template) {k : String} :
    carried template k = true ↔
      k = typeKeyField ∨ ∃ n ∈ tailNames shape.tail, k = String.ofList n := by
  rw [carried_iff, shape.names_eq]
  constructor
  · rintro (hk | ⟨n, hn, rfl⟩)
    · exact .inl hk
    · rcases List.mem_append.1 hn with hn | hn
      · exact .inl (by rw [shape.key_only n hn, ← eq_ofList_typeKeyField])
      · exact .inr ⟨n, hn, rfl⟩
  · rintro (hk | ⟨n, hn, hk⟩)
    · exact .inl hk
    · exact .inr ⟨n, List.mem_append_right _ hn, hk⟩

/-- The tail of a template, each segment with what it is filled with. -/
def pairing (shape : Shape template) (fields : Table String) : Pairing :=
  shape.tail.map fun e => (e, segmentValue fields e)

theorem map_fst_pairing (shape : Shape template) (fields : Table String) :
    (shape.pairing fields).map (·.1) = shape.tail := by
  simp [pairing, Function.comp_def]

theorem map_snd_pairing (shape : Shape template) (fields : Table String) :
    (shape.pairing fields).map (·.2) = shape.tail.map (segmentValue fields) := by
  simp [pairing, Function.comp_def]

theorem filterMap_pairing (shape : Shape template) (fields : Table String) :
    ((shape.pairing fields).filterMap fun p => placeholderName? p.1) = tailNames shape.tail := by
  rw [pairing, tailNames, List.filterMap_map]
  rfl

theorem segmentValue_placeholder {fields : Table String} {e n : List Char} {v : String}
    (hn : placeholderName? e = some n) (h : fields.find? (String.ofList n) = some v) :
    segmentValue fields e = v.toList := by
  simp only [segmentValue, hn, value, h, Option.getD_some]

/-- What a tail is filled with fits it if the fields suit the template. -/
theorem fits_segmentValue {shape : Shape template} {fields : Table String}
    (hsuits : shape.Suits fields) {e : List Char} (he : e ∈ shape.tail) :
    Fits e (segmentValue fields e) := by
  unfold Fits
  cases hn : placeholderName? e with
  | none => simp only [segmentValue, hn]
  | some n =>
    obtain ⟨v, hv, hne⟩ := hsuits.bound n (List.mem_filterMap.2 ⟨e, he, hn⟩)
    rw [segmentValue_placeholder hn hv]
    exact fun h => hne (String.toList_inj.1 (by simpa using h))

/-- The URN of fields that suit the template pairs up with it. -/
theorem pairs_of_suits {shape : Shape template} {fields : Table String}
    (hsuits : shape.Suits fields) {more : List Char} {rest : Option (List Char)}
    (hmore : more = [] ∨ shape.tail = [])
    (hrest : continued rest = behind '/' (shape.tail.map (segmentValue fields)) ++ more) :
    Pairs (continued rest) ((shape.pairing fields).map (·.1)) (shape.pairing fields) more := by
  refine ⟨rfl, by rw [hrest, map_snd_pairing], ?_, ?_, ?_, ?_⟩
  · exact hmore.imp_right fun h => by simp [pairing, h]
  · intro p hp
    obtain ⟨e, he, rfl⟩ := List.mem_map.1 hp
    exact fits_segmentValue hsuits he
  · intro a ha
    rw [map_snd_pairing, ← List.map_dropLast] at ha
    obtain ⟨e, he, rfl⟩ := List.mem_map.1 ha
    exact hsuits.cut e he
  · intro ha
    rw [map_snd_pairing] at ha
    obtain ⟨e, he, hv⟩ := List.map_eq_singleton_iff.1 ha
    have hfit := fits_segmentValue hsuits (e := e) (by simp [he])
    cases hn : placeholderName? e with
    | none =>
      refine hsuits.some_text ?_
      rw [he, hfit.eq hn, hv]
    | some n => exact hfit.ne_nil hn hv

/-- The filled tail holds the fields that the template carries. -/
theorem fieldsOf_pairing {shape : Shape template} {fields : Table String}
    (hnodup : (names template.toList).Nodup) (hsuits : shape.Suits fields) {key : List Char}
    (hfind : fields.find? typeKeyField = some (String.ofList key)) :
    fieldsOf key (shape.pairing fields) = fields.restrict (carried template) := by
  have hno : typeKeySegment ∉ (shape.pairing fields).map (·.1) := by
    rw [map_fst_pairing]
    exact shape.no_key
  have hnodup' : ((shape.pairing fields).filterMap fun p => placeholderName? p.1).Nodup := by
    rw [filterMap_pairing]
    exact shape.nodup_tailNames hnodup
  refine Table.ext_find? fun k => Option.ext fun v => ?_
  rw [find?_fieldsOf_eq_some_iff hno hnodup', Table.find?_restrict, Option.ite_none_right_eq_some,
    shape.carried_iff_mem_tailNames]
  constructor
  · rintro (⟨rfl, rfl⟩ | ⟨p, hp, n, hn, rfl, rfl⟩)
    · exact ⟨.inl rfl, hfind⟩
    · obtain ⟨e, he, rfl⟩ := List.mem_map.1 hp
      have hmem : n ∈ tailNames shape.tail := List.mem_filterMap.2 ⟨e, he, hn⟩
      obtain ⟨v, hv, -⟩ := hsuits.bound n hmem
      refine ⟨.inr ⟨n, hmem, rfl⟩, ?_⟩
      rw [segmentValue_placeholder hn hv, String.ofList_toList, hv]
  · rintro ⟨rfl | ⟨n, hn, rfl⟩, hv⟩
    · exact .inl ⟨rfl, Option.some.inj (hv.symm.trans hfind)⟩
    · obtain ⟨e, he, hname⟩ := List.mem_filterMap.1 hn
      refine .inr ⟨_, List.mem_map_of_mem he, n, hname, rfl, ?_⟩
      rw [segmentValue_placeholder hname hv, String.ofList_toList]

/-- Fields that suit the template are read back from their URN. -/
theorem exists_reading_of_suits {shape : Shape template} {fields : Table String}
    (hnodup : (names template.toList).Nodup) (hsuits : shape.Suits fields) :
    ∃ reading : Reading (render fields template) template,
      reading.fields = fields.restrict (carried template) := by
  obtain ⟨key, more, hkey, hfind, hfilled, hmore⟩ := hsuits.key
  have hbound := shape.isSome_find?_of_mem_names fields
    (by rw [hfind]; rfl) fun n hn => by
      obtain ⟨v, hv, -⟩ := hsuits.bound n hn
      rw [hv]
      rfl
  have hstart : behind '/' (shape.tail.map (segmentValue fields)) ++ more = [] ∨
      ∃ t, behind '/' (shape.tail.map (segmentValue fields)) ++ more = '/' :: t := by
    rcases hmore with rfl | ⟨htail, s, rfl⟩
    · simpa using behind_eq_nil_or_cons '/' (shape.tail.map (segmentValue fields))
    · exact .inr ⟨s, by rw [htail]; rfl⟩
  obtain ⟨rest, hrest⟩ := exists_continued_eq hstart
  have hempty : more = [] ∨ shape.tail = [] := hmore.imp_right (·.1)
  have hinput : (render fields template).toList =
      urnLead.toList ++ (key ++ continued rest) := by
    rw [shape.toList_render hnodup hbound, hfilled, hrest]
    congr 1
    -- Without a tail there is nothing between the two parts of the head.
    rcases hempty with rfl | htail
    · simp
    · simp [htail]
  have htail := shape.map_fst_pairing fields
  have htemplate : template.toList =
      urnLead.toList ++ (shape.head ++ behind '/' ((shape.pairing fields).map (·.1))) := by
    rw [htail, shape.text_eq]
  have hpairs := pairs_of_suits hsuits hempty hrest
  exact ⟨⟨key, shape.head, shape.pairing fields, more, rest, hkey, shape.isHead, hinput, htemplate,
    hpairs, htail ▸ shape.whole, htail ▸ shape.no_key⟩, fieldsOf_pairing hnodup hsuits hfind⟩

/-- **Round trip through a URN.** Fields are read back from their URN exactly if they suit the
template. -/
theorem parse_render_iff_suits (shape : Shape template) {fields : Table String}
    (hnodup : (names template.toList).Nodup) :
    (∃ r, parse (render fields template) template = .ok r ∧
      r.fields = fields.restrict (carried template)) ↔ shape.Suits fields := by
  constructor
  · rintro ⟨r, hr, hfields⟩
    obtain ⟨reading, rfl⟩ := parse_eq_ok_iff.1 hr
    exact shape.suits_of_reading hnodup reading hfields
  · intro hsuits
    obtain ⟨reading, hfields⟩ := exists_reading_of_suits hnodup hsuits
    exact ⟨_, reading.parse_eq, hfields⟩

end Shape

end ResourceNames.Urn
