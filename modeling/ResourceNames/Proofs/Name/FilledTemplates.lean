import ResourceNames.Proofs.Name.TemplateShape

/-!
# Templates that read what they were filled with

* `Reading.shape`: if a URN without placeholders left is read as the fields that it was filled
  with, reading and filling find the same placeholders in the template.
* `reads_back_iff`: such a URN is read as its fields exactly if the template has a shape that they
  suit.
* `Reading.render_eq_iff`: a URN is what its fields are written as exactly if the template has a
  shape with a head that is filled with the type key and all that is left over.
-/

namespace ResourceNames.Urn

open Text
open Template (IsName names)

theorem mem_map_fst_bindings_iff {pairing : Pairing} {n : List Char} :
    String.ofList n ∈ (bindings pairing).map (·.1) ↔ n ∈ tailNames (pairing.map (·.1)) := by
  rw [map_fst_bindings, tailNames, List.filterMap_map, List.mem_map]
  constructor
  · rintro ⟨m, hm, he⟩
    rwa [← String.ofList_injective he]
  · exact fun hn => ⟨n, hn, rfl⟩

/-- The names that a reading gives values to are the type key and those behind the head. -/
theorem isSome_find?_fieldsOf_iff {key : List Char} {pairing : Pairing} {n : List Char} :
    ((fieldsOf key pairing).find? (String.ofList n)).isSome ↔
      n = typeKeyField.toList ∨ n ∈ tailNames (pairing.map (·.1)) := by
  rw [← mem_map_fst_bindings_iff]
  unfold fieldsOf
  by_cases hn : String.ofList n ∈ (bindings pairing).map (·.1)
  · simp only [Table.isSome_find?_insertAll hn, hn, or_true]
  · have hkey : typeKeyField = String.ofList n ↔ n = typeKeyField.toList := by
      rw [← String.toList_inj, String.toList_ofList, eq_comm]
    rw [Table.find?_insertAll_of_not_mem hn, Table.find?_insert, Table.find?_empty]
    simp [hkey, hn]

namespace Reading

variable {fields : Table String} {template : String}

/-- The template of a reading behind its lead. -/
def body {input : String} (reading : Reading input template) : List Char :=
  reading.head ++ behind '/' (reading.pairing.map (·.1))

theorem names_body {input : String} (reading : Reading input template) :
    Template.names template.toList = Template.names reading.body := by
  rw [reading.template_eq, Template.names_append_of_open_not_mem open_not_mem_urnLead]
  rfl

section

variable (reading : Reading (render fields template) template)
  (hfields : reading.fields = fields.restrict (carried template))

include hfields

/-- Reading finds the placeholders that filling finds, besides that of the type key. -/
theorem mem_tailNames_of_mem_names (hfilled : Template.unresolved (render fields template) = [])
    {n : List Char} (hn : n ∈ Template.names template.toList) :
    n = typeKeyField.toList ∨ n ∈ tailNames (reading.pairing.map (·.1)) := by
  have hbound := (Template.nodup_of_unresolved_fill hfilled).2 n hn
  have hcarried : carried template (String.ofList n) = true := carried_iff.2 (.inr ⟨n, hn, rfl⟩)
  have hsome : (reading.fields.find? (String.ofList n)).isSome := by
    rwa [hfields, Table.find?_restrict, if_pos hcarried]
  exact isSome_find?_fieldsOf_iff.1 hsome

/-- Filling finds the placeholders that reading finds. -/
theorem mem_names_of_mem_tailNames {n : List Char}
    (hn : n ∈ tailNames (reading.pairing.map (·.1))) : n ∈ Template.names template.toList := by
  have hsome : (reading.fields.find? (String.ofList n)).isSome :=
    isSome_find?_fieldsOf_iff.2 (.inr hn)
  obtain ⟨v, hv⟩ := Option.isSome_iff_exists.1 hsome
  rw [hfields] at hv
  rcases carried_iff.1 (Table.find?_of_find?_restrict hv).1 with he | ⟨m, hm, he⟩
  · rw [← String.toList_ofList (l := n), he] at hn
    exact absurd hn (typeKeyField_not_mem_tailNames reading.no_key)
  · rwa [String.ofList_injective he]

theorem isName_of_mem_tailNames {n : List Char}
    (hn : n ∈ tailNames (reading.pairing.map (·.1))) : IsName n :=
  Template.isName_of_mem_names (reading.mem_names_of_mem_tailNames hfields hn)

/-- The placeholder of the type key stands in no segment behind the head. -/
theorem typeKeyField_not_mem_names
    (hfilled : Template.unresolved (render fields template) = []) {p : List Char × List Char}
    (hp : p ∈ reading.pairing) : typeKeyField.toList ∉ Template.names p.1 := by
  intro hm
  cases hname : placeholderName? p.1 with
  | some n =>
    have hmem : p.1 ∈ reading.pairing.map (·.1) := List.mem_map_of_mem hp
    have hn := reading.isName_of_mem_tailNames hfields (List.mem_filterMap.2 ⟨_, hmem, hname⟩)
    have hsegment := (placeholderName?_eq_some_iff.1 hname).1
    rw [hsegment, Template.names_placeholder hn, Template.names_nil, List.mem_singleton] at hm
    rw [hsegment, ← hm, ← typeKeySegment_eq] at hmem
    exact reading.no_key hmem
  | none =>
    -- A literal stands in the URN as well, where nothing was to be left.
    obtain ⟨l, r, hlr⟩ := List.append_of_mem hp
    have hinput : p.1 <:+: (render fields template).toList := by
      refine ⟨urnLead.toList ++ (reading.key ++ (behind '/' (l.map (·.2)) ++ ['/'])),
        behind '/' (r.map (·.2)) ++ reading.surplus, ?_⟩
      rw [reading.input_eq, reading.pairs.rest_eq, hlr, (reading.pairs.fits p hp).eq hname]
      simp [behind_append]
    have hleft : typeKeyField.toList ∈ Template.names (render fields template).toList :=
      (Template.mem_names_iff_infix isName_typeKeyField _).2
        (((Template.mem_names_iff_infix isName_typeKeyField _).1 hm).trans hinput)
    rw [Template.unresolved_eq, List.map_eq_nil_iff] at hfilled
    rw [hfilled] at hleft
    cases hleft

theorem names_sublist :
    (Template.names reading.head ++ tailNames (reading.pairing.map (·.1))).Sublist
      (Template.names template.toList) := by
  rw [reading.names_body]
  exact names_append_tailNames_sublist
    (fun n hn => reading.isName_of_mem_tailNames hfields hn) reading.head

theorem mem_names_head (hfilled : Template.unresolved (render fields template) = [])
    (h : typeKeyField.toList ∈ Template.names template.toList) :
    typeKeyField.toList ∈ Template.names reading.head := by
  have hsep : '/' ∉ (Template.Piece.placeholder typeKeyField.toList).written := by decide +kernel
  have hinfix := (Template.mem_names_iff_infix isName_typeKeyField _).1 (reading.names_body ▸ h)
  obtain ⟨y, hy, hpart⟩ := infix_append_behind (by simp [Template.Piece.written]) hsep hinfix
  have hmem := (Template.mem_names_iff_infix isName_typeKeyField y).2 hpart
  rcases List.mem_cons.1 hy with rfl | hy
  · exact hmem
  · obtain ⟨p, hp, rfl⟩ := List.mem_map.1 hy
    exact absurd hmem (reading.typeKeyField_not_mem_names hfields hfilled hp)

theorem names_eq (hfilled : Template.unresolved (render fields template) = []) :
    Template.names template.toList =
      Template.names reading.head ++ tailNames (reading.pairing.map (·.1)) := by
  have hnodup := (Template.nodup_of_unresolved_fill hfilled).1
  refine ((reading.names_sublist hfields).eq_of_length_le ?_).symm
  refine hnodup.length_le_of_subset fun n hn => ?_
  rcases reading.mem_tailNames_of_mem_names hfields hfilled hn with rfl | htail
  · exact List.mem_append_left _ (reading.mem_names_head hfields hfilled hn)
  · exact List.mem_append_right _ htail

/-- A template that reads the fields it was filled with has a shape. -/
def shape (hfilled : Template.unresolved (render fields template) = []) : Shape template where
  head := reading.head
  tail := reading.pairing.map (·.1)
  isHead := reading.isHead
  text_eq := reading.template_eq
  whole := reading.whole
  no_key := reading.no_key
  names_eq := reading.names_eq hfields hfilled
  key_only := by
    intro n hn
    have hnodup := (Template.nodup_of_unresolved_fill hfilled).1
    rw [reading.names_eq hfields hfilled] at hnodup
    have hmem : n ∈ Template.names template.toList := by
      rw [reading.names_eq hfields hfilled]
      exact List.mem_append_left _ hn
    refine (reading.mem_tailNames_of_mem_names hfields hfilled hmem).resolve_right fun htail => ?_
    exact (List.nodup_append.1 hnodup).2.2 n hn n htail rfl

end

end Reading

/-- A URN is what its fields are written as, and none of them is left out, exactly if reading and
filling find the same placeholders and the filled head is what is read before the segments. -/
theorem Reading.render_eq_iff {input template : String} (reading : Reading input template)
    (hfilled : Template.unresolved (render reading.fields template) = []) :
    (render reading.fields template = input ∧
        reading.fields.restrict (carried template) = reading.fields) ↔
      ∃ shape : Shape template,
        Template.filled reading.fields shape.head = reading.key ++ reading.surplus := by
  have hnodup := (Template.nodup_of_unresolved_fill hfilled).1
  constructor
  · rintro ⟨hrender, hcarried⟩
    generalize hfields : reading.fields = fields at *
    subst hrender
    have hread : reading.fields = fields.restrict (carried template) := by rw [hfields, hcarried]
    exact ⟨reading.shape hread hfilled,
      (reading.shape hread hfilled).filled_head_of_reading hnodup reading hread⟩
  · rintro ⟨shape, hhead⟩
    refine ⟨(shape.render_eq_iff hnodup reading).2 hhead, Table.restrict_eq_self ?_⟩
    intro name value hfind
    rw [← String.ofList_toList (s := name)] at hfind ⊢
    have hname := isSome_find?_fieldsOf_iff.1 (Option.isSome_of_eq_some hfind)
    rw [(shape.eq_of_reading reading).2] at hname
    rw [shape.carried_iff_mem_tailNames]
    exact hname.imp (fun he => by rw [he, String.ofList_toList]) fun hm => ⟨_, hm, rfl⟩

/-- A URN that was filled wholly is read as its fields exactly if they suit its template. -/
theorem reads_back_iff {fields : Table String} {template : String}
    (hfilled : Template.unresolved (render fields template) = []) :
    (∃ r, parse (render fields template) template = .ok r ∧
        r.fields = fields.restrict (carried template)) ↔
      ∃ shape : Shape template, shape.Suits fields := by
  have hnodup := (Template.nodup_of_unresolved_fill hfilled).1
  constructor
  · rintro ⟨r, hr, hfields⟩
    obtain ⟨reading, rfl⟩ := parse_eq_ok_iff.1 hr
    exact ⟨reading.shape hfields hfilled,
      ((reading.shape hfields hfilled).parse_render_iff_suits hnodup).1 ⟨_, hr, hfields⟩⟩
  · rintro ⟨shape, hsuits⟩
    exact (shape.parse_render_iff_suits hnodup).2 hsuits

end ResourceNames.Urn
