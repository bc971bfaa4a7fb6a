import ResourceNames.Proofs.Directory.TypeKeys
import ResourceNames.Proofs.Name.FieldListRoundTrip
import ResourceNames.Proofs.Name.FilledTemplates
import ResourceNames.Proofs.Verdict.Static

/-!
# Reading converted names

* `parse_fieldList_complete_iff`: the field list of a valid input names the same resource exactly
  if all its fields are plain.
* `validate_urn_complete_iff`: the URN of a valid field list names the same resource exactly if the
  fields suit the template of their type.
-/

namespace ResourceNames.StaticDirectory

open Text

variable {d : StaticDirectory} {order : TypeIndex.IterationOrder}

/-! ## What was read -/

theorem exists_template_of_readUrn {input : String} {r : Resource} (h : d.readUrn input = .ok r) :
    ∃ key template, Urn.parseTypeKey input = .ok key ∧
      d.getUrnTemplate (splitTypeKey key).1 (splitTypeKey key).2 = .ok template ∧
      Urn.parse input template = .ok r := by
  unfold readUrn at h
  split at h
  · cases h
  · rename_i key hkey
    split at h
    · cases h
    · rename_i template ht
      exact ⟨key, template, hkey, ht, eq_ok_of_mapError h⟩

theorem readUrn_of_template {input key template : String} {r : Resource}
    (hkey : Urn.parseTypeKey input = .ok key)
    (ht : d.getUrnTemplate (splitTypeKey key).1 (splitTypeKey key).2 = .ok template)
    (hr : Urn.parse input template = .ok r) : d.readUrn input = .ok r := by
  simp only [readUrn, hkey, ht, hr]
  rfl

theorem readInput_of_fieldList {input : String} (h : Format.detect input = .ok .fieldList) :
    d.readInput input = (FieldList.parse input).mapError .ofParseError := by
  simp only [readInput, h]

theorem readInput_of_urn {input : String} (h : Format.detect input = .ok .urn) :
    d.readInput input = d.readUrn input := by
  simp only [readInput, h]

/-- What is read has a type key. -/
theorem exists_typeKey_of_readInput {input : String} {r : Resource}
    (h : d.readInput input = .ok r) :
    ∃ key, r.fields.find? typeKeyField = some key ∧ key ≠ "" :=
  ResourceNames.exists_typeKey_of_readInput ((d.run_readInput input).trans (by rw [h]))

/-! ## Converted to a field list -/

theorem fieldList_convertWith {r : Resource} {template : Option String} {c : Conversion}
    (h : convertWith r template = .ok c) : c.fieldList = FieldList.render r.fields := by
  unfold convertWith at h
  split at h
  · cases h
    rfl
  · simp only at h
    split at h
    · cases h
      rfl
    · cases h

theorem fieldList_convert {r : Resource} {c : Conversion} (h : d.convert r = .ok c) :
    c.fieldList = FieldList.render r.fields := by
  unfold convert at h
  split at h
  · exact fieldList_convertWith h
  · cases h

/-! ## Converted to a URN -/

theorem urn_convertWith {r : Resource} {template urn : String} {c : Conversion}
    (h : convertWith r (some template) = .ok c) (hurn : c.urn = some urn) :
    urn = (r.toUrn? template).getD "" ∧ Template.unresolved urn = [] := by
  simp only [convertWith] at h
  split at h
  · rename_i hfilled
    cases h
    cases hurn
    exact ⟨rfl, hfilled⟩
  · cases h

/-- What was read from a URN is converted with the template that it was read with. -/
theorem convert_of_urnTemplateUsed {r : Resource} (h : r.urnTemplateUsed ≠ "") :
    d.convert r = convertWith r (some r.urnTemplateUsed) := by
  simp only [convert, conversionTemplate, h, if_false]

/-- What was read from a field list is converted with the template of its type. -/
theorem conversionTemplate_of_find? {r : Resource} {t : TypeDescriptor}
    (hused : r.urnTemplateUsed = "") (ht : d.index.types.find? r.typeKey = some t)
    (hslash : '/' ∈ r.typeKey.toList) :
    d.conversionTemplate r = .ok (if t.hasUrnTemplate then some t.urnTemplate else none) := by
  have hnames := typeName_version_eq r
  have hname : r.typeName = (splitTypeKey r.typeKey).1 := congrArg Prod.fst hnames
  have hversion : r.version = (splitTypeKey r.typeKey).2 := congrArg Prod.snd hnames
  simp only [conversionTemplate, hused, if_true, hname, hversion,
    getUrnTemplate_of_find? ht hslash]
  cases t.hasUrnTemplate <;> rfl

theorem convert_eq_of_find? {r : Resource} {t : TypeDescriptor} (hused : r.urnTemplateUsed = "")
    (ht : d.index.types.find? r.typeKey = some t) (hslash : '/' ∈ r.typeKey.toList) :
    d.convert r = convertWith r (if t.hasUrnTemplate then some t.urnTemplate else none) := by
  rw [convert, conversionTemplate_of_find? hused ht hslash]

theorem urn_convert {r : Resource} {t : TypeDescriptor} {c : Conversion} {urn : String}
    (hused : r.urnTemplateUsed = "") (ht : d.index.types.find? r.typeKey = some t)
    (hslash : '/' ∈ r.typeKey.toList) (h : d.convert r = .ok c) (hurn : c.urn = some urn) :
    t.hasUrnTemplate = true ∧ urn = Urn.render r.fields t.urnTemplate ∧
      Template.unresolved urn = [] := by
  rw [convert_eq_of_find? hused ht hslash] at h
  by_cases hhas : t.hasUrnTemplate = true
  · rw [if_pos hhas] at h
    obtain ⟨rfl, hfilled⟩ := urn_convertWith h hurn
    have hne : t.urnTemplate ≠ "" := by simpa [TypeDescriptor.hasUrnTemplate] using hhas
    have hto : (r.toUrn? t.urnTemplate).getD "" = Urn.render r.fields t.urnTemplate := by
      simp [Resource.toUrn?, hne]
    exact ⟨hhas, hto, hfilled⟩
  · rw [if_neg hhas] at h
    cases h
    cases hurn

/-- The type key of a resource with the fields that a template carries. -/
theorem typeKey_eq_of_restrict {r s : Resource} {template : String}
    (h : s.fields = r.fields.restrict (Urn.carried template)) : s.typeKey = r.typeKey := by
  have hkey : Urn.carried template typeKeyField = true := Urn.carried_iff.2 (.inl rfl)
  unfold Resource.typeKey
  rw [h, Table.find?_restrict, if_pos hkey]

/-- A URN that names a resource of a type is read with the template of that type. -/
theorem readUrn_eq_ok_iff {urn key : String} {t : TypeDescriptor} {s : Resource}
    (ht : d.index.types.find? key = some t) (hslash : '/' ∈ key.toList)
    (hhas : t.hasUrnTemplate = true) (hkey : s.typeKey = key) :
    d.readUrn urn = .ok s ↔ Urn.parse urn t.urnTemplate = .ok s := by
  have htemplate := getUrnTemplate_of_find? ht hslash
  rw [if_pos hhas] at htemplate
  constructor
  · intro h
    obtain ⟨key', template, hkey', ht', hs⟩ := exists_template_of_readUrn h
    obtain ⟨reading, rfl⟩ := Urn.parse_eq_ok_iff.1 hs
    rw [reading.typeKey_eq] at hkey
    obtain rfl : key = key' := by
      rw [← hkey]
      exact Except.ok.inj (reading.parseTypeKey.symm.trans hkey')
    obtain rfl := Except.ok.inj (htemplate.symm.trans ht')
    exact hs
  · intro hs
    obtain ⟨reading, rfl⟩ := Urn.parse_eq_ok_iff.1 hs
    rw [reading.typeKey_eq] at hkey
    exact readUrn_of_template (hkey ▸ reading.parseTypeKey) htemplate hs

/-- A resource of a known type is read from its URN and from its field list. -/
theorem readInput_eq_ok_iff {input key : String} {t : TypeDescriptor} {s : Resource}
    (ht : d.index.types.find? key = some t) (hslash : '/' ∈ key.toList)
    (hhas : t.hasUrnTemplate = true) (hkey : s.typeKey = key) :
    d.readInput input = .ok s ↔
      Urn.parse input t.urnTemplate = .ok s ∨ FieldList.parse input = .ok s := by
  constructor
  · intro h
    cases hdetect : Format.detect input with
    | error e => simp [readInput, hdetect] at h
    | ok format =>
      cases format with
      | fieldList =>
        rw [readInput_of_fieldList hdetect] at h
        exact .inr (eq_ok_of_mapError h)
      | urn =>
        rw [readInput_of_urn hdetect, readUrn_eq_ok_iff ht hslash hhas hkey] at h
        exact .inl h
  · rintro (hs | hs)
    · have hdetect : Format.detect input = .ok .urn := by
        obtain ⟨reading, -⟩ := Urn.parse_eq_ok_iff.1 hs
        exact reading.detect_eq
      rw [readInput_of_urn hdetect, readUrn_eq_ok_iff ht hslash hhas hkey]
      exact hs
    · have hdetect : Format.detect input = .ok .fieldList := by
        simp only [Format.detect, (FieldList.parse_eq_ok_iff.1 hs).1, if_true]
      rw [readInput_of_fieldList hdetect, hs]
      rfl

/-! ## Resources of the small run -/

theorem accepts_of_violations {r : Resource} {t : TypeDescriptor} {v : Validator}
    (ht : d.index.types.find? r.typeKey = some t)
    (hv : d.index.validators.find? (normalizeTypeKey r.typeKey) = some v)
    (hnone : ∀ object, v.violations object = []) : d.Accepts r := by
  have hknown := getType_of_find? ht
  refine ⟨⟨t, hknown⟩, ?_⟩
  simp only [validateValue, hknown, bind, Except.bind, hv, hnone]

theorem violations_empty (object : Json) :
    Validator.violations ⟨.keywords [], [], 1⟩ object = [] := rfl

def sampleFields (a b : String) : Table String :=
  ((Table.empty.insert "ccrn" "t.g/v").insert "a" a).insert "b" b

section

variable {r : Resource} {a b : String} (h : r.fields = sampleFields a b)

include h

theorem typeKey_sample : r.typeKey = "t.g/v" := by
  have hkey : (sampleFields a b).find? typeKeyField = some "t.g/v" := by
    rw [sampleFields, typeKeyField, Table.find?_insert, if_neg (by decide), Table.find?_insert,
      if_neg (by decide), Table.find?_insert_self]
  exact Resource.typeKey_of_find? (h ▸ hkey)

theorem find?_typeKey_sample : (run "g" sampleSteps).index.types.find? r.typeKey =
    some (sampleType "v" (.obj []) sampleTemplate) := by
  rw [typeKey_sample h, find?_types_sample]

theorem accepts_sample : (run "g" sampleSteps).Accepts r := by
  refine accepts_of_violations (find?_typeKey_sample h) ?_ violations_empty
  rw [typeKey_sample h, normalizeTypeKey_sample, find?_validators_sample]

theorem readInput_sample_iff {input : String} :
    (run "g" sampleSteps).readInput input = .ok r ↔
      Urn.parse input sampleTemplate = .ok r ∨ FieldList.parse input = .ok r :=
  have ht := find?_typeKey_sample h
  readInput_eq_ok_iff ht (slash_mem_of_find?_run ht) rfl rfl

/-- The verdict on a URN of the small run. -/
theorem complete_urn_sample {urn : String} {c : Conversion}
    (hparse : (Urn.parse urn sampleTemplate).toOption = some r)
    (hused : r.urnTemplateUsed = sampleTemplate)
    (hconvert : (convertWith r (some sampleTemplate)).toOption = some c) :
    ((run "g" sampleSteps).complete urn).valid = true ∧
      ((run "g" sampleSteps).complete urn).parsed = some r ∧
      ((run "g" sampleSteps).complete urn).conversion = some c := by
  have hr := (readInput_sample_iff h).2 (.inl (eq_ok_of_toOption hparse))
  refine complete_of_accepts hr (accepts_sample h) ?_
  have hne : r.urnTemplateUsed ≠ "" := by
    rw [hused]
    decide +kernel
  rw [convert_of_urnTemplateUsed hne, hused]
  exact eq_ok_of_toOption hconvert

/-- The verdict on a field list of the small run. -/
theorem complete_fieldList_sample {input : String} {c : Conversion}
    (hparse : (FieldList.parse input).toOption = some r) (hused : r.urnTemplateUsed = "")
    (hconvert : (convertWith r (some sampleTemplate)).toOption = some c) :
    ((run "g" sampleSteps).complete input).valid = true ∧
      ((run "g" sampleSteps).complete input).parsed = some r ∧
      ((run "g" sampleSteps).complete input).conversion = some c := by
  have ht := find?_typeKey_sample h
  have hr := (readInput_sample_iff h).2 (.inr (eq_ok_of_toOption hparse))
  refine complete_of_accepts hr (accepts_sample h) ?_
  rw [convert_eq_of_find? hused ht (slash_mem_of_find?_run ht)]
  exact eq_ok_of_toOption hconvert

end

/-! ## Field lists of valid inputs -/

/-- **Conversion to a field list.** The field list of an input names the resource that the input
names exactly if all keys and values are read as they are written. -/
theorem parse_fieldList_complete_iff {input : String} {c : Conversion}
    (hc : (d.complete input).conversion = some c) :
    ∃ r, (d.complete input).parsed = some r ∧
      ((∃ s, FieldList.parse c.fieldList = .ok s ∧ s.fields = r.fields) ↔
        FieldList.Plain r.fields) := by
  obtain ⟨r, hparsed, hr, -, hconvert⟩ := complete_conversion hc
  obtain ⟨key, hkey, hne⟩ := exists_typeKey_of_readInput hr
  refine ⟨r, hparsed, ?_⟩
  rw [fieldList_convert hconvert]
  constructor
  · rintro ⟨s, hs, hfields⟩
    exact FieldList.plain_of_parse_render hs hfields
  · exact fun hplain => FieldList.parse_render_of_plain hplain hkey hne

/-- A comma in a value keeps fields from being read back. -/
example : FieldList.Plain (sampleFields "x" "y") ∧ ¬ FieldList.Plain (sampleFields "x" "y,c=z") := by
  decide +kernel

/-- In the small run, the field list of a URN is read as its resource. -/
theorem parse_fieldList_complete_sample :
    ((run "g" sampleSteps).complete "urn:ccrn:t.g/v/x/y").conversion =
        some ⟨"ccrn=t.g/v, a=x, b=y", some "urn:ccrn:t.g/v/x/y"⟩ ∧
      ∃ r, ((run "g" sampleSteps).complete "urn:ccrn:t.g/v/x/y").parsed = some r ∧
        ((∃ s, FieldList.parse "ccrn=t.g/v, a=x, b=y" = .ok s ∧ s.fields = r.fields) ↔
          FieldList.Plain r.fields) := by
  have hparse : (Urn.parse "urn:ccrn:t.g/v/x/y" sampleTemplate).toOption =
      some ⟨.urn, sampleFields "x" "y", "urn:ccrn:t.g/v/x/y", sampleTemplate⟩ := by
    decide +kernel
  have hconvert : (convertWith ⟨.urn, sampleFields "x" "y", "urn:ccrn:t.g/v/x/y", sampleTemplate⟩
      (some sampleTemplate)).toOption =
        some ⟨"ccrn=t.g/v, a=x, b=y", some "urn:ccrn:t.g/v/x/y"⟩ := by
    decide +kernel
  have hc := (complete_urn_sample rfl hparse rfl hconvert).2.2
  exact ⟨hc, parse_fieldList_complete_iff hc⟩

/-- A comma in a segment of a URN begins another field in the field list. -/
theorem not_forall_parse_fieldList_complete :
    ¬ ∀ (authority : String) (steps : List Step) (input : String) (c : Conversion),
      Format.detect input = .ok .urn →
      ((run authority steps).complete input).valid = true →
      ((run authority steps).complete input).conversion = some c →
      ∃ r s, ((run authority steps).complete input).parsed = some r ∧
        FieldList.parse c.fieldList = .ok s ∧ s.fields = r.fields := by
  intro h
  have hdetect : (Format.detect "urn:ccrn:t.g/v/x/y,c=z").toOption = some .urn := by
    decide +kernel
  have hparse : (Urn.parse "urn:ccrn:t.g/v/x/y,c=z" sampleTemplate).toOption =
      some ⟨.urn, sampleFields "x" "y,c=z", "urn:ccrn:t.g/v/x/y,c=z", sampleTemplate⟩ := by
    decide +kernel
  have hconvert : (convertWith
      ⟨.urn, sampleFields "x" "y,c=z", "urn:ccrn:t.g/v/x/y,c=z", sampleTemplate⟩
      (some sampleTemplate)).toOption =
        some ⟨"ccrn=t.g/v, a=x, b=y,c=z", some "urn:ccrn:t.g/v/x/y,c=z"⟩ := by
    decide +kernel
  obtain ⟨hvalid, hparsed, hc⟩ := complete_urn_sample rfl hparse rfl hconvert
  obtain ⟨r, s, hr, hs, hfields⟩ := h _ _ _ _ (eq_ok_of_toOption hdetect) hvalid hc
  obtain rfl := Option.some.inj (hparsed.symm.trans hr)
  have hread : (FieldList.parse "ccrn=t.g/v, a=x, b=y,c=z").toOption.map
      (·.fields.find? "c") = some (some "z") := by decide +kernel
  have hnone : (sampleFields "x" "y,c=z").find? "c" = none := by decide +kernel
  rw [hs] at hread
  have hfind : s.fields.find? "c" = some "z" := Option.some.inj hread
  rw [hfields, hnone] at hfind
  cases hfind

/-! ## URNs of valid field lists -/

/-- **Conversion to a URN.** The URN of a field list names the resource that the field list names,
as far as the template carries its fields, exactly if the fields suit the template. (A template that
is none of a URN may also write a field list.) -/
theorem validate_urn_complete_iff {authority : String} {steps : List Step} {input urn : String}
    {c : Conversion} (hformat : Format.detect input = .ok .fieldList)
    (hc : ((run authority steps order).complete input).conversion = some c)
    (hurn : c.urn = some urn) :
    ∃ r t, ((run authority steps order).complete input).parsed = some r ∧
      (run authority steps order).index.types.find? r.typeKey = some t ∧
      ((∃ s, ((run authority steps order).validate urn).parsed = some s ∧
          s.fields = r.fields.restrict (Urn.carried t.urnTemplate)) ↔
        (∃ shape : Urn.Shape t.urnTemplate, shape.Suits r.fields) ∨
          startsWith fieldListLead urn ∧ ∃ s, FieldList.parse urn = .ok s ∧
            s.fields = r.fields.restrict (Urn.carried t.urnTemplate)) := by
  obtain ⟨r, hparsed, hr, haccepts, hconvert⟩ := complete_conversion hc
  obtain ⟨t, hknown⟩ := haccepts.known
  have ht := find?_of_getType hknown
  have hslash := slash_mem_of_find?_run ht
  rw [readInput_of_fieldList hformat] at hr
  have hused : r.urnTemplateUsed = "" := by
    obtain ⟨-, _, -, -, -, rfl⟩ := FieldList.parse_eq_ok_iff.1 (eq_ok_of_mapError hr)
    rfl
  obtain ⟨hhas, rfl, hfilled⟩ := urn_convert hused ht hslash hconvert hurn
  refine ⟨r, t, hparsed, ht, ?_⟩
  -- What the URN is read as is read with the template, as both have the same type key.
  have hread : ∀ {s : Resource}, s.fields = r.fields.restrict (Urn.carried t.urnTemplate) →
      (((run authority steps order).validate (Urn.render r.fields t.urnTemplate)).parsed =
          some s ↔
        Urn.parse (Urn.render r.fields t.urnTemplate) t.urnTemplate = .ok s ∨
          FieldList.parse (Urn.render r.fields t.urnTemplate) = .ok s) := fun hfields => by
    rw [parsed_validate_eq_some_iff,
      readInput_eq_ok_iff ht hslash hhas (typeKey_eq_of_restrict hfields)]
  constructor
  · rintro ⟨s, hs, hfields⟩
    rcases (hread hfields).1 hs with hs | hs
    · exact .inl ((Urn.reads_back_iff hfilled).1 ⟨s, hs, hfields⟩)
    · exact .inr ⟨(FieldList.parse_eq_ok_iff.1 hs).1, s, hs, hfields⟩
  · rintro (hsuits | ⟨-, s, hs, hfields⟩)
    · obtain ⟨s, hs, hfields⟩ := (Urn.reads_back_iff hfilled).2 hsuits
      exact ⟨s, (hread hfields).2 (.inl hs), hfields⟩
    · exact ⟨s, (hread hfields).2 (.inr hs), hfields⟩

/-- In the small run, the URN of a field list is read as its resource. -/
theorem validate_urn_complete_sample :
    Format.detect "ccrn=t.g/v, a=x, b=y" = .ok .fieldList ∧
      ((run "g" sampleSteps).complete "ccrn=t.g/v, a=x, b=y").conversion =
        some ⟨"ccrn=t.g/v, a=x, b=y", some "urn:ccrn:t.g/v/x/y"⟩ ∧
      ∃ r t, ((run "g" sampleSteps).complete "ccrn=t.g/v, a=x, b=y").parsed = some r ∧
        (run "g" sampleSteps).index.types.find? r.typeKey = some t ∧
        ((∃ s, ((run "g" sampleSteps).validate "urn:ccrn:t.g/v/x/y").parsed = some s ∧
            s.fields = r.fields.restrict (Urn.carried t.urnTemplate)) ↔
          (∃ shape : Urn.Shape t.urnTemplate, shape.Suits r.fields) ∨
            startsWith fieldListLead "urn:ccrn:t.g/v/x/y" ∧
              ∃ s, FieldList.parse "urn:ccrn:t.g/v/x/y" = .ok s ∧
                s.fields = r.fields.restrict (Urn.carried t.urnTemplate)) := by
  have hdetect : (Format.detect "ccrn=t.g/v, a=x, b=y").toOption = some .fieldList := by
    decide +kernel
  have hparse : (FieldList.parse "ccrn=t.g/v, a=x, b=y").toOption =
      some ⟨.fieldList, sampleFields "x" "y", "ccrn=t.g/v, a=x, b=y", ""⟩ := by
    decide +kernel
  have hconvert : (convertWith ⟨.fieldList, sampleFields "x" "y", "ccrn=t.g/v, a=x, b=y", ""⟩
      (some sampleTemplate)).toOption =
        some ⟨"ccrn=t.g/v, a=x, b=y", some "urn:ccrn:t.g/v/x/y"⟩ := by
    decide +kernel
  have hc := (complete_fieldList_sample rfl hparse rfl hconvert).2.2
  exact ⟨eq_ok_of_toOption hdetect, hc,
    validate_urn_complete_iff (eq_ok_of_toOption hdetect) hc rfl⟩

/-- A slash in a value that does not stand last moves the values behind it. -/
theorem not_forall_validate_urn_complete :
    ¬ ∀ (authority : String) (steps : List Step) (input urn : String) (c : Conversion),
      Format.detect input = .ok .fieldList →
      ((run authority steps).complete input).valid = true →
      ((run authority steps).complete input).conversion = some c → c.urn = some urn →
      ∃ r t s, ((run authority steps).complete input).parsed = some r ∧
        (run authority steps).index.types.find? r.typeKey = some t ∧
        ((run authority steps).validate urn).parsed = some s ∧
        s.fields = r.fields.restrict (Urn.carried t.urnTemplate) := by
  intro h
  have hdetect : (Format.detect "ccrn=t.g/v, a=x/y, b=z").toOption = some .fieldList := by
    decide +kernel
  have hparse : (FieldList.parse "ccrn=t.g/v, a=x/y, b=z").toOption =
      some ⟨.fieldList, sampleFields "x/y" "z", "ccrn=t.g/v, a=x/y, b=z", ""⟩ := by
    decide +kernel
  have hconvert : (convertWith
      ⟨.fieldList, sampleFields "x/y" "z", "ccrn=t.g/v, a=x/y, b=z", ""⟩
      (some sampleTemplate)).toOption =
        some ⟨"ccrn=t.g/v, a=x/y, b=z", some "urn:ccrn:t.g/v/x/y/z"⟩ := by
    decide +kernel
  obtain ⟨hvalid, hparsed, hc⟩ := complete_fieldList_sample rfl hparse rfl hconvert
  obtain ⟨r, t, s, hr, -, hs, hfields⟩ := h _ _ _ _ _ (eq_ok_of_toOption hdetect) hvalid hc rfl
  obtain rfl := Option.some.inj (hparsed.symm.trans hr)
  have hparse' : (Urn.parse "urn:ccrn:t.g/v/x/y/z" sampleTemplate).toOption =
      some ⟨.urn, sampleFields "x" "y/z", "urn:ccrn:t.g/v/x/y/z", sampleTemplate⟩ := by
    decide +kernel
  have hread := (readInput_sample_iff rfl).2 (.inl (eq_ok_of_toOption hparse'))
  obtain rfl := Option.some.inj ((parsed_validate_eq_some_iff.2 hread).symm.trans hs)
  have hb : (sampleFields "x" "y/z").find? "b" = some "y/z" := by decide +kernel
  have hz : (sampleFields "x/y" "z").find? "b" = some "z" := by decide +kernel
  rw [show sampleFields "x" "y/z" = _ from hfields] at hb
  have hfind := (Table.find?_of_find?_restrict hb).2
  rw [hz] at hfind
  exact absurd (Option.some.inj hfind) (by decide)

end ResourceNames.StaticDirectory
