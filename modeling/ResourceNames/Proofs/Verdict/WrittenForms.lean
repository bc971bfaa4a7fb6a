import ResourceNames.Proofs.Name.UrnRoundTrip
import ResourceNames.Proofs.Verdict.Conversion

/-!
# Verdicts on the two written forms

* `judge_eq_of_fields`: the verdict on a resource depends on its fields only.
* `validate_render_eq`: fields that can be read back from their field list and from their URN get
  the same verdict in both forms.
-/

namespace ResourceNames.StaticDirectory

open Text

variable {d : StaticDirectory} {order : TypeIndex.IterationOrder}

/-! ## Resources with the same fields -/

/-- The check of a value looks at its fields only. -/
theorem validateValue_eq_of_fields {r s : Resource} (h : r.fields = s.fields) (key : String) :
    d.validateValue key r = d.validateValue key s := by
  have hobject : r.toObject = s.toObject := by
    unfold Resource.toObject Resource.typeKey
    rw [h]
  unfold validateValue
  rw [hobject]

/-- The verdict on a resource depends on how it was written only in that it names the resource. -/
theorem judge_eq_of_fields {r s : Resource} (h : r.fields = s.fields) :
    d.judge r = (d.judge s).withParsed r := by
  have hkey : r.typeKey = s.typeKey := by
    unfold Resource.typeKey
    rw [h]
  unfold judge
  rw [hkey, validateValue_eq_of_fields h]
  cases d.getType s.typeKey with
  | error e => rfl
  | ok t => cases d.validateValue s.typeKey s <;> rfl

/-! ## Both forms -/

/-- The verdict on what is read as a resource of given fields. -/
theorem validate_of_readInput {input : String} {r : Resource} (h : d.readInput input = .ok r) :
    d.validate input = d.judge r := by
  rw [validate_eq, h]

/-- **Verdicts do not depend on the written form.** If fields of a listed type, and no others than
its URNs carry, can be read back from their URN and from their field list, both are read as these
fields and get the same verdict. -/
theorem validate_render_eq {authority : String} {steps : List Step} {t : TypeDescriptor}
    {layout : Urn.Layout} {fields : Table String} {key : String}
    (ht : t ∈ (run authority steps order).index.types.descriptors)
    (htemplate : t.urnTemplate = layout.text)
    (hkey : fields.find? typeKeyField = some key) (hname : asciiLower key = t.typeKey)
    (hdomain : ∀ name value, fields.find? name = some value → layout.carries name = true)
    (hurn : layout.Readable fields) (hlist : FieldList.Plain fields) :
    let onList := (run authority steps order).validate (FieldList.render fields)
    let onUrn := (run authority steps order).validate (Urn.render fields t.urnTemplate)
    onList.valid = onUrn.valid ∧ onList.reason = onUrn.reason ∧ onList.errors = onUrn.errors ∧
      onList.parsed.map (·.fields) = some fields ∧ onUrn.parsed.map (·.fields) = some fields := by
  obtain ⟨chars, hchars, hfind, -⟩ := hurn.key
  obtain rfl : key = String.ofList chars := Option.some.inj (hkey.symm.trans hfind)
  have hslash : '/' ∈ (String.ofList chars).toList := by
    obtain ⟨_, _, rfl, -⟩ := hchars
    simp
  have hknown := find?_of_asciiLower_eq ht (hlist _ _ hkey).2.trimmed hname
  have hhas : t.hasUrnTemplate = true := by
    unfold TypeDescriptor.hasUrnTemplate
    rw [htemplate]
    exact decide_eq_true layout.text_ne_empty
  -- Both forms are read as resources of the given fields.
  have hne : String.ofList chars ≠ "" := fun he =>
    hchars.ne_nil (by simpa using congrArg String.toList he)
  obtain ⟨r, hr, hrfields⟩ := FieldList.parse_render_of_plain hlist hkey hne
  obtain ⟨s, hs, hsfields⟩ := Urn.Layout.exists_parse_render hurn
  rw [← htemplate] at hs
  rw [Table.restrict_eq_self hdomain] at hsfields
  have htypeKey : ∀ {x : Resource}, x.fields = fields → x.typeKey = String.ofList chars :=
    fun hx => Resource.typeKey_of_find? (hx ▸ hkey)
  have hreadList := (readInput_eq_ok_iff hknown hslash hhas (htypeKey hrfields)).2 (.inr hr)
  have hreadUrn := (readInput_eq_ok_iff hknown hslash hhas (htypeKey hsfields)).2 (.inl hs)
  have hsame : r.fields = s.fields := hrfields.trans hsfields.symm
  simp only [validate_of_readInput hreadList, validate_of_readInput hreadUrn,
    judge_eq_of_fields hsame, parsed_judge]
  exact ⟨rfl, rfl, rfl, congrArg some hrfields, congrArg some hsfields⟩

/-! ## Both forms in the small run -/

theorem first_ne_nil : ['a'] ≠ [] := by simp

theorem first_plain : ∀ c ∈ ['a'], c ≠ '/' ∧ c ≠ '<' ∧ c ≠ '>' := by simp

theorem second_ne_nil : ['b'] ≠ [] := by simp

theorem second_plain : ∀ c ∈ ['b'], c ≠ '/' ∧ c ≠ '<' ∧ c ≠ '>' := by simp

/-- The template of the small run in its parts. -/
def sampleLayout : Urn.Layout where
  head := .key
  tail := [.placeholder ⟨['a'], first_ne_nil, first_plain⟩,
    .placeholder ⟨['b'], second_ne_nil, second_plain⟩]
  distinct := by decide

/-- In the small run, a type key in capitals and a slash at the end are no obstacle. -/
theorem validate_render_sample :
    let fields := ((Table.empty.insert "ccrn" "T.G/V").insert "a" "x").insert "b" "y/z"
    let t := sampleType "v" (.obj []) sampleTemplate
    (t ∈ (run "g" sampleSteps).index.types.descriptors ∧ t.urnTemplate = sampleLayout.text ∧
      fields.find? typeKeyField = some "T.G/V" ∧ asciiLower "T.G/V" = t.typeKey ∧
      (∀ name value, fields.find? name = some value → sampleLayout.carries name = true) ∧
      sampleLayout.Readable fields ∧ FieldList.Plain fields) ∧
    let onList := (run "g" sampleSteps).validate (FieldList.render fields)
    let onUrn := (run "g" sampleSteps).validate (Urn.render fields t.urnTemplate)
    onList.valid = onUrn.valid ∧ onList.reason = onUrn.reason ∧ onList.errors = onUrn.errors ∧
      onList.parsed.map (·.fields) = some fields ∧ onUrn.parsed.map (·.fields) = some fields := by
  intro fields t
  have ht : t ∈ (run "g" sampleSteps).index.types.descriptors := by
    have hfind := find?_types_sample
    exact List.mem_map.2 ⟨_, (Table.mem_entries_iff _ _ _).2 hfind, rfl⟩
  have htemplate : t.urnTemplate = sampleLayout.text := by decide +kernel
  have hkey : fields.find? typeKeyField = some "T.G/V" := by decide +kernel
  have hname : asciiLower "T.G/V" = t.typeKey := by decide +kernel
  have hdomain : ∀ name value, fields.find? name = some value →
      sampleLayout.carries name = true := by
    intro name value h
    have hmem := (Table.mem_entries_iff _ _ _).2 h
    have hall : ∀ e ∈ fields.entries, sampleLayout.carries e.1 = true := by decide +kernel
    exact hall _ hmem
  have ha : fields.find? "a" = some "x" := by decide +kernel
  have hb : fields.find? "b" = some "y/z" := by decide +kernel
  have hurn : sampleLayout.Readable fields :=
    { key := ⟨"T.G/V".toList, ⟨"T.G".toList, ['V'], by decide +kernel⟩,
        by rwa [String.ofList_toList], fun _ _ h => by cases h⟩
      bound := by
        have hnames : sampleLayout.placeholders = ["a", "b"] := by decide +kernel
        rw [hnames]
        simp [ha, hb]
      slashes := by
        intro name hname v hv hslash
        rcases List.mem_pair.1 hname with h | h
        · cases h
          obtain rfl := Option.some.inj (ha.symm.trans hv)
          exact absurd hslash (by decide)
        · rw [h]
          rfl }
  have hlist : FieldList.Plain fields := by decide +kernel
  exact ⟨⟨ht, htemplate, hkey, hname, hdomain, hurn, hlist⟩,
    validate_render_eq ht htemplate hkey hname hdomain hurn hlist⟩

end ResourceNames.StaticDirectory
