import ResourceNames.Proofs.Verdict.UnknownTypes

/-!
# One type in a whole verdict

A verdict asks for the type of an input several times: for the template to read a URN with, for the
type itself, for the check of the resource, and for its conversion.

* `exists_type_of_readUrn`: a URN that is read, and not rejected for its type, is read with the
  template of its type.
* `convert_of_find?`: a resource of a type is converted with the template of that type.
* `verdict_of_one_type`: all questions are answered from one descriptor.
-/

namespace ResourceNames

/-- The template of a type's URNs, if they have one. -/
def TypeDescriptor.urnTemplate? (t : TypeDescriptor) : Option String :=
  if t.hasUrnTemplate then some t.urnTemplate else none

theorem TypeDescriptor.urnTemplate?_eq_none_iff {t : TypeDescriptor} :
    t.urnTemplate? = none ↔ t.urnTemplate = "" := by
  simp [urnTemplate?, hasUrnTemplate]

theorem TypeDescriptor.urnTemplate?_eq_some_iff {t : TypeDescriptor} {template : String} :
    t.urnTemplate? = some template ↔ t.urnTemplate = template ∧ template ≠ "" := by
  simp only [urnTemplate?, hasUrnTemplate, ne_eq, decide_not, Bool.not_eq_true',
    decide_eq_false_iff_not, Option.ite_none_right_eq_some, Option.some.injEq]
  constructor
  · rintro ⟨hne, rfl⟩
    exact ⟨rfl, hne⟩
  · rintro ⟨rfl, hne⟩
    exact ⟨hne, rfl⟩

/-! ## Conversions with a template -/

theorem toUrn?_of_ne {r : Resource} {template : String} (h : template ≠ "") :
    r.toUrn? template = some (Urn.render r.fields template) := by
  simp [Resource.toUrn?, h]

/-- A conversion with a template lacks nothing but values for placeholders. -/
theorem exists_placeholders_of_convertWith {r : Resource} {template : Option String}
    {e : DirectoryError} (h : convertWith r template = .error e) :
    ∃ names, e = .incompleteConversion r.rawInput names := by
  unfold convertWith at h
  split at h
  · cases h
  · simp only at h
    split at h
    · cases h
    · cases h
      exact ⟨_, rfl⟩

/-- The URN of a conversion is rendered with its template. -/
theorem urn_of_convertWith {r : Resource} {template : Option String} {c : Conversion}
    (h : convertWith r template = .ok c) (hne : template ≠ some "") :
    c.urn = template.map (Urn.render r.fields) := by
  unfold convertWith at h
  split at h
  · cases h
    rfl
  · rename_i template
    have htemplate : template ≠ "" := fun he => hne (congrArg some he)
    simp only [toUrn?_of_ne htemplate] at h
    split at h
    · cases h
      rfl
    · cases h

namespace StaticDirectory

variable {d : StaticDirectory} {order : TypeIndex.IterationOrder}

/-! ## Checks as one of a type -/

/-- The check of a resource as one of a type. -/
def checkAs (d : StaticDirectory) (t : TypeDescriptor) (r : Resource) :
    Except DirectoryError Unit :=
  match d.index.validators.find? t.typeKey with
  | none => .error (.noValidator t.typeKey)
  | some validator =>
    let object := r.toObject validationNamespace s!"{Text.lower t.kind}-validation"
    match validator.violations object with
    | [] => .ok ()
    | found => .error (.schemaViolation t.typeKey ("; ".intercalate (found.map violationText)))

/-- The verdict on a resource that is one of a type. -/
def judgeAs (d : StaticDirectory) (t : TypeDescriptor) (r : Resource) : Verdict :=
  match d.checkAs t r with
  | .error e => (Verdict.rejected (.ofDirectoryError e) e.message).withParsed r
  | .ok _ => .accepted r

theorem validateValue_eq_checkAs {t : TypeDescriptor} {key : String} {r : Resource}
    (ht : d.index.types.find? key = some t) (hkey : t.typeKey = normalizeTypeKey key) :
    d.validateValue key r = d.checkAs t r := by
  unfold validateValue checkAs
  rw [getType_of_find? ht, hkey]
  rfl

theorem judge_eq_judgeAs {t : TypeDescriptor} {r : Resource}
    (ht : d.index.types.find? r.typeKey = some t)
    (hkey : t.typeKey = normalizeTypeKey r.typeKey) : d.judge r = d.judgeAs t r := by
  have hvalue : d.validateValue r.typeKey r = d.checkAs t r := validateValue_eq_checkAs ht hkey
  unfold judge judgeAs
  cases hcheck : d.checkAs t r with
  | error e => simp only [getType_of_find? ht, hvalue, hcheck]
  | ok u => simp only [getType_of_find? ht, hvalue, hcheck]

/-! ## Reading -/

/-- A URN that is read, and whose type is known, is read with the template of that type. -/
theorem exists_type_of_readUrn {input : String} {r : Resource} (hr : d.readUrn input = .ok r)
    (hknown : d.index.types.find? r.typeKey ≠ none) :
    ∃ t, Urn.parseTypeKey input = .ok r.typeKey ∧ d.index.types.find? r.typeKey = some t ∧
      t.urnTemplate? = some r.urnTemplateUsed := by
  obtain ⟨key, template, hkey, htemplate, hparse⟩ := exists_template_of_readUrn hr
  obtain ⟨reading, rfl⟩ := Urn.parse_eq_ok_iff.1 hparse
  obtain rfl : String.ofList reading.key = key :=
    Except.ok.inj (reading.parseTypeKey.symm.trans hkey)
  -- The key of the reading is the one that its template was looked up for.
  rw [reading.typeKey_eq] at hknown ⊢
  obtain ⟨t, ht⟩ := Option.ne_none_iff_exists'.1 hknown
  refine ⟨t, hkey, ht, ?_⟩
  rw [getUrnTemplate_of_find? ht (slash_mem_of_reading reading)] at htemplate
  by_cases hhas : t.hasUrnTemplate = true
  · rw [if_pos hhas] at htemplate
    obtain rfl := Except.ok.inj htemplate
    exact if_pos hhas
  · rw [if_neg hhas] at htemplate
    cases htemplate

theorem urnTemplateUsed_of_parse_fieldList {input : String} {r : Resource}
    (h : FieldList.parse input = .ok r) : r.urnTemplateUsed = "" := by
  obtain ⟨-, _, -, -, -, rfl⟩ := FieldList.parse_eq_ok_iff.1 h
  rfl

/-- What an input of a known type is read with: nothing, or the template of that type. -/
theorem urnTemplateUsed_of_readInput {input : String} {r : Resource} {t : TypeDescriptor}
    (hr : d.readInput input = .ok r) (ht : d.index.types.find? r.typeKey = some t) :
    r.urnTemplateUsed = "" ∨ t.urnTemplate? = some r.urnTemplateUsed := by
  cases hdetect : Format.detect input with
  | error e => simp [readInput, hdetect] at hr
  | ok format =>
    cases format with
    | fieldList =>
      rw [readInput_of_fieldList hdetect] at hr
      exact .inl (urnTemplateUsed_of_parse_fieldList (eq_ok_of_mapError hr))
    | urn =>
      rw [readInput_of_urn hdetect] at hr
      obtain ⟨u, -, hu, htemplate⟩ := exists_type_of_readUrn hr (by simp [ht])
      obtain rfl := Option.some.inj (ht.symm.trans hu)
      exact .inr htemplate

/-! ## Converting -/

/-- A resource that was read with nothing else than the template of its type is converted with that
template. -/
theorem convert_of_find? {r : Resource} {t : TypeDescriptor}
    (ht : d.index.types.find? r.typeKey = some t) (hslash : '/' ∈ r.typeKey.toList)
    (hused : r.urnTemplateUsed = "" ∨ t.urnTemplate? = some r.urnTemplateUsed) :
    d.convert r = convertWith r t.urnTemplate? := by
  rcases hused with hused | hused
  · exact convert_eq_of_find? hused ht hslash
  · have hne := (TypeDescriptor.urnTemplate?_eq_some_iff.1 hused).2
    rw [convert_of_urnTemplateUsed hne, hused]

/-! ## Verdicts -/

/-- A valid input was read. -/
theorem exists_readInput_of_valid {input : String} (h : (d.validate input).valid = true) :
    ∃ r, d.readInput input = .ok r := by
  rw [validate_eq] at h
  cases hr : d.readInput input with
  | ok r => exact ⟨r, rfl⟩
  | error verdict =>
    obtain ⟨_, _, rfl⟩ := exists_rejected_of_readInput hr
    rw [hr] at h
    cases h

theorem validate_eq_judgeAs {authority : String} {steps : List Step} {input : String}
    {r : Resource} {t : TypeDescriptor}
    (hr : (run authority steps order).readInput input = .ok r)
    (ht : (run authority steps order).index.types.find? r.typeKey = some t) :
    (run authority steps order).validate input = (run authority steps order).judgeAs t r := by
  rw [validate_eq, hr]
  exact judge_eq_judgeAs ht (typeKey_of_find?_run ht)

/-- **One type in a whole verdict.** A URN that is read, and that is not rejected for its type, is
read with the template of the descriptor that its type key finds, and checked as one of that type.
A valid input of either form is converted with the template of the descriptor that it was checked
for: this lacks at most values for placeholders, and gives no URN exactly if the template is
empty. -/
theorem verdict_of_one_type (authority : String) (steps : List Step) :
    let d := run authority steps order
    (∀ input r, Format.detect input = .ok .urn → (d.validate input).parsed = some r →
      (d.validate input).reason ≠ some .unsupportedType →
      ∃ t, Urn.parseTypeKey input = .ok r.typeKey ∧ d.index.types.find? r.typeKey = some t ∧
        r.urnTemplateUsed = t.urnTemplate ∧ d.validate input = d.judgeAs t r) ∧
    ∀ input, (d.validate input).valid = true →
      ∃ r t result, (d.validate input).parsed = some r ∧
        d.index.types.find? r.typeKey = some t ∧ d.validate input = d.judgeAs t r ∧
        (ResourceNames.convert r : Lookup StaticDirectory _).run.run d = (result, d) ∧
        (∀ e, result = .error e → ∃ names, e = .incompleteConversion r.rawInput names) ∧
        ∀ c, result = .ok c → (c.urn = none ↔ t.urnTemplate = "") ∧
          ∀ urn, c.urn = some urn → urn = Urn.render r.fields t.urnTemplate := by
  intro d
  refine ⟨fun input r hdetect hparsed hreason => ?_, fun input hvalid => ?_⟩
  · have hr := parsed_validate_eq_some_iff.1 hparsed
    have hknown : d.index.types.find? r.typeKey ≠ none := by
      rw [validate_eq, hr] at hreason
      exact fun hmiss => hreason (reason_judge_eq_iff.2 hmiss)
    obtain ⟨t, hkey, ht, htemplate⟩ :=
      exists_type_of_readUrn (readInput_of_urn hdetect ▸ hr) hknown
    exact ⟨t, hkey, ht, (TypeDescriptor.urnTemplate?_eq_some_iff.1 htemplate).1.symm,
      validate_eq_judgeAs hr ht⟩
  · obtain ⟨r, hr⟩ := exists_readInput_of_valid hvalid
    obtain ⟨t, hknown⟩ := (accepts_of_valid hr hvalid).known
    have ht := find?_of_getType hknown
    have hconvert := convert_of_find? ht (slash_mem_of_find?_run ht)
      (urnTemplateUsed_of_readInput hr ht)
    refine ⟨r, t, d.convert r, parsed_validate_eq_some_iff.2 hr, ht, validate_eq_judgeAs hr ht,
      d.run_convert r, fun e he => exists_placeholders_of_convertWith (hconvert ▸ he),
      fun c hc => ?_⟩
    have hne : t.urnTemplate? ≠ some "" := fun h =>
      (TypeDescriptor.urnTemplate?_eq_some_iff.1 h).2 rfl
    have hurn := urn_of_convertWith (hconvert ▸ hc) hne
    rw [hurn, Option.map_eq_none_iff, TypeDescriptor.urnTemplate?_eq_none_iff]
    refine ⟨Iff.rfl, fun urn h => ?_⟩
    obtain ⟨template, htemplate, rfl⟩ := Option.map_eq_some_iff.1 h
    rw [(TypeDescriptor.urnTemplate?_eq_some_iff.1 htemplate).1]

/-- In the small run, a URN and a field list of the listed type are valid. -/
theorem verdict_of_one_type_sample :
    let d := run "g" sampleSteps
    let r : Resource := ⟨.urn, sampleFields "x" "y", "urn:ccrn:t.g/v/x/y", sampleTemplate⟩
    (Format.detect "urn:ccrn:t.g/v/x/y" = .ok .urn ∧
      (d.validate "urn:ccrn:t.g/v/x/y").parsed = some r ∧
      (d.validate "urn:ccrn:t.g/v/x/y").reason ≠ some .unsupportedType ∧
      ∃ t, Urn.parseTypeKey "urn:ccrn:t.g/v/x/y" = .ok r.typeKey ∧
        d.index.types.find? r.typeKey = some t ∧ r.urnTemplateUsed = t.urnTemplate ∧
        d.validate "urn:ccrn:t.g/v/x/y" = d.judgeAs t r) ∧
    (d.validate "ccrn=t.g/v, a=x, b=y").valid = true ∧
      ∃ s t result, (d.validate "ccrn=t.g/v, a=x, b=y").parsed = some s ∧
        d.index.types.find? s.typeKey = some t ∧
        (ResourceNames.convert s : Lookup StaticDirectory _).run.run d = (result, d) ∧
        ∀ c urn, result = .ok c → c.urn = some urn → urn = Urn.render s.fields t.urnTemplate := by
  intro d r
  have hdetect : (Format.detect "urn:ccrn:t.g/v/x/y").toOption = some .urn := by decide +kernel
  have hurn : (Urn.parse "urn:ccrn:t.g/v/x/y" sampleTemplate).toOption = some r := by
    decide +kernel
  have hlist : (FieldList.parse "ccrn=t.g/v, a=x, b=y").toOption =
      some ⟨.fieldList, sampleFields "x" "y", "ccrn=t.g/v, a=x, b=y", ""⟩ := by
    decide +kernel
  have honUrn : d.validate "urn:ccrn:t.g/v/x/y" = .accepted r := validate_of_accepts
    ((readInput_sample_iff rfl).2 (.inl (eq_ok_of_toOption hurn))) (accepts_sample rfl)
  have honList := validate_of_accepts
    ((readInput_sample_iff rfl).2 (.inr (eq_ok_of_toOption hlist))) (accepts_sample rfl)
  have hparsed : (d.validate "urn:ccrn:t.g/v/x/y").parsed = some r := by rw [honUrn]; rfl
  have hreason : (d.validate "urn:ccrn:t.g/v/x/y").reason ≠ some .unsupportedType := by
    rw [honUrn]
    exact nofun
  have hvalid : (d.validate "ccrn=t.g/v, a=x, b=y").valid = true := congrArg Verdict.valid honList
  obtain ⟨hread, hconverted⟩ := verdict_of_one_type "g" sampleSteps
  obtain ⟨s, t, result, hs, ht, -, hrun, -, hurns⟩ := hconverted _ hvalid
  exact ⟨⟨eq_ok_of_toOption hdetect, hparsed, hreason,
    hread _ r (eq_ok_of_toOption hdetect) hparsed hreason⟩, hvalid, s, t, result, hs, ht, hrun,
    fun c urn hc => (hurns c hc).2 urn⟩

end StaticDirectory

end ResourceNames
