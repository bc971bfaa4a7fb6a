import ResourceNames.Proofs.Verdict.Consistency

/-!
# Verdicts of static directories

A static directory stays as it is while it gives a verdict, so a verdict is a function of the
directory and the input.

* `run_complete`: how a verdict with both written forms comes about.
* `complete_conversion`, `complete_of_accepts`: when a verdict holds both written forms.
-/

namespace ResourceNames.StaticDirectory

variable (d : StaticDirectory)

/-! ## Reading -/

/-- How a static directory reads a URN. -/
def readUrn (input : String) : Except Verdict Resource :=
  match Urn.parseTypeKey input with
  | .error e => .error (.ofParseError e)
  | .ok key =>
    match d.getUrnTemplate (splitTypeKey key).1 (splitTypeKey key).2 with
    | .error e => .error (.ofLookupFailure key e)
    | .ok template => (Urn.parse input template).mapError .ofParseError

theorem run_readUrn (input : String) :
    (ResourceNames.readUrn input : StateM StaticDirectory _).run d = (d.readUrn input, d) := by
  rw [TypeDirectory.run_readUrn, StaticDirectory.readUrn]
  cases Urn.parseTypeKey input with
  | error e => rfl
  | ok key =>
    simp only [run_getUrnTemplate]
    cases d.getUrnTemplate (splitTypeKey key).1 (splitTypeKey key).2 <;> rfl

/-- How a static directory reads an input. -/
def readInput (input : String) : Except Verdict Resource :=
  match Format.detect input with
  | .error e => .error (.ofParseError e)
  | .ok .fieldList => (FieldList.parse input).mapError .ofParseError
  | .ok .urn => d.readUrn input

theorem run_readInput (input : String) :
    (ResourceNames.readInput input "" : StateM StaticDirectory _).run d =
      (d.readInput input, d) := by
  rw [TypeDirectory.run_readInput, StaticDirectory.readInput, if_pos rfl, run_readUrn]
  cases Format.detect input with
  | error e => rfl
  | ok format => cases format <;> rfl

/-! ## Verdicts -/

/-- The verdict of a static directory on a resource. -/
def judge (r : Resource) : Verdict :=
  match d.getType r.typeKey with
  | .error e => (Verdict.ofLookupFailure r.typeKey e).withParsed r
  | .ok _ =>
    match d.validateValue r.typeKey r with
    | .error e => (Verdict.rejected (.ofDirectoryError e) e.message).withParsed r
    | .ok _ => .accepted r

theorem run_judge (r : Resource) :
    (ResourceNames.judge r : StateM StaticDirectory _).run d = (d.judge r, d) := by
  rw [TypeDirectory.run_judge, StaticDirectory.judge, run_getType]
  cases d.getType r.typeKey with
  | error e => rfl
  | ok t =>
    simp only [run_validateValue]
    cases d.validateValue r.typeKey r <;> rfl

/-- The verdict names the resource that was judged. -/
theorem parsed_judge (r : Resource) : (d.judge r).parsed = some r := by
  have h := TypeDirectory.parsed_judge d r
  rwa [run_judge] at h

/-- The verdict of a static directory on an input. -/
def validate (input : String) : Verdict :=
  ((ResourceNames.validate input : StateM StaticDirectory _).run d).1

theorem run_validate (input : String) :
    (ResourceNames.validate input : StateM StaticDirectory _).run d =
      (match d.readInput input with
        | .error verdict => verdict
        | .ok r => d.judge r, d) := by
  unfold ResourceNames.validate
  rw [TypeDirectory.run_validateWithTemplate, run_readInput]
  cases d.readInput input with
  | error verdict => rfl
  | ok r => exact d.run_judge r

/-! ## Conversions -/

/-- The template for the URN of a resource. -/
def conversionTemplate (r : Resource) : Except DirectoryError (Option String) :=
  if r.urnTemplateUsed = "" then
    match d.getUrnTemplate r.typeName r.version with
    | .ok template => .ok (some template)
    | .error (.templateNotFound ..) => .ok none
    | .error e => .error e
  else .ok (some r.urnTemplateUsed)

theorem run_conversionTemplate (r : Resource) :
    (ResourceNames.conversionTemplate r : Lookup StaticDirectory _).run.run d =
      (d.conversionTemplate r, d) := by
  unfold ResourceNames.conversionTemplate conversionTemplate
  by_cases h : r.urnTemplateUsed = ""
  · rw [if_pos h, if_pos h, Lookup.run_tryCatch, Lookup.run_map, run_getUrnTemplate]
    cases d.getUrnTemplate r.typeName r.version with
    | ok template => rfl
    | error e => cases e <;> rfl
  · rw [if_neg h, if_neg h]
    rfl

/-- Both written forms of a resource. -/
def convert (r : Resource) : Except DirectoryError Conversion :=
  match d.conversionTemplate r with
  | .ok template => convertWith r template
  | .error e => .error e

theorem run_convert (r : Resource) :
    (ResourceNames.convert r : Lookup StaticDirectory _).run.run d = (d.convert r, d) := by
  unfold ResourceNames.convert convert
  rw [Lookup.run_bind, run_conversionTemplate]
  cases d.conversionTemplate r with
  | ok template => exact Lookup.run_liftExcept _ d
  | error e => rfl

/-- The verdict of a static directory on an input, with both written forms. -/
def complete (input : String) : Verdict :=
  ((ResourceNames.complete input : StateM StaticDirectory _).run d).1

theorem run_complete (input : String) :
    (ResourceNames.complete input : StateM StaticDirectory _).run d =
      (match (d.validate input).valid, (d.validate input).parsed with
        | true, some r => (d.validate input).withConversion r (d.convert r)
        | _, _ => d.validate input, d) := by
  have h : (ResourceNames.validate input : StateM StaticDirectory _).run d =
      (d.validate input, d) := Prod.ext rfl (by rw [run_validate])
  unfold ResourceNames.complete
  rw [Lookup.run_state_bind, h]
  simp only
  cases (d.validate input).valid with
  | false => rfl
  | true =>
    cases (d.validate input).parsed with
    | none => rfl
    | some r =>
      simp only [Lookup.run_state_bind, run_convert]
      rfl

/-! ## What verdicts say -/

variable {d}

/-- An input that is not read is rejected. -/
theorem exists_rejected_of_readInput {input : String} {verdict : Verdict}
    (h : d.readInput input = .error verdict) :
    ∃ reason error, verdict = .rejected reason error :=
  TypeDirectory.exists_rejected_of_readInput ((d.run_readInput input).trans (by rw [h]))

theorem validate_eq (input : String) :
    d.validate input =
      match d.readInput input with
      | .error verdict => verdict
      | .ok r => d.judge r := by
  unfold validate
  rw [run_validate]

/-- A verdict holds what was read. -/
theorem parsed_validate_eq_some_iff {input : String} {r : Resource} :
    (d.validate input).parsed = some r ↔ d.readInput input = .ok r := by
  rw [validate_eq]
  cases hr : d.readInput input with
  | error verdict =>
    obtain ⟨_, _, rfl⟩ := exists_rejected_of_readInput hr
    constructor <;> intro h <;> cases h
  | ok s => simp only [parsed_judge, Option.some.injEq, Except.ok.injEq]

/-- What is known of a resource that a directory accepts. -/
structure Accepts (d : StaticDirectory) (r : Resource) : Prop where
  known : ∃ t, d.getType r.typeKey = .ok t
  checked : d.validateValue r.typeKey r = .ok ()

theorem accepts_of_valid {input : String} {r : Resource} (hr : d.readInput input = .ok r)
    (h : (d.validate input).valid = true) : d.Accepts r := by
  simp only [validate_eq, hr, judge] at h
  split at h
  · unfold Verdict.ofLookupFailure at h
    split at h <;> cases h
  · rename_i t ht
    split at h
    · cases h
    · rename_i hcheck
      exact ⟨⟨t, ht⟩, hcheck⟩

theorem conversion_validate (input : String) : (d.validate input).conversion = none :=
  (consistent_validateWithTemplate d input "").no_conversion

/-- A verdict with both written forms is about the resource that the input was read as. -/
theorem complete_conversion {input : String} {c : Conversion}
    (h : (d.complete input).conversion = some c) :
    ∃ r, (d.complete input).parsed = some r ∧ d.readInput input = .ok r ∧ d.Accepts r ∧
      d.convert r = .ok c := by
  unfold complete at h ⊢
  rw [run_complete] at h ⊢
  have hnone := d.conversion_validate input
  cases hvalid : (d.validate input).valid with
  | false =>
    simp only [hvalid, hnone] at h
    cases h
  | true =>
    cases hparsed : (d.validate input).parsed with
    | none =>
      simp only [hvalid, hparsed, hnone] at h
      cases h
    | some r =>
      simp only [hvalid, hparsed] at h ⊢
      have hr := parsed_validate_eq_some_iff.1 hparsed
      cases hc : d.convert r with
      | error e =>
        simp only [hc, Verdict.withConversion, hnone] at h
        cases h
      | ok c' =>
        simp only [hc, Verdict.withConversion] at h ⊢
        cases h
        exact ⟨r, hparsed, hr, accepts_of_valid hr hvalid, hc⟩

theorem validate_of_accepts {input : String} {r : Resource} (hr : d.readInput input = .ok r)
    (h : d.Accepts r) : d.validate input = .accepted r := by
  obtain ⟨t, ht⟩ := h.known
  simp only [validate_eq, hr, judge, ht, h.checked]

/-- An accepted resource gets its written forms if it has them. -/
theorem complete_of_accepts {input : String} {r : Resource} {c : Conversion}
    (hr : d.readInput input = .ok r) (h : d.Accepts r) (hc : d.convert r = .ok c) :
    (d.complete input).valid = true ∧ (d.complete input).parsed = some r ∧
      (d.complete input).conversion = some c := by
  have hv := validate_of_accepts hr h
  have hparsed : (d.validate input).parsed = some r := by rw [hv]; rfl
  have hvalid : (d.validate input).valid = true := by rw [hv]; rfl
  unfold complete
  rw [run_complete]
  simp only [hvalid, hparsed, hc, Verdict.withConversion, and_self]

end ResourceNames.StaticDirectory
