import ResourceNames.Command.Directory
import ResourceNames.Proofs.Name.FieldListReading
import ResourceNames.Proofs.Name.UrnReading
import ResourceNames.Proofs.Verdict.Steps

/-!
# Consistent verdicts

The parts of a verdict fit together, whatever the directory answers, and written forms add to a
verdict without changing it.

* `exists_typeKey_of_readInput`: what is read has a type key.
* `consistent_validateWithTemplate`, `parsed_validateWithTemplate_eq_none_iff`: what holds of every
  verdict.
* `completes_complete`: what written forms add.
* `verdict_consistent`: both, and that the commands `validate` and `convert` end alike.
-/

namespace ResourceNames

/-! ## Type keys of what is read -/

theorem Urn.exists_typeKey_of_parse {input template : String} {r : Resource}
    (h : parse input template = .ok r) :
    ∃ key, r.fields.find? typeKeyField = some key ∧ key ≠ "" := by
  obtain ⟨reading, rfl⟩ := parse_eq_ok_iff.1 h
  refine ⟨_, find?_typeKeyField_fieldsOf _ reading.no_key, fun he => ?_⟩
  exact reading.isKey.ne_nil (by simpa using congrArg String.toList he)

theorem FieldList.exists_typeKey_of_parse {input : String} {r : Resource}
    (h : parse input = .ok r) : ∃ key, r.fields.find? typeKeyField = some key ∧ key ≠ "" := by
  obtain ⟨-, entries, -, -, hkey, rfl⟩ := parse_eq_ok_iff.1 h
  exact hkey

variable {σ : Type} [TypeDirectory σ]

/-- What is read has a type key. -/
theorem exists_typeKey_of_readInput {s s' : σ} {input template : String} {r : Resource}
    (h : (readInput input template : StateM σ _).run s = (.ok r, s')) :
    ∃ key, r.fields.find? typeKeyField = some key ∧ key ≠ "" := by
  obtain h | ⟨_, h⟩ := TypeDirectory.parse_of_readInput h
  · exact FieldList.exists_typeKey_of_parse h
  · exact Urn.exists_typeKey_of_parse h

/-! ## Verdicts -/

/-- The parts of a verdict fit together, and no written forms were tried. -/
structure Verdict.Consistent (v : Verdict) : Prop where
  valid_iff_reason : v.valid = true ↔ v.reason = none
  valid_iff_errors : v.valid = true ↔ v.errors = []
  one_error : v.valid = false → ∃ error, v.errors = [error]
  typeKey : v.valid = true →
    ∃ r key, v.parsed = some r ∧ r.fields.find? typeKeyField = some key ∧ key ≠ ""
  no_warnings : v.warnings = []
  no_conversion : v.conversion = none

namespace Verdict

theorem consistent_rejected (reason : Reason) (error : String) :
    (rejected reason error).Consistent where
  valid_iff_reason := by simp [rejected]
  valid_iff_errors := by simp [rejected]
  one_error _ := ⟨error, rfl⟩
  typeKey h := by cases h
  no_warnings := rfl
  no_conversion := rfl

theorem consistent_accepted {r : Resource}
    (h : ∃ key, r.fields.find? typeKeyField = some key ∧ key ≠ "") : (accepted r).Consistent where
  valid_iff_reason := by simp [accepted]
  valid_iff_errors := by simp [accepted]
  one_error h := by cases h
  typeKey _ := by
    obtain ⟨key, hkey⟩ := h
    exact ⟨r, key, rfl, hkey⟩
  no_warnings := rfl
  no_conversion := rfl

theorem Consistent.withParsed {v : Verdict} (h : v.Consistent) (hvalid : v.valid = false)
    (r : Resource) : (v.withParsed r).Consistent where
  valid_iff_reason := h.valid_iff_reason
  valid_iff_errors := h.valid_iff_errors
  one_error := h.one_error
  typeKey hv := by cases hvalid.symm.trans hv
  no_warnings := h.no_warnings
  no_conversion := h.no_conversion

theorem consistent_ofLookupFailure (key : String) (e : DirectoryError) :
    (ofLookupFailure key e).Consistent := by
  obtain ⟨reason, error, h⟩ := exists_rejected_ofLookupFailure key e
  rw [h]
  exact consistent_rejected reason error

end Verdict

theorem consistent_judge (s : σ) {r : Resource}
    (h : ∃ key, r.fields.find? typeKeyField = some key ∧ key ≠ "") :
    ((judge r : StateM σ _).run s).1.Consistent := by
  rw [TypeDirectory.run_judge]
  split
  · exact (Verdict.consistent_ofLookupFailure _ _).withParsed (valid_ofLookupFailure _ _) r
  · split
    · exact (Verdict.consistent_rejected _ _).withParsed rfl r
    · exact Verdict.consistent_accepted h

theorem consistent_validateWithTemplate (s : σ) (input template : String) :
    ((validateWithTemplate input template : StateM σ _).run s).1.Consistent := by
  rw [TypeDirectory.run_validateWithTemplate]
  rcases hread : (readInput input template : StateM σ _).run s with ⟨verdict | r, s'⟩
  · obtain ⟨reason, error, rfl⟩ := TypeDirectory.exists_rejected_of_readInput hread
    exact Verdict.consistent_rejected reason error
  · exact consistent_judge s' (exists_typeKey_of_readInput hread)

/-- A verdict without a resource says why the input was not read. -/
theorem parsed_validateWithTemplate_eq_none_iff (s : σ) (input template : String) :
    ((validateWithTemplate input template : StateM σ _).run s).1.parsed = none ↔
      ∃ s', (readInput input template : StateM σ _).run s =
        (.error ((validateWithTemplate input template : StateM σ _).run s).1, s') := by
  rw [TypeDirectory.run_validateWithTemplate]
  rcases hread : (readInput input template : StateM σ _).run s with ⟨verdict | r, s'⟩
  · obtain ⟨reason, error, rfl⟩ := TypeDirectory.exists_rejected_of_readInput hread
    exact iff_of_true rfl ⟨s', rfl⟩
  · simp only [TypeDirectory.parsed_judge, reduceCtorEq, false_iff, not_exists]
    intro t ht
    cases congrArg Prod.fst ht

/-! ## Written forms -/

/-- A verdict `c` is `v` with what became of the written forms. -/
structure Verdict.Completes (c v : Verdict) : Prop where
  valid : c.valid = v.valid
  parsed : c.parsed = v.parsed
  errors : c.errors = v.errors
  reason : c.reason = v.reason
  conversion : c.conversion ≠ none → c.valid = true
  warnings : c.warnings.length =
    if c.valid = true ∧ c.conversion.bind (·.urn) = none then 1 else 0

namespace Verdict

variable {v : Verdict}

theorem Consistent.completes_self (h : v.Consistent) (hvalid : v.valid = false) :
    v.Completes v where
  valid := rfl
  parsed := rfl
  errors := rfl
  reason := rfl
  conversion hc := absurd h.no_conversion hc
  warnings := by simp [h.no_warnings, hvalid]

theorem Consistent.completes_withConversion (h : v.Consistent) (hvalid : v.valid = true)
    (r : Resource) (result : Except DirectoryError Conversion) :
    (v.withConversion r result).Completes v := by
  cases result with
  | error e =>
    exact
      { valid := rfl, parsed := rfl, errors := rfl, reason := rfl
        conversion := fun _ => hvalid
        warnings := by simp [withConversion, h.no_warnings, h.no_conversion, hvalid] }
  | ok c =>
    refine ⟨rfl, rfl, rfl, rfl, fun _ => hvalid, ?_⟩
    cases hurn : c.urn <;> simp [withConversion, h.no_warnings, hvalid, hurn]

end Verdict

theorem completes_complete (s : σ) (input : String) :
    ((complete input : StateM σ _).run s).1.Completes
      ((validate input : StateM σ _).run s).1 := by
  have hconsistent : ((validate input : StateM σ _).run s).1.Consistent :=
    consistent_validateWithTemplate s input ""
  cases hvalid : ((validate input : StateM σ _).run s).1.valid with
  | false =>
    rw [TypeDirectory.run_complete_of_invalid s input hvalid]
    exact hconsistent.completes_self hvalid
  | true =>
    obtain ⟨r, _, hparsed, -, -⟩ := hconsistent.typeKey hvalid
    rw [TypeDirectory.run_complete]
    simp only [hvalid, hparsed]
    exact hconsistent.completes_withConversion hvalid r _

/-! ## Commands -/

theorem failure_runValidate (s : σ) (input template : String) (json : Bool) :
    ((runValidate input template json : StateM σ _).run s).1.failure =
      let verdict := ((validateWithTemplate input template : StateM σ _).run s).1
      if verdict.valid then none else some (.rejected verdict) := rfl

theorem failure_runConvert (s : σ) (input : String) (json : Bool) :
    ((runConvert input json : StateM σ _).run s).1.failure =
      let verdict := ((complete input : StateM σ _).run s).1
      if verdict.valid then none else some (.rejected verdict) := by
  unfold runConvert
  simp only [Lookup.run_state_bind]
  cases ((complete input : StateM σ _).run s).1.valid with
  | false => rfl
  | true => cases json <;> rfl

/-- A command that ends with a verdict fails exactly if that is not valid. -/
theorem exitCode_of_failure {o : Outcome} {v : Verdict}
    (h : o.failure = if v.valid then none else some (.rejected v)) :
    o.exitCode = if v.valid then 0 else 2 := by
  unfold Outcome.exitCode
  rw [h]
  cases v.valid <;> rfl

theorem exitCode_validate (s : σ) (input : String) (json : Bool) :
    (((Command.validate input none json).runWith : StateM σ _).run s).1.exitCode =
      if ((validate input : StateM σ _).run s).1.valid then 0 else 2 :=
  exitCode_of_failure (failure_runValidate s input "" json)

theorem exitCode_convert (s : σ) (input : String) (json : Bool) :
    (((Command.convert input json).runWith : StateM σ _).run s).1.exitCode =
      if ((validate input : StateM σ _).run s).1.valid then 0 else 2 := by
  rw [← (completes_complete s input).valid]
  exact exitCode_of_failure (failure_runConvert s input json)

theorem exitCode_run (input : String) (json json' : Bool) (args : DirectoryArgs)
    (fs : Files.FileSystem) :
    ((Command.validate input none json).run args fs).exitCode =
      ((Command.convert input json').run args fs).exitCode := by
  unfold Command.run
  cases args.directory? fs with
  | error e => rfl
  | ok d => exact (exitCode_validate d input json).trans (exitCode_convert d input json').symm

/-- **Verdicts are consistent.** Whatever a directory answers, the parts of a verdict fit together,
written forms add nothing but a warning to it, and the commands `validate` and `convert` end with
the same code. -/
theorem verdict_consistent {σ : Type} [TypeDirectory σ] (s : σ) (input : String) :
    (∀ template,
      let verdict := ((validateWithTemplate input template : StateM σ _).run s).1
      verdict.Consistent ∧
        (verdict.parsed = none ↔
          ∃ s', (readInput input template : StateM σ _).run s = (.error verdict, s'))) ∧
      ((complete input : StateM σ _).run s).1.Completes
        ((validate input : StateM σ _).run s).1 ∧
      ∀ json json',
        (((Command.validate input none json).runWith : StateM σ _).run s).1.exitCode =
            (((Command.convert input json').runWith : StateM σ _).run s).1.exitCode ∧
          ∀ args fs, ((Command.validate input none json).run args fs).exitCode =
            ((Command.convert input json').run args fs).exitCode := by
  refine ⟨fun template => ⟨consistent_validateWithTemplate s input template,
    parsed_validateWithTemplate_eq_none_iff s input template⟩, completes_complete s input,
    fun json json' => ⟨?_, exitCode_run input json json'⟩⟩
  rw [exitCode_validate, exitCode_convert]

end ResourceNames
