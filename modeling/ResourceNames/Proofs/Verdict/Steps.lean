import ResourceNames.Proofs.Directory.Lookup
import ResourceNames.Verdict.Validate

/-!
# Steps of a verdict

A verdict is given step by step, and each question to the directory may change it.

* `run_readInput`, `run_judge`: how an input is read and a resource is judged.
* `run_readInput_of_sought`: for a URN alone, one template is looked up.
* `exists_rejected_of_readInput`: an input that is not read is rejected.
* `run_validateWithTemplate`: a verdict does one after the other.
* `run_complete_of_invalid`: what is not valid is not converted.
* `TypeDirectory.Maps.validateWithTemplate`: directories that answer alike give the same verdict.
-/

namespace ResourceNames

/-- The type key for which an input's template is looked up. -/
def soughtKey? (input template : String) : Option String :=
  match Format.detect input with
  | .ok .urn => if template = "" then (Urn.parseTypeKey input).toOption else none
  | _ => none

/-- The verdict on a type that the directory does not answer for rejects the input. -/
theorem exists_rejected_ofLookupFailure (key : String) (e : DirectoryError) :
    ∃ reason error, Verdict.ofLookupFailure key e = .rejected reason error := by
  unfold Verdict.ofLookupFailure
  split <;> exact ⟨_, _, rfl⟩

theorem valid_ofLookupFailure (key : String) (e : DirectoryError) :
    (Verdict.ofLookupFailure key e).valid = false := by
  obtain ⟨_, _, h⟩ := exists_rejected_ofLookupFailure key e
  rw [h]
  rfl

theorem exists_rejected_of_mapError {x : Except ParseError Resource} {verdict : Verdict}
    (h : x.mapError Verdict.ofParseError = .error verdict) :
    ∃ reason error, verdict = .rejected reason error := by
  cases x with
  | ok r => cases h
  | error e =>
    cases h
    exact ⟨_, _, rfl⟩

namespace TypeDirectory

variable {σ : Type} [TypeDirectory σ] (s : σ) (input template : String)

theorem run_readUrn :
    (readUrn input : StateM σ _).run s =
      match Urn.parseTypeKey input with
      | .error e => (.error (.ofParseError e), s)
      | .ok key =>
        match (getUrnTemplate (splitTypeKey key).1 (splitTypeKey key).2 : Lookup σ _).run.run s with
        | (.error e, s') => (.error (.ofLookupFailure key e), s')
        | (.ok template, s') => ((Urn.parse input template).mapError .ofParseError, s') := by
  unfold readUrn
  cases Urn.parseTypeKey input with
  | error e => rfl
  | ok key =>
    simp only [Lookup.run_state_bind]
    rcases (getUrnTemplate (splitTypeKey key).1 (splitTypeKey key).2 : Lookup σ _).run.run s with
      ⟨e | found, s'⟩ <;> rfl

theorem run_readInput :
    (readInput input template : StateM σ _).run s =
      match Format.detect input with
      | .error e => (.error (.ofParseError e), s)
      | .ok .fieldList => ((FieldList.parse input).mapError .ofParseError, s)
      | .ok .urn =>
        if template = "" then (readUrn input : StateM σ _).run s
        else ((Urn.parse input template).mapError .ofParseError, s) := by
  unfold readInput
  cases Format.detect input with
  | error e => rfl
  | ok format =>
    cases format with
    | fieldList => rfl
    | urn =>
      by_cases h : template = ""
      · simp only [if_pos h]
      · simp only [if_neg h]
        rfl

variable {input template} in
theorem run_readInput_of_sought {key : String} (h : soughtKey? input template = some key) :
    (readInput input template : StateM σ _).run s =
      match (getUrnTemplate (splitTypeKey key).1 (splitTypeKey key).2 : Lookup σ _).run.run s with
      | (.error e, s') => (.error (.ofLookupFailure key e), s')
      | (.ok found, s') => ((Urn.parse input found).mapError .ofParseError, s') := by
  rw [run_readInput]
  unfold soughtKey? at h
  split at h
  · rename_i hdetect
    split at h
    · rename_i htemplate
      simp only [hdetect, if_pos htemplate]
      rw [run_readUrn, eq_ok_of_toOption h]
    · cases h
  · cases h

variable {input template} in
/-- Without a look-up of a template the directory stays as it is. -/
theorem snd_readInput_of_not_sought (h : soughtKey? input template = none) :
    ((readInput input template : StateM σ _).run s).2 = s := by
  rw [run_readInput]
  unfold soughtKey? at h
  cases hdetect : Format.detect input with
  | error e => rfl
  | ok format =>
    cases format with
    | fieldList => rfl
    | urn =>
      simp only [hdetect] at h ⊢
      by_cases htemplate : template = ""
      · rw [if_pos htemplate] at h ⊢
        rw [run_readUrn]
        cases hkey : Urn.parseTypeKey input with
        | error e => rfl
        | ok key =>
          rw [hkey] at h
          cases h
      · rw [if_neg htemplate]

variable {s input template} in
/-- An input that is not read is rejected. -/
theorem exists_rejected_of_readInput {s' : σ} {verdict : Verdict}
    (h : (readInput input template : StateM σ _).run s = (.error verdict, s')) :
    ∃ reason error, verdict = .rejected reason error := by
  rw [run_readInput] at h
  split at h
  · cases h
    exact ⟨_, _, rfl⟩
  · exact exists_rejected_of_mapError (congrArg Prod.fst h)
  · split at h
    · rw [run_readUrn] at h
      split at h
      · cases h
        exact ⟨_, _, rfl⟩
      · split at h
        · cases h
          exact exists_rejected_ofLookupFailure _ _
        · exact exists_rejected_of_mapError (congrArg Prod.fst h)
    · exact exists_rejected_of_mapError (congrArg Prod.fst h)

variable {s input template} in
/-- What is read was parsed in one of the two forms. -/
theorem parse_of_readInput {s' : σ} {r : Resource}
    (h : (readInput input template : StateM σ _).run s = (.ok r, s')) :
    FieldList.parse input = .ok r ∨ ∃ used, Urn.parse input used = .ok r := by
  rw [run_readInput] at h
  split at h
  · cases h
  · exact .inl (eq_ok_of_mapError (congrArg Prod.fst h))
  · split at h
    · rw [run_readUrn] at h
      split at h
      · cases h
      · split at h
        · cases h
        · exact .inr ⟨_, eq_ok_of_mapError (congrArg Prod.fst h)⟩
    · exact .inr ⟨_, eq_ok_of_mapError (congrArg Prod.fst h)⟩

theorem run_judge (r : Resource) :
    (judge r : StateM σ _).run s =
      match (getType r.typeKey : Lookup σ _).run.run s with
      | (.error e, s') => ((Verdict.ofLookupFailure r.typeKey e).withParsed r, s')
      | (.ok _, s') =>
        match (validateValue r.typeKey r : Lookup σ _).run.run s' with
        | (.error e, s'') => ((Verdict.rejected (.ofDirectoryError e) e.message).withParsed r, s'')
        | (.ok _, s'') => (.accepted r, s'') := by
  unfold judge
  rw [Lookup.run_state_bind]
  rcases (getType r.typeKey : Lookup σ _).run.run s with ⟨e | t, s'⟩
  · rfl
  · simp only [Lookup.run_state_bind]
    rcases (validateValue r.typeKey r : Lookup σ _).run.run s' with ⟨e | u, s''⟩ <;> rfl

/-- The verdict names the resource that was judged. -/
theorem parsed_judge (r : Resource) : ((judge r : StateM σ _).run s).1.parsed = some r := by
  rw [run_judge]
  split
  · rfl
  · split <;> rfl

theorem run_validateWithTemplate :
    (validateWithTemplate input template : StateM σ _).run s =
      match (readInput input template : StateM σ _).run s with
      | (.error verdict, s') => (verdict, s')
      | (.ok r, s') => (judge r : StateM σ _).run s' := by
  unfold validateWithTemplate
  rw [Lookup.run_state_bind]
  rcases (readInput input template : StateM σ _).run s with ⟨verdict | r, s'⟩ <;> rfl

/-- A valid resource is converted after the verdict on it. -/
theorem run_complete :
    (complete input : StateM σ _).run s =
      let after := (validate input : StateM σ _).run s
      match after.1.valid, after.1.parsed with
      | true, some r =>
        (after.1.withConversion r ((convert r : Lookup σ _).run.run after.2).1,
          ((convert r : Lookup σ _).run.run after.2).2)
      | _, _ => after := by
  unfold complete
  rw [Lookup.run_state_bind]
  rcases (validate input : StateM σ _).run s with ⟨verdict, s'⟩
  simp only
  cases verdict.valid with
  | false => rfl
  | true => cases verdict.parsed <;> rfl

/-- What is not valid is not converted. -/
theorem run_complete_of_invalid
    (h : ((validate input : StateM σ _).run s).1.valid = false) :
    (complete input : StateM σ _).run s = (validate input : StateM σ _).run s := by
  rw [run_complete]
  simp only [h]

end TypeDirectory

/-! ## Directories that answer alike -/

/-- A map between directories that leaves the answers to single questions as they are. -/
structure TypeDirectory.Maps {σ τ : Type} [TypeDirectory σ] [TypeDirectory τ] (f : σ → τ) :
    Prop where
  getType : ∀ s key, (getType key : Lookup τ _).run.run (f s) =
    Prod.map id f ((getType key : Lookup σ _).run.run s)
  validateValue : ∀ s key value, (validateValue key value : Lookup τ _).run.run (f s) =
    Prod.map id f ((validateValue key value : Lookup σ _).run.run s)
  getUrnTemplate : ∀ s name version, (getUrnTemplate name version : Lookup τ _).run.run (f s) =
    Prod.map id f ((getUrnTemplate name version : Lookup σ _).run.run s)

namespace TypeDirectory.Maps

variable {σ τ : Type} [TypeDirectory σ] [TypeDirectory τ] {f : σ → τ}

theorem readInput (h : Maps f) (s : σ) (input template : String) :
    (ResourceNames.readInput input template : StateM τ _).run (f s) =
      Prod.map id f ((ResourceNames.readInput input template : StateM σ _).run s) := by
  rw [run_readInput, run_readInput, run_readUrn, run_readUrn]
  split
  · rfl
  · rfl
  · split
    · split
      · rfl
      · rw [h.getUrnTemplate]
        rename_i key _
        rcases (TypeDirectory.getUrnTemplate (splitTypeKey key).1 (splitTypeKey key).2 :
          Lookup σ _).run.run s with ⟨e | found, s'⟩ <;> rfl
    · rfl

theorem judge (h : Maps f) (s : σ) (r : Resource) :
    (ResourceNames.judge r : StateM τ _).run (f s) =
      Prod.map id f ((ResourceNames.judge r : StateM σ _).run s) := by
  rw [run_judge, run_judge, h.getType]
  rcases (TypeDirectory.getType r.typeKey : Lookup σ _).run.run s with ⟨e | t, s'⟩
  · rfl
  · simp only [Prod.map_apply, id_eq, h.validateValue]
    rcases (TypeDirectory.validateValue r.typeKey r : Lookup σ _).run.run s' with
      ⟨e | u, s''⟩ <;> rfl

/-- The verdict is the same as well. -/
theorem validateWithTemplate (h : Maps f) (s : σ) (input template : String) :
    (ResourceNames.validateWithTemplate input template : StateM τ _).run (f s) =
      Prod.map id f ((ResourceNames.validateWithTemplate input template : StateM σ _).run s) := by
  rw [run_validateWithTemplate, run_validateWithTemplate, h.readInput]
  rcases (ResourceNames.readInput input template : StateM σ _).run s with ⟨verdict | r, s'⟩
  · rfl
  · exact h.judge s' r

end TypeDirectory.Maps

end ResourceNames
