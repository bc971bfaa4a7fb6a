import ResourceNames.Proofs.Directory.Templates
import ResourceNames.Proofs.Live.Answers
import ResourceNames.Proofs.Verdict.Steps

/-!
# Verdicts of live directories

A live directory refreshes itself when a look-up misses, and has the control plane decide on a
resource whose type it knows.

* `after_resolve`, `after_readInput_of_sought`: which look-ups refresh the directory.
* `run_judge`: a resource whose type is found is submitted once.
* `run_validateWithTemplate_cases`: so is an input, and nothing else is done but refreshes.
-/

namespace ResourceNames

variable {π : Type} [ControlPlane π]

/-- The verdict on a resource after the control plane has decided on it. -/
def Verdict.ofAnswer (r : Resource) : Except DirectoryError Unit → Verdict
  | .error e => (Verdict.rejected (.ofDirectoryError e) e.message).withParsed r
  | .ok _ => .accepted r

namespace LiveDirectory

/-! ## Look-ups -/

section

variable {π : Type} {d : LiveDirectory π} {name version : String}

/-- What a type name and a version stand for in the index. -/
def named? (d : LiveDirectory π) (name version : String) : Option TypeDescriptor :=
  d.index.named? d.order name version

theorem urnTemplate_of_named?_none (h : d.named? name version = none) :
    d.urnTemplate name version = .error (.notFound s!"{name}/{version}") :=
  TypeIndex.urnTemplate_of_named?_none h

theorem isNotFound_of_urnTemplate {e : DirectoryError} {t : TypeDescriptor}
    (ht : d.named? name version = some t) (h : d.urnTemplate name version = .error e) :
    e.isNotFound = false :=
  TypeIndex.isNotFound_of_urnTemplate ht h

end

variable (d : LiveDirectory π)

/-- The directory after a refresh, which may have failed. -/
def refreshed : LiveDirectory π :=
  ((refresh : Lookup (LiveDirectory π) Unit).run.run d).2

theorem plane_refreshed : d.refreshed.plane =
    ((ControlPlane.listing : Lookup π _).run.run (ControlPlane.beginListing d.plane)).2 := by
  unfold refreshed
  rw [run_refresh, run_receive, run_ask]
  have hplane : d.beginListing.plane = ControlPlane.beginListing d.plane := rfl
  rw [hplane]
  rcases (ControlPlane.listing : Lookup π _).run.run (ControlPlane.beginListing d.plane) with
    ⟨e | documents, plane⟩ <;> rfl

theorem namespaceName_refreshed : d.refreshed.namespaceName = d.namespaceName := by
  unfold refreshed
  rw [run_refresh, run_receive, run_ask]
  rcases (ControlPlane.listing : Lookup π _).run.run d.beginListing.plane with
    ⟨e | documents, plane⟩ <;> rfl

/-- A refresh that fails leaves all but the control plane as it is. -/
theorem exists_of_run_refresh_error {d d' : LiveDirectory π} {e : DirectoryError}
    (h : (refresh : Lookup (LiveDirectory π) Unit).run.run d = (.error e, d')) :
    ∃ plane, d' = { d with plane } := by
  rw [run_refresh, run_receive, run_ask] at h
  rcases hlisting : (ControlPlane.listing : Lookup π _).run.run d.beginListing.plane with
    ⟨e' | documents, plane⟩
  · rw [hlisting] at h
    cases h
    exact ⟨plane, rfl⟩
  · rw [hlisting] at h
    cases h

/-- A directory after some refreshes. -/
inductive RefreshedFrom : LiveDirectory π → Prop
  | refl : RefreshedFrom d
  | next {d' : LiveDirectory π} : RefreshedFrom d' → RefreshedFrom d'.refreshed

theorem keeps_refreshedFrom :
    Lookup.Keeps d.RefreshedFrom (LiveHolder.refresh : Lookup (LiveDirectory π) Unit) :=
  fun _ => .next

variable {d} in
theorem RefreshedFrom.namespaceName_eq {d' : LiveDirectory π} (h : d.RefreshedFrom d') :
    d'.namespaceName = d.namespaceName := by
  induction h with
  | refl => rfl
  | next _ ih => rw [namespaceName_refreshed, ih]

theorem holder_directory : LiveHolder.directory d = d := rfl

theorem holder_refresh :
    (LiveHolder.refresh : Lookup (LiveDirectory π) Unit) = LiveDirectory.refresh := rfl

/-- A look-up of a type answers from the index, after a refresh if need be. -/
theorem run_resolve (key : String) :
    (Live.resolve key : Lookup (LiveDirectory π) _).run.run d =
      match d.index.find? key with
      | some t => (.ok t, d)
      | none =>
        match (refresh : Lookup (LiveDirectory π) Unit).run.run d with
        | (.error e, d') => (.error e, d')
        | (.ok _, d') =>
          match d'.index.find? key with
          | some t => (.ok t, d')
          | none => (.error (.notFound key), d') := by
  rw [Live.run_resolve]
  simp only [holder_directory, holder_refresh]
  cases d.index.find? key with
  | some t => rfl
  | none =>
    rcases (refresh : Lookup (LiveDirectory π) Unit).run.run d with ⟨e | u, d'⟩
    · rfl
    · cases hfound : d'.index.find? key <;> simp only [hfound]

/-- So does a look-up of a template. -/
theorem run_getUrnTemplate (name version : String) :
    (Live.getUrnTemplate name version : Lookup (LiveDirectory π) _).run.run d =
      match d.urnTemplate name version with
      | .ok template => (.ok template, d)
      | .error e =>
        if e.isNotFound then
          match (refresh : Lookup (LiveDirectory π) Unit).run.run d with
          | (.error e', d') => (.error e', d')
          | (.ok _, d') => (d'.urnTemplate name version, d')
        else (.error e, d) := by
  rw [Live.run_getUrnTemplate]
  simp only [holder_directory, holder_refresh]
  cases d.urnTemplate name version with
  | ok template => rfl
  | error e =>
    rcases (refresh : Lookup (LiveDirectory π) Unit).run.run d with ⟨e' | u, d'⟩ <;> rfl

/-- A look-up of a type refreshes the directory exactly if it misses. -/
theorem after_resolve (key : String) :
    ((Live.resolve key : Lookup (LiveDirectory π) _).run.run d).2 =
      if d.index.contains key then d else d.refreshed := by
  rw [run_resolve]
  unfold TypeIndex.contains refreshed
  cases d.index.find? key with
  | some t => rfl
  | none =>
    simp only [Option.isSome_none, Bool.false_eq_true, if_false]
    rcases (refresh : Lookup (LiveDirectory π) Unit).run.run d with ⟨e | u, d'⟩
    · rfl
    · simp only
      cases d'.index.find? key <;> rfl

/-- A look-up of a template refreshes the directory exactly if it comes upon no descriptor. -/
theorem after_getUrnTemplate (name version : String) :
    ((Live.getUrnTemplate name version : Lookup (LiveDirectory π) _).run.run d).2 =
      if (d.named? name version).isSome then d else d.refreshed := by
  rw [run_getUrnTemplate]
  cases hnamed : d.named? name version with
  | some t =>
    cases htemplate : d.urnTemplate name version with
    | ok template => rfl
    | error e =>
      simp only [isNotFound_of_urnTemplate hnamed htemplate]
      rfl
  | none =>
    rw [urnTemplate_of_named?_none hnamed]
    unfold refreshed
    simp only [DirectoryError.isNotFound, if_true, Option.isSome_none, Bool.false_eq_true,
      if_false]
    rcases (refresh : Lookup (LiveDirectory π) Unit).run.run d with ⟨e | u, d'⟩ <;> rfl

/-- If it comes upon none, the answer is that of the index after the refresh. -/
theorem fst_getUrnTemplate_of_miss {name version template : String}
    (h : d.named? name version = none) :
    ((Live.getUrnTemplate name version : Lookup (LiveDirectory π) _).run.run d).1 = .ok template ↔
      d.refreshed.urnTemplate name version = .ok template := by
  have hmiss := urnTemplate_of_named?_none h
  rw [run_getUrnTemplate, hmiss]
  simp only [DirectoryError.isNotFound, if_true]
  unfold refreshed
  cases hrun : (refresh : Lookup (LiveDirectory π) Unit).run.run d with
  | mk result d' =>
    cases result with
    | error e =>
      -- The template is looked up in the index as before, and is missing from it as before.
      obtain ⟨plane, rfl⟩ := exists_of_run_refresh_error hrun
      refine iff_of_false nofun fun hfound => ?_
      cases hmiss.symm.trans hfound
    | ok u => exact Iff.rfl

/-! ## Reading -/

/-- Reading an input refreshes the directory exactly if the look-up of its template comes upon no
descriptor. -/
theorem after_readInput_of_sought {input template key : String}
    (h : soughtKey? input template = some key) :
    ((readInput input template : StateM (LiveDirectory π) _).run d).2 =
      if (d.named? (splitTypeKey key).1 (splitTypeKey key).2).isSome then d
      else d.refreshed := by
  rw [← after_getUrnTemplate, TypeDirectory.run_readInput_of_sought d h,
    Live.typeDirectory_getUrnTemplate]
  rcases (Live.getUrnTemplate (splitTypeKey key).1 (splitTypeKey key).2 :
    Lookup (LiveDirectory π) _).run.run d with ⟨e | found, d'⟩ <;> rfl

/-- A resource is read with the template that comes up. -/
theorem fst_readInput_of_sought {input template key : String} {r : Resource}
    (h : soughtKey? input template = some key) :
    ((readInput input template : StateM (LiveDirectory π) _).run d).1 = .ok r ↔
      ∃ found, ((Live.getUrnTemplate (splitTypeKey key).1 (splitTypeKey key).2 :
          Lookup (LiveDirectory π) _).run.run d).1 = .ok found ∧
        Urn.parse input found = .ok r := by
  rw [TypeDirectory.run_readInput_of_sought d h, Live.typeDirectory_getUrnTemplate]
  rcases (Live.getUrnTemplate (splitTypeKey key).1 (splitTypeKey key).2 :
    Lookup (LiveDirectory π) _).run.run d with ⟨e | found, d'⟩
  · exact ⟨nofun, nofun⟩
  · constructor
    · exact fun hread => ⟨found, rfl, eq_ok_of_mapError hread⟩
    · rintro ⟨found', hfound, hparse⟩
      cases hfound
      simp only [hparse]
      rfl

theorem refreshedFrom_readInput (input template : String) :
    d.RefreshedFrom ((readInput input template : StateM (LiveDirectory π) _).run d).2 := by
  cases hsought : soughtKey? input template with
  | none =>
    rw [TypeDirectory.snd_readInput_of_not_sought d hsought]
    exact .refl
  | some key =>
    rw [d.after_readInput_of_sought hsought, ← after_getUrnTemplate]
    exact Live.keeps_getUrnTemplate d.keeps_refreshedFrom _ _ d .refl

/-! ## Judging -/

/-- A resource is submitted exactly if its type is found, once, and the answer is the verdict. -/
theorem run_judge (r : Resource) :
    (judge r : StateM (LiveDirectory π) _).run d =
      match (Live.resolve r.typeKey : Lookup (LiveDirectory π) _).run.run d with
      | (.error e, d') => ((Verdict.ofLookupFailure r.typeKey e).withParsed r, d')
      | (.ok t, d') =>
        let answer := Live.answerTo d'.plane t d'.namespaceName r
        (.ofAnswer r answer.1, { d' with plane := answer.2 }) := by
  rw [TypeDirectory.run_judge, Live.typeDirectory_getType]
  cases hresolve : (Live.resolve r.typeKey : Lookup (LiveDirectory π) _).run.run d with
  | mk result d' =>
    cases result with
    | error e => rfl
    | ok t =>
      -- The type is in the index by now, so the check does not refresh the directory again.
      have hcheck : (Live.validateValue r.typeKey r : Lookup (LiveDirectory π) _).run.run d' =
          ((Live.answerTo d'.plane t d'.namespaceName r).1,
            { d' with plane := (Live.answerTo d'.plane t d'.namespaceName r).2 }) :=
        Live.run_validateValue_of_resolve
          (Live.run_resolve_of_find? (Live.find?_of_run_resolve hresolve))
      simp only [Live.typeDirectory_validateValue, hcheck]
      cases (Live.answerTo d'.plane t d'.namespaceName r).1 <;> rfl

/-! ## Verdicts -/

/-- An input is read as a resource, and the type of that is found, which leaves the directory as
`d'`. -/
def Resolves (input template : String) (r : Resource) (t : TypeDescriptor)
    (d' : LiveDirectory π) : Prop :=
  ∃ read : LiveDirectory π,
    (readInput input template : StateM (LiveDirectory π) _).run d = (.ok r, read) ∧
      (Live.resolve r.typeKey : Lookup (LiveDirectory π) _).run.run read = (.ok t, d')

variable {d}

theorem Resolves.find? {input template : String} {r : Resource} {t : TypeDescriptor}
    {d' : LiveDirectory π} (h : d.Resolves input template r t d') :
    d'.index.find? r.typeKey = some t := by
  obtain ⟨read, -, hresolve⟩ := h
  exact Live.find?_of_run_resolve hresolve

theorem Resolves.refreshedFrom {input template : String} {r : Resource} {t : TypeDescriptor}
    {d' : LiveDirectory π} (h : d.Resolves input template r t d') : d.RefreshedFrom d' := by
  obtain ⟨read, hread, hresolve⟩ := h
  have hbefore : d.RefreshedFrom read := by
    have hafter := d.refreshedFrom_readInput input template
    rwa [hread] at hafter
  have hkept := Live.keeps_resolve d.keeps_refreshedFrom r.typeKey read hbefore
  rwa [hresolve] at hkept

variable (d)

/-- An input whose type is found is submitted once, and the answer is the verdict. Any other input
is not valid, and leads to refreshes at most. -/
theorem run_validateWithTemplate_cases (input template : String) :
    (∃ r t d', d.Resolves input template r t d' ∧
      (validateWithTemplate input template : StateM (LiveDirectory π) _).run d =
        (.ofAnswer r (Live.answerTo d'.plane t d'.namespaceName r).1,
          { d' with plane := (Live.answerTo d'.plane t d'.namespaceName r).2 })) ∨
    (¬ ∃ r t d', d.Resolves input template r t d') ∧
      ∃ verdict d', (validateWithTemplate input template : StateM (LiveDirectory π) _).run d =
        (verdict, d') ∧ verdict.valid = false ∧ d.RefreshedFrom d' := by
  rw [TypeDirectory.run_validateWithTemplate]
  have hafter := d.refreshedFrom_readInput input template
  rcases hread : (readInput input template : StateM (LiveDirectory π) _).run d with
    ⟨verdict | r, read⟩
  · rw [hread] at hafter
    refine .inr ⟨?_, verdict, read, rfl, ?_, hafter⟩
    · rintro ⟨r, t, d', read', hread', -⟩
      cases hread.symm.trans hread'
    · obtain ⟨_, _, rfl⟩ := TypeDirectory.exists_rejected_of_readInput hread
      rfl
  · rw [hread] at hafter
    have hkept := Live.keeps_resolve d.keeps_refreshedFrom r.typeKey read hafter
    simp only [run_judge]
    rcases hresolve : (Live.resolve r.typeKey : Lookup (LiveDirectory π) _).run.run read with
      ⟨e | t, d'⟩
    · rw [hresolve] at hkept
      refine .inr ⟨?_, _, d', rfl, valid_ofLookupFailure r.typeKey e, hkept⟩
      rintro ⟨r', t, d'', read', hread', hresolve'⟩
      cases hread.symm.trans hread'
      cases hresolve.symm.trans hresolve'
    · exact .inl ⟨r, t, d', ⟨read, hread, hresolve⟩, rfl⟩

/-- A conversion leads to refreshes at most. -/
theorem refreshedFrom_convert (r : Resource) :
    d.RefreshedFrom ((convert r : Lookup (LiveDirectory π) _).run.run d).2 := by
  have htemplate : Lookup.Keeps d.RefreshedFrom
      (conversionTemplate r : Lookup (LiveDirectory π) _) := by
    unfold conversionTemplate
    split
    · refine Lookup.Keeps.tryCatch
        ((Live.keeps_getUrnTemplate d.keeps_refreshedFrom _ _).map some) fun e => ?_
      split
      · exact Lookup.keeps_pure _
      · exact Lookup.keeps_throw _
    · exact Lookup.keeps_pure _
  exact htemplate.bind (fun _ => Lookup.keeps_liftExcept _) d .refl

/-- A completion leads to refreshes at most, beside what its verdict does. -/
theorem refreshedFrom_complete (input : String) :
    ((validate input : StateM (LiveDirectory π) _).run d).2.RefreshedFrom
      ((complete input : StateM (LiveDirectory π) _).run d).2 := by
  rw [TypeDirectory.run_complete]
  rcases (validate input : StateM (LiveDirectory π) _).run d with ⟨verdict, d'⟩
  simp only
  split
  · exact d'.refreshedFrom_convert _
  · exact .refl

end LiveDirectory

end ResourceNames
