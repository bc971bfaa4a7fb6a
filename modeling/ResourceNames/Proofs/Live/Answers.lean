import ResourceNames.Live.Lookup
import ResourceNames.Proofs.Live.Moves

/-!
# Answers of live directories

How a live directory answers, on whatever holds it.

* `run_resolve`, `run_getUrnTemplate`: look-ups answer from the index, after a refresh if need be.
* `run_validateValue`: a resource is submitted as an object of the type that is found.
* `keeps_resolve`, `keeps_getUrnTemplate`, `keeps_validateValue`: what they keep.
-/

namespace ResourceNames.Live

open Lookup

variable {τ π α : Type} [LiveHolder τ π] {t t' : τ} {key : String} {d : TypeDescriptor}

/-! ## Answers -/

theorem run_index (t : τ) :
    (index : Lookup τ _).run.run t = (.ok (LiveHolder.directory t).index, t) := rfl

/-- A look-up answers from the index, after a refresh if need be. -/
theorem run_resolve (t : τ) (key : String) :
    (resolve key : Lookup τ _).run.run t =
      match (LiveHolder.directory t).index.find? key with
      | some d => (.ok d, t)
      | none =>
        match (LiveHolder.refresh : Lookup τ Unit).run.run t with
        | (.error e, t') => (.error e, t')
        | (.ok _, t') =>
          match (LiveHolder.directory t').index.find? key with
          | some d => (.ok d, t')
          | none => (.error (.notFound key), t') := by
  unfold resolve
  rw [Lookup.run_bind, run_index]
  simp only
  cases (LiveHolder.directory t).index.find? key with
  | some d => rfl
  | none =>
    simp only
    rw [Lookup.run_bind]
    rcases (LiveHolder.refresh : Lookup τ Unit).run.run t with ⟨e | u, t'⟩
    · rfl
    · simp only
      rw [Lookup.run_bind, run_index]
      simp only
      cases (LiveHolder.directory t').index.find? key <;> rfl

/-- A known type is found without a refresh. -/
theorem run_resolve_of_find? (h : (LiveHolder.directory t).index.find? key = some d) :
    (resolve key : Lookup τ _).run.run t = (.ok d, t) := by
  rw [run_resolve, h]

/-- A type that is not known is looked for once more after a refresh. -/
theorem run_resolve_of_refresh (hmiss : (LiveHolder.directory t).index.find? key = none)
    (hrefresh : (LiveHolder.refresh : Lookup τ Unit).run.run t = (.ok (), t')) :
    (resolve key : Lookup τ _).run.run t =
      match (LiveHolder.directory t').index.find? key with
      | some d => (.ok d, t')
      | none => (.error (.notFound key), t') := by
  rw [run_resolve, hmiss]
  simp only [hrefresh]

/-- A type that is found is in the index in the end. -/
theorem find?_of_run_resolve (h : (resolve key : Lookup τ _).run.run t = (.ok d, t')) :
    (LiveHolder.directory t').index.find? key = some d := by
  rw [run_resolve] at h
  split at h
  · rename_i hd
    cases h
    exact hd
  · split at h
    · cases h
    · split at h
      · rename_i hd
        cases h
        exact hd
      · cases h

/-- A template comes from the index, after a refresh if the type is not known. -/
theorem run_getUrnTemplate (t : τ) (name version : String) :
    (getUrnTemplate name version : Lookup τ _).run.run t =
      match (LiveHolder.directory t).urnTemplate name version with
      | .ok template => (.ok template, t)
      | .error e =>
        if e.isNotFound then
          match (LiveHolder.refresh : Lookup τ Unit).run.run t with
          | (.error e', t') => (.error e', t')
          | (.ok _, t') => ((LiveHolder.directory t').urnTemplate name version, t')
        else (.error e, t) := by
  unfold getUrnTemplate
  rw [Lookup.run_bind, Lookup.run_get]
  simp only
  cases (LiveHolder.directory t).urnTemplate name version with
  | ok template => rfl
  | error e =>
    simp only
    by_cases h : e.isNotFound = true
    · rw [if_pos h, if_pos h, Lookup.run_bind]
      rcases (LiveHolder.refresh : Lookup τ Unit).run.run t with ⟨e' | u, t'⟩
      · rfl
      · simp only
        rw [Lookup.run_bind, Lookup.run_get]
        exact Lookup.run_liftExcept _ t'
    · rw [if_neg h, if_neg h]
      rfl

theorem run_ask (action : Lookup π α) (t : τ) :
    (ask action : Lookup τ α).run.run t =
      ((action.run.run (LiveHolder.directory t).plane).1,
        LiveHolder.setDirectory t { LiveHolder.directory t with
          plane := (action.run.run (LiveHolder.directory t).plane).2 }) := by
  have hask : (LiveDirectory.ask action).run (LiveHolder.directory t) = _ :=
    LiveDirectory.run_ask action (LiveHolder.directory t)
  unfold ask
  simp only [Lookup.run_bind, Lookup.run_get, hask]
  exact Lookup.run_liftExcept _ _

/-- Has the control plane decide on a resource as an object of a type. -/
def submit [ControlPlane π] (d : TypeDescriptor) (value : Resource) : Lookup τ Unit := do
  let name := objectName d.kind
  let namespaceName := (LiveHolder.directory (← get)).namespaceName
  ask (ControlPlane.create d namespaceName name (submission value namespaceName name))

theorem validateValue_eq [ControlPlane π] (key : String) (value : Resource) :
    (validateValue key value : Lookup τ Unit) = resolve key >>= fun d => submit d value := rfl

/-- The control plane's answer to a resource that is submitted as an object of a type. -/
def answerTo [ControlPlane π] (plane : π) (d : TypeDescriptor) (namespaceName : String)
    (value : Resource) : Except DirectoryError Unit × π :=
  let name := objectName d.kind
  (ControlPlane.create d namespaceName name (submission value namespaceName name)).run.run plane

/-- A submission is answered by the control plane. -/
theorem run_submit [ControlPlane π] (t : τ) (d : TypeDescriptor) (value : Resource) :
    (submit d value : Lookup τ Unit).run.run t =
      let directory := LiveHolder.directory t
      let answer := answerTo directory.plane d directory.namespaceName value
      (answer.1, LiveHolder.setDirectory t { directory with plane := answer.2 }) := by
  unfold submit answerTo
  simp only [Lookup.run_bind, Lookup.run_get, run_ask]

/-- A resource is submitted as an object of the type that is found. -/
theorem run_validateValue [ControlPlane π] (t : τ) (key : String) (value : Resource) :
    (validateValue key value : Lookup τ _).run.run t =
      match (resolve key : Lookup τ _).run.run t with
      | (.error e, t') => (.error e, t')
      | (.ok d, t') => (submit d value : Lookup τ Unit).run.run t' := by
  rw [validateValue_eq, Lookup.run_bind]
  rcases (resolve key : Lookup τ _).run.run t with ⟨e | d, t'⟩ <;> rfl

/-- If a type is found, the control plane gives the answer. -/
theorem run_validateValue_of_resolve [ControlPlane π] {value : Resource}
    (h : (resolve key : Lookup τ _).run.run t = (.ok d, t')) :
    (validateValue key value : Lookup τ _).run.run t =
      let directory := LiveHolder.directory t'
      let answer := answerTo directory.plane d directory.namespaceName value
      (answer.1, LiveHolder.setDirectory t' { directory with plane := answer.2 }) := by
  rw [run_validateValue, h]
  exact run_submit t' d value

/-! ## Questions to a live directory -/

section

variable [ControlPlane π]

theorem typeDirectory_getType (key : String) :
    (TypeDirectory.getType key : Lookup τ _) = resolve key := rfl

theorem typeDirectory_getUrnTemplate (name version : String) :
    (TypeDirectory.getUrnTemplate name version : Lookup τ _) = getUrnTemplate name version := rfl

theorem typeDirectory_validateValue (key : String) (value : Resource) :
    (TypeDirectory.validateValue key value : Lookup τ _) = validateValue key value := rfl

end

/-! ## What answers keep -/

variable {P : τ → Prop}

theorem keeps_index : Keeps P (index : Lookup τ TypeIndex) :=
  keeps_get.bind fun _ => keeps_pure _

theorem keeps_resolve (hrefresh : Keeps P (LiveHolder.refresh : Lookup τ Unit)) (key : String) :
    Keeps P (resolve key : Lookup τ TypeDescriptor) := by
  refine keeps_index.bind fun index => ?_
  split
  · exact keeps_pure _
  · refine hrefresh.bind fun _ => keeps_index.bind fun index => ?_
    split
    · exact keeps_pure _
    · exact keeps_throw _

theorem keeps_getUrnTemplate (hrefresh : Keeps P (LiveHolder.refresh : Lookup τ Unit))
    (name version : String) : Keeps P (getUrnTemplate name version : Lookup τ String) := by
  refine keeps_get.bind fun t => ?_
  split
  · exact keeps_pure _
  · split
    · exact hrefresh.bind fun _ => keeps_get.bind fun _ => keeps_liftExcept _
    · exact keeps_throw _

theorem keeps_ask {action : Lookup π α}
    (hplane : ∀ t, P t → P (LiveHolder.setDirectory t { LiveHolder.directory t with
      plane := (action.run.run (LiveHolder.directory t).plane).2 })) :
    Keeps P (ask action : Lookup τ α) := by
  intro t ht
  rw [run_ask]
  exact hplane t ht

theorem keeps_validateValue [ControlPlane π]
    (hrefresh : Keeps P (LiveHolder.refresh : Lookup τ Unit))
    (hcreate : ∀ d namespaceName name object,
      Keeps P (ask (ControlPlane.create d namespaceName name object) : Lookup τ Unit))
    (key : String) (value : Resource) : Keeps P (validateValue key value : Lookup τ Unit) :=
  (keeps_resolve hrefresh key).bind fun _ => keeps_get.bind fun _ => hcreate _ _ _ _

end ResourceNames.Live
