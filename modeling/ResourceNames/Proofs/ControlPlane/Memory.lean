import ResourceNames.ControlPlane.Memory
import ResourceNames.Proofs.Directory.Lookup

/-!
# Answers of a control plane in memory

* `run_listing`: it lists what it serves.
* `run_create`: it admits what fulfils the schema of its type, and remembers it.
* `sameButListings_listing`: a listing leaves all else as it is.
-/

namespace ResourceNames.MemoryPlane

theorem run_listing (plane : MemoryPlane) :
    listing.run.run plane =
      if plane.unavailable then
        (.error (.api (.refused "Failure" "control plane unavailable" "ServiceUnavailable" 503)),
          plane)
      else (.ok plane.definitions, plane) := by
  unfold listing checkAvailable
  rw [Lookup.run_bind, Lookup.run_bind, Lookup.run_get]
  cases hunavailable : plane.unavailable with
  | true =>
    simp only [if_true, hunavailable]
    rfl
  | false =>
    simp only [Bool.false_eq_true, if_false, hunavailable]
    rfl

/-- The control plane after an object was submitted, whether it is admitted or not. -/
def count (plane : MemoryPlane) : MemoryPlane := { plane with creates := plane.creates + 1 }

/-- The control plane after an object was admitted. -/
def store (plane : MemoryPlane) (object : CreatedObject) : MemoryPlane :=
  { plane.count with created := plane.created ++ [object] }

theorem run_create (plane : MemoryPlane) (d : TypeDescriptor) (namespaceName name : String)
    (object : Json) :
    (create d namespaceName name object).run.run plane =
      if plane.unavailable then
        (.error (.api (.refused "Failure" "control plane unavailable" "ServiceUnavailable" 503)),
          plane.count)
      else
        match Validator.compile? d.schema with
        | none =>
          (.error (.invalidDefinition s!"schema of '{d.typeKey}' does not compile: *"), plane.count)
        | some validator =>
          match validator.violations object with
          | [] => (.ok (), plane.store ⟨d.typeKey, namespaceName, name, object⟩)
          | found =>
            (.error (.schemaViolation d.typeKey ("; ".intercalate (found.map (·.message)))),
              plane.count) := by
  unfold create checkAvailable
  rw [Lookup.run_bind]
  have hcounted : (modify fun p : MemoryPlane => { p with creates := p.creates + 1 } :
      Lookup MemoryPlane _).run.run plane = (.ok (), plane.count) := rfl
  have hsame : plane.count.unavailable = plane.unavailable := rfl
  simp only [hcounted]
  rw [Lookup.run_bind, Lookup.run_bind, Lookup.run_get]
  cases hunavailable : plane.unavailable with
  | true =>
    simp only [hsame, hunavailable, if_true]
    rfl
  | false =>
    simp only [hsame, hunavailable, Bool.false_eq_true, if_false]
    cases Validator.compile? d.schema with
    | none => rfl
    | some validator =>
      cases hviolations : validator.violations object <;>
        simp only [hviolations] <;> rfl

/-- A submission is counted, and an object that is admitted is remembered. -/
theorem run_create_cases (plane : MemoryPlane) (d : TypeDescriptor) (namespaceName name : String)
    (object : Json) :
    (create d namespaceName name object).run.run plane =
        (.ok (), plane.store ⟨d.typeKey, namespaceName, name, object⟩) ∨
      ∃ e, (create d namespaceName name object).run.run plane = (.error e, plane.count) := by
  rw [run_create]
  split
  · exact .inr ⟨_, rfl⟩
  · split
    · exact .inr ⟨_, rfl⟩
    · split
      · exact .inl rfl
      · exact .inr ⟨_, rfl⟩

/-! ## Listings -/

/-- Two control planes are the same but for the number of listings. -/
def SameButListings (p q : MemoryPlane) : Prop := ∃ lists : Nat, q = { p with lists := lists }

namespace SameButListings

variable {p q r : MemoryPlane}

theorem refl (p : MemoryPlane) : SameButListings p p := ⟨p.lists, rfl⟩

theorem trans (h : SameButListings p q) (h' : SameButListings q r) : SameButListings p r := by
  obtain ⟨n, rfl⟩ := h
  obtain ⟨m, rfl⟩ := h'
  exact ⟨m, rfl⟩

theorem created_eq (h : SameButListings p q) : q.created = p.created := by
  obtain ⟨n, rfl⟩ := h
  rfl

theorem creates_eq (h : SameButListings p q) : q.creates = p.creates := by
  obtain ⟨n, rfl⟩ := h
  rfl

end SameButListings

/-- A listing is counted, and changes nothing else. -/
theorem sameButListings_listing (plane : MemoryPlane) :
    SameButListings plane
      ((ControlPlane.listing : Lookup MemoryPlane _).run.run
        (ControlPlane.beginListing plane)).2 := by
  have hlisting : (ControlPlane.listing : Lookup MemoryPlane _) = listing := rfl
  rw [hlisting, run_listing]
  split <;> exact ⟨plane.lists + 1, rfl⟩

end ResourceNames.MemoryPlane
