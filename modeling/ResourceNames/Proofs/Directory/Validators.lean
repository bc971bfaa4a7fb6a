import ResourceNames.Proofs.Directory.Run

/-!
# Validators of static directories

* `find?_validators_run_iff`: the validator of a type is that of its descriptor, unless a
  descriptor without a usable schema follows, in the same reading, one of the same type with a
  usable schema.
-/

namespace ResourceNames.StaticDirectory

open Files

variable {order : TypeIndex.IterationOrder}

/-- The last value that a function has for the members of a list is that for the last member,
unless that has none and another one has. -/
theorem getLast?_filterMap_eq_iff {α β : Type} (f : α → Option β) (xs : List α) :
    (xs.filterMap f).getLast? = xs.getLast?.bind f ↔
      (xs.getLast?.bind f).isSome ∨ ∀ x ∈ xs, f x = none := by
  induction xs using List.reverseRecOn with
  | nil => simp
  | append_singleton xs x _ =>
    rw [List.filterMap_append, List.getLast?_concat, Option.bind_some]
    cases hx : f x with
    | some y => simp [hx]
    | none =>
      rw [List.filterMap_cons, hx, List.filterMap_nil, List.append_nil, List.getLast?_eq_none_iff,
        List.filterMap_eq_nil_iff]
      simp only [Option.isSome_none, Bool.false_eq_true, false_or, List.forall_mem_append,
        List.forall_mem_singleton, hx, and_true]

/-- **Validators belong to descriptors.** After a run, the validator of a type is the one of its
descriptor exactly if, in the last reading of the type, its last descriptor has a validator or none
has. -/
theorem find?_validators_run_iff (authority : String) (steps : List Step) (key : String) :
    (run authority steps order).index.validators.find? key =
        ((run authority steps order).index.types.types.find? key).bind TypeDescriptor.validator? ↔
      ((latest key (readings authority steps)).getLast?.bind TypeDescriptor.validator?).isSome ∨
        ∀ t ∈ latest key (readings authority steps), t.validator? = none := by
  have h : (run authority steps order).index.Holds _ := holds_run authority steps
  rw [h.types, h.validators]
  exact getLast?_filterMap_eq_iff _ _

/-- In the small run, a type without a schema keeps the validator of the version before. -/
theorem not_forall_find?_validators_eq :
    ¬ ∀ (authority : String) (steps : List Step) (key : String),
      (run authority steps).index.validators.find? key =
        ((run authority steps).index.types.types.find? key).bind TypeDescriptor.validator? := by
  intro h
  have hlatest : latest "t.g/w" (readings "g" sampleSteps) =
      [sampleType "W" (.obj []) "", sampleType "w" .null ""] := by
    rw [readings_sample]
    decide +kernel
  have hW : (sampleType "W" (.obj []) "").validator? = some ⟨.keywords [], [], 1⟩ := compile?_empty
  have hw : (sampleType "w" .null "").validator? = none := rfl
  have hholds : (run "g" sampleSteps).index.Holds _ := holds_run "g" sampleSteps
  have heq := h "g" sampleSteps "t.g/w"
  rw [hholds.types, hholds.validators, hlatest] at heq
  simp [hW, hw] at heq

end ResourceNames.StaticDirectory
