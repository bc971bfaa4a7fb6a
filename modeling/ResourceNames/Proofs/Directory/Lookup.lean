import ResourceNames.Directory.Static
import ResourceNames.Proofs.Results

/-!
# Lookups

* `run_bind`, `run_tryCatch`: how actions that may fail run one after the other.
* `Keeps`: a property of the state that an action keeps, also if it fails.
* `run_getType`, `run_validateValue`, `run_getUrnTemplate`: a static directory answers from its
  index and stays as it is.
-/

namespace ResourceNames

/-! ## Actions -/

namespace Lookup

variable {σ α β : Type}

theorem run_bind (m : Lookup σ α) (f : α → Lookup σ β) (s : σ) :
    (m >>= f).run.run s =
      match m.run.run s with
      | (.ok a, t) => (f a).run.run t
      | (.error e, t) => (.error e, t) := by
  rw [ExceptT.run_bind, StateT.run_bind]
  rcases m.run.run s with ⟨e | a, t⟩ <;> rfl

theorem run_map (f : α → β) (m : Lookup σ α) (s : σ) :
    (f <$> m).run.run s =
      match m.run.run s with
      | (.ok a, t) => (.ok (f a), t)
      | (.error e, t) => (.error e, t) := by
  rw [ExceptT.run_map, StateT.run_map]
  rcases m.run.run s with ⟨e | a, t⟩ <;> rfl

theorem run_tryCatch (m : Lookup σ α) (handle : DirectoryError → Lookup σ α) (s : σ) :
    (tryCatch m handle).run.run s =
      match m.run.run s with
      | (.ok a, t) => (.ok a, t)
      | (.error e, t) => (handle e).run.run t := by
  rw [ExceptT.run_tryCatch, StateT.run_bind]
  rcases m.run.run s with ⟨e | a, t⟩ <;> rfl

theorem run_get (s : σ) : (get : Lookup σ σ).run.run s = (.ok s, s) := rfl

theorem run_liftExcept (x : Except DirectoryError α) (s : σ) :
    (liftExcept x : Lookup σ α).run.run s = (x, s) := by
  cases x <;> rfl

/-- Without failures, an action is followed by one on the state that it leaves. -/
theorem run_state_bind (m : StateM σ α) (f : α → StateM σ β) (s : σ) :
    (m >>= f).run s = (f (m.run s).1).run (m.run s).2 := rfl

end Lookup

/-! ## What actions keep -/

namespace Lookup

variable {σ α β : Type}

/-- An action keeps a property of the state, also if it fails. -/
def Keeps (P : σ → Prop) (m : Lookup σ α) : Prop := ∀ s, P s → P (m.run.run s).2

variable {P : σ → Prop}

theorem keeps_pure (a : α) : Keeps P (pure a : Lookup σ α) := fun _ hs => hs

theorem keeps_throw (e : DirectoryError) : Keeps P (throw e : Lookup σ α) := fun _ hs => hs

theorem keeps_liftExcept (x : Except DirectoryError α) : Keeps P (liftExcept x : Lookup σ α) := by
  intro s hs
  rwa [run_liftExcept]

theorem keeps_get : Keeps P (get : Lookup σ σ) := fun _ hs => hs

theorem Keeps.bind {m : Lookup σ α} {f : α → Lookup σ β} (hm : Keeps P m)
    (hf : ∀ a, Keeps P (f a)) : Keeps P (m >>= f) := by
  intro s hs
  have ht := hm s hs
  rw [run_bind]
  cases h : m.run.run s with
  | mk result t =>
    rw [h] at ht
    cases result with
    | error e => exact ht
    | ok a => exact hf a t ht

theorem Keeps.map {m : Lookup σ α} (hm : Keeps P m) (f : α → β) : Keeps P (f <$> m) := by
  intro s hs
  have ht := hm s hs
  rw [run_map]
  rcases h : m.run.run s with ⟨e | a, t⟩ <;> rwa [h] at ht

theorem Keeps.tryCatch {m : Lookup σ α} {handle : DirectoryError → Lookup σ α} (hm : Keeps P m)
    (hhandle : ∀ e, Keeps P (handle e)) : Keeps P (tryCatch m handle) := by
  intro s hs
  have ht := hm s hs
  rw [run_tryCatch]
  rcases h : m.run.run s with ⟨e | a, t⟩
  · rw [h] at ht
    exact hhandle e t ht
  · rwa [h] at ht

end Lookup

/-! ## Static directories -/

namespace StaticDirectory

variable (d : StaticDirectory)

theorem run_getType (key : String) :
    (TypeDirectory.getType key : Lookup StaticDirectory _).run.run d = (d.getType key, d) := by
  simp only [TypeDirectory.getType, Lookup.run_bind, Lookup.run_get, Lookup.run_liftExcept]

theorem run_validateValue (key : String) (value : Resource) :
    (TypeDirectory.validateValue key value : Lookup StaticDirectory _).run.run d =
      (d.validateValue key value, d) := by
  simp only [TypeDirectory.validateValue, Lookup.run_bind, Lookup.run_get, Lookup.run_liftExcept]

theorem run_getUrnTemplate (name version : String) :
    (TypeDirectory.getUrnTemplate name version : Lookup StaticDirectory _).run.run d =
      (d.getUrnTemplate name version, d) := by
  simp only [TypeDirectory.getUrnTemplate, Lookup.run_bind, Lookup.run_get, Lookup.run_liftExcept]

variable {d}

theorem find?_of_getType {key : String} {t : TypeDescriptor} (h : d.getType key = .ok t) :
    d.index.types.find? key = some t := by
  unfold getType at h
  split at h
  · rename_i ht
    cases h
    exact ht
  · cases h

theorem eq_notFound_of_getType {key : String} {e : DirectoryError} (h : d.getType key = .error e) :
    e = .notFound key := by
  unfold getType at h
  split at h
  · cases h
  · cases h
    rfl

theorem getType_of_find? {key : String} {t : TypeDescriptor}
    (h : d.index.types.find? key = some t) : d.getType key = .ok t := by
  simp only [getType, h]

end StaticDirectory

end ResourceNames
