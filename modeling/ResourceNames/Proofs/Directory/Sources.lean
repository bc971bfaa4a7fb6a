import ResourceNames.Proofs.Directory.Run

/-!
# The sources of static directories

* `sources_run`: after a run, the sources are those that were loaded, without repeats, in the order
  in which they were first loaded.
* `sources_rebuild`, `faults_rebuild`: a rebuilt index keeps all sources, and each that fails is
  reported.
-/

namespace ResourceNames

open Files

/-! ## Lists without repeats -/

section

variable {α : Type} (r : α → α → Bool)

theorem eraseDupsBy_concat (xs : List α) (x : α) :
    (xs ++ [x]).eraseDupsBy r =
      if (xs.eraseDupsBy r).any (r x) then xs.eraseDupsBy r else xs.eraseDupsBy r ++ [x] := by
  unfold List.eraseDupsBy
  -- The induction is over the members that are left, with those kept before in reverse.
  suffices h : ∀ kept, List.eraseDupsBy.loop r (xs ++ [x]) kept =
      if (List.eraseDupsBy.loop r xs kept).any (r x) then List.eraseDupsBy.loop r xs kept
      else List.eraseDupsBy.loop r xs kept ++ [x] from h []
  induction xs with
  | nil =>
    intro kept
    simp only [List.nil_append, List.eraseDupsBy.loop, List.any_reverse]
    cases kept.any (r x) <;> simp
  | cons y xs ih =>
    intro kept
    cases hy : kept.any (r y) with
    | true => simpa only [List.cons_append, List.eraseDupsBy.loop, hy] using ih kept
    | false => simpa only [List.cons_append, List.eraseDupsBy.loop, hy] using ih (y :: kept)

/-- Of a list without repeats nothing is erased. -/
theorem eraseDupsBy_eq_self {xs : List α} (h : xs.Pairwise fun a b => r b a = false) :
    xs.eraseDupsBy r = xs := by
  induction xs using List.reverseRecOn with
  | nil => rfl
  | append_singleton xs x ih =>
    obtain ⟨hxs, -, hx⟩ := List.pairwise_append.1 h
    have hnew : xs.any (r x) = false := by
      rw [List.any_eq_false]
      intro a ha
      simp [hx a ha x List.mem_cons_self]
    rw [eraseDupsBy_concat, ih hxs, hnew]
    rfl

theorem pairwise_eraseDupsBy (xs : List α) :
    (xs.eraseDupsBy r).Pairwise fun a b => r b a = false := by
  induction xs using List.reverseRecOn with
  | nil => exact List.Pairwise.nil
  | append_singleton xs x ih =>
    rw [eraseDupsBy_concat]
    split
    · exact ih
    · rename_i hnew
      rw [Bool.not_eq_true, List.any_eq_false] at hnew
      refine List.pairwise_append.2 ⟨ih, List.pairwise_singleton _ _, fun a ha b hb => ?_⟩
      rw [List.mem_singleton.1 hb]
      simpa using hnew a ha

theorem eraseDupsBy_eraseDupsBy (xs : List α) :
    (xs.eraseDupsBy r).eraseDupsBy r = xs.eraseDupsBy r :=
  eraseDupsBy_eq_self r (pairwise_eraseDupsBy r xs)

theorem mem_of_mem_eraseDupsBy {xs : List α} {x : α} (h : x ∈ xs.eraseDupsBy r) : x ∈ xs := by
  induction xs using List.reverseRecOn with
  | nil => cases h
  | append_singleton xs y ih =>
    rw [eraseDupsBy_concat] at h
    split at h
    · exact List.mem_append_left _ (ih h)
    · exact (List.mem_append.1 h).elim (fun h => List.mem_append_left _ (ih h))
        (List.mem_append_right _)

end

theorem Source.same_comm (a b : Source) : a.same b = b.same a := by
  cases a <;> cases b <;> simp [Source.same, samePath, eq_comm]

theorem StaticIndex.sources_addSource (index : StaticIndex) (source : Source) :
    (index.addSource source).sources =
      if index.sources.any source.same then index.sources else index.sources ++ [source] := by
  have hcomm : (fun s : Source => s.same source) = source.same := funext fun s => s.same_comm source
  unfold StaticIndex.addSource
  rw [hcomm]
  split <;> rfl

namespace StaticDirectory

variable {order : TypeIndex.IterationOrder}

/-! ## Rebuilt indexes -/

/-- What a reload reports of a source, if it fails. -/
def fault? (authority : String) (fs : FileSystem) (source : Source) : Option String :=
  match readSource authority fs source with
  | .ok _ => none
  | .error e => some s!"{source.text}: {e.message}"

theorem sources_rebuild (authority : String) (fs : FileSystem) (sources : List Source) :
    (rebuild authority fs sources).1.sources = sources := by
  induction sources using List.reverseRecOn with
  | nil => rfl
  | append_singleton sources source ih =>
    rw [rebuild_concat]
    cases readSource authority fs source <;> exact congrArg (· ++ [source]) ih

theorem faults_rebuild (authority : String) (fs : FileSystem) (sources : List Source) :
    (rebuild authority fs sources).2 = sources.filterMap (fault? authority fs) := by
  induction sources using List.reverseRecOn with
  | nil => rfl
  | append_singleton sources source ih =>
    rw [rebuild_concat, List.filterMap_append, ← ih, List.filterMap_cons]
    unfold fault?
    cases readSource authority fs source with
    | ok b => exact (List.append_nil _).symm
    | error e => rfl

/-- What a reload answers. -/
theorem result_reload (d : StaticDirectory) (fs : FileSystem) :
    ((reload fs).run.run d).1 =
      match d.index.sources.filterMap (fault? d.authority fs) with
      | [] => .ok ()
      | faults => .error (.loadFailed "refresh" ("; ".intercalate faults)) := by
  unfold reload
  rw [Lookup.run_bind, Lookup.run_get]
  simp only
  split
  · rename_i hempty
    rw [List.isEmpty_iff.1 hempty]
    rfl
  · rw [← faults_rebuild]
    cases (rebuild d.authority fs d.index.sources).2 <;> rfl

theorem filterMap_fault?_eq_nil_iff (authority : String) (fs : FileSystem)
    (sources : List Source) :
    sources.filterMap (fault? authority fs) = [] ↔
      ∀ source ∈ sources, ∃ b, readSource authority fs source = .ok b := by
  rw [List.filterMap_eq_nil_iff]
  refine forall₂_congr fun source _ => ?_
  unfold fault?
  cases readSource authority fs source <;> simp

/-- A reload succeeds if all sources do. -/
theorem reload_eq_ok_iff (d : StaticDirectory) (fs : FileSystem) :
    ((reload fs).run.run d).1 = .ok () ↔
      ∀ source ∈ d.index.sources, ∃ b, readSource d.authority fs source = .ok b := by
  rw [result_reload, ← filterMap_fault?_eq_nil_iff]
  cases d.index.sources.filterMap (fault? d.authority fs) <;> simp

/-- A reload fails if a source fails, and only with a report of those. -/
theorem reload_eq_error_iff (d : StaticDirectory) (fs : FileSystem) :
    (∃ fault, ((reload fs).run.run d).1 = .error (.loadFailed "refresh" fault)) ↔
      ∃ source ∈ d.index.sources, ∃ e, readSource d.authority fs source = .error e := by
  have hnot : (∃ source ∈ d.index.sources, ∃ e, readSource d.authority fs source = .error e) ↔
      ¬ ∀ source ∈ d.index.sources, ∃ b, readSource d.authority fs source = .ok b := by
    simp only [not_forall, exists_prop]
    refine exists_congr fun source => and_congr_right fun _ => ?_
    cases readSource d.authority fs source <;> simp
  rw [result_reload, hnot, ← filterMap_fault?_eq_nil_iff]
  cases d.index.sources.filterMap (fault? d.authority fs) <;> simp

/-! ## Runs -/

/-- The source that a step loads, if it does. -/
def Step.loaded? (authority : String) : Step → Option Source
  | load fs source =>
    match readSource authority fs source with
    | .ok _ => some source
    | .error _ => none
  | reload _ => none

theorem loaded?_of_reading? {authority : String} {fs : FileSystem} {source : Source}
    {ds : List TypeDescriptor} (h : reading? authority fs source = some ds) :
    (Step.load fs source).loaded? authority = some source := by
  unfold reading? at h
  cases hr : readSource authority fs source with
  | ok b => simp only [Step.loaded?, hr]
  | error e =>
    rw [hr] at h
    cases h

/-- The sources that were loaded in a run, in the order of the calls. -/
def loaded (authority : String) (steps : List Step) : List Source :=
  steps.filterMap (Step.loaded? authority)

theorem sources_apply (d : StaticDirectory) (step : Step) :
    (step.apply d).index.sources =
      match step.loaded? d.authority with
      | some source => (d.index.addSource source).sources
      | none => d.index.sources := by
  cases step with
  | load fs source =>
    simp only [Step.apply, run_load, Step.loaded?]
    cases readSource d.authority fs source with
    | ok b => simp only [StaticIndex.sources_addSource, StaticIndex.absorb]
    | error e => rfl
  | reload fs =>
    simp only [Step.apply, run_reload, Step.loaded?]
    split
    · rfl
    · exact sources_rebuild _ _ _

/-- A run remembers the sources that were loaded, each where it was first. -/
theorem sources_run (authority : String) (steps : List Step) :
    (run authority steps order).index.sources =
      (loaded authority steps).eraseDupsBy Source.same := by
  induction steps using List.reverseRecOn with
  | nil => rfl
  | append_singleton steps step ih =>
    unfold loaded at ih ⊢
    rw [run_concat, sources_apply, authority_run, List.filterMap_append, List.filterMap_cons]
    cases step.loaded? authority with
    | none => simpa using ih
    | some source =>
      simp only [List.filterMap_nil, StaticIndex.sources_addSource, eraseDupsBy_concat, ih]

/-- No step makes a run forget a source. -/
theorem sources_run_prefix (authority : String) (steps more : List Step) :
    (run authority steps order).index.sources <+:
      (run authority (steps ++ more) order).index.sources := by
  induction more using List.reverseRecOn with
  | nil => exact (List.append_nil steps).symm ▸ List.prefix_rfl
  | append_singleton more step ih =>
    rw [← List.append_assoc, run_concat, sources_apply]
    refine ih.trans ?_
    split
    · rw [StaticIndex.sources_addSource]
      split
      · exact List.prefix_rfl
      · exact List.prefix_append _ _
    · exact List.prefix_rfl

/-- Without sources nothing was read. -/
theorem readings_eq_nil {authority : String} {steps : List Step}
    (h : (run authority steps).index.sources = []) : readings authority steps = [] := by
  induction steps using List.reverseRecOn with
  | nil => rfl
  | append_singleton steps step ih =>
    have hbefore : (run authority steps).index.sources = [] :=
      List.prefix_nil.1 (h ▸ sources_run_prefix authority steps [step])
    rw [readings_concat]
    cases step with
    | load fs source =>
      cases hr : readSource authority fs source with
      | ok b =>
        rw [run_concat, sources_apply, authority_run] at h
        simp [Step.loaded?, hr, StaticIndex.sources_addSource, hbefore] at h
      | error e => rw [Step.readings, authority_run, reading?_of_error hr, ih hbefore]; rfl
    | reload fs =>
      rw [Step.readings, hbefore]
      exact ih hbefore

/-- A reload reads the remembered sources, and nothing else stays. -/
theorem readings_reload (authority : String) (steps : List Step) (fs : FileSystem) :
    readings authority (steps ++ [.reload fs]) =
      (run authority steps).index.sources.filterMap (reading? authority fs) := by
  rw [readings_concat, Step.readings, authority_run]
  split
  · rename_i hempty
    have hnil := List.isEmpty_iff.1 hempty
    rw [readings_eq_nil hnil, hnil, List.filterMap_nil]
  · rfl

/-- After a reload, the index holds what the remembered sources yield. -/
theorem holds_run_reload (authority : String) (steps : List Step) (fs : FileSystem) :
    (run authority (steps ++ [.reload fs]) order).index.Holds
      ((run authority steps order).index.sources.filterMap (reading? authority fs)) := by
  rw [index_run authority steps, ← readings_reload]
  exact holds_run authority (steps ++ [.reload fs])

theorem sources_run_reload (authority : String) (steps : List Step) (fs : FileSystem) :
    (run authority (steps ++ [.reload fs]) order).index.sources =
      (run authority steps order).index.sources := by
  rw [run_concat]
  exact sources_apply (run authority steps order) (.reload fs)

/-- Loading some sources in a fresh directory reads them. -/
theorem readings_loads (authority : String) (fs : FileSystem) (sources : List Source) :
    readings authority (sources.map (Step.load fs)) = sources.filterMap (reading? authority fs) := by
  induction sources using List.reverseRecOn with
  | nil => rfl
  | append_singleton sources source ih =>
    rw [List.map_append, List.map_singleton, readings_concat, ih, Step.readings, authority_run,
      List.filterMap_append, List.filterMap_cons]
    cases reading? authority fs source <;> rfl

end StaticDirectory

end ResourceNames
