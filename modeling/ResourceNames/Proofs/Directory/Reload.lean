import ResourceNames.Proofs.Directory.Sources

/-!
# What reloading keeps and what it forgets

* `reload_eq_loads`: after a reload the index is that of a fresh directory that loads the remembered
  sources one by one, whatever came before.
* `reload_unchanged_iff`: while the files stay the same, a reload changes a type exactly if another
  source becomes the last one to define it.
-/

namespace ResourceNames.StaticDirectory

open Files

variable {order : TypeIndex.IterationOrder}

/-- **Reloading forgets.** The sources are those that were loaded, without repeats, each where it
was loaded first, and none is ever forgotten. A reload leaves the types and validators that a fresh
directory has after loading these sources one by one, with or without success, and it fails exactly
if one of them fails. -/
theorem reload_eq_loads (authority : String) (steps : List Step) (fs : FileSystem) :
    let d := run authority steps order
    let reloaded := run authority (steps ++ [.reload fs]) order
    let fresh := run authority (d.index.sources.map (Step.load fs)) order
    (d.index.sources = (loaded authority steps).eraseDupsBy Source.same ∧
        ∀ more, d.index.sources <+: (run authority (steps ++ more) order).index.sources) ∧
      (reloaded.index.sources = d.index.sources ∧ reloaded.index.types = fresh.index.types ∧
        reloaded.index.validators = fresh.index.validators) ∧
      ((∃ fault, ((reload fs).run.run d).1 = .error (.loadFailed "refresh" fault)) ↔
        ∃ source ∈ d.index.sources, ∃ e, readSource authority fs source = .error e) ∧
      (((reload fs).run.run d).1 = .ok () ↔
        ∀ source ∈ d.index.sources, ∃ b, readSource authority fs source = .ok b) := by
  intro d reloaded fresh
  have hauthority : d.authority = authority := authority_run authority steps
  have hreloaded : reloaded.index.Holds _ := holds_run_reload authority steps fs
  have hfresh : fresh.index.Holds (d.index.sources.filterMap (reading? authority fs)) :=
    readings_loads authority fs d.index.sources ▸ holds_run authority _
  refine ⟨⟨sources_run authority steps, sources_run_prefix authority steps⟩,
    ⟨sources_run_reload authority steps fs, hreloaded.unique hfresh⟩, ?_, ?_⟩
  · rw [reload_eq_error_iff, hauthority]
  · rw [reload_eq_ok_iff, hauthority]

/-! ## Files that stay the same -/

/-- The files as they are at a step. -/
def Step.files : Step → FileSystem
  | load fs _ => fs
  | reload fs => fs

/-- The sources that an index is made of after a step, in the order in which they took effect. -/
def Step.applied (authority : String) (before : List Source) (step : Step) : List Source :=
  match step with
  | load .. => before ++ (step.loaded? authority).toList
  | reload _ => before.eraseDupsBy Source.same

/-- The sources that the index is made of after a run, in the order in which they took effect: a
load adds its source, a reload takes each source once. -/
def applied (authority : String) (steps : List Step) : List Source :=
  steps.foldl (Step.applied authority) []

theorem applied_concat (authority : String) (steps : List Step) (step : Step) :
    applied authority (steps ++ [step]) = step.applied authority (applied authority steps) := by
  simp [applied]

theorem loaded_concat (authority : String) (steps : List Step) (step : Step) :
    loaded authority (steps ++ [step]) =
      loaded authority steps ++ (step.loaded? authority).toList := by
  unfold loaded
  rw [List.filterMap_append, List.filterMap_cons, List.filterMap_nil]
  cases step.loaded? authority <;> rfl

/-- What was applied are the remembered sources, some of them perhaps repeated. -/
theorem eraseDupsBy_applied (authority : String) (steps : List Step) :
    (applied authority steps).eraseDupsBy Source.same =
      (run authority steps order).index.sources := by
  rw [sources_run]
  induction steps using List.reverseRecOn with
  | nil => rfl
  | append_singleton steps step ih =>
    rw [applied_concat, loaded_concat]
    cases step with
    | load fs source =>
      rw [Step.applied]
      cases (Step.load fs source).loaded? authority with
      | none => simpa using ih
      | some source =>
        rw [Option.toList_some, eraseDupsBy_concat, eraseDupsBy_concat, ih]
    | reload fs =>
      rw [Step.applied, eraseDupsBy_eraseDupsBy, ih]
      simp [Step.loaded?]

/-- If no source is loaded twice, what was applied is what was loaded. -/
theorem applied_eq_loaded {authority : String} {steps : List Step}
    (h : (loaded authority steps).Pairwise fun a b => b.same a = false) :
    applied authority steps = loaded authority steps := by
  induction steps using List.reverseRecOn with
  | nil => rfl
  | append_singleton steps step ih =>
    rw [loaded_concat] at h
    have hbefore := (List.pairwise_append.1 h).1
    rw [applied_concat, loaded_concat, ih hbefore]
    cases step with
    | load fs source => rfl
    | reload fs =>
      rw [Step.applied, eraseDupsBy_eq_self _ hbefore]
      exact (List.append_nil _).symm

section

variable {authority : String} {fs : FileSystem} {steps : List Step}
  (h : ∀ step ∈ steps, step.files = fs)

include h

theorem exists_readSource_of_mem_loaded {source : Source} (hs : source ∈ loaded authority steps) :
    ∃ b, readSource authority fs source = .ok b := by
  obtain ⟨step, hstep, hloaded⟩ := List.mem_filterMap.1 hs
  cases step with
  | load fs' source' =>
    obtain rfl : fs' = fs := h _ hstep
    simp only [Step.loaded?] at hloaded
    split at hloaded
    · rename_i b hb
      cases hloaded
      exact ⟨b, hb⟩
    · cases hloaded
  | reload fs' => cases hloaded

/-- What was read in a run is what there is to be read in the sources that were applied. -/
theorem readings_eq_of_files :
    readings authority steps = (applied authority steps).filterMap (reading? authority fs) := by
  induction steps using List.reverseRecOn with
  | nil => rfl
  | append_singleton steps step ih =>
    have hbefore : ∀ step ∈ steps, step.files = fs := fun s hs => h s (List.mem_append_left _ hs)
    have hstep : step.files = fs := h step (by simp)
    cases step with
    | load fs' source =>
      obtain rfl : fs' = fs := hstep
      rw [readings_concat, applied_concat, ih hbefore, Step.readings, Step.applied, authority_run,
        List.filterMap_append, Step.loaded?]
      cases hr : readSource authority fs' source with
      | ok b => simp [reading?_of_ok hr]
      | error e => simp [reading?_of_error hr]
    | reload fs' =>
      obtain rfl : fs' = fs := hstep
      rw [readings_reload, applied_concat, Step.applied, eraseDupsBy_applied]

end

/-! ## Types that several sources define -/

/-- The descriptors of a type that a source yields unless it fails. -/
def offers (authority : String) (fs : FileSystem) (key : String) (source : Source) :
    List TypeDescriptor :=
  ofKey key ((reading? authority fs source).getD [])

/-- The last of some sources that defines a type. -/
def definer? (authority : String) (fs : FileSystem) (key : String) (sources : List Source) :
    Option Source :=
  (sources.filter fun source => offers authority fs key source ≠ []).getLast?

/-- The descriptor of a type by a source. -/
def descriptor? (authority : String) (fs : FileSystem) (key : String) (source : Source) :
    Option TypeDescriptor :=
  (offers authority fs key source).getLast?

/-- The validator of a type by a source. -/
def validator? (authority : String) (fs : FileSystem) (key : String) (source : Source) :
    Option Validator :=
  ((offers authority fs key source).filterMap TypeDescriptor.validator?).getLast?

/-- Whether the last definers of a type in two rows of sources have the same descriptor and the same
validator for it. -/
def Agree (authority : String) (fs : FileSystem) (key : String) (sources others : List Source) :
    Prop :=
  (definer? authority fs key sources).bind (descriptor? authority fs key) =
      (definer? authority fs key others).bind (descriptor? authority fs key) ∧
    (definer? authority fs key sources).bind (validator? authority fs key) =
      (definer? authority fs key others).bind (validator? authority fs key)

/-- Of sources that are read one after the other, the last one that defines a type counts. -/
theorem latest_filterMap_reading? (authority : String) (fs : FileSystem) (key : String)
    (sources : List Source) :
    latest key (sources.filterMap (reading? authority fs)) =
      ((definer? authority fs key sources).map (offers authority fs key)).getD [] := by
  induction sources using List.reverseRecOn with
  | nil => rfl
  | append_singleton sources source ih =>
    have hlatest : latest key ((sources ++ [source]).filterMap (reading? authority fs)) =
        if offers authority fs key source = [] then
          latest key (sources.filterMap (reading? authority fs))
        else offers authority fs key source := by
      rw [List.filterMap_append, List.filterMap_cons, List.filterMap_nil, offers]
      cases reading? authority fs source with
      | none => simp [ofKey]
      | some ds => exact latest_concat key _ ds
    rw [hlatest, ih, definer?, definer?, List.filter_append]
    by_cases hs : offers authority fs key source = [] <;> simp [hs]

/-- What an index holds of a type is what the last source that defines it says. -/
theorem find?_of_holds {authority : String} {fs : FileSystem} {sources : List Source}
    {index : StaticIndex} (h : index.Holds (sources.filterMap (reading? authority fs)))
    (key : String) :
    index.types.types.find? key =
        (definer? authority fs key sources).bind (descriptor? authority fs key) ∧
      index.validators.find? key =
        (definer? authority fs key sources).bind (validator? authority fs key) := by
  rw [h.types, h.validators, latest_filterMap_reading?]
  cases definer? authority fs key sources with
  | none => exact ⟨rfl, rfl⟩
  | some source => exact ⟨rfl, rfl⟩

/-- **Reloading unchanged files.** It succeeds and keeps the sources. The descriptor and the
validator of a type stay as they are exactly if, of the sources that define the type, the last one
that is remembered and the last one that was applied agree on it; so all stay if no source was
loaded twice. -/
theorem reload_unchanged_iff {authority : String} {fs : FileSystem} {steps : List Step}
    (h : ∀ step ∈ steps, step.files = fs) :
    let d := run authority steps order
    let reloaded := run authority (steps ++ [.reload fs]) order
    (((reload fs).run.run d).1 = .ok () ∧ reloaded.index.sources = d.index.sources) ∧
      (∀ key, (reloaded.index.types.types.find? key = d.index.types.types.find? key ∧
          reloaded.index.validators.find? key = d.index.validators.find? key) ↔
        Agree authority fs key d.index.sources (applied authority steps)) ∧
      ((loaded authority steps).Pairwise (fun a b => b.same a = false) →
        reloaded.index.types = d.index.types ∧
          reloaded.index.validators = d.index.validators) := by
  intro d reloaded
  have hd : d.index.Holds ((applied authority steps).filterMap (reading? authority fs)) :=
    readings_eq_of_files h ▸ holds_run authority steps
  have hreloaded : reloaded.index.Holds _ := holds_run_reload authority steps fs
  refine ⟨⟨?_, sources_run_reload authority steps fs⟩, fun key => ?_, fun hdistinct => ?_⟩
  · rw [reload_eq_ok_iff]
    intro source hsource
    rw [show d.authority = authority from authority_run authority steps]
    refine exists_readSource_of_mem_loaded h (mem_of_mem_eraseDupsBy Source.same ?_)
    rwa [← sources_run]
  · obtain ⟨htypes, hvalidators⟩ := find?_of_holds hd key
    obtain ⟨htypes', hvalidators'⟩ := find?_of_holds hreloaded key
    rw [htypes, hvalidators, htypes', hvalidators', Agree]
  · have hsame : d.index.sources = applied authority steps := by
      rw [← eraseDupsBy_applied, applied_eq_loaded hdistinct]
      exact eraseDupsBy_eq_self _ hdistinct
    exact (hsame ▸ hreloaded).unique hd

/-! ## Two files that define the same type -/

/-- A definition of a type that the small run defines as well, without a URN template. -/
def plainLines : List String :=
  ["kind: CustomResourceDefinition", "metadata: {}", "spec:", " group: g", " names: {kind: t}",
    " versions:", " - {name: v, served: true, schema: {openAPIV3Schema: {}}}"]

def plainChars : List Char := plainLines.flatMap fun line => line.toList ++ ['\n']

def overlappingFiles : FileSystem where
  root := .directory
    [("a.yaml", .file (some sampleText)), ("b.yaml", .file (some (String.ofList plainChars)))]

def overlappingSources : List Source := [.pattern "a.yaml", .pattern "b.yaml", .pattern "a.yaml"]

/-- The first file is loaded again after the second one. -/
def overlappingSteps : List Step := overlappingSources.map (Step.load overlappingFiles)

theorem splitDocuments_plain :
    splitDocuments (String.ofList plainChars) = [(0, String.ofList plainChars)] :=
  splitDocuments_of_lines (by decide +kernel) (by decide +kernel) (by decide +kernel)

theorem readDocument_plain :
    Batch.readDocument "g" (String.ofList plainChars) =
      .ok (.types [sampleType "v" (.obj []) ""]) := by
  refine eq_ok_of_toOption ?_
  rw [Batch.readDocument, Yaml.parse?, Yaml.Document.ofText?, Yaml.Token.ofText?,
    String.toList_ofList]
  decide +kernel

/-- The contents of the two files. -/
theorem read_overlapping :
    overlappingFiles.read "a.yaml" = .ok sampleText ∧
      overlappingFiles.read "b.yaml" = .ok (String.ofList plainChars) := by
  -- The contents are kept out of the evaluation.
  have h : ∀ a b, let fs : FileSystem :=
      { root := .directory [("a.yaml", .file (some a)), ("b.yaml", .file (some b))] }
      fs.read "a.yaml" = .ok a ∧ fs.read "b.yaml" = .ok b := fun _ _ => ⟨rfl, rfl⟩
  exact h sampleText (String.ofList plainChars)

theorem reading?_sample : reading? "g" overlappingFiles (.pattern "a.yaml") = some sampleTypes := by
  have hfiles : (Source.pattern "a.yaml").files overlappingFiles = .ok ["a.yaml"] :=
    eq_ok_of_toOption (by decide +kernel)
  exact reading?_of_document hfiles read_overlapping.1 splitDocuments_sample readDocument_sample

theorem reading?_plain : reading? "g" overlappingFiles (.pattern "b.yaml") =
    some [sampleType "v" (.obj []) ""] := by
  have hfiles : (Source.pattern "b.yaml").files overlappingFiles = .ok ["b.yaml"] :=
    eq_ok_of_toOption (by decide +kernel)
  exact reading?_of_document hfiles read_overlapping.2 splitDocuments_plain readDocument_plain

theorem readings_overlapping :
    readings "g" overlappingSteps = [sampleTypes, [sampleType "v" (.obj []) ""], sampleTypes] := by
  rw [overlappingSteps, readings_loads, overlappingSources,
    List.filterMap_cons_some reading?_sample, List.filterMap_cons_some reading?_plain,
    List.filterMap_cons_some reading?_sample, List.filterMap_nil]

theorem sources_overlapping : (run "g" overlappingSteps).index.sources =
    [.pattern "a.yaml", .pattern "b.yaml"] := by
  have hloaded : loaded "g" overlappingSteps =
      [.pattern "a.yaml", .pattern "b.yaml", .pattern "a.yaml"] := by
    simp [loaded, overlappingSteps, overlappingSources, loaded?_of_reading? reading?_sample,
      loaded?_of_reading? reading?_plain]
  rw [sources_run, hloaded]
  decide +kernel

/-- Loading a file again puts its definitions before those of other files, and a reload puts them
back. -/
theorem not_forall_reload_unchanged :
    ¬ ∀ (authority : String) (fs : FileSystem) (steps : List Step),
      (∀ step ∈ steps, step.files = fs) →
      ((reload fs).run.run (run authority steps)).1 = .ok () ∧
        (∀ key,
          (run authority (steps ++ [.reload fs])).index.types.types.find? key =
              (run authority steps).index.types.types.find? key ∧
            (run authority (steps ++ [.reload fs])).index.validators.find? key =
              (run authority steps).index.validators.find? key) ∧
        (run authority (steps ++ [.reload fs])).index.sources =
          (run authority steps).index.sources := by
  intro h
  have hfiles : ∀ step ∈ overlappingSteps, step.files = overlappingFiles := by
    simp [overlappingSteps, overlappingSources, Step.files]
  have hkey := ((h "g" overlappingFiles overlappingSteps hfiles).2.1 "t.g/v").1
  rw [(holds_run _ _).types, (holds_run _ _).types, readings_reload, readings_overlapping,
    sources_overlapping, List.filterMap_cons_some reading?_sample,
    List.filterMap_cons_some reading?_plain, List.filterMap_nil] at hkey
  revert hkey
  decide +kernel

/-- What a reload changes when the first of the two files was loaded again. -/
theorem reload_unchanged_overlapping :
    (∀ step ∈ overlappingSteps, step.files = overlappingFiles) ∧
      let d := run "g" overlappingSteps
      let reloaded := run "g" (overlappingSteps ++ [.reload overlappingFiles])
      (((reload overlappingFiles).run.run d).1 = .ok () ∧
          reloaded.index.sources = d.index.sources) ∧
        (∀ key, (reloaded.index.types.types.find? key = d.index.types.types.find? key ∧
            reloaded.index.validators.find? key = d.index.validators.find? key) ↔
          Agree "g" overlappingFiles key d.index.sources (applied "g" overlappingSteps)) ∧
        ((loaded "g" overlappingSteps).Pairwise (fun a b => b.same a = false) →
          reloaded.index.types = d.index.types ∧
            reloaded.index.validators = d.index.validators) := by
  have hfiles : ∀ step ∈ overlappingSteps, step.files = overlappingFiles := by
    simp [overlappingSteps, overlappingSources, Step.files]
  exact ⟨hfiles, reload_unchanged_iff hfiles⟩

end ResourceNames.StaticDirectory
