import Mathlib.Data.List.Induction
import ResourceNames.Proofs.Directory.Lookup
import ResourceNames.Proofs.Directory.Reading

/-!
# Runs of static directories

A run loads sources and reloads them, and the files may be others at each step.

* `run_eq`: it does not count for a run in which order a directory goes through its types.
* `holds_run`: after a run, the index holds what was read since it was last built anew.
* `typeKey_of_find?_run`: each type is found under its own key.
-/

namespace ResourceNames

open Files

namespace StaticDirectory

/-! ## Steps -/

theorem run_load (fs : FileSystem) (source : Source) (d : StaticDirectory) :
    (load fs source).run.run d =
      match readSource d.authority fs source with
      | .error e => (.error e, d)
      | .ok b => (.ok b.summary, { d with index := (d.index.absorb b).addSource source }) := by
  unfold load
  rw [Lookup.run_bind, Lookup.run_get]
  simp only
  cases readSource d.authority fs source with
  | error e => rfl
  | ok b => rfl

theorem run_reload (fs : FileSystem) (d : StaticDirectory) :
    ((reload fs).run.run d).2 =
      if d.index.sources.isEmpty then d
      else { d with index := (rebuild d.authority fs d.index.sources).1 } := by
  unfold reload
  rw [Lookup.run_bind, Lookup.run_get]
  simp only
  split
  · rfl
  · split <;> rfl

/-- What is done to a directory, with the files as they are then. -/
inductive Step where
  | load (fs : FileSystem) (source : Source)
  | reload (fs : FileSystem)

/-- The directory after a step, which may have failed. -/
def Step.apply (d : StaticDirectory) : Step → StaticDirectory
  | load fs source => ((StaticDirectory.load fs source).run.run d).2
  | reload fs => ((StaticDirectory.reload fs).run.run d).2

/-- What an index holds the types of after a step on a directory, if it held those of `readings`
before. -/
def Step.readings (d : StaticDirectory) (readings : List (List TypeDescriptor)) :
    Step → List (List TypeDescriptor)
  | load fs source => readings ++ (reading? d.authority fs source).toList
  | reload fs =>
    if d.index.sources.isEmpty then readings
    else d.index.sources.filterMap (reading? d.authority fs)

theorem reading?_of_ok {authority : String} {fs : FileSystem} {source : Source} {b : Batch}
    (h : readSource authority fs source = .ok b) :
    reading? authority fs source = some (sourceTypes authority fs source) := by
  simp only [reading?, h]

theorem reading?_of_error {authority : String} {fs : FileSystem} {source : Source}
    {e : DirectoryError} (h : readSource authority fs source = .error e) :
    reading? authority fs source = none := by
  simp only [reading?, h]

/-- What one more source adds to an index that is built anew. -/
theorem rebuild_concat (authority : String) (fs : FileSystem) (sources : List Source)
    (source : Source) :
    rebuild authority fs (sources ++ [source]) =
      match rebuild authority fs sources, readSource authority fs source with
      | (index, faults), .ok batch =>
        ({ index.absorb batch with sources := index.sources ++ [source] }, faults)
      | (index, faults), .error e =>
        ({ index with sources := index.sources ++ [source] },
          faults ++ [s!"{source.text}: {e.message}"]) := by
  unfold rebuild
  rw [List.foldl_append, List.foldl_cons, List.foldl_nil]
  cases readSource authority fs source <;> rfl

/-- An index built anew holds what its sources yield, those that fail left out. -/
theorem holds_rebuild (authority : String) (fs : FileSystem) (sources : List Source) :
    (rebuild authority fs sources).1.Holds (sources.filterMap (reading? authority fs)) := by
  induction sources using List.reverseRecOn with
  | nil => exact StaticIndex.holds_empty
  | append_singleton sources source ih =>
    rw [rebuild_concat, List.filterMap_append, List.filterMap_cons]
    cases hr : readSource authority fs source with
    | error e =>
      rw [reading?_of_error hr, List.filterMap_nil, List.append_nil]
      exact ih.of_eq rfl rfl
    | ok b =>
      rw [reading?_of_ok hr]
      exact (ih.absorb (readSource_holds hr)).of_eq rfl rfl

theorem holds_apply {d : StaticDirectory} {readings : List (List TypeDescriptor)}
    (h : d.index.Holds readings) (step : Step) :
    (step.apply d).index.Holds (step.readings d readings) := by
  cases step with
  | load fs source =>
    simp only [Step.apply, Step.readings, run_load]
    cases hr : readSource d.authority fs source with
    | error e =>
      rw [reading?_of_error hr]
      simpa using h
    | ok b =>
      rw [reading?_of_ok hr]
      exact (h.absorb (readSource_holds hr)).addSource source
  | reload fs =>
    simp only [Step.apply, Step.readings, run_reload]
    split
    · exact h
    · exact holds_rebuild d.authority fs d.index.sources

/-! ## Runs -/

/-- The directory for a naming authority after some steps. -/
def run (authority : String) (steps : List Step)
    (order : TypeIndex.IterationOrder := .ascending) : StaticDirectory :=
  steps.foldl Step.apply { authority, order }

/-- A run together with what was read, source by source, since the index was last built anew. -/
def trace (authority : String) (steps : List Step) :
    StaticDirectory × List (List TypeDescriptor) :=
  steps.foldl (fun t step => (step.apply t.1, step.readings t.1 t.2)) ({ authority }, [])

/-- What the index holds the types of after a run. -/
def readings (authority : String) (steps : List Step) : List (List TypeDescriptor) :=
  (trace authority steps).2

variable {order : TypeIndex.IterationOrder}

theorem run_concat (authority : String) (steps : List Step) (step : Step) :
    run authority (steps ++ [step]) order = step.apply (run authority steps order) := by
  simp [run]

theorem apply_withOrder (d : StaticDirectory) (step : Step) (order : TypeIndex.IterationOrder) :
    step.apply { d with order } = { step.apply d with order } := by
  cases step with
  | load fs source =>
    simp only [Step.apply, run_load]
    cases readSource d.authority fs source <;> rfl
  | reload fs =>
    simp only [Step.apply, run_reload]
    split <;> rfl

/-- The order in which descriptors are gone through plays no part in a run. -/
theorem run_eq (authority : String) (steps : List Step) (order : TypeIndex.IterationOrder) :
    run authority steps order = { run authority steps with order } := by
  induction steps using List.reverseRecOn with
  | nil => rfl
  | append_singleton steps step ih => rw [run_concat, run_concat, ih, apply_withOrder]

theorem index_run (authority : String) (steps : List Step) :
    (run authority steps order).index = (run authority steps).index := by
  rw [run_eq]

@[simp] theorem order_run (authority : String) (steps : List Step) :
    (run authority steps order).order = order := by
  rw [run_eq]

theorem trace_concat (authority : String) (steps : List Step) (step : Step) :
    trace authority (steps ++ [step]) =
      (step.apply (trace authority steps).1,
        step.readings (trace authority steps).1 (trace authority steps).2) := by
  simp [trace]

theorem trace_fst (authority : String) (steps : List Step) :
    (trace authority steps).1 = run authority steps := by
  induction steps using List.reverseRecOn with
  | nil => rfl
  | append_singleton steps step ih => rw [trace_concat, run_concat, ih]

theorem readings_concat (authority : String) (steps : List Step) (step : Step) :
    readings authority (steps ++ [step]) =
      step.readings (run authority steps) (readings authority steps) := by
  unfold readings
  rw [trace_concat, trace_fst]

@[simp] theorem authority_apply (d : StaticDirectory) (step : Step) :
    (step.apply d).authority = d.authority := by
  cases step with
  | load fs source =>
    simp only [Step.apply, run_load]
    cases readSource d.authority fs source <;> rfl
  | reload fs =>
    simp only [Step.apply, run_reload]
    split <;> rfl

@[simp] theorem authority_run (authority : String) (steps : List Step) :
    (run authority steps order).authority = authority := by
  induction steps using List.reverseRecOn with
  | nil => rfl
  | append_singleton steps step ih => rw [run_concat, authority_apply, ih]

/-- After a run, the index holds what was read. -/
theorem holds_run (authority : String) (steps : List Step) :
    (run authority steps order).index.Holds (readings authority steps) := by
  rw [index_run]
  induction steps using List.reverseRecOn with
  | nil => exact StaticIndex.holds_empty
  | append_singleton steps step ih =>
    rw [run_concat, readings_concat]
    exact holds_apply ih step

/-- The descriptors of a type have its key. -/
theorem typeKey_of_mem_latest {key : String} {readings : List (List TypeDescriptor)}
    {t : TypeDescriptor} (h : t ∈ latest key readings) : t.typeKey = key := by
  induction readings using List.reverseRecOn with
  | nil => cases h
  | append_singleton readings ds ih =>
    rw [latest_concat] at h
    split at h
    · exact ih h
    · exact (mem_ofKey_iff.1 h).2

theorem typeKey_of_find?_run {authority : String} {steps : List Step} {key : String}
    {t : TypeDescriptor} (h : (run authority steps order).index.types.types.find? key = some t) :
    t.typeKey = key := by
  rw [(holds_run authority steps).types] at h
  exact typeKey_of_mem_latest (List.mem_of_getLast? h)

/-! ## A small run -/

theorem readings_load {authority : String} {fs : FileSystem} {source : Source}
    {ds : List TypeDescriptor} (h : reading? authority fs source = some ds) :
    readings authority [.load fs source] = [ds] := by
  simp [readings, trace, Step.readings, h]

/-- A definition with three versions, of which two share their key and one has no schema. -/
def sampleLines : List String :=
  ["kind: CustomResourceDefinition", "metadata:", " annotations:",
    "  ccrn/v.urn-template: urn:ccrn:<ccrn>/<a>/<b>", "spec:", " group: g", " names: {kind: t}",
    " versions:", " - {name: v, served: true, schema: {openAPIV3Schema: {}}}",
    " - {name: W, served: true, schema: {openAPIV3Schema: {}}}", " - {name: w, served: true}"]

def sampleChars : List Char := sampleLines.flatMap fun line => line.toList ++ ['\n']

def sampleText : String := String.ofList sampleChars

/-- A version of the type that the definition describes. -/
def sampleType (version : String) (schema : Json) (urnTemplate : String) : TypeDescriptor :=
  ⟨"", "g", "t", version, "t", "t", schema, urnTemplate⟩

def sampleTemplate : String := "urn:ccrn:<ccrn>/<a>/<b>"

def sampleTypes : List TypeDescriptor :=
  [sampleType "v" (.obj []) sampleTemplate, sampleType "W" (.obj []) "", sampleType "w" .null ""]

def sampleFiles : FileSystem where
  root := .directory [("a.yaml", .file (some sampleText))]

def sampleSteps : List Step := [.load sampleFiles (.pattern "a.yaml")]

theorem files_sample : (Source.pattern "a.yaml").files sampleFiles = .ok ["a.yaml"] :=
  eq_ok_of_toOption (by decide +kernel)

/-- A file is read without a look at its content, which so stays out of the evaluation. -/
theorem read_single (text : String) :
    ({ root := .directory [("a.yaml", .file (some text))] } : FileSystem).read "a.yaml" =
      .ok text := rfl

theorem read_sample : sampleFiles.read "a.yaml" = .ok sampleText := read_single sampleText

theorem splitDocuments_of_lines {chars : List Char}
    (hlines : (Documents.lines chars).splitOnP Documents.isSeparator = [Documents.lines chars])
    (hcontent : (Documents.lines chars).any Documents.hasContent = true)
    (htext : ((Documents.lines chars).flatMap fun line => line ++ ['\n']) = chars) :
    splitDocuments (String.ofList chars) = [(0, String.ofList chars)] := by
  rw [splitDocuments, String.toList_ofList]
  simp only [hlines, List.zipIdx, List.filterMap, Documents.document?, hcontent, if_true, htext]

theorem splitDocuments_sample : splitDocuments sampleText = [(0, sampleText)] :=
  splitDocuments_of_lines (by decide +kernel) (by decide +kernel) (by decide +kernel)

theorem readDocument_sample : Batch.readDocument "g" sampleText = .ok (.types sampleTypes) := by
  refine eq_ok_of_toOption ?_
  rw [sampleText, Batch.readDocument, Yaml.parse?, Yaml.Document.ofText?, Yaml.Token.ofText?,
    String.toList_ofList]
  decide +kernel

theorem readings_sample : readings "g" sampleSteps = [sampleTypes] :=
  readings_load
    (reading?_of_document files_sample read_sample splitDocuments_sample readDocument_sample)

theorem latest_sample : latest "t.g/v" (readings "g" sampleSteps) =
    [sampleType "v" (.obj []) sampleTemplate] := by
  rw [readings_sample]
  decide +kernel

theorem normalizeTypeKey_sample : normalizeTypeKey "t.g/v" = "t.g/v" := by decide +kernel

theorem find?_types_sample : (run "g" sampleSteps).index.types.find? "t.g/v" =
    some (sampleType "v" (.obj []) sampleTemplate) := by
  unfold TypeIndex.find?
  rw [normalizeTypeKey_sample, (holds_run _ _).types, latest_sample]
  rfl

theorem compile?_empty : Validator.compile? (.obj []) = some ⟨.keywords [], [], 1⟩ := rfl

theorem find?_validators_sample :
    (run "g" sampleSteps).index.validators.find? "t.g/v" = some ⟨.keywords [], [], 1⟩ := by
  rw [(holds_run _ _).validators, latest_sample]
  rfl

end StaticDirectory

end ResourceNames
