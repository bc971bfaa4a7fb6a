import ResourceNames.Proofs.ControlPlane.Memory
import ResourceNames.Proofs.Directory.DistinctTypes
import ResourceNames.Proofs.Live.Answers
import ResourceNames.Proofs.Verdict.Steps
import ResourceNames.Proofs.Verdict.UnknownTypes

/-!
# Verdicts of static and live directories

A static directory checks a resource as an object with a `metadata` block. A live one submits the
object without the block, which is for the control plane to set.

* `Mirrors`: a live directory knows what a static one knows, and a refresh adds nothing to it.
* `TypeDescriptor.outcome`: what comes of a check of an object.
* `verdict_agree_iff`: the verdicts of both agree unless the block counts for the schema.
-/

namespace ResourceNames

open Files

/-! ## Outcomes -/

/-- What a verdict says in the end. -/
def Verdict.outcome (v : Verdict) : Bool × Option Reason := (v.valid, v.reason)

theorem Verdict.outcome_eq_iff {v w : Verdict} :
    v.outcome = w.outcome ↔ v.valid = w.valid ∧ v.reason = w.reason := by
  unfold outcome
  rw [Prod.mk.injEq]

/-- What comes of the check of an object against the schema of a type. -/
def TypeDescriptor.outcome (t : TypeDescriptor) (object : Json) : Bool × Option Reason :=
  match Validator.compile? t.schema with
  | none => (false, some .backend)
  | some validator =>
    if validator.accepts object then (true, none) else (false, some .schemaViolation)

theorem TypeDescriptor.outcome_eq_iff {t : TypeDescriptor} {a b : Json} :
    t.outcome a = t.outcome b ↔ ∀ validator, Validator.compile? t.schema = some validator →
      validator.accepts a = validator.accepts b := by
  unfold outcome
  cases Validator.compile? t.schema with
  | none => simp
  | some validator =>
    simp only [Option.some.injEq, forall_eq']
    cases validator.accepts a <;> cases validator.accepts b <;> simp

/-- The outcome of a rejected look-up. -/
theorem outcome_ofLookupFailure (key : String) (e : DirectoryError) (r : Resource) :
    ((Verdict.ofLookupFailure key e).withParsed r).outcome =
      (false, some (Reason.ofDirectoryError e)) := by
  unfold Verdict.ofLookupFailure
  cases e <;> rfl

/-- The object that a static directory checks a resource as. -/
def StaticDirectory.checkedObject (t : TypeDescriptor) (r : Resource) : Json :=
  r.toObject validationNamespace s!"{Text.lower t.kind}-validation"

/-- The object that a live directory submits a resource as. -/
def Live.submittedObject (namespaceName : String) (t : TypeDescriptor) (r : Resource) : Json :=
  submission r namespaceName (objectName t.kind)

/-- What comes of a resource if it is checked as some object of its type, if that is known. -/
def TypeIndex.outcome (index : TypeIndex) (object : TypeDescriptor → Resource → Json)
    (r : Resource) : Bool × Option Reason :=
  match index.find? r.typeKey with
  | none => (false, some .unsupportedType)
  | some t => t.outcome (object t r)

theorem TypeIndex.outcome_eq_iff {index : TypeIndex} {f g : TypeDescriptor → Resource → Json}
    {r : Resource} :
    index.outcome f r = index.outcome g r ↔ ∀ t validator, index.find? r.typeKey = some t →
      Validator.compile? t.schema = some validator →
      validator.accepts (f t r) = validator.accepts (g t r) := by
  unfold outcome
  cases index.find? r.typeKey with
  | none => simp
  | some t =>
    simp only [TypeDescriptor.outcome_eq_iff, Option.some.injEq]
    constructor
    · rintro h _ validator rfl
      exact h validator
    · exact fun h validator => h t validator rfl

/-! ## Static directories -/

namespace StaticDirectory

/-- A static directory checks a resource as an object with metadata, if its validators are those of
its types. -/
theorem outcome_judge {s : StaticDirectory} {r : Resource}
    (hvalidators : ∀ t, s.index.types.find? r.typeKey = some t →
      s.index.validators.find? (normalizeTypeKey r.typeKey) = Validator.compile? t.schema) :
    (s.judge r).outcome = s.index.types.outcome checkedObject r := by
  unfold judge TypeIndex.outcome
  cases ht : s.index.types.find? r.typeKey with
  | none =>
    simp only [getType, ht, outcome_ofLookupFailure]
    rfl
  | some t =>
    simp only [validateValue, getType_of_find? ht, hvalidators t ht, bind, Except.bind]
    unfold TypeDescriptor.outcome Validator.accepts checkedObject
    cases Validator.compile? t.schema with
    | none => rfl
    | some validator =>
      simp only
      cases validator.violations (r.toObject validationNamespace s!"{Text.lower t.kind}-validation") <;>
        rfl

end StaticDirectory

/-! ## Live directories -/

/-- A live directory over a control plane in memory that holds the types of a static directory, as
does the listing that it would get. The order in which they are gone through does not count. -/
structure Mirrors (s : StaticDirectory) (namespaceName : String) (d : LiveDirectory MemoryPlane) :
    Prop where
  index : d.index = s.index.types
  orderFree : ∀ name version, s.index.types.OrderFree name version
  serves : LiveDirectory.indexOf d.authority d.plane.definitions = s.index.types
  available : d.plane.unavailable = false
  namespaceName : d.namespaceName = namespaceName

/-- A refresh from a control plane that is available takes over what it serves. -/
theorem LiveDirectory.run_refresh_memory {d : LiveDirectory MemoryPlane}
    (h : d.plane.unavailable = false) :
    (refresh : Lookup (LiveDirectory MemoryPlane) _).run.run d =
      (.ok (), (d.beginListing.replaceIndex d.plane.definitions).bump) := by
  have hlisting : (ControlPlane.listing : Lookup MemoryPlane _).run.run d.beginListing.plane =
      (.ok d.plane.definitions, d.beginListing.plane) := by
    have hrun := d.beginListing.plane.run_listing
    have hsame : d.beginListing.plane.unavailable = false := h
    rwa [hsame, if_neg Bool.false_ne_true] at hrun
  rw [run_refresh, run_receive, run_ask, hlisting]

namespace Mirrors

variable {s : StaticDirectory} {namespaceName : String} {d : LiveDirectory MemoryPlane}
  (h : Mirrors s namespaceName d)

include h

theorem index_directory : (LiveHolder.directory d).index = s.index.types := h.index

/-- Templates are looked up alike, though each directory goes through its types in its own order. -/
theorem urnTemplate (name version : String) :
    (LiveHolder.directory d).urnTemplate name version = s.getUrnTemplate name version := by
  unfold LiveDirectory.urnTemplate StaticDirectory.getUrnTemplate
  rw [h.index_directory]
  exact (h.orderFree name version).urnTemplate_eq _ _

theorem refresh : ∃ d', (LiveHolder.refresh : Lookup (LiveDirectory MemoryPlane) Unit).run.run d =
    (.ok (), d') ∧ Mirrors s namespaceName d' :=
  ⟨_, LiveDirectory.run_refresh_memory h.available, h.serves, h.orderFree, h.serves, h.available,
    h.namespaceName⟩

/-- A mirrored type is found, and another one is not, in spite of the refresh. -/
theorem resolve (key : String) :
    ∃ d', (Live.resolve key : Lookup (LiveDirectory MemoryPlane) _).run.run d =
      (s.getType key, d') ∧ Mirrors s namespaceName d' := by
  rw [Live.run_resolve]
  unfold StaticDirectory.getType
  rw [h.index_directory]
  cases hmiss : s.index.types.find? key with
  | some t => exact ⟨d, rfl, h⟩
  | none =>
    -- The refresh lists the same types, so the second look misses as well.
    obtain ⟨d', hrefresh, h'⟩ := h.refresh
    refine ⟨d', ?_, h'⟩
    simp only [hrefresh, h'.index_directory, hmiss]

theorem getUrnTemplate (name version : String) :
    ∃ d', (Live.getUrnTemplate name version : Lookup (LiveDirectory MemoryPlane) _).run.run d =
      (s.getUrnTemplate name version, d') ∧ Mirrors s namespaceName d' := by
  rw [Live.run_getUrnTemplate, h.urnTemplate]
  cases htemplate : s.getUrnTemplate name version with
  | ok template => exact ⟨d, rfl, h⟩
  | error e =>
    simp only
    by_cases hnotFound : e.isNotFound = true
    · obtain ⟨d', hrefresh, h'⟩ := h.refresh
      refine ⟨d', ?_, h'⟩
      rw [if_pos hnotFound, hrefresh]
      simp only [h'.urnTemplate, htemplate]
    · rw [if_neg hnotFound]
      exact ⟨d, rfl, h⟩

/-- Inputs are read alike. -/
theorem readInput (input : String) :
    ∃ d', (ResourceNames.readInput input "" : StateM (LiveDirectory MemoryPlane) _).run d =
      (s.readInput input, d') ∧ Mirrors s namespaceName d' := by
  rw [TypeDirectory.run_readInput]
  unfold StaticDirectory.readInput
  cases Format.detect input with
  | error e => exact ⟨d, rfl, h⟩
  | ok format =>
    cases format with
    | fieldList => exact ⟨d, rfl, h⟩
    | urn =>
      simp only [if_true]
      rw [TypeDirectory.run_readUrn]
      unfold StaticDirectory.readUrn
      cases Urn.parseTypeKey input with
      | error e => exact ⟨d, rfl, h⟩
      | ok key =>
        obtain ⟨d', htemplate, h'⟩ :=
          h.getUrnTemplate (splitTypeKey key).1 (splitTypeKey key).2
        refine ⟨d', ?_, h'⟩
        simp only [Live.typeDirectory_getUrnTemplate, htemplate]
        cases s.getUrnTemplate (splitTypeKey key).1 (splitTypeKey key).2 <;> rfl

/-- A live directory checks a resource as an object without metadata. -/
theorem outcome_judge (r : Resource) :
    ((ResourceNames.judge r : StateM (LiveDirectory MemoryPlane) _).run d).1.outcome =
      s.index.types.outcome (Live.submittedObject namespaceName) r := by
  obtain ⟨d', hresolve, h'⟩ := h.resolve r.typeKey
  rw [TypeDirectory.run_judge, Live.typeDirectory_getType, hresolve]
  unfold TypeIndex.outcome StaticDirectory.getType
  cases ht : s.index.types.find? r.typeKey with
  | none => exact outcome_ofLookupFailure r.typeKey _ r
  | some t =>
    simp only
    have hfound : (LiveHolder.directory d').index.find? r.typeKey = some t := by
      rw [h'.index_directory, ht]
    have hanswer : Live.answerTo d'.plane t d'.namespaceName r = _ :=
      d'.plane.run_create t d'.namespaceName (Live.objectName t.kind)
        (Live.submittedObject d'.namespaceName t r)
    rw [h'.available, if_neg Bool.false_ne_true, h'.namespaceName] at hanswer
    have hcheck : (Live.validateValue r.typeKey r : Lookup (LiveDirectory MemoryPlane) _).run.run d' =
        ((Live.answerTo d'.plane t d'.namespaceName r).1, _) :=
      Live.run_validateValue_of_resolve (Live.run_resolve_of_find? hfound)
    rw [Live.typeDirectory_validateValue, hcheck, h'.namespaceName, hanswer]
    unfold TypeDescriptor.outcome Validator.accepts
    cases Validator.compile? t.schema with
    | none => rfl
    | some validator =>
      simp only
      cases validator.violations (Live.submittedObject namespaceName t r) <;> rfl

/-- Inputs that are not read are rejected alike, and those that are read are judged. -/
theorem run_validate (input : String) :
    ∃ d', Mirrors s namespaceName d' ∧
      ((validate input : StateM (LiveDirectory MemoryPlane) _).run d).1 =
        match s.readInput input with
        | .error verdict => verdict
        | .ok r => ((ResourceNames.judge r : StateM (LiveDirectory MemoryPlane) _).run d').1 := by
  obtain ⟨d', hread, h'⟩ := h.readInput input
  have hrun : (validate input : StateM (LiveDirectory MemoryPlane) _).run d = _ :=
    TypeDirectory.run_validateWithTemplate d input ""
  refine ⟨d', h', ?_⟩
  rw [hrun, hread]
  cases s.readInput input <;> rfl

/-- The verdicts of a live directory and of a static one that it mirrors are about the same
resource. They agree exactly if the schema of its type makes no difference between what the two
check it as. -/
theorem agree_iff
    (hvalidators : ∀ key t, s.index.types.find? key = some t →
      s.index.validators.find? (normalizeTypeKey key) = Validator.compile? t.schema)
    (input : String) :
    let onStatic := ((validate input : StateM StaticDirectory _).run s).1
    let onLive := ((validate input : StateM (LiveDirectory MemoryPlane) _).run d).1
    onLive.parsed = onStatic.parsed ∧
      (onLive.valid = onStatic.valid ∧ onLive.reason = onStatic.reason ↔
        ∀ r t validator, onStatic.parsed = some r → s.index.types.find? r.typeKey = some t →
          Validator.compile? t.schema = some validator →
          validator.accepts (Live.submittedObject namespaceName t r) =
            validator.accepts (StaticDirectory.checkedObject t r)) := by
  intro onStatic onLive
  have honStatic : onStatic = _ := StaticDirectory.validate_eq input
  obtain ⟨d', h', honLive⟩ := h.run_validate input
  have honLive : onLive = _ := honLive
  cases hr : s.readInput input with
  | error verdict =>
    obtain ⟨reason, error, hverdict⟩ := StaticDirectory.exists_rejected_of_readInput hr
    rw [hr] at honStatic honLive
    rw [honStatic, honLive, hverdict]
    refine ⟨rfl, fun _ r t validator hparsed => ?_, fun _ => ⟨rfl, rfl⟩⟩
    cases hparsed
  | ok r =>
    rw [hr] at honStatic honLive
    have hparsed : onStatic.parsed = some r := by
      rw [honStatic]
      exact StaticDirectory.parsed_judge s r
    have hsame : onLive.parsed = some r := by
      rw [honLive]
      exact TypeDirectory.parsed_judge d' r
    have hoverStatic : onStatic.outcome = s.index.types.outcome StaticDirectory.checkedObject r := by
      rw [honStatic]
      exact StaticDirectory.outcome_judge fun t => hvalidators r.typeKey t
    have hoverLive :
        onLive.outcome = s.index.types.outcome (Live.submittedObject namespaceName) r := by
      rw [honLive]
      exact h'.outcome_judge r
    refine ⟨hsame.trans hparsed.symm, ?_⟩
    -- Both outcomes are those of one index, and differ at most by the object that is checked.
    rw [← Verdict.outcome_eq_iff, hoverStatic, hoverLive, TypeIndex.outcome_eq_iff, hparsed]
    constructor
    · intro hagree r' t validator hr'
      obtain rfl := Option.some.inj hr'
      exact hagree t validator
    · exact fun hagree t validator => hagree r t validator rfl

/-- A schema that tells what is submitted from what is checked tells the directories apart. -/
theorem disagree
    (hvalidators : ∀ key t, s.index.types.find? key = some t →
      s.index.validators.find? (normalizeTypeKey key) = Validator.compile? t.schema)
    {input : String} {r : Resource} {t : TypeDescriptor} {validator : Validator}
    (hr : s.readInput input = .ok r) (ht : s.index.types.find? r.typeKey = some t)
    (hvalidator : Validator.compile? t.schema = some validator)
    (hne : validator.accepts (Live.submittedObject namespaceName t r) ≠
      validator.accepts (StaticDirectory.checkedObject t r)) :
    let onStatic := ((validate input : StateM StaticDirectory _).run s).1
    let onLive := ((validate input : StateM (LiveDirectory MemoryPlane) _).run d).1
    ¬ (onLive.valid = onStatic.valid ∧ onLive.reason = onStatic.reason) := by
  intro onStatic onLive hagree
  have hparsed : onStatic.parsed = some r := StaticDirectory.parsed_validate_eq_some_iff.2 hr
  exact hne ((h.agree_iff hvalidators input).2.1 hagree r t validator hparsed ht hvalidator)

end Mirrors

/-! ## Verdicts after loads and a refresh -/

section

variable {authority : String} {order order' : TypeIndex.IterationOrder}
  {loads : List (FileSystem × Source)} {documents : List Json} {plane : MemoryPlane}
  (hparse : (loads.flatMap fun load => sourceDocuments load.1 load.2).map Yaml.parse? =
    documents.map some)
  (hkeys : ((documents.flatMap (LiveDirectory.typesIn authority)).map (·.typeKey)).Nodup)

include hparse hkeys

/-- A refresh of a live directory mirrors a static one that loaded the same documents. -/
theorem mirrors_loads (hnames : LiveDirectory.DistinctNames authority documents)
    (havailable : plane.unavailable = false) (hserves : plane.definitions = documents)
    (namespaceName : String) :
    ∃ d, (LiveDirectory.refresh : Lookup (LiveDirectory MemoryPlane) _).run.run
        { plane, authority, namespaceName, order := order' } = (.ok (), d) ∧
      Mirrors (StaticDirectory.run authority (StaticDirectory.loadSteps loads) order)
        namespaceName d := by
  have htypes : LiveDirectory.indexOf authority plane.definitions =
      (StaticDirectory.run authority (StaticDirectory.loadSteps loads) order).index.types := by
    rw [hserves, StaticDirectory.types_loads hparse hkeys]
  have hfree := LiveDirectory.orderFree_indexOf hnames
  rw [← hserves, htypes] at hfree
  exact ⟨_, LiveDirectory.run_refresh_memory havailable, htypes, hfree, htypes, havailable, rfl⟩

theorem validators_loads (key : String) (t : TypeDescriptor)
    (ht : (StaticDirectory.run authority (StaticDirectory.loadSteps loads) order).index.types.find?
      key = some t) :
    (StaticDirectory.run authority (StaticDirectory.loadSteps loads) order).index.validators.find?
      (normalizeTypeKey key) = Validator.compile? t.schema :=
  StaticDirectory.find?_validators_loads hparse hkeys ht

end

/-- **Static and live directories judge alike, but for metadata.** A static directory loads
documents of distinct types and names, and a live one refreshes from a control plane in memory that
serves them. Each goes through its types in its own order. Their verdicts are about the same
resource. They agree in whether the input is valid, and in the reason if it is not, exactly if the
schema of its type, so far as there is one, gives the resource the same verdict with the metadata of
the static check and without metadata. -/
theorem verdict_agree_iff (authority namespaceName : String)
    (order order' : TypeIndex.IterationOrder) (loads : List (FileSystem × Source))
    (documents : List Json) (plane : MemoryPlane)
    (hparse : (loads.flatMap fun load => sourceDocuments load.1 load.2).map Yaml.parse? =
      documents.map some)
    (hkeys : ((documents.flatMap (LiveDirectory.typesIn authority)).map (·.typeKey)).Nodup)
    (hnames : LiveDirectory.DistinctNames authority documents)
    (havailable : plane.unavailable = false) (hserves : plane.definitions = documents)
    (input : String) :
    let s := StaticDirectory.run authority (StaticDirectory.loadSteps loads) order
    let refreshed := (LiveDirectory.refresh : Lookup (LiveDirectory MemoryPlane) _).run.run
      { plane, authority, namespaceName, order := order' }
    let onStatic := ((validate input : StateM StaticDirectory _).run s).1
    let onLive := ((validate input : StateM (LiveDirectory MemoryPlane) _).run refreshed.2).1
    refreshed.1 = .ok () ∧ onLive.parsed = onStatic.parsed ∧
      (onLive.valid = onStatic.valid ∧ onLive.reason = onStatic.reason ↔
        ∀ r t validator, onStatic.parsed = some r → s.index.types.find? r.typeKey = some t →
          Validator.compile? t.schema = some validator →
          validator.accepts (Live.submittedObject namespaceName t r) =
            validator.accepts (StaticDirectory.checkedObject t r)) := by
  intro s refreshed onStatic onLive
  obtain ⟨d, hrefresh, hmirrors⟩ : ∃ d, refreshed = (.ok (), d) ∧ Mirrors s namespaceName d :=
    mirrors_loads hparse hkeys hnames havailable hserves namespaceName
  have hd : refreshed.2 = d := congrArg Prod.snd hrefresh
  refine ⟨congrArg Prod.fst hrefresh, ?_⟩
  have hagree := hmirrors.agree_iff (validators_loads hparse hkeys) input
  rw [← hd] at hagree
  exact hagree

/-! ## A schema that counts -/

/-- The file system with one file. -/
def singleFile (text : String) : FileSystem where
  root := .directory [("a.yaml", .file (some text))]

/-- A file with one good document. -/
theorem exists_document_of_single (text : String) {ds : List TypeDescriptor}
    (hfiles : (Source.pattern "a.yaml").files (singleFile text) = .ok ["a.yaml"])
    (hsplit : splitDocuments text = [(0, text)])
    (hread : Batch.readDocument "g" text = .ok (.types ds)) :
    ∃ document, ([(singleFile text, Source.pattern "a.yaml")].flatMap fun load =>
        sourceDocuments load.1 load.2).map Yaml.parse? = [document].map some ∧
      LiveDirectory.typesIn "g" document = ds := by
  obtain ⟨document, hdocument⟩ := exists_parse?_of_readDocument hread
  have hsource : sourceDocuments (singleFile text) (.pattern "a.yaml") = [text] := by
    have hcontent : (singleFile text).read "a.yaml" = .ok text :=
      StaticDirectory.read_single text
    simp [sourceDocuments, hfiles, fileDocuments, hcontent, hsplit]
  refine ⟨document, ?_, ?_⟩
  · simp [hsource, hdocument]
  · rw [← documentTypes_eq hdocument, Batch.documentTypes, hread]

/-- A definition whose schema admits one entry. -/
def countingLines : List String :=
  ["kind: CustomResourceDefinition", "metadata:", " name: ts.g", "spec:", " group: g",
    " names: {kind: t}", " versions:",
    " - {name: v, served: true, schema: {openAPIV3Schema: {maxProperties: 1}}}"]

def countingChars : List Char := countingLines.flatMap fun line => line.toList ++ ['\n']

def countingText : String := String.ofList countingChars

def countingType : TypeDescriptor :=
  { StaticDirectory.sampleType "v" (.obj [("maxProperties", .int 1)]) "" with name := "ts.g" }

theorem readDocument_counting : Batch.readDocument "g" countingText = .ok (.types [countingType]) := by
  refine eq_ok_of_toOption ?_
  rw [countingText, Batch.readDocument, Yaml.parse?, Yaml.Document.ofText?, Yaml.Token.ofText?,
    String.toList_ofList]
  decide +kernel

theorem splitDocuments_counting : splitDocuments countingText = [(0, countingText)] :=
  StaticDirectory.splitDocuments_of_lines (by decide +kernel) (by decide +kernel) (by decide +kernel)

theorem files_counting :
    (Source.pattern "a.yaml").files (singleFile countingText) = .ok ["a.yaml"] :=
  eq_ok_of_toOption (by decide +kernel)

def countingResource : Resource :=
  ⟨.fieldList, Table.empty.insert typeKeyField "t.g/v", "ccrn=t.g/v", ""⟩

theorem readInput_counting (s : StaticDirectory) :
    s.readInput "ccrn=t.g/v" = .ok countingResource := by
  have hdetect : Format.detect "ccrn=t.g/v" = .ok .fieldList :=
    eq_ok_of_toOption (by decide +kernel)
  have hparse : FieldList.parse "ccrn=t.g/v" = .ok countingResource :=
    eq_ok_of_toOption (by decide +kernel)
  rw [StaticDirectory.readInput_of_fieldList hdetect, hparse]
  rfl

/-- The metadata are one entry too many. -/
theorem accepts_counting :
    (Validator.compile? countingType.schema).map (fun validator =>
      (validator.accepts (Live.submittedObject "n" countingType countingResource),
        validator.accepts (StaticDirectory.checkedObject countingType countingResource))) =
      some (true, false) := by decide +kernel

/-- The name of the definition in a document. -/
def definitionName? (document : Json) : Option String :=
  (document.get? "metadata").bind fun metadata => metadata.getText? "name"

/-- A schema that admits one entry tells the two kinds of directories apart. -/
theorem not_forall_verdict_agree :
    ¬ ∀ (authority namespaceName : String) (loads : List (FileSystem × Source))
      (documents : List Json) (plane : MemoryPlane),
      (loads.flatMap fun load => sourceDocuments load.1 load.2).map Yaml.parse? =
        documents.map some →
      (∀ load ∈ loads, ∃ b, readSource authority load.1 load.2 = .ok b) →
      ((documents.flatMap (LiveDirectory.typesIn authority)).map (·.typeKey)).Nodup →
      (documents.map definitionName?).Nodup →
      plane.unavailable = false → plane.definitions = documents → ∀ input,
      let s := StaticDirectory.run authority (StaticDirectory.loadSteps loads)
      let d := ((LiveDirectory.refresh : Lookup (LiveDirectory MemoryPlane) _).run.run
        { plane, authority, namespaceName }).2
      let onStatic := ((validate input : StateM StaticDirectory _).run s).1
      let onLive := ((validate input : StateM (LiveDirectory MemoryPlane) _).run d).1
      onLive.valid = onStatic.valid ∧ onLive.reason = onStatic.reason := by
  intro h
  obtain ⟨document, hparse, htypes⟩ :=
    exists_document_of_single _ files_counting splitDocuments_counting readDocument_counting
  have hall : [document].flatMap (LiveDirectory.typesIn "g") = [countingType] := by
    rw [List.flatMap_singleton, htypes]
  have hkeys : (([document].flatMap (LiveDirectory.typesIn "g")).map (·.typeKey)).Nodup := by
    rw [hall]
    exact List.nodup_singleton _
  have hloaded : ∀ load ∈ [(singleFile countingText, Source.pattern "a.yaml")],
      ∃ b, readSource "g" load.1 load.2 = .ok b := by
    rw [List.forall_mem_singleton]
    exact exists_readSource_of_reading? (reading?_of_document files_counting
      (StaticDirectory.read_single countingText) splitDocuments_counting readDocument_counting)
  have hagree := h "g" "n" _ [document] { definitions := [document] } hparse hloaded hkeys
    (List.nodup_singleton _) rfl rfl "ccrn=t.g/v"
  have havailable : ({ definitions := [document] } : MemoryPlane).unavailable = false := rfl
  have hnames : LiveDirectory.DistinctNames "g" [document] := List.pairwise_singleton _ _
  obtain ⟨d, hrefresh, hmirrors⟩ : ∃ d,
      (LiveDirectory.refresh : Lookup (LiveDirectory MemoryPlane) _).run.run
        { plane := { definitions := [document] }, authority := "g", namespaceName := "n" } =
          (.ok (), d) ∧ Mirrors (StaticDirectory.run "g" _) "n" d :=
    mirrors_loads hparse hkeys hnames havailable rfl "n"
  simp only [hrefresh] at hagree
  have hfind : (StaticDirectory.run "g" (StaticDirectory.loadSteps
      [(singleFile countingText, .pattern "a.yaml")])).index.types.find? "t.g/v" =
        some countingType := by
    unfold TypeIndex.find?
    rw [StaticDirectory.types_loads hparse hkeys, LiveDirectory.find?_indexOf, hall]
    decide +kernel
  obtain ⟨validator, hvalidator, haccepts⟩ := Option.map_eq_some_iff.1 accepts_counting
  obtain ⟨hsubmitted, hchecked⟩ := Prod.mk.inj haccepts
  refine hmirrors.disagree (validators_loads hparse hkeys) (readInput_counting _) hfind hvalidator
    ?_ hagree
  rw [hsubmitted, hchecked]
  exact Bool.false_ne_true.symm

/-- With a schema that states nothing, both directories judge every input alike. -/
theorem verdict_agree_named :
    ∃ document, ([(singleFile StaticDirectory.namedText, Source.pattern "a.yaml")].flatMap fun load =>
        sourceDocuments load.1 load.2).map Yaml.parse? = [document].map some ∧
      (([document].flatMap (LiveDirectory.typesIn "g")).map (·.typeKey)).Nodup ∧
      LiveDirectory.DistinctNames "g" [document] ∧
      ∀ (order order' : TypeIndex.IterationOrder) (input : String),
        let s := StaticDirectory.run "g"
          (StaticDirectory.loadSteps [(singleFile StaticDirectory.namedText, .pattern "a.yaml")])
          order
        let d := ((LiveDirectory.refresh : Lookup (LiveDirectory MemoryPlane) _).run.run
          { plane := { definitions := [document] }, authority := "g", namespaceName := "n",
            order := order' }).2
        let onStatic := ((validate input : StateM StaticDirectory _).run s).1
        let onLive := ((validate input : StateM (LiveDirectory MemoryPlane) _).run d).1
        onLive.valid = onStatic.valid ∧ onLive.reason = onStatic.reason := by
  obtain ⟨document, hparse, htypes⟩ := exists_document_of_single
    StaticDirectory.namedText (eq_ok_of_toOption (by decide +kernel))
    (StaticDirectory.splitDocuments_of_lines (by decide +kernel) (by decide +kernel)
      (by decide +kernel)) StaticDirectory.readDocument_named
  have hall : [document].flatMap (LiveDirectory.typesIn "g") = [StaticDirectory.namedType] := by
    rw [List.flatMap_singleton, htypes]
  have hkeys : (([document].flatMap (LiveDirectory.typesIn "g")).map (·.typeKey)).Nodup := by
    rw [hall]
    exact List.nodup_singleton _
  have hnames : LiveDirectory.DistinctNames "g" [document] := List.pairwise_singleton _ _
  refine ⟨document, hparse, hkeys, hnames, fun order order' input => ?_⟩
  refine (verdict_agree_iff "g" "n" order order'
    [(singleFile StaticDirectory.namedText, .pattern "a.yaml")] [document]
    { definitions := [document] } hparse hkeys hnames rfl rfl input).2.2.2 ?_
  intro r t validator _ ht hvalidator
  have hnamed : t = StaticDirectory.namedType := by
    unfold TypeIndex.find? at ht
    rw [StaticDirectory.types_loads hparse hkeys, LiveDirectory.find?_indexOf, hall] at ht
    exact List.mem_singleton.1 (mem_ofKey_iff.1 (List.mem_of_getLast? ht)).1
  subst hnamed
  have hempty : some validator = some ⟨.keywords [], [], 1⟩ :=
    hvalidator.symm.trans StaticDirectory.compile?_empty
  obtain rfl := Option.some.inj hempty
  unfold Validator.accepts
  rw [StaticDirectory.violations_empty, StaticDirectory.violations_empty]

end ResourceNames
