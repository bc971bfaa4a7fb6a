import ResourceNames.Proofs.Verdict.Conversion

/-!
# Verdicts on unknown types

The type that an input names may not be known. A URN is then read all the same if some document has
the name that stands in the place of the type. If several have it, the order of the index tells
which of their types it is read as.

* `reason_judge_eq_iff`: a resource that was read is rejected for its type exactly if it is unknown.
* `getUrnTemplate_of_miss`: where the template for a URN of an unknown type comes from.
* `reason_validate_eq_iff`: when an input is rejected for its type, and what else happens.
-/

namespace ResourceNames.StaticDirectory

open Files Text

variable {d : StaticDirectory} {order : TypeIndex.IterationOrder}

/-! ## Keys -/

/-- An input from which a type key can be read. -/
inductive NamesType (input key : String) : Prop
  | fieldList {r : Resource} : FieldList.parse input = .ok r → r.typeKey = key →
    NamesType input key
  | urn : Urn.parseTypeKey input = .ok key → NamesType input key

theorem not_mem_typeKeys_iff {key : String} :
    normalizeTypeKey key ∉ d.typeKeys ↔ d.index.types.find? key = none := by
  unfold typeKeys TypeIndex.keys TypeIndex.find?
  rw [Table.mem_keys_iff, Option.eq_none_iff_forall_ne_some]
  exact not_exists

theorem exists_reading_of_parseTypeKey {input key : String}
    (h : Urn.parseTypeKey input = .ok key) :
    ∃ reading : Urn.Reading input Urn.typeKeyTemplate, String.ofList reading.key = key := by
  unfold Urn.parseTypeKey at h
  cases hparse : Urn.parse input Urn.typeKeyTemplate with
  | error e =>
    rw [hparse] at h
    cases h
  | ok r =>
    obtain ⟨reading, rfl⟩ := Urn.parse_eq_ok_iff.1 hparse
    rw [hparse] at h
    refine ⟨reading, ?_⟩
    rw [← reading.typeKey_eq]
    exact Except.ok.inj h

theorem slash_mem_of_reading {input template : String} (reading : Urn.Reading input template) :
    '/' ∈ (String.ofList reading.key).toList := by
  obtain ⟨name, version, hkey, -⟩ := reading.isKey
  rw [String.toList_ofList, hkey]
  simp

/-- No input has both forms. -/
theorem detect_of_parse_fieldList {input : String} {r : Resource}
    (h : FieldList.parse input = .ok r) : Format.detect input = .ok .fieldList := by
  simp only [Format.detect, (FieldList.parse_eq_ok_iff.1 h).1, if_true]

/-! ## Reasons -/

theorem reason_ofParseError_ne (e : ParseError) : Reason.ofParseError e ≠ .unsupportedType := by
  cases e <;> exact nofun

/-- A check of a value of a known type does not fail for its type. -/
theorem reason_of_validateValue {key : String} {t : TypeDescriptor} {r : Resource}
    {e : DirectoryError} (ht : d.index.types.find? key = some t)
    (h : d.validateValue key r = .error e) : Reason.ofDirectoryError e ≠ .unsupportedType := by
  unfold validateValue at h
  rw [getType_of_find? ht] at h
  simp only [bind, Except.bind] at h
  split at h
  · cases h
    exact nofun
  · split at h
    · cases h
    · cases h
      exact nofun

/-- A resource is rejected for its type exactly if it is unknown. -/
theorem reason_judge_eq_iff {r : Resource} :
    (d.judge r).reason = some .unsupportedType ↔ d.index.types.find? r.typeKey = none := by
  unfold judge getType
  cases ht : d.index.types.find? r.typeKey with
  | none => exact ⟨fun _ => rfl, fun _ => rfl⟩
  | some t =>
    simp only
    cases hcheck : d.validateValue r.typeKey r with
    | ok u => exact ⟨nofun, nofun⟩
    | error e =>
      refine ⟨fun h => ?_, nofun⟩
      exact absurd (Option.some.inj h) (reason_of_validateValue ht hcheck)

/-- A look-up that fails for another reason than that there is no such type. -/
theorem reason_ofLookupFailure (key : String) (e : DirectoryError) :
    (Verdict.ofLookupFailure key e).reason = some (Reason.ofDirectoryError e) := by
  unfold Verdict.ofLookupFailure
  cases e <;> rfl

/-! ## URNs of unknown types -/

/-- The first type, in the order of the directory, that a document of the given name defines at a
version. -/
def definedBy? (d : StaticDirectory) (name version : String) : Option TypeDescriptor :=
  TypeIndex.definedBy? (d.order.list d.index.types) name version

/-- Without a type of that name, the template is that of a type that a document of that name
defines. -/
theorem getUrnTemplate_of_miss {key : String} (hmiss : d.index.types.find? key = none)
    (hslash : '/' ∈ key.toList) :
    d.getUrnTemplate (splitTypeKey key).1 (splitTypeKey key).2 =
      match d.definedBy? (splitTypeKey key).1 (splitTypeKey key).2 with
      | none => .error (.notFound key)
      | some t =>
        if t.hasUrnTemplate then .ok t.urnTemplate
        else .error (.templateNotFound (splitTypeKey key).1 (templateAnnotationKey t.version)) := by
  unfold getUrnTemplate TypeIndex.urnTemplate TypeIndex.urnTemplateAmong
  rw [splitTypeKey_join hslash, hmiss]
  rfl

/-- What a URN of an unknown type is rejected for if documents have the name that stands in the
place of the type and define types at the version: the URN is to be read as one of the first of
these. -/
inductive Diverted (d : StaticDirectory) (input key : String) : Reason → Prop
  | noTemplate {t : TypeDescriptor} : Urn.parseTypeKey input = .ok key →
    d.definedBy? (splitTypeKey key).1 (splitTypeKey key).2 = some t →
    t.hasUrnTemplate = false → Diverted d input key .templateUnavailable
  | misread {t : TypeDescriptor} {e : ParseError} : Urn.parseTypeKey input = .ok key →
    d.definedBy? (splitTypeKey key).1 (splitTypeKey key).2 = some t →
    t.hasUrnTemplate = true → Urn.parse input t.urnTemplate = .error e →
    Diverted d input key (.ofParseError e)

theorem Diverted.parseTypeKey {input key : String} {reason : Reason}
    (h : Diverted d input key reason) : Urn.parseTypeKey input = .ok key := by
  cases h with
  | noTemplate hkey => exact hkey
  | misread hkey => exact hkey

theorem Diverted.ne_unsupportedType {input key : String} {reason : Reason}
    (h : Diverted d input key reason) : reason ≠ .unsupportedType := by
  cases h with
  | noTemplate => exact nofun
  | @misread t e => exact reason_ofParseError_ne e

/-! ## Verdicts -/

theorem reason_validate_fieldList {input : String} {r : Resource}
    (h : FieldList.parse input = .ok r) : (d.validate input).reason = (d.judge r).reason := by
  rw [validate_eq, readInput_of_fieldList (detect_of_parse_fieldList h), h]
  rfl

/-- The steps of a verdict on a URN. -/
theorem reason_validate_urn {input key : String} (h : Urn.parseTypeKey input = .ok key) :
    (d.validate input).reason =
      match d.getUrnTemplate (splitTypeKey key).1 (splitTypeKey key).2 with
      | .error e => some (.ofDirectoryError e)
      | .ok template =>
        match Urn.parse input template with
        | .error e => some (.ofParseError e)
        | .ok r => (d.judge r).reason := by
  obtain ⟨reading, -⟩ := exists_reading_of_parseTypeKey h
  rw [validate_eq, readInput_of_urn reading.detect_eq, readUrn, h]
  simp only
  cases d.getUrnTemplate (splitTypeKey key).1 (splitTypeKey key).2 with
  | error e => exact reason_ofLookupFailure key e
  | ok template =>
    simp only
    cases Urn.parse input template with
    | error e => rfl
    | ok r => rfl

/-- However a URN is read, it is rejected for its type exactly if the type is unknown. -/
theorem reason_judge_urn_eq_iff {input key template : String} {r : Resource}
    (hkey : Urn.parseTypeKey input = .ok key) (hr : Urn.parse input template = .ok r) :
    (d.judge r).reason = some .unsupportedType ↔ d.index.types.find? key = none := by
  obtain ⟨reading, rfl⟩ := Urn.parse_eq_ok_iff.1 hr
  obtain rfl : String.ofList reading.key = key :=
    Except.ok.inj (reading.parseTypeKey.symm.trans hkey)
  rw [reason_judge_eq_iff, reading.typeKey_eq]

/-- A URN of a known type is not rejected for its type. -/
theorem reason_validate_urn_of_find? {input key : String} {t : TypeDescriptor}
    (hkey : Urn.parseTypeKey input = .ok key) (ht : d.index.types.find? key = some t) :
    (d.validate input).reason ≠ some .unsupportedType := by
  obtain ⟨reading, rfl⟩ := exists_reading_of_parseTypeKey hkey
  rw [reason_validate_urn hkey, getUrnTemplate_of_find? ht (slash_mem_of_reading reading)]
  by_cases hhas : t.hasUrnTemplate = true
  · rw [if_pos hhas]
    simp only
    cases hparse : Urn.parse input t.urnTemplate with
    | error e => exact fun h => reason_ofParseError_ne e (Option.some.inj h)
    | ok r =>
      intro h
      cases ht.symm.trans ((reason_judge_urn_eq_iff hkey hparse).1 h)
  · rw [if_neg hhas]
    exact nofun

theorem reason_validate_of_diverted {input key : String} {reason : Reason}
    (h : Diverted d input key reason) (hmiss : d.index.types.find? key = none) :
    (d.validate input).reason = some reason := by
  obtain ⟨reading, rfl⟩ := exists_reading_of_parseTypeKey h.parseTypeKey
  rw [reason_validate_urn h.parseTypeKey,
    getUrnTemplate_of_miss hmiss (slash_mem_of_reading reading)]
  cases h with
  | noTemplate _ hdefined hhas =>
    rw [hdefined]
    simp only [hhas]
    rfl
  | misread _ hdefined hhas hparse =>
    rw [hdefined]
    simp only [hhas, if_true, hparse]

/-- A URN of an unknown type is rejected for its type unless it is diverted. -/
theorem reason_validate_urn_of_miss {input key : String} (hkey : Urn.parseTypeKey input = .ok key)
    (hmiss : d.index.types.find? key = none) (hno : ∀ reason, ¬ Diverted d input key reason) :
    (d.validate input).reason = some .unsupportedType := by
  obtain ⟨reading, rfl⟩ := exists_reading_of_parseTypeKey hkey
  rw [reason_validate_urn hkey, getUrnTemplate_of_miss hmiss (slash_mem_of_reading reading)]
  cases hdefined : d.definedBy? (splitTypeKey (String.ofList reading.key)).1
    (splitTypeKey (String.ofList reading.key)).2 with
  | none => rfl
  | some t =>
    simp only
    by_cases hhas : t.hasUrnTemplate = true
    · rw [if_pos hhas]
      simp only
      cases hparse : Urn.parse input t.urnTemplate with
      | error e => exact absurd (.misread hkey hdefined hhas hparse) (hno _)
      | ok r => exact (reason_judge_urn_eq_iff hkey hparse).2 hmiss
    · exact absurd (.noTemplate hkey hdefined (Bool.eq_false_iff.2 hhas)) (hno _)

/-- **Unknown types.** An input that names a type is rejected as one of an unsupported type exactly
if the type is unknown and the input is no URN that is to be read as one of another type, the first
one that a document of the given name defines. Such a URN is rejected for what is wrong with reading
it: there is no template, or the URN does not fit it. This is so in whichever order the types are
gone through. -/
theorem reason_validate_eq_iff {authority : String} {steps : List Step} {input key : String}
    (h : NamesType input key) :
    let d := run authority steps order
    ((d.validate input).reason = some .unsupportedType ↔
        normalizeTypeKey key ∉ d.typeKeys ∧ ∀ reason, ¬ Diverted d input key reason) ∧
      (normalizeTypeKey key ∉ d.typeKeys →
        ∀ reason, Diverted d input key reason → (d.validate input).reason = some reason) := by
  intro d
  rw [not_mem_typeKeys_iff]
  cases h with
  | @fieldList r hparse hkey =>
    subst hkey
    -- A field list cannot be diverted, as it is no URN.
    have hno : ∀ reason, ¬ Diverted d input r.typeKey reason := fun reason hdiverted => by
      obtain ⟨reading, -⟩ := exists_reading_of_parseTypeKey hdiverted.parseTypeKey
      cases (detect_of_parse_fieldList hparse).symm.trans reading.detect_eq
    rw [reason_validate_fieldList hparse, reason_judge_eq_iff]
    exact ⟨(and_iff_left hno).symm, fun _ reason hdiverted => absurd hdiverted (hno reason)⟩
  | urn hkey =>
    refine ⟨⟨fun hreason => ?_, fun h => reason_validate_urn_of_miss hkey h.1 h.2⟩,
      fun hmiss reason hdiverted => reason_validate_of_diverted hdiverted hmiss⟩
    have hmiss : d.index.types.find? key = none :=
      Option.eq_none_iff_forall_ne_some.2 fun t ht => reason_validate_urn_of_find? hkey ht hreason
    refine ⟨hmiss, fun reason hdiverted => ?_⟩
    have hsame := hreason.symm.trans (reason_validate_of_diverted hdiverted hmiss)
    exact hdiverted.ne_unsupportedType (Option.some.inj hsame).symm

/-! ## A document with a name -/

/-- A definition in a document of the name `ts.g`. -/
def namedLines : List String :=
  ["kind: CustomResourceDefinition", "metadata:", " name: ts.g", " annotations:",
    "  ccrn/v.urn-template: urn:ccrn:<ccrn>/<a>/<b>", "spec:", " group: g", " names: {kind: t}",
    " versions:", " - {name: v, served: true, schema: {openAPIV3Schema: {}}}"]

def namedChars : List Char := namedLines.flatMap fun line => line.toList ++ ['\n']

def namedText : String := String.ofList namedChars

def namedType : TypeDescriptor := { sampleType "v" (.obj []) sampleTemplate with name := "ts.g" }

def namedFiles : FileSystem where
  root := .directory [("a.yaml", .file (some namedText))]

def namedSteps : List Step := [.load namedFiles (.pattern "a.yaml")]

theorem readDocument_named : Batch.readDocument "g" namedText = .ok (.types [namedType]) := by
  refine eq_ok_of_toOption ?_
  rw [namedText, Batch.readDocument, Yaml.parse?, Yaml.Document.ofText?, Yaml.Token.ofText?,
    String.toList_ofList]
  decide +kernel

theorem readings_named : readings "g" namedSteps = [[namedType]] := by
  have hfiles : (Source.pattern "a.yaml").files namedFiles = .ok ["a.yaml"] :=
    eq_ok_of_toOption (by decide +kernel)
  have hsplit : splitDocuments namedText = [(0, namedText)] :=
    splitDocuments_of_lines (by decide +kernel) (by decide +kernel) (by decide +kernel)
  exact readings_load
    (reading?_of_document hfiles (read_single namedText) hsplit readDocument_named)

theorem types_named : (run "g" namedSteps).index.types.types =
    Table.empty.insert namedType.typeKey namedType := by
  refine Table.ext_find? fun key => ?_
  rw [(holds_run _ _).types, readings_named, Table.find?_insert]
  by_cases hkey : namedType.typeKey = key
  · subst hkey
    rw [if_pos rfl]
    simp [latest, ofKey_self]
  · rw [if_neg hkey]
    simp [latest, ofKey_of_ne hkey]

/-- No type has the name of the document. -/
theorem not_mem_typeKeys_named : normalizeTypeKey "ts.g/v" ∉ (run "g" namedSteps).typeKeys := by
  unfold typeKeys TypeIndex.keys
  rw [types_named]
  decide +kernel

theorem parseTypeKey_named :
    Urn.parseTypeKey "urn:ccrn:ts.g/v/x" = .ok "ts.g/v" ∧
      Urn.parseTypeKey "urn:ccrn:ts.g/v/x/y" = .ok "ts.g/v" :=
  ⟨eq_ok_of_toOption (by decide +kernel), eq_ok_of_toOption (by decide +kernel)⟩

theorem definedBy?_named :
    (run "g" namedSteps).definedBy? (splitTypeKey "ts.g/v").1 (splitTypeKey "ts.g/v").2 =
      some namedType := by
  have hlist : (run "g" namedSteps).order.list (run "g" namedSteps).index.types = [namedType] := by
    rw [order_run]
    exact congrArg Table.values types_named
  rw [definedBy?, hlist]
  decide +kernel

/-- A URN that is too short for the template of the document. -/
theorem diverted_named :
    Diverted (run "g" namedSteps) "urn:ccrn:ts.g/v/x" "ts.g/v" .segmentCountMismatch := by
  have hparse : Urn.parse "urn:ccrn:ts.g/v/x" namedType.urnTemplate =
      .error (.segmentCount sampleTemplate "urn:ccrn:ts.g/v/x" 2 1) := rfl
  exact .misread parseTypeKey_named.1 definedBy?_named (by decide +kernel) hparse

/-- A URN that fits the template of the document. -/
theorem not_diverted_named (reason : Reason) :
    ¬ Diverted (run "g" namedSteps) "urn:ccrn:ts.g/v/x/y" "ts.g/v" reason := by
  intro h
  cases h with
  | noTemplate _ hdefined hhas =>
    cases definedBy?_named.symm.trans hdefined
    exact absurd hhas (by decide +kernel)
  | misread _ hdefined _ hmisread =>
    cases definedBy?_named.symm.trans hdefined
    have hparse : (Urn.parse "urn:ccrn:ts.g/v/x/y" namedType.urnTemplate).toOption.isSome = true := by
      decide +kernel
    rw [hmisread] at hparse
    cases hparse

/-- With the name of a document in the place of the type, the URN is read with the template of the
document's type, and rejected for its type only if it fits. -/
theorem reason_validate_named :
    NamesType "urn:ccrn:ts.g/v/x" "ts.g/v" ∧ NamesType "urn:ccrn:ts.g/v/x/y" "ts.g/v" ∧
      ((run "g" namedSteps).validate "urn:ccrn:ts.g/v/x").reason = some .segmentCountMismatch ∧
      ((run "g" namedSteps).validate "urn:ccrn:ts.g/v/x/y").reason = some .unsupportedType := by
  have hshort : NamesType "urn:ccrn:ts.g/v/x" "ts.g/v" := .urn parseTypeKey_named.1
  have hfitting : NamesType "urn:ccrn:ts.g/v/x/y" "ts.g/v" := .urn parseTypeKey_named.2
  exact ⟨hshort, hfitting,
    (reason_validate_eq_iff hshort).2 not_mem_typeKeys_named _ diverted_named,
    (reason_validate_eq_iff hfitting).1.2 ⟨not_mem_typeKeys_named, not_diverted_named⟩⟩

/-- A URN of an unknown type can be rejected for its length. -/
theorem not_forall_reason_validate :
    ¬ ∀ (authority : String) (steps : List Step) (input key : String), NamesType input key →
      (((run authority steps).validate input).reason = some .unsupportedType ↔
        normalizeTypeKey key ∉ (run authority steps).typeKeys) := by
  intro h
  have hreason := (h "g" namedSteps "urn:ccrn:ts.g/v/x" "ts.g/v" (.urn parseTypeKey_named.1)).2
    not_mem_typeKeys_named
  have hmiss := not_mem_typeKeys_iff.1 not_mem_typeKeys_named
  rw [reason_validate_of_diverted diverted_named hmiss] at hreason
  cases hreason

end ResourceNames.StaticDirectory
