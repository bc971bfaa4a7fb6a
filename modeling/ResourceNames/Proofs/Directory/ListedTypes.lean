import ResourceNames.ControlPlane.Memory
import ResourceNames.Proofs.Directory.TypeKeys
import ResourceNames.Proofs.Live.Answers
import ResourceNames.Proofs.Live.Course

/-!
# Looking up what is listed

Types are listed by their keys. A key that is looked up loses the blanks at its ends, and those of
a listed key are part of it.

* `TypeIndex.Keyed.find?_iff`: a listed key finds its own type exactly if it has no such blanks.
* `answers_listed_iff`: the same for what static and live directories answer.
-/

namespace ResourceNames

open Text

/-! ## Indexes -/

namespace TypeIndex

/-- A listed key finds its own type exactly if it has no blanks at its ends. -/
theorem Keyed.find?_iff {index : TypeIndex} (h : index.Keyed) {key : String}
    (hkey : key ∈ index.keys) :
    (∃ t, index.find? key = some t ∧ t.typeKey = key) ↔ trim key.toList = key.toList := by
  obtain ⟨t, ht⟩ := exists_find?_of_mem_keys hkey
  have hlower : asciiLower key = key := by
    rw [← h key t ht]
    exact asciiLower_typeKey t
  rw [← normalizeTypeKey_eq_self_iff hlower]
  constructor
  · rintro ⟨u, hu, huk⟩
    rw [← h _ u hu, huk]
  · intro hnormal
    refine ⟨t, ?_, h key t ht⟩
    unfold find?
    rw [hnormal, ht]

end TypeIndex

/-! ## Directories -/

/-- A directory answers for a listed key: it has a descriptor of that very key, supports the type,
and stays as it is when it says so. -/
def Answers {σ : Type} [TypeDirectory σ] (s : σ) (key : String) : Prop :=
  (∃ t, (TypeDirectory.getType key : Lookup σ _).run.run s = (.ok t, s) ∧ t.typeKey = key) ∧
    (TypeDirectory.isSupported key : StateM σ Bool).run s = (true, s)

namespace StaticDirectory

theorem answers_iff {d : StaticDirectory} {key : String} :
    Answers d key ↔ ∃ t, d.index.types.find? key = some t ∧ t.typeKey = key := by
  unfold Answers
  rw [run_getType]
  constructor
  · rintro ⟨⟨t, ht, hkey⟩, -⟩
    exact ⟨t, find?_of_getType (congrArg Prod.fst ht), hkey⟩
  · rintro ⟨t, ht, hkey⟩
    have hsupported : d.isSupported key = true := by
      unfold isSupported TypeIndex.contains
      rw [ht]
      rfl
    exact ⟨⟨t, by rw [getType_of_find? ht], hkey⟩, Prod.ext hsupported rfl⟩

end StaticDirectory

namespace Live

variable {τ π : Type} [LiveHolder τ π] [ControlPlane π] {t : τ} {key : String}

theorem run_isSupported (t : τ) (key : String) :
    (TypeDirectory.isSupported key : StateM τ Bool).run t =
      (((resolve key : Lookup τ _).run.run t).1.toBool,
        ((resolve key : Lookup τ _).run.run t).2) := rfl

theorem answers_iff :
    Answers t key ↔
      ∃ d, (LiveHolder.directory t).index.find? key = some d ∧ d.typeKey = key := by
  constructor
  · rintro ⟨⟨d, hd, hkey⟩, -⟩
    exact ⟨d, find?_of_run_resolve hd, hkey⟩
  · rintro ⟨d, hd, hkey⟩
    have hrun := run_resolve_of_find? hd
    refine ⟨⟨d, hrun, hkey⟩, ?_⟩
    rw [run_isSupported, hrun]
    rfl

end Live

namespace LiveDirectory

theorem keyed_addDocument {index : TypeIndex} (h : index.Keyed) (authority : String)
    (document : Json) : (addDocument authority index document).Keyed := by
  unfold addDocument
  split
  · rename_i ds _
    exact List.foldlRecOn ds TypeIndex.insert h fun _ hindex t _ => hindex.insert t
  · exact h

theorem keyed_indexOf (authority : String) (documents : List Json) :
    (indexOf authority documents).Keyed :=
  List.foldlRecOn documents (addDocument authority) TypeIndex.keyed_empty
    fun _ hindex document _ => keyed_addDocument hindex authority document

end LiveDirectory

theorem keyed_course {π : Type} [ControlPlane π] (plane : π) (authority namespaceName : String)
    (actions : List (Action π)) :
    (course plane authority namespaceName actions).refreshes.directory.index.Keyed := by
  rw [(sound_course plane authority namespaceName actions).index, Log.index]
  cases (course plane authority namespaceName actions).log.replacements.getLast? with
  | none => exact TypeIndex.keyed_empty
  | some documents => exact LiveDirectory.keyed_indexOf authority documents

/-- **Listed types can be looked up.** After any run of a static directory and at any time of
refreshes of a live one, a listed key is answered for, without a refresh, exactly if it has no
blanks at its ends. -/
theorem answers_listed_iff (authority key : String) :
    (∀ (steps : List StaticDirectory.Step) (order : TypeIndex.IterationOrder),
      key ∈ (StaticDirectory.run authority steps order).typeKeys →
        (Answers (StaticDirectory.run authority steps order) key ↔ trim key.toList = key.toList)) ∧
    ∀ {π : Type} [ControlPlane π] (plane : π) (namespaceName : String)
      (actions : List (Action π)),
      let d := (course plane authority namespaceName actions).refreshes.directory
      key ∈ d.index.keys → (Answers d key ↔ trim key.toList = key.toList) := by
  refine ⟨fun steps order hkey => ?_, fun plane namespaceName actions => ?_⟩
  · rw [StaticDirectory.answers_iff]
    exact (StaticDirectory.keyed_run authority steps).find?_iff hkey
  · intro d hkey
    rw [Live.answers_iff]
    exact (keyed_course plane authority namespaceName actions).find?_iff hkey

/-- A definition with one version. -/
def sampleDefinition : Json :=
  .obj [("kind", .str definitionKind), ("metadata", .obj []),
    ("spec", .obj [("group", .str "g"), ("names", .obj [("kind", .str "t")]),
      ("versions", .arr [.obj [("name", .str "v"),
        ("schema", .obj [("openAPIV3Schema", .obj [])]), ("served", .bool true)]])])]

/-- The course of one refresh, up to its end. -/
def sampleActions : List (Action MemoryPlane) := .add :: List.replicate 8 (.advance 0)

/-- A live directory after that refresh. -/
def sampleDirectory : LiveDirectory MemoryPlane :=
  (course ⟨[sampleDefinition], [], 0, 0, false, 0⟩ "g" "n" sampleActions).refreshes.directory

/-- Both kinds of directories answer for a type that they list. -/
theorem answers_listed_sample :
    ("t.g/v" ∈ (StaticDirectory.run "g" StaticDirectory.sampleSteps).typeKeys ∧
        Answers (StaticDirectory.run "g" StaticDirectory.sampleSteps) "t.g/v") ∧
      "t.g/v" ∈ sampleDirectory.index.keys ∧ Answers sampleDirectory "t.g/v" := by
  have htrim : trim "t.g/v".toList = "t.g/v".toList := by decide +kernel
  have hfind := StaticDirectory.find?_types_sample
  rw [TypeIndex.find?, StaticDirectory.normalizeTypeKey_sample] at hfind
  have hstatic := TypeIndex.mem_keys_of_find? hfind
  have hindex : sampleDirectory.index = LiveDirectory.indexOf "g" [sampleDefinition] := rfl
  have hlive : "t.g/v" ∈ sampleDirectory.index.keys := by
    rw [hindex]
    decide +kernel
  exact ⟨⟨hstatic, ((answers_listed_iff _ _).1 _ _ hstatic).2 htrim⟩, hlive,
    ((answers_listed_iff _ _).2 _ _ _ hlive).2 htrim⟩

/-! ## A version whose name ends in a blank -/

namespace StaticDirectory

open Files

/-- A definition with a literal head in its URN template and a blank behind a version's name. -/
def spacedLines : List String :=
  ["kind: CustomResourceDefinition", "metadata:", " annotations:",
    "  ccrn/v.urn-template: urn:ccrn:t.g/v/<a>", "spec:", " group: g", " names: {kind: t}",
    " versions:", " - {name: v, served: true, schema: {openAPIV3Schema: {}}}", " - name: \"w \"",
    "   served: true"]

def spacedChars : List Char := spacedLines.flatMap fun line => line.toList ++ ['\n']

def spacedText : String := String.ofList spacedChars

def spacedTemplate : String := "urn:ccrn:t.g/v/<a>"

def spacedTypes : List TypeDescriptor :=
  [sampleType "v" (.obj []) spacedTemplate, sampleType "w " .null ""]

def spacedFiles : FileSystem where
  root := .directory [("a.yaml", .file (some spacedText))]

def spacedSteps : List Step := [.load spacedFiles (.pattern "a.yaml")]

theorem readDocument_spaced : Batch.readDocument "g" spacedText = .ok (.types spacedTypes) := by
  refine eq_ok_of_toOption ?_
  rw [spacedText, Batch.readDocument, Yaml.parse?, Yaml.Document.ofText?, Yaml.Token.ofText?,
    String.toList_ofList]
  decide +kernel

theorem readings_spaced : readings "g" spacedSteps = [spacedTypes] := by
  have hfiles : (Source.pattern "a.yaml").files spacedFiles = .ok ["a.yaml"] :=
    eq_ok_of_toOption (by decide +kernel)
  have hsplit : splitDocuments spacedText = [(0, spacedText)] :=
    splitDocuments_of_lines (by decide +kernel) (by decide +kernel) (by decide +kernel)
  exact readings_load
    (reading?_of_document hfiles (read_single spacedText) hsplit readDocument_spaced)

end StaticDirectory

/-- A version whose name ends in a blank is listed, but not found. -/
theorem not_forall_answers_listed :
    ¬ ∀ (authority : String) (steps : List StaticDirectory.Step),
      ∀ key ∈ (StaticDirectory.run authority steps).typeKeys,
        Answers (StaticDirectory.run authority steps) key := by
  intro h
  have hholds : (StaticDirectory.run "g" StaticDirectory.spacedSteps).index.Holds _ :=
    StaticDirectory.holds_run _ _
  rw [StaticDirectory.readings_spaced] at hholds
  have hlisted : (StaticDirectory.run "g" StaticDirectory.spacedSteps).index.types.types.find?
      "t.g/w " = some (StaticDirectory.sampleType "w " .null "") := by
    rw [hholds.types]
    decide +kernel
  obtain ⟨t, ht, -⟩ := StaticDirectory.answers_iff.1
    (h "g" StaticDirectory.spacedSteps "t.g/w " (TypeIndex.mem_keys_of_find? hlisted))
  have hnormal : normalizeTypeKey "t.g/w " = "t.g/w" := by decide +kernel
  rw [TypeIndex.find?, hnormal, hholds.types] at ht
  revert ht
  have hnone : (latest "t.g/w" [StaticDirectory.spacedTypes]).getLast? = none := by decide +kernel
  rw [hnone]
  exact nofun

end ResourceNames
