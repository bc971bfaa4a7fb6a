import ResourceNames.Proofs.Directory.ListedTypes
import ResourceNames.Proofs.Directory.Loading
import ResourceNames.Proofs.Live.Listings

/-!
# Static and live directories of the same documents

A static directory reads its documents from files, and a live one gets them from a control plane.

* `sourceTypes_eq`: a source yields the types of its documents, in their order.
* `SameTypes`: two directories hold the same types and answer alike.
* `load_refresh_agree`: this is so after a load and a refresh of the same documents.
-/

namespace ResourceNames

open Files

/-! ## The documents of a source -/

/-- A document that parses describes the same types wherever it comes from. -/
theorem documentTypes_eq {authority yaml : String} {document : Json}
    (h : Yaml.parse? yaml = some document) :
    Batch.documentTypes authority yaml = LiveDirectory.typesIn authority document := by
  have hread : Batch.readDocument authority yaml =
      (Definition.extract document authority).mapError DirectoryError.message := by
    unfold Batch.readDocument
    rw [h]
  unfold Batch.documentTypes LiveDirectory.typesIn
  rw [hread]
  cases Definition.extract document authority with
  | error e => rfl
  | ok extracted => cases extracted <;> rfl

theorem flatMap_documentTypes {authority : String} {texts : List String} {documents : List Json}
    (h : texts.map Yaml.parse? = documents.map some) :
    texts.flatMap (Batch.documentTypes authority) =
      documents.flatMap (LiveDirectory.typesIn authority) := by
  induction texts generalizing documents with
  | nil =>
    rw [List.map_nil, eq_comm, List.map_eq_nil_iff] at h
    rw [h, List.flatMap_nil, List.flatMap_nil]
  | cons text texts ih =>
    cases documents with
    | nil => cases h
    | cons document documents =>
      obtain ⟨hparse, hrest⟩ := List.cons_eq_cons.1 h
      rw [List.flatMap_cons, List.flatMap_cons, documentTypes_eq hparse, ih hrest]

/-- A source whose documents parse yields their types, in their order. -/
theorem sourceTypes_eq {authority : String} {fs : FileSystem} {source : Source}
    {documents : List Json}
    (h : (sourceDocuments fs source).map Yaml.parse? = documents.map some) :
    sourceTypes authority fs source = documents.flatMap (LiveDirectory.typesIn authority) := by
  rw [sourceTypes_eq_flatMap, flatMap_documentTypes h]

/-- A source that fails yields no types. -/
theorem sourceTypes_of_readSource_error {authority : String} {fs : FileSystem} {source : Source}
    {e : DirectoryError} (h : readSource authority fs source = .error e) :
    sourceTypes authority fs source = [] := by
  unfold sourceTypes
  obtain ⟨e', hfiles⟩ | ⟨files, hfiles, hnone, -⟩ := readSource_eq_error_iff.1 ⟨e, h⟩
  · rw [hfiles]
  · rw [hfiles]
    exact List.flatMap_eq_nil_iff.2 hnone

theorem run_load_of_readSource {d : StaticDirectory} {fs : FileSystem} {source : Source} {b : Batch}
    (h : readSource d.authority fs source = .ok b) :
    ((StaticDirectory.load fs source).run.run d).1 = .ok b.summary := by
  rw [StaticDirectory.run_load, h]

theorem exists_readSource_of_reading? {authority : String} {fs : FileSystem} {source : Source}
    {ds : List TypeDescriptor} (h : reading? authority fs source = some ds) :
    ∃ b, readSource authority fs source = .ok b := by
  unfold reading? at h
  split at h
  · rename_i b hread
    exact ⟨b, hread⟩
  · cases h

/-! ## What the directories hold -/

/-- In an index with one source, the last of its types with one key counts. -/
theorem StaticIndex.find?_types_absorb_empty {b : Batch} {ds : List TypeDescriptor}
    (h : b.Holds ds) (key : String) :
    (({} : StaticIndex).absorb b).types.types.find? key = (ofKey key ds).getLast? := by
  rw [find?_types_absorb _ h]
  cases (ofKey key ds).getLast? <;> rfl

/-- A fresh static directory with documents holds what a listing of them holds. -/
theorem types_absorb_eq_indexOf {authority : String} {b : Batch} {documents : List Json}
    (h : b.Holds (documents.flatMap (LiveDirectory.typesIn authority))) (source : Source) :
    ((({} : StaticIndex).absorb b).addSource source).types =
      LiveDirectory.indexOf authority documents := by
  have htypes : (({} : StaticIndex).absorb b).types.types =
      (LiveDirectory.indexOf authority documents).types := by
    refine Table.ext_find? fun key => ?_
    rw [StaticIndex.find?_types_absorb_empty h, LiveDirectory.find?_indexOf]
  rw [StaticIndex.types_addSource]
  exact congrArg TypeIndex.mk htypes

section

variable {π : Type} [ControlPlane π] {authority namespaceName : String} {documents : List Json}

/-- A control plane answers a listing that starts now with some documents. -/
def Lists (plane : π) (documents : List Json) : Prop :=
  (ControlPlane.listing.run.run (ControlPlane.beginListing plane)).1 = .ok documents

/-- A refresh whose listing is answered takes the answer over. -/
theorem LiveDirectory.exists_run_refresh {d : LiveDirectory π} (h : Lists d.plane documents) :
    ∃ d', (refresh : Lookup (LiveDirectory π) Unit).run.run d = (.ok (), d') ∧
      d'.authority = d.authority ∧ d'.index = indexOf d.authority documents := by
  rw [run_refresh, run_receive, run_ask]
  have hanswer : (ControlPlane.listing.run.run d.beginListing.plane).1 = .ok documents := h
  rw [hanswer]
  exact ⟨_, rfl, rfl, rfl⟩

/-- Two directories hold the same types and answer alike. A type that neither of them holds is
looked for once more by the live one, among the documents that its control plane lists then. -/
structure SameTypes (documents : List Json) (s : StaticDirectory) (d : LiveDirectory π) :
    Prop where
  index : s.index.types = d.index
  keys : s.typeKeys = d.index.keys
  descriptors : ∃ ts, (TypeDirectory.listTypes : Lookup StaticDirectory _).run.run s = (.ok ts, s) ∧
    (TypeDirectory.listTypes : Lookup (LiveDirectory π) _).run.run d = (.ok ts, d)
  held : ∀ key, s.index.types.contains key = true → ∃ t,
    (TypeDirectory.getType key : Lookup StaticDirectory _).run.run s = (.ok t, s) ∧
      (TypeDirectory.getType key : Lookup (LiveDirectory π) _).run.run d = (.ok t, d)
  missed : ∀ key, s.index.types.contains key = false → Lists d.plane documents →
    ((TypeDirectory.getType key : Lookup StaticDirectory _).run.run s).1 = .error (.notFound key) ∧
      ((TypeDirectory.getType key : Lookup (LiveDirectory π) _).run.run d).1 =
        .error (.notFound key)

/-- Directories with the same index answer alike. -/
theorem sameTypes_of_index_eq {s : StaticDirectory} {d : LiveDirectory π}
    (hindex : s.index.types = d.index)
    (hdocuments : d.index = LiveDirectory.indexOf d.authority documents) :
    SameTypes documents s d where
  index := hindex
  keys := congrArg TypeIndex.keys hindex
  descriptors := by
    refine ⟨s.index.types.sortedTypes, rfl, ?_⟩
    rw [hindex]
    rfl
  held := by
    intro key hkey
    obtain ⟨t, ht⟩ := Option.isSome_iff_exists.1 hkey
    have hlive : (LiveHolder.directory d).index.find? key = some t := by
      rw [← ht, hindex]
      rfl
    refine ⟨t, ?_, Live.run_resolve_of_find? hlive⟩
    rw [StaticDirectory.run_getType, StaticDirectory.getType, ht]
  missed := by
    intro key hkey hlists
    have hnone : s.index.types.find? key = none := Option.not_isSome_iff_eq_none.1 (by
      unfold TypeIndex.contains at hkey
      rw [hkey]
      exact Bool.false_ne_true)
    obtain ⟨d', hrefresh, -, hindex'⟩ := LiveDirectory.exists_run_refresh hlists
    have hmiss : (LiveHolder.directory d).index.find? key = none := hindex ▸ hnone
    have hmissAgain : (LiveHolder.directory d').index.find? key = none := by
      have hsame : d'.index = d.index := hindex'.trans hdocuments.symm
      exact hsame ▸ hmiss
    have hresolve := Live.run_resolve_of_refresh hmiss hrefresh
    rw [hmissAgain] at hresolve
    constructor
    · rw [StaticDirectory.run_getType, StaticDirectory.getType, hnone]
    · exact congrArg Prod.fst hresolve

/-- **Static and live directories know the same types.** A fresh static directory loads a source
whose documents parse, and a fresh live directory for the same naming authority refreshes from a
control plane that lists what they parse to. The refresh succeeds. If the load does so too, the two
hold the same types and answer alike, and otherwise the live directory is empty. -/
theorem load_refresh_agree (authority namespaceName : String) (fs : FileSystem) (source : Source)
    (plane : π) (documents : List Json)
    (hparse : (sourceDocuments fs source).map Yaml.parse? = documents.map some)
    (hlists : Lists plane documents) :
    let loaded := (StaticDirectory.load fs source).run.run { authority }
    let refreshed := (LiveDirectory.refresh : Lookup (LiveDirectory π) _).run.run
      { plane, authority, namespaceName }
    refreshed.1 = .ok () ∧
      match loaded.1 with
      | .ok _ => SameTypes documents loaded.2 refreshed.2
      | .error _ => refreshed.2.index = {} := by
  intro loaded refreshed
  have htypes : sourceTypes authority fs source =
      documents.flatMap (LiveDirectory.typesIn authority) := sourceTypes_eq hparse
  obtain ⟨d, hrefresh, hauthority, hindex⟩ :=
    LiveDirectory.exists_run_refresh (d := { plane, authority, namespaceName }) hlists
  have hrefreshed : refreshed = (.ok (), d) := hrefresh
  have hloaded : loaded = _ := StaticDirectory.run_load fs source { authority }
  rw [hrefreshed, hloaded]
  cases hread : readSource authority fs source with
  | error e =>
    refine ⟨rfl, ?_⟩
    have hnone := sourceTypes_of_readSource_error hread
    rw [htypes] at hnone
    exact hindex.trans (by rw [LiveDirectory.indexOf_eq, hnone]; rfl)
  | ok b =>
    have hholds := readSource_holds hread
    rw [htypes] at hholds
    refine ⟨rfl, sameTypes_of_index_eq ?_ (by rw [hauthority]; exact hindex)⟩
    exact (types_absorb_eq_indexOf hholds source).trans hindex.symm

end

/-! ## A definition from a file and from a control plane -/

/-- A document that can be read parses. -/
theorem exists_parse?_of_readDocument {authority yaml : String} {extracted : Extracted}
    (h : Batch.readDocument authority yaml = .ok extracted) :
    ∃ document, Yaml.parse? yaml = some document := by
  unfold Batch.readDocument at h
  split at h
  · cases h
  · rename_i document hparse
    exact ⟨document, hparse⟩

theorem sourceDocuments_sample :
    sourceDocuments StaticDirectory.sampleFiles (.pattern "a.yaml") =
      [StaticDirectory.sampleText] := by
  unfold sourceDocuments
  rw [StaticDirectory.files_sample]
  simp [fileDocuments, StaticDirectory.read_sample, StaticDirectory.splitDocuments_sample]

/-- Of the two versions of the definition that share their key, both directories have the last. -/
theorem load_refresh_sample :
    ∃ document,
      (sourceDocuments StaticDirectory.sampleFiles (.pattern "a.yaml")).map Yaml.parse? =
          [document].map some ∧
        Lists (⟨[document], [], 0, 0, false, 0⟩ : MemoryPlane) [document] ∧
        ∃ summary s d,
          (StaticDirectory.load StaticDirectory.sampleFiles (.pattern "a.yaml")).run.run
            { authority := "g" } = (.ok summary, s) ∧
          (LiveDirectory.refresh : Lookup (LiveDirectory MemoryPlane) _).run.run
            { plane := ⟨[document], [], 0, 0, false, 0⟩, authority := "g", namespaceName := "n" } =
              (.ok (), d) ∧
          SameTypes [document] s d ∧
          s.index.types.types.find? "t.g/w" = some (StaticDirectory.sampleType "w" .null "") := by
  obtain ⟨document, hdocument⟩ :=
    exists_parse?_of_readDocument StaticDirectory.readDocument_sample
  have hparse : (sourceDocuments StaticDirectory.sampleFiles (.pattern "a.yaml")).map Yaml.parse? =
      [document].map some := by
    rw [sourceDocuments_sample, List.map_singleton, hdocument]
    rfl
  have hlists : Lists (⟨[document], [], 0, 0, false, 0⟩ : MemoryPlane) [document] := rfl
  have hfind : ((StaticDirectory.load StaticDirectory.sampleFiles (.pattern "a.yaml")).run.run
      { authority := "g" }).2.index.types.types.find? "t.g/w" =
        some (StaticDirectory.sampleType "w" .null "") := by
    have hholds : (StaticDirectory.run "g" StaticDirectory.sampleSteps).index.Holds _ :=
      StaticDirectory.holds_run _ _
    rw [StaticDirectory.readings_sample, StaticDirectory.sampleSteps, StaticDirectory.run,
      List.foldl_cons, List.foldl_nil, StaticDirectory.Step.apply] at hholds
    rw [hholds.types]
    decide +kernel
  obtain ⟨b, hread⟩ := exists_readSource_of_reading? (reading?_of_document
    StaticDirectory.files_sample StaticDirectory.read_sample StaticDirectory.splitDocuments_sample
    StaticDirectory.readDocument_sample)
  have hloaded : ((StaticDirectory.load StaticDirectory.sampleFiles (.pattern "a.yaml")).run.run
      { authority := "g" }).1 = .ok b.summary :=
    run_load_of_readSource (d := { authority := "g" }) hread
  obtain ⟨hrefreshed, hsame⟩ := load_refresh_agree "g" "n" StaticDirectory.sampleFiles
    (.pattern "a.yaml") (⟨[document], [], 0, 0, false, 0⟩ : MemoryPlane) [document] hparse hlists
  generalize (StaticDirectory.load StaticDirectory.sampleFiles (.pattern "a.yaml")).run.run
    { authority := "g" } = loaded at hloaded hsame hfind ⊢
  obtain ⟨_, s⟩ := loaded
  cases hloaded
  exact ⟨document, hparse, hlists, b.summary, s, _, rfl, Prod.ext hrefreshed rfl, hsame, hfind⟩

end ResourceNames
