import Mathlib.Data.List.Pairwise
import ResourceNames.Proofs.Definition.Accepted
import ResourceNames.Proofs.Directory.Mirroring
import ResourceNames.Proofs.Directory.Templates

/-!
# Documents of distinct types and names

If no type is described twice, it does not matter in which order documents are read, and which of
them replace which. If no two documents have one name, it does not matter in which order the types
of an index are gone through.

* `latest_of_nodup`: what was ever read of a type counts if it is described once only.
* `types_loads`: after loads, a static directory holds what a listing of the documents holds.
* `find?_validators_loads`: each type has the validator that its schema describes.
* `LiveDirectory.orderFree_indexOf`: of documents with distinct names, templates are looked up with
  the same answer in every order.
-/

namespace ResourceNames

open Files

/-! ## Distinct types -/

/-- Among descriptors of distinct types, at most one is of a given type. -/
theorem ofKey_of_nodup {ds : List TypeDescriptor} (h : (ds.map (·.typeKey)).Nodup)
    {t : TypeDescriptor} (ht : t ∈ ds) : ofKey t.typeKey ds = [t] := by
  induction ds with
  | nil => cases ht
  | cons d ds ih =>
    obtain ⟨hd, hds⟩ := List.nodup_cons.1 h
    rw [← List.singleton_append, ofKey_append]
    rcases List.mem_cons.1 ht with rfl | ht
    · have hnone : ofKey t.typeKey ds = [] := by
        refine List.eq_nil_iff_forall_not_mem.2 fun u hu => ?_
        obtain ⟨hmem, hkey⟩ := mem_ofKey_iff.1 hu
        exact hd (List.mem_map.2 ⟨u, hmem, hkey⟩)
      rw [ofKey_self, hnone, List.append_nil]
    · have hne : d.typeKey ≠ t.typeKey := fun he => hd (List.mem_map.2 ⟨t, ht, he.symm⟩)
      rw [ofKey_of_ne hne, ih hds ht, List.nil_append]

/-- If no type is read twice, it does not matter that readings replace each other. -/
theorem latest_of_nodup {readings : List (List TypeDescriptor)}
    (h : (readings.flatten.map (·.typeKey)).Nodup) (key : String) :
    latest key readings = ofKey key readings.flatten := by
  induction readings using List.reverseRecOn with
  | nil => rfl
  | append_singleton readings ds ih =>
    rw [List.flatten_concat] at h ⊢
    rw [latest_concat, ofKey_append]
    rw [List.map_append] at h
    have hreadings := ih h.of_append_left
    by_cases hkey : ofKey key ds = []
    · rw [if_pos hkey, hkey, List.append_nil, hreadings]
    · -- What is read last of a type replaces nothing, as nothing else was read of it.
      rw [if_neg hkey]
      obtain ⟨t, ht⟩ := List.exists_mem_of_ne_nil _ hkey
      obtain ⟨hmem, rfl⟩ := mem_ofKey_iff.1 ht
      have hnone : ofKey t.typeKey readings.flatten = [] := by
        refine List.eq_nil_iff_forall_not_mem.2 fun u hu => ?_
        obtain ⟨hread, hsame⟩ := mem_ofKey_iff.1 hu
        exact (List.disjoint_of_nodup_append h) (List.mem_map.2 ⟨u, hread, hsame⟩)
          (List.mem_map.2 ⟨t, hmem, rfl⟩)
      rw [hnone, List.nil_append]

theorem validator?_eq_compile? (t : TypeDescriptor) :
    t.validator? = Validator.compile? t.schema := by
  unfold TypeDescriptor.validator?
  cases t.schema <;> rfl

/-! ## Loads -/

namespace StaticDirectory

/-- Loads of sources from files as they are then. -/
def loadSteps (loads : List (FileSystem × Source)) : List Step :=
  loads.map fun load => .load load.1 load.2

theorem readings_loadSteps (authority : String) (loads : List (FileSystem × Source)) :
    readings authority (loadSteps loads) =
      loads.filterMap fun load => reading? authority load.1 load.2 := by
  induction loads using List.reverseRecOn with
  | nil => rfl
  | append_singleton loads load ih =>
    have hsteps : loadSteps (loads ++ [load]) = loadSteps loads ++ [.load load.1 load.2] :=
      List.map_append
    rw [hsteps, readings_concat, ih, Step.readings, authority_run, List.filterMap_append,
      List.filterMap_cons, List.filterMap_nil]
    cases reading? authority load.1 load.2 <;> rfl

/-- A source yields its types, whether it fails or not, as one that fails has none. -/
theorem toList_reading?_flatten (authority : String) (fs : FileSystem) (source : Source) :
    (reading? authority fs source).toList.flatten = sourceTypes authority fs source := by
  unfold reading?
  cases hread : readSource authority fs source with
  | error e => exact (sourceTypes_of_readSource_error hread).symm
  | ok b => exact List.append_nil _

theorem flatten_readings_loadSteps (authority : String) (loads : List (FileSystem × Source)) :
    (readings authority (loadSteps loads)).flatten =
      loads.flatMap fun load => sourceTypes authority load.1 load.2 := by
  rw [readings_loadSteps]
  induction loads with
  | nil => rfl
  | cons load loads ih =>
    rw [List.flatMap_cons, ← ih, ← toList_reading?_flatten, List.filterMap_cons]
    cases reading? authority load.1 load.2 with
    | none => rfl
    | some ds => simp

variable {authority : String} {order : TypeIndex.IterationOrder}
  {loads : List (FileSystem × Source)} {documents : List Json}

/-- The types that loads yield are those of the documents that the files parse to. -/
theorem sourceTypes_loads
    (h : (loads.flatMap fun load => sourceDocuments load.1 load.2).map Yaml.parse? =
      documents.map some) :
    (loads.flatMap fun load => sourceTypes authority load.1 load.2) =
      documents.flatMap (LiveDirectory.typesIn authority) := by
  rw [← flatMap_documentTypes h, List.flatMap_assoc]
  simp only [sourceTypes_eq_flatMap]

variable
  (hparse : (loads.flatMap fun load => sourceDocuments load.1 load.2).map Yaml.parse? =
    documents.map some)
  (hkeys : ((documents.flatMap (LiveDirectory.typesIn authority)).map (·.typeKey)).Nodup)

include hparse hkeys

theorem latest_loads (key : String) :
    latest key (readings authority (loadSteps loads)) =
      ofKey key (documents.flatMap (LiveDirectory.typesIn authority)) := by
  have hflatten : (readings authority (loadSteps loads)).flatten =
      documents.flatMap (LiveDirectory.typesIn authority) := by
    rw [flatten_readings_loadSteps, sourceTypes_loads hparse]
  rw [← hflatten] at hkeys ⊢
  exact latest_of_nodup hkeys key

/-- After loads of documents with distinct types, a static directory holds what a listing of the
documents holds. -/
theorem types_loads : (run authority (loadSteps loads) order).index.types =
    LiveDirectory.indexOf authority documents := by
  have htypes : (run authority (loadSteps loads) order).index.types.types =
      (LiveDirectory.indexOf authority documents).types := by
    refine Table.ext_find? fun key => ?_
    rw [(holds_run _ _).types, latest_loads hparse hkeys, LiveDirectory.find?_indexOf]
  exact congrArg TypeIndex.mk htypes

/-- Each type has the validator that its schema describes. -/
theorem find?_validators_loads {key : String} {t : TypeDescriptor}
    (ht : (run authority (loadSteps loads) order).index.types.types.find? key = some t) :
    (run authority (loadSteps loads) order).index.validators.find? key =
      Validator.compile? t.schema := by
  obtain rfl := typeKey_of_find?_run ht
  rw [(holds_run _ _).types, latest_loads hparse hkeys] at ht
  have hmem := (mem_ofKey_iff.1 (List.mem_of_getLast? ht)).1
  rw [(holds_run _ _).validators, latest_loads hparse hkeys, ofKey_of_nodup hkeys hmem,
    ← validator?_eq_compile?]
  cases hvalidator : t.validator? <;> simp [hvalidator]

end StaticDirectory

/-! ## Distinct names -/

/-- The types of a definition differ in their versions only. -/
theorem Definition.typeKey_eq_of_mem_descriptors {d : Definition} {t u : TypeDescriptor}
    (ht : t ∈ d.descriptors) (hu : u ∈ d.descriptors) (h : t.version = u.version) :
    t.typeKey = u.typeKey := by
  obtain ⟨v, -, -, rfl⟩ := mem_descriptors_iff.1 ht
  obtain ⟨w, -, -, rfl⟩ := mem_descriptors_iff.1 hu
  have hversion : v.name = w.name := h
  simp only [TypeDescriptor.typeKey, descriptor, hversion]

namespace LiveDirectory

variable {authority : String} {documents : List Json}

/-- The types of two documents are defined under different names, whatever the case of letters. -/
def NamedApart (authority : String) (a b : Json) : Prop :=
  ∀ t ∈ typesIn authority a, ∀ u ∈ typesIn authority b,
    Text.asciiLower t.name ≠ Text.asciiLower u.name

instance : Std.Symm (NamedApart authority) where
  symm _ _ h t ht u hu := (h u hu t ht).symm

/-- No two documents define types under one name. -/
def DistinctNames (authority : String) (documents : List Json) : Prop :=
  documents.Pairwise (NamedApart authority)

theorem typeKey_eq_of_mem_typesIn {document : Json} {t u : TypeDescriptor}
    (ht : t ∈ typesIn authority document) (hu : u ∈ typesIn authority document)
    (h : t.version = u.version) : t.typeKey = u.typeKey := by
  obtain ⟨ts, hextract, ht⟩ := mem_typesIn_iff.1 ht
  obtain ⟨us, hextract', hu⟩ := mem_typesIn_iff.1 hu
  cases hextract.symm.trans hextract'
  obtain ⟨d, -, hd⟩ := exists_ok_of_bind hextract
  split at hd
  · cases hd
    exact Definition.typeKey_eq_of_mem_descriptors ht hu h
  · cases hd

theorem exists_document_of_mem_descriptors {t : TypeDescriptor}
    (h : t ∈ (indexOf authority documents).descriptors) :
    ∃ document ∈ documents, t ∈ typesIn authority document := by
  have hfind := (keyed_indexOf authority documents).find?_typeKey h
  rw [find?_indexOf] at hfind
  exact List.mem_flatMap.1 (mem_ofKey_iff.1 (List.mem_of_getLast? hfind)).1

/-- Of documents with distinct names, a name and a version stand for one type at most. -/
theorem unambiguous_indexOf (h : DistinctNames authority documents) (name version : String) :
    (indexOf authority documents).Unambiguous name version := by
  intro t ht u hu hname hname'
  obtain ⟨a, ha, hta⟩ := exists_document_of_mem_descriptors ht
  obtain ⟨b, hb, hub⟩ := exists_document_of_mem_descriptors hu
  have hsame : a = b := by
    by_contra hne
    exact h.forall ha hb hne t hta u hub (hname.1.trans hname'.1.symm)
  subst hsame
  -- Both come from one document at one version, so they stand under one key.
  have hkey := typeKey_eq_of_mem_typesIn hta hub (hname.2.trans hname'.2.symm)
  have hfind := (keyed_indexOf authority documents).find?_typeKey ht
  rw [hkey, (keyed_indexOf authority documents).find?_typeKey hu] at hfind
  rw [Option.some.inj hfind]

theorem orderFree_indexOf (h : DistinctNames authority documents) (name version : String) :
    (indexOf authority documents).OrderFree name version :=
  TypeIndex.orderFree_iff.2 (.inr (unambiguous_indexOf h name version))

/-- Names that differ in capitals only are not distinct enough. -/
example :
    let t := { StaticDirectory.sampleType "v" .null "" with name := "x" }
    let u := { StaticDirectory.sampleType "v" .null "" with name := "X" }
    TypeIndex.definedBy? [t, u] "x" "v" = some t ∧
      TypeIndex.definedBy? [u, t] "x" "v" = some u := by decide +kernel

end LiveDirectory

end ResourceNames
