import ResourceNames.Proofs.Definition.Accepted
import ResourceNames.Proofs.Directory.ListedTypes
import ResourceNames.Proofs.Directory.Sources
import ResourceNames.Proofs.Live.Listings

/-!
# Well-formed indexes

What a directory holds came through the reading of definitions, and each type stands under its own
key. So the views of a directory agree, of which one sorts the keys and another one the types.

* `TypeDescriptor.Described`: what the reading of definitions makes sure of.
* `TypeIndex.Keyed.sortByTypeKey_of_perm`: the types, sorted by their keys, come in one order only.
* `wellFormed_reachable`: the indexes of static and live directories are well formed, and all
  listings of types agree.
-/

namespace ResourceNames

open Files

/-! ## Definitions -/

/-- A type is named, and its group belongs to a naming authority. -/
structure TypeDescriptor.Described (authority : String) (t : TypeDescriptor) : Prop where
  group_contains : authority.toList <:+: t.group.toList
  group_ne : t.group ≠ ""
  kind_ne : t.kind ≠ ""
  version_ne : t.version ≠ ""

/-- What is taken out of a document is described. -/
theorem Definition.described_of_extract {v : Json} {authority : String}
    {ds : List TypeDescriptor} (h : extract v authority = .ok (.types ds)) :
    ∀ t ∈ ds, t.Described authority := by
  obtain ⟨d, hd, h⟩ := exists_ok_of_bind h
  have haccepted := accepted_of_ofJson hd
  split at h
  · rename_i hrelevant
    cases h
    intro t ht
    obtain ⟨version, hversion, -, rfl⟩ := mem_descriptors_iff.1 ht
    exact ⟨Text.occurs_iff.1 hrelevant, haccepted.group_ne, haccepted.kind_ne,
      haccepted.version_ne version hversion⟩
  · cases h

/-! ## Indexes -/

/-- Each type of an index stands under its own key and is described. -/
structure TypeIndex.WellFormed (authority : String) (index : TypeIndex) : Prop where
  keyed : index.Keyed
  described : ∀ key t, index.types.find? key = some t → t.Described authority

namespace TypeIndex

variable {index : TypeIndex}

theorem pairwise_keys (index : TypeIndex) : index.keys.Pairwise (· < ·) :=
  List.pairwise_map.2 index.types.ascending

theorem Keyed.map_typeKey_descriptors (h : index.Keyed) :
    index.descriptors.map (·.typeKey) = index.keys := by
  have hentries : ∀ e ∈ index.types.entries, e.2.typeKey = e.1 := fun e he =>
    h e.1 e.2 (Entries.find?_eq_some_of_mem index.types.ascending he)
  unfold descriptors keys Table.values Table.keys
  rw [List.map_map]
  exact List.map_congr_left hentries

theorem pairwise_sortByTypeKey (ds : List TypeDescriptor) :
    (sortByTypeKey ds).Pairwise fun a b => a.typeKey ≤ b.typeKey := by
  have htrans : ∀ a b c : TypeDescriptor, decide (a.typeKey ≤ b.typeKey) = true →
      decide (b.typeKey ≤ c.typeKey) = true → decide (a.typeKey ≤ c.typeKey) = true := by
    intro a b c
    simpa using Std.le_trans
  have htotal : ∀ a b : TypeDescriptor,
      (decide (a.typeKey ≤ b.typeKey) || decide (b.typeKey ≤ a.typeKey)) = true := by
    intro a b
    simpa using Std.le_total
  exact (List.pairwise_mergeSort htrans htotal ds).imp of_decide_eq_true

/-- The types, sorted by their keys, come in one order only, in whichever order they are taken. -/
theorem Keyed.sortByTypeKey_of_perm (h : index.Keyed) {ds : List TypeDescriptor}
    (hds : ds.Perm index.descriptors) : sortByTypeKey ds = index.descriptors := by
  have hperm : (sortByTypeKey ds).Perm index.descriptors := (List.mergeSort_perm _ _).trans hds
  have hkeys : index.descriptors.Pairwise fun a b => a.typeKey ≤ b.typeKey := by
    have hlt := index.pairwise_keys
    rw [← h.map_typeKey_descriptors, List.pairwise_map] at hlt
    exact hlt.imp Std.le_of_lt
  refine hperm.eq_of_pairwise (fun a b ha hb hab hba => ?_) (pairwise_sortByTypeKey ds) hkeys
  have hkey := Std.le_antisymm hab hba
  have hfind := h.find?_typeKey (hperm.mem_iff.1 ha)
  rw [hkey, h.find?_typeKey hb] at hfind
  exact (Option.some.inj hfind).symm

theorem Keyed.sortedTypes_eq (h : index.Keyed) : index.sortedTypes = index.descriptors :=
  h.sortByTypeKey_of_perm (List.Perm.refl _)

end TypeIndex

/-- A type that counts for a key is one of those that were read. -/
theorem mem_of_mem_latest {key : String} {readings : List (List TypeDescriptor)}
    {t : TypeDescriptor} (h : t ∈ latest key readings) : ∃ ds ∈ readings, t ∈ ds := by
  induction readings using List.reverseRecOn with
  | nil => cases h
  | append_singleton readings ds ih =>
    rw [latest_concat] at h
    split at h
    · obtain ⟨es, hes, ht⟩ := ih h
      exact ⟨es, List.mem_append_left _ hes, ht⟩
    · exact ⟨ds, List.mem_append_right _ List.mem_cons_self, (mem_ofKey_iff.1 h).1⟩

/-! ## Static directories -/

theorem described_of_mem_documentTypes {authority yaml : String} {t : TypeDescriptor}
    (h : t ∈ Batch.documentTypes authority yaml) : t.Described authority := by
  unfold Batch.documentTypes at h
  split at h
  · rename_i ds hread
    unfold Batch.readDocument at hread
    split at hread
    · cases hread
    · exact Definition.described_of_extract (eq_ok_of_mapError hread) t h
  · cases h

theorem described_of_mem_fileTypes {authority path : String} {fs : FileSystem}
    {t : TypeDescriptor} (h : t ∈ Batch.fileTypes authority fs path) : t.Described authority := by
  unfold Batch.fileTypes at h
  split at h
  · obtain ⟨document, -, ht⟩ := List.mem_flatMap.1 h
    exact described_of_mem_documentTypes ht
  · cases h

theorem described_of_reading? {authority : String} {fs : FileSystem} {source : Source}
    {ds : List TypeDescriptor} (h : reading? authority fs source = some ds) :
    ∀ t ∈ ds, t.Described authority := by
  intro t ht
  unfold reading? at h
  split at h
  · cases h
    unfold sourceTypes at ht
    split at ht
    · obtain ⟨path, -, ht⟩ := List.mem_flatMap.1 ht
      exact described_of_mem_fileTypes ht
    · cases ht
  · cases h

namespace StaticDirectory

variable {order : TypeIndex.IterationOrder}

theorem described_step {d : StaticDirectory} {readings : List (List TypeDescriptor)}
    (h : ∀ ds ∈ readings, ∀ t ∈ ds, t.Described d.authority) (step : Step) :
    ∀ ds ∈ step.readings d readings, ∀ t ∈ ds, t.Described d.authority := by
  intro ds hds
  cases step with
  | load fs source =>
    obtain hds | hds := List.mem_append.1 hds
    · exact h ds hds
    · exact described_of_reading? (Option.mem_toList.1 hds)
  | reload fs =>
    simp only [Step.readings] at hds
    split at hds
    · exact h ds hds
    · obtain ⟨source, -, hread⟩ := List.mem_filterMap.1 hds
      exact described_of_reading? hread

theorem described_readings (authority : String) (steps : List Step) :
    ∀ ds ∈ readings authority steps, ∀ t ∈ ds, t.Described authority := by
  induction steps using List.reverseRecOn with
  | nil =>
    intro ds hds
    cases hds
  | append_singleton steps step ih =>
    rw [readings_concat]
    have hauthority : (run authority steps).authority = authority := authority_run authority steps
    have hstep := described_step (hauthority.symm ▸ ih) step
    rwa [hauthority] at hstep

theorem wellFormed_run (authority : String) (steps : List Step) :
    (run authority steps order).index.types.WellFormed authority where
  keyed := keyed_run authority steps
  described := by
    intro key t ht
    rw [(holds_run authority steps).types] at ht
    obtain ⟨ds, hds, hmem⟩ := mem_of_mem_latest (List.mem_of_getLast? ht)
    exact described_readings authority steps ds hds t hmem

/-- Only known types have validators. -/
theorem validatorKeys_subset (authority : String) (steps : List Step) :
    (run authority steps order).validatorKeys ⊆ (run authority steps order).typeKeys := by
  intro key hkey
  obtain ⟨validator, hfind⟩ := Table.mem_keys_iff.1 hkey
  rw [(holds_run authority steps).validators] at hfind
  obtain ⟨t, ht, -⟩ := List.mem_filterMap.1 (List.mem_of_getLast? hfind)
  have hlast := List.getLast?_eq_some_getLast (List.ne_nil_of_mem ht)
  rw [← (holds_run authority steps).types] at hlast
  exact Table.mem_keys_iff.2 ⟨_, hlast⟩

/-- No source is remembered twice. -/
theorem pairwise_sources (authority : String) (steps : List Step) :
    (run authority steps order).index.sources.Pairwise fun a b => a.same b = false := by
  rw [sources_run]
  refine (pairwise_eraseDupsBy Source.same _).imp fun {a b} h => ?_
  rw [Source.same_comm, h]

end StaticDirectory

/-! ## Live directories -/

theorem LiveDirectory.wellFormed_indexOf (authority : String) (documents : List Json) :
    (indexOf authority documents).WellFormed authority where
  keyed := keyed_indexOf authority documents
  described := by
    intro key t ht
    rw [find?_indexOf] at ht
    obtain ⟨hmem, -⟩ := mem_ofKey_iff.1 (List.mem_of_getLast? ht)
    obtain ⟨document, -, hdocument⟩ := List.mem_flatMap.1 hmem
    obtain ⟨ds, hextract, htypes⟩ := mem_typesIn_iff.1 hdocument
    exact Definition.described_of_extract hextract t htypes

theorem TypeIndex.wellFormed_empty (authority : String) : ({} : TypeIndex).WellFormed authority :=
  ⟨keyed_empty, fun _ _ h => by cases h⟩

theorem wellFormed_course {π : Type} [ControlPlane π] (plane : π)
    (authority namespaceName : String) (actions : List (Action π)) :
    (course plane authority namespaceName actions).refreshes.directory.index.WellFormed
      authority := by
  rw [(sound_course plane authority namespaceName actions).index, Log.index]
  cases (course plane authority namespaceName actions).log.replacements.getLast? with
  | none => exact TypeIndex.wellFormed_empty authority
  | some documents => exact LiveDirectory.wellFormed_indexOf authority documents

/-! ## Listings -/

/-- A directory lists one type for each of some keys, in strictly ascending order, and stays as it
is. -/
def ListsKeys {σ : Type} [TypeDirectory σ] (s : σ) (keys : List String) : Prop :=
  ∃ ds, (TypeDirectory.listTypes : Lookup σ _).run.run s = (.ok ds, s) ∧
    ds.map (·.typeKey) = keys ∧ keys.Pairwise (· < ·)

theorem StaticDirectory.listsKeys {d : StaticDirectory} (h : d.index.types.Keyed) :
    ListsKeys d d.typeKeys :=
  ⟨_, rfl, h.sortedTypes_eq ▸ h.map_typeKey_descriptors, d.index.types.pairwise_keys⟩

theorem LiveDirectory.listsKeys {π : Type} [ControlPlane π] {d : LiveDirectory π}
    (h : d.index.Keyed) : ListsKeys d d.index.keys :=
  ⟨_, rfl, h.sortedTypes_eq ▸ h.map_typeKey_descriptors, d.index.pairwise_keys⟩

/-- **Indexes are well formed.** After any run of a static directory and at any time of refreshes
of a live one, each type stands under its own key and is described; validators are of known types
only, and no source is remembered twice. So all listings of types agree. -/
theorem wellFormed_reachable (authority : String) :
    (∀ (steps : List StaticDirectory.Step) (order : TypeIndex.IterationOrder),
      let d := StaticDirectory.run authority steps order
      d.index.types.WellFormed authority ∧ d.validatorKeys ⊆ d.typeKeys ∧
        (d.index.sources.Pairwise fun a b => a.same b = false) ∧ ListsKeys d d.typeKeys ∧
        d.snapshot.typeKeys = d.typeKeys ∧ d.statistics.types = d.typeKeys.length) ∧
    ∀ {π : Type} [ControlPlane π] (plane : π) (namespaceName : String)
      (actions : List (Action π)),
      let d := (course plane authority namespaceName actions).refreshes.directory
      d.index.WellFormed authority ∧ ListsKeys d d.index.keys := by
  refine ⟨fun steps order => ?_, fun plane namespaceName actions => ?_⟩
  · have hformed : (StaticDirectory.run authority steps order).index.types.WellFormed authority :=
      StaticDirectory.wellFormed_run authority steps
    exact ⟨hformed, StaticDirectory.validatorKeys_subset authority steps,
      StaticDirectory.pairwise_sources authority steps, StaticDirectory.listsKeys hformed.keyed,
      rfl, (List.length_map _).symm⟩
  · have hformed := wellFormed_course plane authority namespaceName actions
    exact ⟨hformed, LiveDirectory.listsKeys hformed.keyed⟩

end ResourceNames
