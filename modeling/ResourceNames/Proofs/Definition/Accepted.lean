import ResourceNames.Definition.Basic
import ResourceNames.Proofs.Directory.Lookup

/-!
# Accepted definitions

What the reading of a definition makes sure of. It asks for a served version with a schema and takes
a schema that is `null` for one, where all others take it for none.

* `Accepted`, `accepted_of_ofJson`: what a document says that is read as a definition.
* `exists_schema_iff`: an accepted definition describes a type with a usable schema exactly if the
  document lists, for a served version, a schema other than `null`.
-/

namespace ResourceNames.Definition

/-! ## Documents -/

/-- The versions that a document lists. -/
def listedVersions (v : Json) : List Json :=
  (((v.get? "spec").bind (·.get? "versions")).bind Json.items?).getD []

/-- A listed version that is marked as served. -/
def Served (item : Json) : Prop := item.get? "served" = some (.bool true)

/-- The schema of a listed version, which may be `null`, if it has one. -/
def schemaEntry? (item : Json) : Option Json := (item.get? "schema").bind (·.get? "openAPIV3Schema")

/-- A document that is read as a definition. -/
structure Accepted (v : Json) (d : Definition) : Prop where
  group_ne : d.group ≠ ""
  kind_ne : d.kind ≠ ""
  versions : (listedVersions v).map (readVersion d.name) = d.versions.map .ok
  usable : ∃ w ∈ d.versions, w.served = true ∧ w.schema.isSome = true

theorem ne_of_requiredText {v : Json} {key fault s : String}
    (h : requiredText v key fault = .ok s) : s ≠ "" := by
  unfold requiredText at h
  split at h
  · split at h
    · cases h
    · rename_i hne
      cases h
      exact hne
  · cases h

theorem get?_of_requiredEntry {v value : Json} {key fault : String}
    (h : requiredEntry v key fault = .ok value) : v.get? key = some value := by
  unfold requiredEntry at h
  split at h
  · rename_i hget
    cases h
    exact hget
  · cases h

theorem map_readVersion_of_readVersions {name : String} {listed : Option Json}
    {versions : List DefinedVersion} (h : readVersions name listed = .ok versions) :
    ((listed.bind Json.items?).getD []).map (readVersion name) = versions.map .ok := by
  unfold readVersions at h
  split at h
  · rename_i items hitems
    rw [hitems]
    exact map_eq_of_mapM h
  · cases h

theorem accepted_of_ofJson {v : Json} {d : Definition} (h : ofJson v = .ok d) : Accepted v d := by
  unfold ofJson at h
  split at h
  · split at h
    · cases h
    · obtain ⟨metadata, -, h⟩ := exists_ok_of_bind h
      obtain ⟨spec, hspec, h⟩ := exists_ok_of_bind h
      obtain ⟨group, hgroup, h⟩ := exists_ok_of_bind h
      obtain ⟨names, -, h⟩ := exists_ok_of_bind h
      obtain ⟨kind, hkind, h⟩ := exists_ok_of_bind h
      obtain ⟨versions, hversions, h⟩ := exists_ok_of_bind h
      split at h
      · cases h
      · rename_i husable
        cases h
        refine ⟨ne_of_requiredText hgroup, ne_of_requiredText hkind, ?_,
          by simpa [Option.isSome_iff_ne_none] using husable⟩
        rw [listedVersions, get?_of_requiredEntry hspec]
        exact map_readVersion_of_readVersions hversions
  · cases h

/-! ## Versions -/

/-- What is read of a listed version. -/
structure ReadAs (item : Json) (w : DefinedVersion) : Prop where
  name_ne : w.name ≠ ""
  served_iff : w.served = true ↔ Served item
  schema : w.schema = schemaEntry? item

theorem readAs_of_readVersion {name : String} {item : Json} {w : DefinedVersion}
    (h : readVersion name item = .ok w) : ReadAs item w := by
  obtain ⟨version, hversion, h⟩ := exists_ok_of_bind h
  cases h
  refine ⟨ne_of_requiredText hversion, ?_, rfl⟩
  unfold Served
  cases hserved : item.get? "served" with
  | none => simp
  | some value => cases value <;> simp [Json.bool?]

namespace Accepted

variable {v : Json} {d : Definition}

theorem exists_item (h : Accepted v d) {w : DefinedVersion} (hw : w ∈ d.versions) :
    ∃ item ∈ listedVersions v, ReadAs item w := by
  have hread := List.mem_map_of_mem (f := Except.ok (ε := DirectoryError)) hw
  rw [← h.versions] at hread
  obtain ⟨item, hitem, hread⟩ := List.mem_map.1 hread
  exact ⟨item, hitem, readAs_of_readVersion hread⟩

theorem exists_version (h : Accepted v d) {item : Json} (hitem : item ∈ listedVersions v) :
    ∃ w ∈ d.versions, ReadAs item w := by
  have hread := List.mem_map_of_mem (f := readVersion d.name) hitem
  rw [h.versions] at hread
  obtain ⟨w, hw, hread⟩ := List.mem_map.1 hread
  exact ⟨w, hw, readAs_of_readVersion hread.symm⟩

theorem version_ne (h : Accepted v d) : ∀ w ∈ d.versions, w.name ≠ "" := by
  intro w hw
  obtain ⟨item, -, hread⟩ := h.exists_item hw
  exact hread.name_ne

end Accepted

/-! ## Usable schemas -/

theorem mem_descriptors_iff {d : Definition} {t : TypeDescriptor} :
    t ∈ d.descriptors ↔ ∃ w ∈ d.versions, w.served = true ∧ d.descriptor w = t := by
  simp [descriptors, and_assoc]

theorem schema_descriptor_ne_null_iff {d : Definition} {w : DefinedVersion} :
    (d.descriptor w).schema ≠ .null ↔ ∃ schema, w.schema = some schema ∧ schema ≠ .null := by
  unfold descriptor
  cases w.schema <;> simp

/-- **Schemas of accepted definitions.** An accepted definition describes types, and its document
lists a schema for a served version. One of the types has a schema that can be used exactly if one of
these schemas is not `null`. -/
theorem exists_schema_iff {v : Json} {d : Definition} (h : ofJson v = .ok d) :
    d.descriptors ≠ [] ∧
      (∃ item ∈ listedVersions v, Served item ∧ ∃ schema, schemaEntry? item = some schema) ∧
      ((∃ t ∈ d.descriptors, t.schema ≠ .null) ↔
        ∃ item ∈ listedVersions v, Served item ∧
          ∃ schema, schemaEntry? item = some schema ∧ schema ≠ .null) := by
  have haccepted := accepted_of_ofJson h
  obtain ⟨w, hw, hserved, hschema⟩ := haccepted.usable
  refine ⟨List.ne_nil_of_mem (mem_descriptors_iff.2 ⟨w, hw, hserved, rfl⟩), ?_, ?_⟩
  · obtain ⟨item, hitem, hread⟩ := haccepted.exists_item hw
    exact ⟨item, hitem, hread.served_iff.1 hserved,
      Option.isSome_iff_exists.1 (hread.schema ▸ hschema)⟩
  constructor
  · rintro ⟨t, ht, hne⟩
    obtain ⟨w, hw, hserved, rfl⟩ := mem_descriptors_iff.1 ht
    obtain ⟨item, hitem, hread⟩ := haccepted.exists_item hw
    refine ⟨item, hitem, hread.served_iff.1 hserved, ?_⟩
    rw [← hread.schema]
    exact schema_descriptor_ne_null_iff.1 hne
  · rintro ⟨item, hitem, hserved, hschema⟩
    obtain ⟨w, hw, hread⟩ := haccepted.exists_version hitem
    rw [← hread.schema] at hschema
    exact ⟨d.descriptor w, mem_descriptors_iff.2 ⟨w, hw, hread.served_iff.2 hserved, rfl⟩,
      schema_descriptor_ne_null_iff.2 hschema⟩

/-- A definition of one served version with a given schema. -/
def singleVersion (schema : Json) : Json :=
  .obj [("kind", .str definitionKind), ("metadata", .obj []),
    ("spec", .obj [("group", .str "g"), ("names", .obj [("kind", .str "t")]),
      ("versions", .arr [.obj [("name", .str "v"),
        ("schema", .obj [("openAPIV3Schema", schema)]), ("served", .bool true)]])])]

def singleDefinition (schema : Json) : Definition :=
  ⟨"", "g", "t", "t", "t", .empty, [⟨"v", true, some schema⟩]⟩

theorem ofJson_singleVersion (schema : Json) :
    ofJson (singleVersion schema) = .ok (singleDefinition schema) := rfl

/-- The schema that accepts everything can be used. -/
theorem exists_schema_empty :
    ofJson (singleVersion (.obj [])) = .ok (singleDefinition (.obj [])) ∧
      (singleDefinition (.obj [])).descriptors ≠ [] ∧
      (∃ item ∈ listedVersions (singleVersion (.obj [])), Served item ∧
        ∃ schema, schemaEntry? item = some schema) ∧
      ((∃ t ∈ (singleDefinition (.obj [])).descriptors, t.schema ≠ .null) ↔
        ∃ item ∈ listedVersions (singleVersion (.obj [])), Served item ∧
          ∃ schema, schemaEntry? item = some schema ∧ schema ≠ .null) :=
  ⟨ofJson_singleVersion _, exists_schema_iff (ofJson_singleVersion _)⟩

/-- A definition is accepted although its only schema is `null`. -/
theorem not_forall_exists_schema :
    ¬ ∀ (v : Json) (d : Definition), ofJson v = .ok d →
      d.descriptors ≠ [] ∧ ∃ t ∈ d.descriptors, t.schema ≠ .null := by
  intro h
  obtain ⟨-, t, ht, hne⟩ := h _ _ (ofJson_singleVersion .null)
  obtain rfl := List.mem_singleton.1 ht
  exact hne rfl

end ResourceNames.Definition
