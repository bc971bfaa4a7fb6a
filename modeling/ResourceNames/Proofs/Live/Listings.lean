import ResourceNames.Live.Basic
import ResourceNames.Proofs.Directory.Reading

/-!
# What listings hold

* `find?_indexOf`: in the index of a listing, the last of the types with one key counts.
* `serves_iff`: a type is in the index exactly if a document of the listing describes it.
-/

namespace ResourceNames.LiveDirectory

theorem find?_foldl_insert (index : TypeIndex) (ds : List TypeDescriptor) (key : String) :
    (ds.foldl TypeIndex.insert index).types.find? key =
      ((ofKey key ds).getLast? <|> index.types.find? key) := by
  induction ds generalizing index with
  | nil => rfl
  | cons d ds ih =>
    have hinsert : (index.insert d).types.find? key =
        if d.typeKey = key then some d else index.types.find? key :=
      Table.find?_insert index.types d.typeKey key d
    rw [List.foldl_cons, ih, hinsert, ← List.singleton_append, ofKey_append]
    by_cases hkey : d.typeKey = key
    · subst hkey
      rw [ofKey_self, if_pos rfl, List.getLast?_append]
      cases (ofKey d.typeKey ds).getLast? <;> rfl
    · rw [ofKey_of_ne hkey, if_neg hkey, List.nil_append]

/-- The types that a document describes for a naming authority. -/
def typesIn (authority : String) (document : Json) : List TypeDescriptor :=
  match Definition.extract document authority with
  | .ok (.types ds) => ds
  | _ => []

theorem addDocument_eq (authority : String) :
    addDocument authority =
      fun index document => (typesIn authority document).foldl TypeIndex.insert index := by
  funext index document
  unfold addDocument typesIn
  cases Definition.extract document authority with
  | error e => rfl
  | ok extracted => cases extracted <;> rfl

theorem indexOf_eq (authority : String) (documents : List Json) :
    indexOf authority documents =
      (documents.flatMap (typesIn authority)).foldl TypeIndex.insert {} := by
  unfold indexOf
  rw [List.foldl_flatMap, addDocument_eq]

/-- In the index of a listing, the last of the types with one key counts. -/
theorem find?_indexOf (authority : String) (documents : List Json) (key : String) :
    (indexOf authority documents).types.find? key =
      (ofKey key (documents.flatMap (typesIn authority))).getLast? := by
  rw [indexOf_eq, find?_foldl_insert]
  cases (ofKey key (documents.flatMap (typesIn authority))).getLast? <;> rfl

/-- Some documents describe the type of a key, for a naming authority. -/
def Serves (authority key : String) (documents : List Json) : Prop :=
  ∃ document ∈ documents, ∃ ds, Definition.extract document authority = .ok (.types ds) ∧
    ∃ t ∈ ds, t.typeKey = key

theorem mem_typesIn_iff {authority : String} {document : Json} {t : TypeDescriptor} :
    t ∈ typesIn authority document ↔
      ∃ ds, Definition.extract document authority = .ok (.types ds) ∧ t ∈ ds := by
  unfold typesIn
  cases Definition.extract document authority with
  | error e => simp
  | ok extracted => cases extracted <;> simp

theorem serves_iff {authority key : String} {documents : List Json} :
    Serves authority key documents ↔
      ∃ t, (indexOf authority documents).types.find? key = some t := by
  rw [find?_indexOf]
  constructor
  · rintro ⟨document, hdocument, ds, hextract, t, ht, hkey⟩
    have hmem : t ∈ ofKey key (documents.flatMap (typesIn authority)) :=
      mem_ofKey_iff.2
        ⟨List.mem_flatMap.2 ⟨document, hdocument, mem_typesIn_iff.2 ⟨ds, hextract, ht⟩⟩, hkey⟩
    exact ⟨_, List.getLast?_eq_some_getLast (List.ne_nil_of_mem hmem)⟩
  · rintro ⟨t, hlast⟩
    obtain ⟨hmem, hkey⟩ := mem_ofKey_iff.1 (List.mem_of_getLast? hlast)
    obtain ⟨document, hdocument, htypes⟩ := List.mem_flatMap.1 hmem
    obtain ⟨ds, hextract, ht⟩ := mem_typesIn_iff.1 htypes
    exact ⟨document, hdocument, ds, hextract, t, ht, hkey⟩

end ResourceNames.LiveDirectory
