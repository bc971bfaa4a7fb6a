import ResourceNames.Proofs.Directory.Run
import ResourceNames.Proofs.Text.Splitting
import ResourceNames.Proofs.Text.Trimming
import ResourceNames.Verdict.Validate

/-!
# Type keys of known types

* `normalizeTypeKey_eq_self_iff`: which keys in lower case are looked up as they are.
* `TypeIndex.Keyed`: each descriptor stands under its own key.
* `slash_mem_of_find?_run`: what a type is found by holds a slash.
* `getUrnTemplate_of_find?`: the parts of what a type is found by name the same type.
* `find?_of_asciiLower_eq`: a listed type is found by its key, however that is capitalized.
-/

namespace ResourceNames

open Text

/-! ## Slashes in keys -/

/-- The capitals are moved 32 places on. -/
theorem toNat_toLower (c : Char) :
    c.toLower.toNat = if 65 ≤ c.toNat ∧ c.toNat ≤ 90 then c.toNat + 32 else c.toNat := by
  unfold Char.toLower
  split
  · rename_i h
    have hge : 65 ≤ c.toNat := h.1
    have hle : c.toNat ≤ 90 := h.2
    have hshift : ('a'.val - 'A'.val).toNat = 32 := by decide
    rw [if_pos ⟨hge, hle⟩]
    show (c.val + ('a'.val - 'A'.val)).toNat = c.toNat + 32
    rw [UInt32.toNat_add, hshift, Char.toNat_val]
    omega
  · rename_i h
    have hno : ¬ (65 ≤ c.toNat ∧ c.toNat ≤ 90) := h
    rw [if_neg hno]

/-- No capital becomes a slash in lower case. -/
theorem toLower_eq_slash_iff {c : Char} : c.toLower = '/' ↔ c = '/' := by
  have hslash : '/'.toNat = 47 := rfl
  rw [← Char.toNat_inj, ← Char.toNat_inj, toNat_toLower, hslash]
  split <;> omega

theorem slash_mem_asciiLower_iff {s : String} :
    '/' ∈ (asciiLower s).toList ↔ '/' ∈ s.toList := by
  unfold asciiLower
  rw [String.toList_ofList, List.mem_map]
  constructor
  · rintro ⟨c, hc, he⟩
    rwa [← toLower_eq_slash_iff.1 he]
  · exact fun h => ⟨'/', h, rfl⟩

theorem slash_mem_typeKey (t : TypeDescriptor) : '/' ∈ t.typeKey.toList := by
  unfold TypeDescriptor.typeKey typeKeyOf
  rw [slash_mem_asciiLower_iff]
  show '/' ∈ (t.kind ++ "." ++ t.group ++ "/" ++ t.version).toList
  simp [String.toList_append]

theorem slash_mem_of_normalizeTypeKey {key : String}
    (h : '/' ∈ (normalizeTypeKey key).toList) : '/' ∈ key.toList := by
  unfold normalizeTypeKey at h
  rw [slash_mem_asciiLower_iff, String.toList_ofList] at h
  exact (trim_sublist _).subset h

/-- The parts of a key with a slash make up the key. -/
theorem splitTypeKey_join {key : String} (h : '/' ∈ key.toList) :
    s!"{(splitTypeKey key).1}/{(splitTypeKey key).2}" = key := by
  cases hcut : cut? '/' key.toList with
  | none => exact absurd h (cut?_eq_none_iff.1 hcut)
  | some p =>
    obtain ⟨a, b⟩ := p
    have hkey := (cut?_eq_some_iff.1 hcut).1
    have hsplit : splitTypeKey key = (String.ofList a, String.ofList b) := by
      simp [splitTypeKey, cutText?, hcut]
    rw [hsplit]
    refine String.toList_inj.1 ?_
    show (String.ofList a ++ "/" ++ String.ofList b).toList = key.toList
    simp [String.toList_append, hkey]

theorem Resource.typeKey_of_find? {r : Resource} {key : String}
    (h : r.fields.find? typeKeyField = some key) : r.typeKey = key := by
  rw [typeKey, h, Option.getD_some]

/-- A resource's type name and version are the parts of its type key. -/
theorem typeName_version_eq (r : Resource) : (r.typeName, r.version) = splitTypeKey r.typeKey := by
  unfold Resource.typeName Resource.version splitTypeKey
  cases cutText? '/' r.typeKey <;> rfl

/-! ## Normalized keys -/

theorem toLower_toLower (c : Char) : c.toLower.toLower = c.toLower := by
  have honce := toNat_toLower c
  have htwice := toNat_toLower c.toLower
  rw [← Char.toNat_inj]
  split at htwice <;> split at honce <;> omega

theorem asciiLower_typeKey (t : TypeDescriptor) : asciiLower t.typeKey = t.typeKey := by
  unfold TypeDescriptor.typeKey typeKeyOf asciiLower
  rw [String.toList_ofList, List.map_map]
  exact congrArg String.ofList (List.map_congr_left fun c _ => toLower_toLower c)

/-- A key in lower case is looked up as it is exactly if it has no blanks at its ends. -/
theorem normalizeTypeKey_eq_self_iff {key : String} (h : asciiLower key = key) :
    normalizeTypeKey key = key ↔ trim key.toList = key.toList := by
  unfold normalizeTypeKey
  constructor
  · intro he
    have hlength := congrArg (fun s => s.toList.length) he
    simp only [asciiLower, String.toList_ofList, List.length_map] at hlength
    exact (trim_sublist _).eq_of_length hlength
  · intro he
    rw [he, String.ofList_toList, h]

/-! ## Types under their keys -/

namespace TypeIndex

/-- Each descriptor stands under its own key. -/
def Keyed (index : TypeIndex) : Prop :=
  ∀ key t, index.types.find? key = some t → t.typeKey = key

theorem keyed_empty : Keyed {} := fun _ _ h => by cases h

theorem Keyed.insert {index : TypeIndex} (h : index.Keyed) (t : TypeDescriptor) :
    (index.insert t).Keyed := by
  intro key u hu
  have hfind : (index.insert t).types.find? key =
      if t.typeKey = key then some t else index.types.find? key :=
    Table.find?_insert index.types t.typeKey key t
  rw [hfind] at hu
  split at hu
  · rename_i hkey
    cases hu
    exact hkey
  · exact h key u hu

theorem exists_find?_of_mem_keys {index : TypeIndex} {key : String} (h : key ∈ index.keys) :
    ∃ t, index.types.find? key = some t :=
  Table.mem_keys_iff.1 h

theorem mem_keys_of_find? {index : TypeIndex} {key : String} {t : TypeDescriptor}
    (h : index.types.find? key = some t) : key ∈ index.keys :=
  Table.mem_keys_iff.2 ⟨t, h⟩

/-- A listed type is found by its key. -/
theorem Keyed.find?_typeKey {index : TypeIndex} (h : index.Keyed) {t : TypeDescriptor}
    (ht : t ∈ index.descriptors) : index.types.find? t.typeKey = some t := by
  obtain ⟨⟨key, u⟩, hmem, rfl⟩ := List.mem_map.1 ht
  have hfind := (Table.mem_entries_iff _ _ _).1 hmem
  rwa [h key u hfind]

end TypeIndex

/-! ## Known types -/

namespace StaticDirectory

variable {order : TypeIndex.IterationOrder}

theorem keyed_run (authority : String) (steps : List Step) :
    (run authority steps order).index.types.Keyed := fun _ _ => typeKey_of_find?_run

theorem slash_mem_of_find?_run {authority : String} {steps : List Step} {key : String}
    {t : TypeDescriptor} (h : (run authority steps order).index.types.find? key = some t) :
    '/' ∈ key.toList := by
  refine slash_mem_of_normalizeTypeKey ?_
  rw [← typeKey_of_find?_run h]
  exact slash_mem_typeKey t

/-- The parts of what a type is found by name the same type. -/
theorem getUrnTemplate_of_find? {d : StaticDirectory} {key : String} {t : TypeDescriptor}
    (h : d.index.types.find? key = some t) (hslash : '/' ∈ key.toList) :
    d.getUrnTemplate (splitTypeKey key).1 (splitTypeKey key).2 =
      if t.hasUrnTemplate then .ok t.urnTemplate
      else .error (.templateNotFound (splitTypeKey key).1 (templateAnnotationKey t.version)) := by
  unfold getUrnTemplate TypeIndex.urnTemplate TypeIndex.urnTemplateAmong
  rw [splitTypeKey_join hslash, h]
  rfl

/-- A listed type is found by its key in capitals and small letters alike. -/
theorem find?_of_asciiLower_eq {authority : String} {steps : List Step} {t : TypeDescriptor}
    {key : String} (h : t ∈ (run authority steps order).index.types.descriptors)
    (htrim : trim key.toList = key.toList) (hname : asciiLower key = t.typeKey) :
    (run authority steps order).index.types.find? key = some t := by
  unfold TypeIndex.find? normalizeTypeKey
  rw [htrim, String.ofList_toList, hname]
  exact (keyed_run authority steps).find?_typeKey h

end StaticDirectory

end ResourceNames
