import ResourceNames.Table

/-!
# Look-ups in composed tables

* `Table.find?_restrict`, `Table.find?_extend`: look-ups after a restriction or an extension.
* `Table.find?_insertAll`: a look-up after several insertions under different keys.
-/

namespace ResourceNames

namespace Entries

variable {α : Type}

theorem find?_eq_none_iff {key : String} {entries : List (String × α)} :
    find? key entries = none ↔ key ∉ entries.map (·.1) := by
  induction entries with
  | nil => simp
  | cons e rest ih =>
    obtain ⟨k, v⟩ := e
    by_cases h : k = key
    · simp [find?_cons, h]
    · simp [find?_cons, h, ih, Ne.symm h]

theorem find?_eq_some_iff {entries : List (String × α)} (h : (entries.map (·.1)).Nodup)
    {key : String} {value : α} : find? key entries = some value ↔ (key, value) ∈ entries := by
  refine ⟨mem_of_find?_eq_some, fun hm => ?_⟩
  induction entries with
  | nil => cases hm
  | cons e rest ih =>
    obtain ⟨k, v⟩ := e
    obtain ⟨hk, hrest⟩ := List.nodup_cons.1 h
    rcases List.mem_cons.1 hm with he | hm
    · cases he
      rw [find?_cons, if_pos rfl]
    · have hne : k ≠ key := fun he => hk (List.mem_map.2 ⟨_, hm, he.symm⟩)
      rw [find?_cons, if_neg hne, ih hrest hm]

theorem find?_filter (keep : String → Bool) (key : String) (entries : List (String × α)) :
    find? key (entries.filter fun e => keep e.1) =
      if keep key then find? key entries else none := by
  induction entries with
  | nil => simp
  | cons e rest ih =>
    obtain ⟨k, v⟩ := e
    by_cases hk : keep k
    · rw [List.filter_cons_of_pos (by simpa using hk), find?_cons, find?_cons, ih]
      by_cases h : k = key
      · subst h; simp [hk]
      · simp [h]
    · rw [List.filter_cons_of_neg (by simpa using hk), ih, find?_cons]
      by_cases h : k = key
      · subst h; simp [hk]
      · simp [h]

theorem find?_map {β : Type} (f : α → β) (key : String) (entries : List (String × α)) :
    find? key (entries.map fun e => (e.1, f e.2)) = (find? key entries).map f := by
  induction entries with
  | nil => rfl
  | cons e rest ih =>
    obtain ⟨k, v⟩ := e
    rw [List.map_cons, find?_cons, find?_cons, ih]
    split <;> rfl

theorem ascending_map {β : Type} (f : α → β) {entries : List (String × α)}
    (h : Ascending entries) : Ascending (entries.map fun e => (e.1, f e.2)) :=
  List.pairwise_map.2 h

theorem nodup_of_ascending {entries : List (String × α)} (h : Ascending entries) :
    (entries.map (·.1)).Nodup := by
  refine List.pairwise_map.2 (h.imp fun hlt heq => ?_)
  rw [heq] at hlt
  exact String.lt_irrefl _ hlt

end Entries

namespace Table

variable {α : Type}

theorem mem_keys_iff {t : Table α} {key : String} :
    key ∈ t.keys ↔ ∃ value, t.find? key = some value := by
  unfold keys
  rw [List.mem_map]
  constructor
  · rintro ⟨⟨_, value⟩, hmem, rfl⟩
    exact ⟨value, (mem_entries_iff t _ value).1 hmem⟩
  · rintro ⟨value, hfind⟩
    exact ⟨(key, value), (mem_entries_iff t key value).2 hfind, rfl⟩

theorem find?_restrict (t : Table α) (keep : String → Bool) (key : String) :
    (t.restrict keep).find? key = if keep key then t.find? key else none :=
  Entries.find?_filter keep key t.entries

theorem find?_of_find?_restrict {t : Table α} {keep : String → Bool} {key : String} {value : α}
    (h : (t.restrict keep).find? key = some value) : keep key ∧ t.find? key = some value := by
  rw [find?_restrict] at h
  split at h
  · rename_i hk
    exact ⟨hk, h⟩
  · cases h

/-- A restriction that all keys pass changes nothing. -/
theorem restrict_eq_self {t : Table α} {keep : String → Bool}
    (h : ∀ key value, t.find? key = some value → keep key = true) : t.restrict keep = t := by
  refine ext_find? fun key => ?_
  rw [find?_restrict]
  cases hfind : t.find? key with
  | none => exact ite_self none
  | some value => rw [if_pos (h key value hfind)]

/-- Inserts some entries one after the other. -/
def insertAll (t : Table α) (entries : List (String × α)) : Table α :=
  entries.foldl (fun t e => t.insert e.1 e.2) t

@[simp] theorem insertAll_nil (t : Table α) : t.insertAll [] = t := rfl

@[simp] theorem insertAll_cons (t : Table α) (e : String × α) (entries : List (String × α)) :
    t.insertAll (e :: entries) = (t.insert e.1 e.2).insertAll entries := rfl

theorem find?_insertAll_of_not_mem {entries : List (String × α)} {key : String}
    (h : key ∉ entries.map (·.1)) (t : Table α) :
    (t.insertAll entries).find? key = t.find? key := by
  induction entries generalizing t with
  | nil => rfl
  | cons e rest ih =>
    obtain ⟨hk, hrest⟩ := not_or.1 (fun hm => h (List.mem_cons.2 hm))
    rw [insertAll_cons, ih hrest, find?_insert, if_neg (Ne.symm hk)]

/-- An inserted key has a value. -/
theorem isSome_find?_insertAll {entries : List (String × α)} {key : String}
    (h : key ∈ entries.map (·.1)) (t : Table α) : ((t.insertAll entries).find? key).isSome := by
  induction entries generalizing t with
  | nil => cases h
  | cons e rest ih =>
    rw [insertAll_cons]
    by_cases hrest : key ∈ rest.map (·.1)
    · exact ih hrest _
    · obtain rfl : key = e.1 := (List.mem_cons.1 h).resolve_right hrest
      rw [find?_insertAll_of_not_mem hrest, find?_insert_self]
      rfl

/-- Entries with different keys are found, and all other keys give what they gave before. -/
theorem find?_insertAll {entries : List (String × α)} (h : (entries.map (·.1)).Nodup)
    (t : Table α) (key : String) :
    (t.insertAll entries).find? key = (Entries.find? key entries <|> t.find? key) := by
  induction entries generalizing t with
  | nil => simp
  | cons e rest ih =>
    obtain ⟨k, v⟩ := e
    obtain ⟨hk, hrest⟩ := List.nodup_cons.1 h
    rw [insertAll_cons, ih hrest, find?_insert, Entries.find?_cons]
    by_cases hkey : k = key
    · subst hkey
      rw [Entries.find?_eq_none_iff.2 hk]
      simp
    · simp [hkey]

theorem find?_extend (t other : Table α) (key : String) :
    (t.extend other).find? key = (other.find? key <|> t.find? key) :=
  find?_insertAll (Entries.nodup_of_ascending other.ascending) t key

/-- The table with another value under each key. -/
def mapValues {β : Type} (f : α → β) (t : Table α) : Table β :=
  ⟨t.entries.map fun e => (e.1, f e.2), Entries.ascending_map f t.ascending⟩

theorem find?_mapValues {β : Type} (f : α → β) (t : Table α) (key : String) :
    (t.mapValues f).find? key = (t.find? key).map f :=
  Entries.find?_map f key t.entries

end Table

end ResourceNames
