/-!
# Tables keyed by text

`Table α` maps texts to values and keeps its entries in strictly ascending order of the keys, so
equal contents are equal tables and listing a table needs no sorting step.

* `Entries.find?_insert`: a look-up after an insertion.
* `Entries.ascending_insert`: insertion keeps the order.
* `Table.ext_find?`: two tables that answer every look-up alike are equal.
-/

namespace ResourceNames

/-! ## Entry lists -/

namespace Entries

variable {α : Type}

/-- The value under `key`, if there is one. -/
def find? (key : String) : List (String × α) → Option α
  | [] => none
  | (k, v) :: rest => if k = key then some v else find? key rest

/-- Puts `value` under `key`: in the place of an entry with that key, else before the first greater
key. -/
def insert (key : String) (value : α) : List (String × α) → List (String × α)
  | [] => [(key, value)]
  | (k, v) :: rest =>
    if key < k then (key, value) :: (k, v) :: rest
    else if key = k then (key, value) :: rest
    else (k, v) :: insert key value rest

/-- The entries without those under `key`. -/
def erase (key : String) (entries : List (String × α)) : List (String × α) :=
  entries.filter fun e => e.1 ≠ key

/-- Strictly ascending keys. -/
def Ascending (entries : List (String × α)) : Prop :=
  entries.Pairwise fun a b => a.1 < b.1

@[simp] theorem find?_nil (key : String) : find? key ([] : List (String × α)) = none := rfl

theorem find?_cons (key k : String) (v : α) (rest : List (String × α)) :
    find? key ((k, v) :: rest) = if k = key then some v else find? key rest := rfl

/-- After an insertion the inserted key gives the inserted value and every other key what it gave
before. -/
theorem find?_insert (key other : String) (value : α) (entries : List (String × α)) :
    find? other (insert key value entries) =
      if key = other then some value else find? other entries := by
  induction entries with
  | nil => simp [insert, find?]
  | cons e rest ih =>
    obtain ⟨k, v⟩ := e
    unfold insert
    split
    · simp [find?_cons]
    · split
      · rename_i _ hk
        subst hk
        simp only [find?_cons]
        split <;> rfl
      · rename_i hk
        simp only [find?_cons, ih]
        by_cases h : k = other
        · simp [h]; intro h'; exact absurd (h'.trans h.symm) hk
        · simp [h]

theorem mem_insert {key : String} {value : α} {e : String × α} {entries : List (String × α)}
    (h : e ∈ insert key value entries) : e = (key, value) ∨ e ∈ entries := by
  induction entries with
  | nil => simpa [insert] using h
  | cons d rest ih =>
    obtain ⟨k, v⟩ := d
    unfold insert at h
    split at h
    · simpa using h
    · split at h
      · rcases List.mem_cons.1 h with h | h
        · exact .inl h
        · exact .inr (List.mem_cons_of_mem _ h)
      · rcases List.mem_cons.1 h with h | h
        · exact .inr (h ▸ List.mem_cons_self)
        · exact (ih h).imp_right (List.mem_cons_of_mem _)

/-- Insertion keeps the keys in strictly ascending order. -/
theorem ascending_insert {entries : List (String × α)} (h : Ascending entries) (key : String)
    (value : α) : Ascending (insert key value entries) := by
  induction entries with
  | nil => simp [Ascending, insert]
  | cons e rest ih =>
    obtain ⟨k, v⟩ := e
    obtain ⟨hhead, hrest⟩ := List.pairwise_cons.1 h
    unfold insert
    split
    · rename_i hlt
      refine List.pairwise_cons.2 ⟨fun d hd => ?_, h⟩
      rcases List.mem_cons.1 hd with rfl | hd
      · exact hlt
      · exact String.lt_trans hlt (hhead d hd)
    · split
      · rename_i _ heq
        subst heq
        exact List.pairwise_cons.2 ⟨hhead, hrest⟩
      · rename_i hlt hne
        refine List.pairwise_cons.2 ⟨fun d hd => ?_, ih hrest⟩
        rcases mem_insert hd with rfl | hd
        · have hle : k ≤ key := Std.not_lt.1 hlt
          exact Std.lt_of_le_of_ne hle (Ne.symm hne)
        · exact hhead d hd

theorem ascending_erase {entries : List (String × α)} (h : Ascending entries) (key : String) :
    Ascending (erase key entries) :=
  List.Pairwise.filter _ h

/-- Erasing a key leaves every other look-up as it was. -/
theorem find?_erase (key other : String) (entries : List (String × α)) :
    find? other (erase key entries) = if key = other then none else find? other entries := by
  induction entries with
  | nil => simp [erase]
  | cons e rest ih =>
    obtain ⟨k, v⟩ := e
    unfold erase at ih ⊢
    by_cases hk : k = key
    · subst hk
      simp only [ne_eq, not_true_eq_false, decide_false, Bool.false_eq_true, not_false_eq_true,
        List.filter_cons_of_neg, ih, find?_cons]
      split <;> rfl
    · rw [List.filter_cons_of_pos (by simp [hk]), find?_cons, find?_cons, ih]
      by_cases h : k = other
      · subst h; simp [Ne.symm hk]
      · simp [h]

theorem find?_eq_some_of_mem {entries : List (String × α)} (h : Ascending entries) {k : String}
    {v : α} (hm : (k, v) ∈ entries) : find? k entries = some v := by
  induction entries with
  | nil => simp at hm
  | cons e rest ih =>
    obtain ⟨k', v'⟩ := e
    obtain ⟨hhead, hrest⟩ := List.pairwise_cons.1 h
    rcases List.mem_cons.1 hm with heq | hm
    · cases heq; simp [find?]
    · have hne : k' ≠ k := fun he => String.lt_irrefl k (he ▸ hhead _ hm)
      rw [find?_cons, if_neg hne, ih hrest hm]

theorem mem_of_find?_eq_some {entries : List (String × α)} {k : String} {v : α}
    (h : find? k entries = some v) : (k, v) ∈ entries := by
  induction entries with
  | nil => simp at h
  | cons e rest ih =>
    obtain ⟨k', v'⟩ := e
    rw [find?_cons] at h
    split at h
    · rename_i hk; cases h; exact hk ▸ List.mem_cons_self
    · exact List.mem_cons_of_mem _ (ih h)

/-- An ascending entry list is determined by its look-ups. -/
theorem eq_of_find?_eq {xs ys : List (String × α)} (hx : Ascending xs) (hy : Ascending ys)
    (h : ∀ k, find? k xs = find? k ys) : xs = ys := by
  induction xs generalizing ys with
  | nil =>
    cases ys with
    | nil => rfl
    | cons e rest => have := h e.1; simp [find?] at this
  | cons e xs ih =>
    cases ys with
    | nil => have := h e.1; simp [find?] at this
    | cons d ys =>
      obtain ⟨k, v⟩ := e
      obtain ⟨k', v'⟩ := d
      obtain ⟨hxh, hxs⟩ := List.pairwise_cons.1 hx
      obtain ⟨hyh, hys⟩ := List.pairwise_cons.1 hy
      have hle : ∀ {a b : String} {va vb : α} {as bs : List (String × α)},
          (∀ e ∈ bs, b < e.1) → find? a ((a, va) :: as) = find? a ((b, vb) :: bs) → ¬ a < b := by
        intro a b va vb as bs hb heq hlt
        rw [find?_cons, if_pos rfl, find?_cons,
          if_neg (fun he : b = a => String.lt_irrefl a (he ▸ hlt))] at heq
        exact String.lt_irrefl a
          (String.lt_trans hlt (hb _ (mem_of_find?_eq_some heq.symm)))
      have hk : k = k' := Std.le_antisymm (Std.not_lt.1 (hle hxh (h k').symm))
        (Std.not_lt.1 (hle hyh (h k)))
      subst hk
      have hv : v = v' := by simpa [find?] using h k
      subst hv
      congr 1
      refine ih hxs hys fun j => ?_
      have hj := h j
      simp only [find?_cons] at hj
      by_cases hkj : k = j
      · subst hkj
        have hnone : ∀ {zs : List (String × α)}, (∀ e ∈ zs, k < e.1) → find? k zs = none := by
          intro zs hz
          cases hf : find? k zs with
          | none => rfl
          | some w => exact absurd (hz _ (mem_of_find?_eq_some hf)) (String.lt_irrefl k)
        rw [hnone hxh, hnone hyh]
      · simpa [hkj] using hj

end Entries

/-! ## Tables -/

/-- A map from texts to values, its entries in strictly ascending order of the keys. -/
structure Table (α : Type) where
  entries : List (String × α) := []
  ascending : Entries.Ascending entries := by exact List.Pairwise.nil

namespace Table

variable {α β : Type}

instance [Repr α] : Repr (Table α) := ⟨fun t n => reprPrec t.entries n⟩

instance [DecidableEq α] : DecidableEq (Table α) := fun a b =>
  decidable_of_iff (a.entries = b.entries)
    ⟨fun h => by cases a; cases b; cases h; rfl, fun h => h ▸ rfl⟩

/-- The table without entries. -/
def empty : Table α := {}

instance : Inhabited (Table α) := ⟨empty⟩

def find? (t : Table α) (key : String) : Option α := Entries.find? key t.entries

def contains (t : Table α) (key : String) : Bool := (t.find? key).isSome

def keys (t : Table α) : List String := t.entries.map (·.1)

def values (t : Table α) : List α := t.entries.map (·.2)

def size (t : Table α) : Nat := t.entries.length

def insert (t : Table α) (key : String) (value : α) : Table α :=
  ⟨Entries.insert key value t.entries, Entries.ascending_insert t.ascending key value⟩

def erase (t : Table α) (key : String) : Table α :=
  ⟨Entries.erase key t.entries, Entries.ascending_erase t.ascending key⟩

/-- The table of a list of entries; of entries with one key the last counts. -/
def ofList (entries : List (String × α)) : Table α :=
  entries.foldl (fun t e => t.insert e.1 e.2) empty

/-- All entries of `t`, overridden by those of `other`. -/
def extend (t other : Table α) : Table α :=
  other.entries.foldl (fun acc e => acc.insert e.1 e.2) t

/-- The entries whose key passes `keep`. -/
def restrict (t : Table α) (keep : String → Bool) : Table α :=
  ⟨t.entries.filter fun e => keep e.1, List.Pairwise.filter _ t.ascending⟩

theorem ext_entries {a b : Table α} (h : a.entries = b.entries) : a = b := by
  cases a; cases b; cases h; rfl

/-- Tables that answer every look-up alike are equal. -/
theorem ext_find? {a b : Table α} (h : ∀ k, a.find? k = b.find? k) : a = b :=
  ext_entries (Entries.eq_of_find?_eq a.ascending b.ascending h)

@[simp] theorem find?_empty (key : String) : (empty : Table α).find? key = none := rfl

theorem find?_insert (t : Table α) (key other : String) (value : α) :
    (t.insert key value).find? other = if key = other then some value else t.find? other :=
  Entries.find?_insert key other value t.entries

@[simp] theorem find?_insert_self (t : Table α) (key : String) (value : α) :
    (t.insert key value).find? key = some value := by simp [find?_insert]

theorem find?_erase (t : Table α) (key other : String) :
    (t.erase key).find? other = if key = other then none else t.find? other :=
  Entries.find?_erase key other t.entries

theorem mem_entries_iff (t : Table α) (key : String) (value : α) :
    (key, value) ∈ t.entries ↔ t.find? key = some value :=
  ⟨Entries.find?_eq_some_of_mem t.ascending, Entries.mem_of_find?_eq_some⟩

end Table

end ResourceNames
