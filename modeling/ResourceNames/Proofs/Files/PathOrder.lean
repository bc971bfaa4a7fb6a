import Mathlib.Data.List.Sort
import ResourceNames.Directory.Source

/-!
# The order of paths

* `pairwise_sortPaths`: sorted paths are in the order of their components.
* `pairwise_dropRepeats`: without repeats they are strictly ascending.
* `samePath_of_comparePaths_eq`: only the same path has the same place in the order.
-/

namespace ResourceNames

open Files Std

namespace Files

namespace Component

/-- The text of a name; all other components have none. -/
def text : Component → String
  | name s => s
  | _ => ""

/-- Components are ordered by their kind, and then by their text. -/
theorem compare_eq_compareLex :
    Component.compare = compareLex (compareOn rank) (compareOn text) := by
  funext a b
  cases a <;> cases b <;> rfl

instance : TransCmp Component.compare := by
  rw [compare_eq_compareLex]
  infer_instance

end Component

/-- Paths are ordered like words of components. -/
theorem compareComponents_eq_compareLex :
    compareComponents = List.compareLex Component.compare := by
  funext a b
  induction a generalizing b with
  | nil => cases b <;> rfl
  | cons x a ih =>
    cases b with
    | nil => rfl
    | cons y b =>
      rw [compareComponents, List.compareLex_cons_cons, ih]
      cases x.compare y <;> rfl

instance : TransCmp compareComponents := by
  rw [compareComponents_eq_compareLex]
  infer_instance

instance : TransCmp comparePaths where
  eq_swap {a b} := by
    unfold comparePaths
    exact OrientedCmp.eq_swap
  isLE_trans {a b c} := by
    unfold comparePaths
    exact TransCmp.isLE_trans

theorem Component.eq_of_compare_eq {a b : Component} (h : a.compare b = .eq) : a = b := by
  cases a <;> cases b
  case name.name s t =>
    simp only [compare] at h
    split at h
    · cases h
    · split at h
      · rename_i hst
        rw [hst]
      · cases h
  all_goals first | rfl | cases h

/-- Only a path itself has the same place in the order. -/
theorem samePath_of_comparePaths_eq {a b : String} (h : comparePaths a b = .eq) :
    samePath a b = true := by
  suffices heq : ∀ as bs, compareComponents as bs = .eq → as = bs from
    decide_eq_true (heq _ _ h)
  intro as
  induction as with
  | nil =>
    intro bs h
    cases bs with
    | nil => rfl
    | cons b bs => cases h
  | cons a as ih =>
    intro bs h
    cases bs with
    | nil => cases h
    | cons b bs =>
      rw [compareComponents] at h
      split at h
      · rename_i hab
        rw [Component.eq_of_compare_eq hab, ih bs h]
      · rename_i hab
        exact absurd h hab
end Files

theorem bne_gt_eq_isLE (o : Ordering) : (o != .gt) = o.isLE := by
  cases o <;> rfl

/-- Sorted paths are in the order of their components. -/
theorem pairwise_sortPaths (paths : List String) :
    (sortPaths paths).Pairwise fun a b => (comparePaths a b).isLE := by
  unfold sortPaths
  simp only [bne_gt_eq_isLE]
  refine List.pairwise_mergeSort (fun a b c => TransCmp.isLE_trans) (fun a b => ?_) paths
  have hswap : comparePaths b a = (comparePaths a b).swap := OrientedCmp.eq_swap
  rw [hswap]
  cases comparePaths a b <;> rfl

theorem perm_sortPaths (paths : List String) : (sortPaths paths).Perm paths :=
  List.mergeSort_perm _ _

theorem pairwise_dropRepeatsAfter {path : String} {rest : List String}
    (h : (path :: rest).Pairwise fun a b => (comparePaths a b).isLE) :
    (path :: dropRepeatsAfter path rest).Pairwise fun a b => comparePaths a b = .lt := by
  induction rest generalizing path with
  | nil => exact List.pairwise_singleton _ _
  | cons next rest ih =>
    rw [dropRepeatsAfter]
    split
    · exact ih (h.sublist ((List.sublist_cons_self next rest).cons_cons path))
    · rename_i hdifferent
      obtain ⟨hpath, hrest⟩ := List.pairwise_cons.1 h
      have hkept := ih hrest
      have hlt : comparePaths path next = .lt := by
        cases hcompare : comparePaths path next with
        | lt => rfl
        | eq => exact absurd (samePath_of_comparePaths_eq hcompare) hdifferent
        | gt => exact absurd (hpath next List.mem_cons_self) (by simp [hcompare])
      refine List.pairwise_cons.2 ⟨fun later hlater => ?_, hkept⟩
      obtain rfl | hlater := List.mem_cons.1 hlater
      · exact hlt
      · exact TransCmp.lt_trans hlt ((List.pairwise_cons.1 hkept).1 later hlater)

/-- Sorted paths without repeats are strictly ascending. -/
theorem pairwise_dropRepeats {paths : List String}
    (h : paths.Pairwise fun a b => (comparePaths a b).isLE) :
    (dropRepeats paths).Pairwise fun a b => comparePaths a b = .lt := by
  cases paths with
  | nil => exact List.Pairwise.nil
  | cons path rest => exact pairwise_dropRepeatsAfter h

end ResourceNames
