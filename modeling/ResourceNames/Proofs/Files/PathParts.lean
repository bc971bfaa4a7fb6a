import ResourceNames.Files.Path
import ResourceNames.Proofs.Text.Splitting

/-!
# The parts of joined paths

A path that is joined to another one continues it part by part; only an empty part in between is
lost. The components of the joined path are those of both.

* `segments_joinPath`, `components_joinPath`.
* `getLast?_components`: a path whose last part is a name ends with this component.
-/

namespace ResourceNames.Files

/-- Whether a text can be the name of a file. -/
def isName (s : String) : Bool := s ≠ "" && s ≠ "." && s ≠ ".." && '/' ∉ s.toList

theorem isName_iff {s : String} :
    isName s = true ↔ s ≠ "" ∧ s ≠ "." ∧ s ≠ ".." ∧ '/' ∉ s.toList := by
  simp [isName, and_assoc]

theorem innerComponent?_of_isName {s : String} (h : isName s = true) :
    innerComponent? s = some (.name s) := by
  obtain ⟨hne, hdot, hdots, -⟩ := isName_iff.1 h
  simp [innerComponent?, hne, hdot, hdots]

theorem innerComponent?_ne_current (s : String) : innerComponent? s ≠ some .current := by
  unfold innerComponent?
  split
  · simp
  · split <;> simp

theorem ne_empty_iff {s : String} : s ≠ "" ↔ s.toList ≠ [] := by
  rw [ne_eq, ne_eq, ← String.toList_inj]
  rfl

/-! ## Parts -/

theorem segments_ne_nil (path : String) : segments path ≠ [] := by
  simp [segments, List.splitOn_ne_nil]

theorem not_mem_of_mem_segments {path s : String} (h : s ∈ segments path) : '/' ∉ s.toList := by
  obtain ⟨w, hw, rfl⟩ := List.mem_map.1 h
  rw [String.toList_ofList]
  exact Text.not_mem_of_mem_splitOn hw

theorem segments_of_not_mem {s : String} (h : '/' ∉ s.toList) : segments s = [s] := by
  rw [segments, List.splitOn_eq_singleton h, List.map_singleton, String.ofList_toList]

theorem segments_append_slash (a b : String) :
    segments (a ++ "/" ++ b) = segments a ++ segments b := by
  have h : (a ++ "/" ++ b).toList = a.toList ++ '/' :: b.toList := by simp [String.toList_append]
  rw [segments, h, List.splitOn_append_cons_self, List.map_append]
  rfl

theorem isAbsolute_append {a : String} (h : a ≠ "") (b : String) :
    isAbsolute (a ++ b) = isAbsolute a := by
  obtain ⟨c, s, hs⟩ := List.exists_cons_of_ne_nil (ne_empty_iff.1 h)
  simp [isAbsolute, String.toList_append, hs]

theorem isAbsolute_of_not_mem {s : String} (h : '/' ∉ s.toList) : isAbsolute s = false := by
  unfold isAbsolute
  cases hs : s.toList with
  | nil => rfl
  | cons c cs =>
    have hc : c ≠ '/' := fun e => h (by simp [hs, e])
    simp [hc]

/-- The first part of an absolute path is empty. -/
theorem segments_of_isAbsolute {path : String} (h : isAbsolute path = true) :
    ∃ rest, rest ≠ [] ∧ segments path = "" :: rest := by
  unfold isAbsolute at h
  cases hs : path.toList with
  | nil => simp [hs] at h
  | cons c s =>
    obtain rfl : c = '/' := by simpa [hs] using h
    refine ⟨(s.splitOn '/').map String.ofList, by simp [List.splitOn_ne_nil], ?_⟩
    rw [segments, hs, ← List.nil_append ('/' :: s), List.splitOn_append_cons_self]
    rfl

theorem isAbsolute_iff {path : String} :
    isAbsolute path = true ↔ ∃ rest, rest ≠ [] ∧ segments path = "" :: rest := by
  refine ⟨segments_of_isAbsolute, fun ⟨rest, hrest, hsegments⟩ => ?_⟩
  obtain ⟨x, xs, hparts⟩ := List.exists_cons_of_ne_nil (List.splitOn_ne_nil '/' path.toList)
  unfold segments at hsegments
  rw [hparts, List.map_cons, List.cons.injEq] at hsegments
  obtain ⟨hx, rfl⟩ := hsegments
  obtain rfl : x = [] := by simpa using congrArg String.toList hx
  obtain ⟨y, ys, rfl⟩ := List.exists_cons_of_ne_nil (fun h : xs = [] => hrest (by simp [h]))
  obtain ⟨hpath, -⟩ := Text.splitOn_eq_cons_iff.1 hparts
  simp [isAbsolute, hpath]

/-! ## Joined paths -/

theorem segments_append_empty (path : String) : segments (path ++ "/") = segments path ++ [""] := by
  rw [← String.append_empty (s := path ++ "/"), segments_append_slash]
  rfl

/-- A slash stands between the two paths, and it is put there if there is none. -/
theorem exists_joinPath {place path : String} (hplace : place ≠ "")
    (hpath : isAbsolute path = false) :
    ∃ before, (place = before ∨ place = before ++ "/") ∧
      joinPath place path = before ++ "/" ++ path := by
  unfold joinPath
  simp only [hpath, hplace, Bool.false_eq_true, if_false, decide_false, Bool.false_or, beq_iff_eq]
  split
  · rename_i hlast
    obtain ⟨before, hbefore⟩ := List.getLast?_eq_some_iff.1 hlast
    have h : place = String.ofList before ++ "/" := by
      rw [← String.toList_inj, hbefore, String.toList_append, String.toList_ofList]
      rfl
    exact ⟨String.ofList before, .inr h, by rw [← h]⟩
  · exact ⟨place, .inl rfl, rfl⟩

theorem joinPath_empty (path : String) : joinPath "" path = path := by
  simp [joinPath]

theorem joinPath_ne_empty {place : String} (hplace : place ≠ "") (path : String) :
    joinPath place path ≠ "" := by
  rw [ne_empty_iff] at hplace ⊢
  unfold joinPath
  split
  · rename_i h
    intro he
    simp [isAbsolute, he] at h
  · split <;> simp [String.toList_append, hplace]

theorem isAbsolute_joinPath {place path : String} (hplace : place ≠ "")
    (hpath : isAbsolute path = false) : isAbsolute (joinPath place path) = isAbsolute place := by
  unfold joinPath
  rw [if_neg (by simp [hpath])]
  split
  · exact isAbsolute_append hplace path
  · rw [String.append_assoc]
    exact isAbsolute_append hplace _

/-- The parts of both paths follow one another. An empty last part of the first is lost. -/
theorem segments_joinPath {place path : String} (hplace : place ≠ "")
    (hpath : isAbsolute path = false) :
    ∃ before idle, before ≠ [] ∧ (idle = [] ∨ idle = [""]) ∧ segments place = before ++ idle ∧
      segments (joinPath place path) = before ++ segments path := by
  obtain ⟨before, hbefore, hjoin⟩ := exists_joinPath hplace hpath
  have hsegments : segments (joinPath place path) = segments before ++ segments path := by
    rw [hjoin, segments_append_slash]
  obtain rfl | rfl := hbefore
  · exact ⟨segments place, [], segments_ne_nil place, .inl rfl, by simp, hsegments⟩
  · exact ⟨segments before, [""], segments_ne_nil before, .inr rfl, segments_append_empty before,
      hsegments⟩

/-! ## Components -/

/-- The components that the first part of a path gives. -/
def firstComponents (absolute : Bool) (first : String) : List Component :=
  if absolute then [.root] else if first = "." then [.current] else (innerComponent? first).toList

theorem components_of_segments {path first : String} {rest : List String}
    (h : segments path = first :: rest) :
    components path =
      firstComponents (isAbsolute path) first ++ rest.filterMap innerComponent? := by
  unfold components firstComponents
  rw [h]

theorem components_joinPath {place path : String} (hplace : place ≠ "")
    (hpath : isAbsolute path = false) :
    components (joinPath place path) =
      components place ++ (segments path).filterMap innerComponent? := by
  obtain ⟨before, idle, hbefore, hidle, hplaceSegments, hsegments⟩ :=
    segments_joinPath hplace hpath
  obtain ⟨first, rest, rfl⟩ := List.exists_cons_of_ne_nil hbefore
  rw [List.cons_append] at hplaceSegments hsegments
  have hnone : idle.filterMap innerComponent? = [] := by
    obtain rfl | rfl := hidle <;> rfl
  rw [components_of_segments hsegments, components_of_segments hplaceSegments,
    isAbsolute_joinPath hplace hpath, List.filterMap_append, List.filterMap_append, hnone,
    List.append_nil, List.append_assoc]

theorem isName_of_innerComponent? {part s : String} (hpart : '/' ∉ part.toList)
    (h : innerComponent? part = some (.name s)) : isName s = true := by
  unfold innerComponent? at h
  split at h
  · cases h
  · rename_i hidle
    obtain ⟨hne, hdot⟩ := not_or.1 hidle
    split at h
    · cases h
    · rename_i hdots
      cases h
      exact isName_iff.2 ⟨hne, hdot, hdots, hpart⟩

theorem isName_of_mem_components {path s : String} (h : .name s ∈ components path) :
    isName s = true := by
  obtain ⟨first, rest, hsegments⟩ := List.exists_cons_of_ne_nil (segments_ne_nil path)
  have hslash : ∀ part ∈ first :: rest, '/' ∉ part.toList := fun part hpart =>
    not_mem_of_mem_segments (hsegments ▸ hpart)
  rw [components_of_segments hsegments, List.mem_append] at h
  obtain h | h := h
  · unfold firstComponents at h
    split at h
    · simp at h
    · split at h
      · simp at h
      · exact isName_of_innerComponent? (hslash first List.mem_cons_self) (by simpa using h)
  · obtain ⟨part, hpart, hs⟩ := List.mem_filterMap.1 h
    exact isName_of_innerComponent? (hslash part (List.mem_cons_of_mem first hpart)) hs

/-- A path whose last part is a name ends with this component. -/
theorem getLast?_components {path s : String} {before : List String}
    (h : segments path = before ++ [s]) (hs : isName s = true) :
    (components path).getLast? = some (.name s) := by
  obtain ⟨hne, hdot, -, -⟩ := isName_iff.1 hs
  cases before with
  | nil =>
    have habs : isAbsolute path = false := by
      rw [← Bool.not_eq_true]
      intro habs
      obtain ⟨rest, -, hrest⟩ := segments_of_isAbsolute habs
      exact hne (List.cons.inj (h.symm.trans hrest)).1
    rw [components_of_segments h, habs]
    simp [firstComponents, hdot, innerComponent?_of_isName hs]
  | cons first rest =>
    rw [List.cons_append] at h
    rw [components_of_segments h, List.filterMap_append, List.filterMap_cons,
      innerComponent?_of_isName hs]
    simp

theorem fileName?_of_segments {path s : String} {before : List String}
    (h : segments path = before ++ [s]) (hs : isName s = true) : fileName? path = some s := by
  rw [fileName?, getLast?_components h hs]

end ResourceNames.Files
