import ResourceNames.Proofs.Files.Walking

/-!
# Parents of files

* `locate?_parentPath`: the parent of a file's path leads to the directory in which the file stands.
-/

namespace ResourceNames.Files

/-- Whether a part stays where it is. -/
def isIdle (part : String) : Bool := part = "" || part = "."

/-- What is dropped from the end of a path are parts that stay where they are. -/
theorem exists_idle (parts : List String) :
    ∃ idle, parts = dropIdle parts ++ idle ∧ ∀ part ∈ idle, isIdle part = true := by
  fun_induction dropIdle parts with
  | case1 => exact ⟨[], rfl, by simp⟩
  | case2 s => exact ⟨[], rfl, by simp⟩
  | case3 s t rest last hkept hidle ih =>
    obtain ⟨idle, hparts, hall⟩ := ih
    rw [hkept] at hparts
    exact ⟨last :: idle, congrArg _ hparts,
      List.forall_mem_cons.2 ⟨by simpa [isIdle] using hidle, hall⟩⟩
  | case4 s t rest last hkept hidle ih =>
    obtain ⟨idle, hparts, hall⟩ := ih
    rw [hkept] at hparts
    exact ⟨idle, congrArg _ hparts, hall⟩
  | case5 s t rest hkept ih =>
    obtain ⟨idle, hparts, hall⟩ := ih
    exact ⟨idle, congrArg _ hparts, hall⟩

/-- Nothing is dropped behind a name. -/
theorem dropIdle_concat {name : String} (h : isIdle name = false) (parts : List String) :
    dropIdle (parts ++ [name]) = parts ++ [name] := by
  induction parts with
  | nil => rfl
  | cons part parts ih =>
    cases parts with
    | nil =>
      have hname : ¬ (name = "" ∨ name = ".") := by simpa [isIdle] using h
      simp [dropIdle, hname]
    | cons next rest =>
      rw [List.cons_append, List.cons_append, dropIdle, ← List.cons_append, ih]
      cases rest <;> rfl

theorem dropIdle_ne_nil {parts : List String} (h : parts ≠ []) : dropIdle parts ≠ [] := by
  fun_cases dropIdle parts with
  | case1 => exact absurd rfl h
  | case2 => simp
  | case3 => simp_all
  | case4 => simp_all
  | case5 => simp_all

namespace FileSystem

theorem walk?_idle {root : Node} {names idle : List String}
    (h : ∀ part ∈ idle, isIdle part = true) {row : List String}
    (hwalk : walk? root names idle = some row) : row = names := by
  induction idle generalizing names with
  | nil => exact (Option.some.inj hwalk).symm
  | cons part idle ih =>
    obtain ⟨hpart, hidle⟩ := List.forall_mem_cons.1 h
    rw [walk?_cons] at hwalk
    split at hwalk
    · have hstay : enter names part = names := by
        unfold enter
        exact if_pos (by simpa [isIdle] using hpart)
      rw [hstay] at hwalk
      exact ih hidle hwalk
    · cases hwalk

/-- A text that can be read stands in a file. -/
theorem exists_file_of_read {fs : FileSystem} {path content : String}
    (h : fs.read path = .ok content) :
    ∃ row, fs.locate? path = some row ∧ fs.root.at? row = some (.file (some content)) := by
  unfold read at h
  have hfind : fs.find? path = some (.file (some content)) := by
    unfold find?
    cases hresolve : fs.resolve path with
    | error e => simp [hresolve] at h
    | ok n =>
      rw [hresolve] at h
      cases n with
      | directory entries => cases h
      | file text =>
        cases text with
        | none => cases h
        | some text =>
          cases h
          rfl
  have hne : path ≠ "" := by
    rintro rfl
    cases hfind
  rw [find?_eq fs hne] at hfind
  exact Option.bind_eq_some_iff.1 hfind

theorem segments_intercalate {parts : List String} (hne : parts ≠ [])
    (hslash : ∀ part ∈ parts, '/' ∉ part.toList) : segments ("/".intercalate parts) = parts := by
  unfold segments
  rw [String.toList_intercalate]
  have hsplit : (List.intercalate "/".toList (parts.map String.toList)).splitOn '/' =
      parts.map String.toList := by
    refine List.splitOn_intercalate '/' ?_ (by simpa using hne)
    simpa using hslash
  rw [hsplit, List.map_map]
  simp

/-- The empty path leads where a relative path starts, and a slash where an absolute one does. -/
theorem locate?_start {fs : FileSystem} {path : String}
    (h : fs.root.isDirectoryAt (fs.startOf path) = true) :
    fs.locate? (if isAbsolute path then "/" else "") = some (fs.startOf path) := by
  unfold startOf at h ⊢
  unfold locate? startOf
  cases habs : isAbsolute path with
  | true =>
    have hroot : fs.root.isDirectoryAt [] = true := by simpa [habs] using h
    have hslash : isAbsolute "/" = true ∧ segments "/" = ["", ""] := by decide +kernel
    have hstay : enter [] "" = [] := rfl
    simp [hslash, walk?_cons, hstay, hroot]
  | false =>
    have hworking : fs.root.isDirectoryAt fs.workingDirectory = true := by simpa [habs] using h
    have hempty : isAbsolute "" = false ∧ segments "" = [""] := by decide +kernel
    simp [hempty, walk?_cons, hworking, enter]

/-- The first parts of a path, written out again, start where the path starts. -/
theorem locate?_intercalate {fs : FileSystem} {path : String} {kept rest : List String}
    (hsegments : segments path = kept ++ rest) (hrest : rest ≠ []) (hkept : kept ≠ [])
    (hempty : kept ≠ [""]) :
    fs.locate? ("/".intercalate kept) = walk? fs.root (fs.startOf path) kept := by
  have hslash : ∀ part ∈ kept, '/' ∉ part.toList := fun part hpart =>
    not_mem_of_mem_segments (hsegments ▸ List.mem_append_left rest hpart)
  have hjoined := segments_intercalate hkept hslash
  have habs : isAbsolute ("/".intercalate kept) = isAbsolute path := by
    rw [Bool.eq_iff_iff, isAbsolute_iff, isAbsolute_iff, hjoined, hsegments]
    obtain ⟨first, more, rfl⟩ := List.exists_cons_of_ne_nil hkept
    simp only [List.cons_append, List.cons.injEq]
    constructor
    · rintro ⟨_, -, hfirst, -⟩
      exact ⟨_, by simp [hrest], hfirst, rfl⟩
    · rintro ⟨_, -, hfirst, -⟩
      exact ⟨more, fun hmore => hempty (by rw [hfirst, hmore]), hfirst, rfl⟩
  unfold locate? startOf
  rw [hjoined, habs]

/-- The parent of a file's path leads to the directory in which the file stands. -/
theorem locate?_parentPath {fs : FileSystem} {path : String} {row : List String}
    {content : Option String} (h : fs.locate? path = some row)
    (hfile : fs.root.at? row = some (.file content)) :
    ∃ here name, row = here ++ [name] ∧ fs.locate? (parentPath path) = some here := by
  obtain ⟨parts, name, here, hsegments, hname, rfl, hwalk⟩ := exists_name_of_locate? h hfile
  refine ⟨here, name, rfl, ?_⟩
  have hidleName : isIdle name = false := by
    obtain ⟨hne, hdot, -, -⟩ := isName_iff.1 hname
    simp [isIdle, hne, hdot]
  have hdirectory : fs.root.isDirectoryAt here = true := by
    obtain ⟨entries, hat, -⟩ := Node.exists_directory_of_at?_concat hfile
    exact Node.isDirectoryAt_iff.2 ⟨entries, hat⟩
  unfold parentPath
  rw [hsegments, dropIdle_concat hidleName, List.dropLast_concat]
  obtain ⟨idle, hparts, hidle⟩ := exists_idle parts
  have hkept : walk? fs.root (fs.startOf path) (dropIdle parts) = some here := by
    rw [hparts, walk?_append, Option.bind_eq_some_iff] at hwalk
    obtain ⟨kept, hkept, hrest⟩ := hwalk
    rw [hkept, walk?_idle hidle hrest]
  have hstart : fs.startOf path = here →
      fs.locate? (if isAbsolute path then "/" else "") = some here := by
    rintro rfl
    exact locate?_start hdirectory
  split
  · rename_i hnil
    -- There is no part before the name, so the path is relative.
    have hparts : parts = [] := by
      by_contra hne
      exact dropIdle_ne_nil hne hnil
    have habs : isAbsolute path = false := by
      rw [← Bool.not_eq_true, isAbsolute_iff, hsegments, hparts]
      rintro ⟨rest, hrest, heq⟩
      exact hrest (List.cons.inj heq).2.symm
    rw [hnil] at hkept
    simpa [habs] using hstart (Option.some.inj hkept)
  · rename_i hempty
    rw [hempty, walk?_singleton] at hkept
    split at hkept
    · exact hstart (Option.some.inj hkept)
    · cases hkept
  · rename_i hnil hempty
    rw [hparts, List.append_assoc] at hsegments
    rw [locate?_intercalate hsegments (by simp) hnil hempty, hkept]

end FileSystem

end ResourceNames.Files
