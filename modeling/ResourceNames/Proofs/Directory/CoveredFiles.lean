import ResourceNames.Proofs.Files.PathOrder
import ResourceNames.Proofs.Files.Search

/-!
# The YAML files that a pattern covers

* `exists_yamlFiles`: they are those of the rows of names that the pattern reaches.
* `pairwise_comparePaths`: paths to different files are strictly ascending once they are sorted.
-/

namespace ResourceNames

open Files

namespace Files

/-- Whether there is a YAML file under a row of names. -/
def Node.isYamlAt (root : Node) (row : List String) : Bool :=
  (root.at? row).any (·.isFile) &&
    (row.getLast?.bind extension?).any fun e => e = "yaml" || e = "yml"

theorem Node.isYamlAt_iff {root : Node} {row : List String} :
    root.isYamlAt row = true ↔
      (∃ content, root.at? row = some (.file content)) ∧
        ∃ e, row.getLast?.bind extension? = some e ∧ (e = "yaml" ∨ e = "yml") := by
  unfold isYamlAt
  cases root.at? row with
  | none => simp
  | some n => cases n <;> simp [isFile, isDirectory, Option.any_eq_true]

namespace FileSystem

/-- A path that is found leads to a YAML file exactly if its row does. -/
theorem Place.isYaml_eq {fs : FileSystem} {path : String} {row : List String}
    (h : fs.Place path row) : (fs.isFile path && isYamlFile path) = fs.root.isYamlAt row := by
  unfold FileSystem.isFile Node.isYamlAt isYamlFile
  rw [h.find?_eq]
  cases hat : fs.root.at? row with
  | none => rfl
  | some n =>
    cases n with
    | directory entries => rfl
    | file content =>
      rw [fileName?_of_locate? h.locate hat]
      cases row.getLast?.bind extension? <;> rfl

theorem map_locate?_eq {fs : FileSystem} {paths : List String} {rows : List (List String)}
    (h : List.Forall₂ fs.Place paths rows) : paths.map fs.locate? = rows.map some := by
  induction h with
  | nil => rfl
  | cons h _ ih => rw [List.map_cons, List.map_cons, ih, h.locate]

end FileSystem

end Files

/-! ## Patterns -/

/-- The YAML files that a pattern matches are those among the rows that it reaches. -/
theorem exists_yamlFiles {fs : FileSystem} {text : String} {p : Glob.Pattern}
    {rows : List (List String)} (hparse : Glob.Pattern.parse text = .ok p)
    (hrows : List.Forall₂ fs.Place (p.search fs) rows) :
    ∃ paths, yamlFiles fs text = .ok paths ∧
      (paths.map fs.locate?).Perm ((rows.filter fs.root.isYamlAt).map some) := by
  unfold yamlFiles
  rw [hparse]
  refine ⟨_, rfl, ((perm_sortPaths _).map fs.locate?).trans ?_⟩
  have hfound : List.Forall₂ fs.Place
      ((p.search fs).filter fun path => fs.isFile path && isYamlFile path)
      (rows.filter fs.root.isYamlAt) :=
    Glob.forall₂_filter (fun _ _ hplace => hplace.isYaml_eq) hrows
  exact List.Perm.of_eq (FileSystem.map_locate?_eq hfound)

/-! ## Paths to different files -/

variable {fs : FileSystem} {paths : List String} {rows : List (List String)}

/-- Different rows are reached by paths that are not the same. -/
theorem pairwise_samePath (hperm : (paths.map fs.locate?).Perm (rows.map some))
    (hrows : rows.Nodup) : paths.Pairwise fun a b => samePath a b = false := by
  have hnodup : (paths.map fs.locate?).Nodup :=
    hperm.nodup_iff.2 (hrows.map (Option.some_injective _))
  have hlocated : ∀ path ∈ paths, ∃ row, fs.locate? path = some row := by
    intro path hpath
    obtain ⟨row, -, hrow⟩ := List.mem_map.1 (hperm.mem_iff.1 (List.mem_map_of_mem hpath))
    exact ⟨row, hrow.symm⟩
  refine (List.pairwise_map.1 hnodup).imp_of_mem fun {a b} ha hb hne => ?_
  rw [← Bool.not_eq_true]
  intro hsame
  obtain ⟨row, hrow⟩ := hlocated a ha
  obtain ⟨row', hrow'⟩ := hlocated b hb
  rw [hrow, hrow', FileSystem.locate?_eq_of_samePath hsame hrow hrow'] at hne
  exact hne rfl

theorem dropRepeats_eq_self (h : paths.Pairwise fun a b => samePath a b = false) :
    dropRepeats paths = paths := by
  have hafter : ∀ path rest, (path :: rest).Pairwise (fun a b => samePath a b = false) →
      dropRepeatsAfter path rest = rest := by
    intro path rest
    induction rest generalizing path with
    | nil => exact fun _ => rfl
    | cons next rest ih =>
      intro h
      obtain ⟨hpath, hrest⟩ := List.pairwise_cons.1 h
      rw [dropRepeatsAfter, hpath next List.mem_cons_self, ih next hrest]
      rfl
  cases paths with
  | nil => rfl
  | cons path rest => rw [dropRepeats, hafter path rest h]

/-- Sorted paths to different rows are strictly ascending. -/
theorem pairwise_comparePaths (hsorted : paths.Pairwise fun a b => (comparePaths a b).isLE)
    (h : paths.Pairwise fun a b => samePath a b = false) :
    paths.Pairwise fun a b => comparePaths a b = .lt := by
  refine (hsorted.and h).imp fun {a b} ⟨hle, hne⟩ => ?_
  cases hcompare : comparePaths a b with
  | lt => rfl
  | eq => exact absurd (samePath_of_comparePaths_eq hcompare) (by simp [hne])
  | gt => simp [hcompare] at hle

end ResourceNames
