import ResourceNames.Proofs.Directory.CoveredFiles
import ResourceNames.Proofs.Directory.Loading
import ResourceNames.Proofs.Files.PrefixedPatterns

/-!
# What a directory covers

A source that is a directory covers the YAML files at any depth below it, each once and in the order
of their paths. But the directory that is searched is not always the one that is meant
(`searched?`): for the empty path it is the root, and for a path that begins with an empty part
after dots there is none.

* `exists_listsYaml`: the files that are covered, of which there must be some.
* `StaticDirectory.load_directory`: what comes of a load.
-/

namespace ResourceNames

open Files

/-! ## Names with an extension -/

/-- What follows the last dot of a name is its extension. -/
theorem exists_stem_of_extension? {name e : String} (h : extension? name = some e) :
    ∃ stem, name.toList = stem ++ '.' :: e.toList ∧ '.' ∉ e.toList := by
  unfold extension? at h
  simp only at h
  split at h
  · rename_i ending c before hcut
    cases h
    obtain ⟨hname, hdot⟩ := Text.cut?_eq_some_iff.1 hcut
    refine ⟨(c :: before).reverse, ?_, by simpa using hdot⟩
    rw [← List.reverse_reverse name.toList, hname]
    simp
  · cases h

namespace Files.Glob

theorem matchesName_map_char (text name : List Char) :
    matchesName (text.map .char) name = true ↔ name = text := by
  induction text generalizing name with
  | nil => simp [matchesName]
  | cons c text ih =>
    cases name with
    | nil => simp [matchesName]
    | cons d name => simpa [matchesName, ih] using fun _ => eq_comm

theorem mem_ends_iff {ending name : List Char} : ending ∈ ends name ↔ ending <:+ name := by
  induction name with
  | nil => simp [ends]
  | cons c name ih => rw [ends, List.mem_cons, ih, List.suffix_cons_iff]

theorem matchesName_anyText (ts : List Token) (name : List Char) :
    matchesName (.anyText :: ts) name = true ↔
      ∃ ending, ending <:+ name ∧ matchesName ts ending := by
  rw [matchesName, List.any_eq_true]
  simp only [mem_ends_iff]

/-- A name with an extension ends with a dot and this extension, and with no other one. -/
theorem matchesName_ending_iff {name e other : String} (h : extension? name = some e)
    (hother : '.' ∉ other.toList) :
    matchesName (.anyText :: ('.' :: other.toList).map Token.char) name.toList = true ↔
      e = other := by
  obtain ⟨stem, hname, hdot⟩ := exists_stem_of_extension? h
  rw [matchesName_anyText]
  simp only [matchesName_map_char]
  constructor
  · rintro ⟨_, ⟨before, hbefore⟩, rfl⟩
    have hreverse := congrArg List.reverse (hbefore.trans hname)
    simp only [List.reverse_append, List.reverse_cons, List.append_assoc,
      List.singleton_append] at hreverse
    have heq := (Text.append_sep_inj (by simpa using hother) (by simpa using hdot) hreverse).1
    exact (String.toList_inj.1 (List.reverse_injective heq)).symm
  · rintro rfl
    exact ⟨_, ⟨stem, hname.symm⟩, rfl⟩

/-! ## Searches below a directory -/

/-- The pattern of what stands at any depth and has a name with an extension. -/
def extensionPattern (e : String) : Pattern where
  start := "."
  parts := [[.anyDirectories], .anyText :: ('.' :: e.toList).map Token.char]
  wantsDirectory := false

theorem parse_extensionPattern {e : String} (he : e = "yaml" ∨ e = "yml") :
    Pattern.parse ("**/*." ++ e) = .ok (extensionPattern e) := by
  obtain rfl | rfl := he
  all_goals rfl

theorem reach_extensionPattern (root : Node) (e : String) (here : List String) :
    reach root false false (extensionPattern e).parts here =
      (root.rowsBelow here).filter fun row =>
        matchesName (.anyText :: ('.' :: e.toList).map .char) (row.getLast?.getD "").toList := by
  have hdirectories : Part.isDirectories [.anyDirectories] = true := by decide
  have hlast : Part.isDirectories (.anyText :: ('.' :: e.toList).map Token.char) = false := by
    simp [Part.isDirectories]
  rw [extensionPattern, reach]
  simp only [hdirectories, if_true]
  rw [reach]
  simp only [hlast, Bool.false_eq_true, if_false, if_true]
  induction root.rowsBelow here with
  | nil => rfl
  | cons row rows ih =>
    rw [List.flatMap_cons, ih, List.filter_cons]
    split <;> simp [reach]

/-- Behind an escaped path, the search for names with an extension finds a path for each of them
below the directory that is searched. -/
theorem exists_parse_escape {fs : FileSystem} (hroot : fs.root.isProper = true) (path : String)
    {e : String} (he : e = "yaml" ∨ e = "yml") :
    ∃ p, Pattern.parse (escape path ++ ("/**/*." ++ e)) = .ok p ∧
      List.Forall₂ fs.Place (p.search fs)
        (((searched? fs path).map fun here => (fs.root.rowsBelow here).filter fun row =>
          matchesName (.anyText :: ('.' :: e.toList).map .char) (row.getLast?.getD "").toList).getD
            []) := by
  have habs : isAbsolute ("**/*." ++ e) = false := by obtain rfl | rfl := he <;> rfl
  have hne : "**/*." ++ e ≠ "" := by obtain rfl | rfl := he <;> decide
  have htext : escape path ++ ("/**/*." ++ e) = escape path ++ "/" ++ ("**/*." ++ e) := by
    rw [String.append_assoc]
    rfl
  have hparse := parse_extensionPattern he
  obtain ⟨spelled, hspells, hread⟩ := exists_toOption_parse_append (readsAs_escape path) habs hne
  rw [hparse, ← htext] at hread
  have hstall : stalls (extensionPattern e).parts = false := by simp [extensionPattern, stalls]
  have hfound := forall₂_search_behind hroot (wellFormed_of_parse hparse) hspells hstall
  exact ⟨_, eq_ok_of_toOption hread, funext (reach_extensionPattern fs.root e) ▸ hfound⟩

end Files.Glob

open Files.Glob

/-! ## The files of a directory -/

/-- The rows of the YAML files below the directory that is searched. -/
def yamlRows (fs : FileSystem) (path : String) : List (List String) :=
  ((searched? fs path).map fun here => (fs.root.rowsBelow here).filter fs.root.isYamlAt).getD []

variable {fs : FileSystem}

theorem isYamlAt_of_mem_yamlRows {path : String} {row : List String} (h : row ∈ yamlRows fs path) :
    fs.root.isYamlAt row = true := by
  unfold yamlRows at h
  cases hsearched : searched? fs path with
  | none => simp [hsearched] at h
  | some here =>
    rw [hsearched] at h
    exact (List.mem_filter.1 h).2

theorem nodup_yamlRows (hroot : fs.root.isProper = true) (path : String) :
    (yamlRows fs path).Nodup := by
  unfold yamlRows
  cases searched? fs path with
  | none => exact List.nodup_nil
  | some here => exact (Node.nodup_rowsBelow hroot here).filter _

/-- The pattern for an extension covers the files with this extension. -/
theorem exists_yamlFiles_below (hroot : fs.root.isProper = true) (path : String) {e : String}
    (he : e = "yaml" ∨ e = "yml") :
    ∃ paths, yamlFiles fs (escape path ++ ("/**/*." ++ e)) = .ok paths ∧
      (paths.map fs.locate?).Perm (((yamlRows fs path).filter fun row =>
        row.getLast?.bind extension? = some e).map some) := by
  have hdot : '.' ∉ e.toList := by obtain rfl | rfl := he <;> decide
  obtain ⟨p, hparse, hfound⟩ := exists_parse_escape hroot path he
  obtain ⟨paths, hpaths, hperm⟩ := exists_yamlFiles hparse hfound
  refine ⟨paths, hpaths, hperm.trans (List.Perm.of_eq (congrArg _ ?_))⟩
  unfold yamlRows
  cases searched? fs path with
  | none => rfl
  | some here =>
    simp only [Option.map_some, Option.getD_some, List.filter_filter]
    refine List.filter_congr fun row _ => ?_
    cases hyaml : fs.root.isYamlAt row with
    | false => simp
    | true =>
      obtain ⟨-, other, hother, -⟩ := Node.isYamlAt_iff.1 hyaml
      obtain ⟨name, hname, hextension⟩ := Option.bind_eq_some_iff.1 hother
      have hmatch := matchesName_ending_iff hextension hdot
      rw [Bool.true_and, Bool.and_true, hother, hname, Option.getD_some, Bool.eq_iff_iff, hmatch]
      simp

/-- A YAML file at any depth below the directory `here`. -/
def IsYamlBelow (fs : FileSystem) (here row : List String) : Prop :=
  ∃ names content e, names ≠ [] ∧ row = here ++ names ∧
    fs.root.at? row = some (.file content) ∧
    row.getLast?.bind extension? = some e ∧ (e = "yaml" ∨ e = "yml")

theorem mem_yamlRows_iff (hroot : fs.root.isProper = true) {path : String} {row : List String} :
    row ∈ yamlRows fs path ↔ ∃ here, searched? fs path = some here ∧ IsYamlBelow fs here row := by
  unfold yamlRows
  cases searched? fs path with
  | none => simp
  | some here =>
    simp only [Option.map_some, Option.getD_some, List.mem_filter, Node.mem_rowsBelow_iff hroot,
      Node.isYamlAt_iff, Option.some.injEq, exists_eq_left']
    constructor
    · rintro ⟨⟨names, hne, hrow, -⟩, ⟨content, hat⟩, e, he, hyaml⟩
      exact ⟨names, content, e, hne, hrow, hat, he, hyaml⟩
    · rintro ⟨names, content, e, hne, hrow, hat, he, hyaml⟩
      exact ⟨⟨names, hne, hrow, by simp [hat]⟩, ⟨content, hat⟩, e, he, hyaml⟩

/-- The YAML files below a directory, each once and in the order of their paths. -/
structure ListsYaml (fs : FileSystem) (directory : Option (List String)) (paths : List String) :
    Prop where
  sound : ∀ path ∈ paths, ∃ here row, directory = some here ∧ fs.locate? path = some row ∧
    IsYamlBelow fs here row
  complete : ∀ here row, directory = some here → IsYamlBelow fs here row →
    ∃ path ∈ paths, fs.locate? path = some row
  once : (paths.map fs.locate?).Nodup
  ascending : paths.Pairwise fun a b => comparePaths a b = .lt

/-- The files that a directory covers. -/
theorem exists_listsYaml (hroot : fs.root.isProper = true) (path : String) :
    ∃ paths, ListsYaml fs (searched? fs path) paths ∧
      (Source.directory path).files fs =
        if paths = [] then .error (.noMatchingFiles (path ++ "/**/*.\x7byaml,yml\x7d"))
        else .ok paths := by
  obtain ⟨yaml, hyaml, hyamlPerm⟩ := exists_yamlFiles_below hroot path (.inl rfl)
  obtain ⟨yml, hyml, hymlPerm⟩ := exists_yamlFiles_below hroot path (.inr rfl)
  have hnodup := nodup_yamlRows hroot path
  -- Each row has one of the two extensions.
  have hother : (yamlRows fs path).filter (fun row => row.getLast?.bind extension? = some "yml") =
      (yamlRows fs path).filter fun row =>
        !decide (row.getLast?.bind extension? = some "yaml") := by
    refine List.filter_congr fun row hrow => ?_
    obtain ⟨-, e, he, rfl | rfl⟩ := Node.isYamlAt_iff.1 (isYamlAt_of_mem_yamlRows hrow)
    · simp [he]
    · simp [he]
  have hperm : ((sortPaths (yaml ++ yml)).map fs.locate?).Perm ((yamlRows fs path).map some) := by
    refine ((perm_sortPaths _).map _).trans ?_
    rw [List.map_append]
    refine (hyamlPerm.append hymlPerm).trans ?_
    rw [hother, ← List.map_append]
    exact (List.filter_append_perm _ _).map some
  have hdifferent := pairwise_samePath hperm hnodup
  refine ⟨sortPaths (yaml ++ yml), ⟨?_, ?_, ?_, ?_⟩, ?_⟩
  · intro found hfound
    obtain ⟨row, hrow, hlocate⟩ := List.mem_map.1 (hperm.mem_iff.1 (List.mem_map_of_mem hfound))
    obtain ⟨here, hhere, hbelow⟩ := (mem_yamlRows_iff hroot).1 hrow
    exact ⟨here, row, hhere, hlocate.symm, hbelow⟩
  · intro here row hhere hbelow
    have hrow := (mem_yamlRows_iff hroot).2 ⟨here, hhere, hbelow⟩
    exact List.mem_map.1 (hperm.mem_iff.2 (List.mem_map_of_mem hrow))
  · exact hperm.nodup_iff.2 (hnodup.map (Option.some_injective _))
  · exact pairwise_comparePaths (pairwise_sortPaths _) hdifferent
  · have hyamlText : escape path ++ "/**/*.yaml" = escape path ++ ("/**/*." ++ "yaml") := rfl
    have hymlText : escape path ++ "/**/*.yml" = escape path ++ ("/**/*." ++ "yml") := rfl
    unfold Source.files
    simp only [hyamlText, hymlText, hyaml, hyml, bind, Except.bind, dropRepeats_eq_self hdifferent,
      List.isEmpty_iff]

/-! ## Loads -/

namespace Batch

/-- Each file counts once, whatever it holds. -/
theorem files_foldl_addFile (authority : String) (fs : FileSystem) (b : Batch)
    (paths : List String) :
    (paths.foldl (addFile authority fs) b).summary.files = b.summary.files + paths.length := by
  rw [summary_foldl_addFile]

end Batch

namespace StaticDirectory

/-- **A directory covers the YAML files below the directory that is searched.** They are the regular
files at any depth below it with one of the two extensions, each once and in the order of their
paths. If there are none, the load fails and changes nothing; if it succeeds, it takes over what is
in these files. -/
theorem load_directory (hroot : fs.root.isProper = true) (path : String) (d : StaticDirectory) :
    ∃ paths, ListsYaml fs (searched? fs path) paths ∧
      (Source.directory path).files fs =
        (if paths = [] then .error (.noMatchingFiles (path ++ "/**/*.\x7byaml,yml\x7d"))
        else .ok paths) ∧
      match (load fs (.directory path)).run.run d with
      | (.error e, d') => d' = d ∧
          (paths = [] → e = .noMatchingFiles (path ++ "/**/*.\x7byaml,yml\x7d"))
      | (.ok summary, d') => paths ≠ [] ∧ summary.files = paths.length ∧
          d.Loads (paths.flatMap (Batch.fileTypes d.authority fs)) d' := by
  obtain ⟨paths, hlists, hfiles⟩ := exists_listsYaml hroot path
  refine ⟨paths, hlists, hfiles, ?_⟩
  rw [run_load]
  cases hread : readSource d.authority fs (.directory path) with
  | error e =>
    refine ⟨rfl, fun hnil => ?_⟩
    rw [if_pos hnil] at hfiles
    rw [readSource_of_files_eq_error hfiles] at hread
    exact (Except.error.inj hread).symm
  | ok b =>
    have hne : paths ≠ [] := by
      intro hnil
      rw [if_pos hnil] at hfiles
      cases hread.symm.trans (readSource_of_files_eq_error hfiles)
    rw [if_neg hne] at hfiles
    have htypes : sourceTypes d.authority fs (.directory path) =
        paths.flatMap (Batch.fileTypes d.authority fs) := by
      unfold sourceTypes
      rw [hfiles]
    refine ⟨hne, ?_, htypes ▸ loads_of_readSource hread⟩
    rw [readSource_of_files hfiles] at hread
    split at hread
    · cases hread
    · cases hread
      exact (Batch.files_foldl_addFile d.authority fs {} paths).trans (Nat.zero_add _)

/-- A file deep below a directory, among others that do not count. -/
def sampleTree : FileSystem where
  root := .directory [("c[1]", .directory [(".yaml", .file (some "")),
    ("b", .directory [("a.yml", .file (some ""))]), ("c.txt", .file (some ""))]),
    ("x.yaml", .file (some ""))]

theorem load_directory_sample :
    sampleTree.root.isProper = true ∧ ListsYaml sampleTree (some ["c[1]"]) ["c[1]/b/a.yml"] := by
  have hproper : sampleTree.root.isProper = true := by decide +kernel
  have hsearched : searched? sampleTree "./c[1]//" = some ["c[1]"] := by decide +kernel
  have hfiles : (Source.directory "./c[1]//").files sampleTree = .ok ["c[1]/b/a.yml"] := by
    decide +kernel
  obtain ⟨paths, hlists, heq, -⟩ := load_directory hproper "./c[1]//" { authority := "g" }
  rw [hfiles] at heq
  split at heq
  · cases heq
  · cases heq
    exact ⟨hproper, hsearched ▸ hlists⟩

/-- The directory that is searched is not always the one that is meant: below `./` nothing is
found. -/
theorem not_forall_load_directory :
    ¬ ∀ (fs : FileSystem), fs.root.isProper = true → ∀ path : String,
      ∃ paths, ListsYaml fs (fs.locate? path) paths ∧
        (Source.directory path).files fs =
          if paths = [] then .error (.noMatchingFiles (path ++ "/**/*.\x7byaml,yml\x7d"))
          else .ok paths := by
  intro h
  obtain ⟨paths, hlists, heq⟩ := h sampleTree (by decide +kernel) "./"
  have hfiles : (Source.directory "./").files sampleTree =
      .error (.noMatchingFiles ".//**/*.\x7byaml,yml\x7d") := by decide +kernel
  have hlocated : sampleTree.locate? "./" = some [] := by decide +kernel
  have hbelow : IsYamlBelow sampleTree [] ["x.yaml"] :=
    ⟨["x.yaml"], some "", "yaml", by decide, rfl, rfl, by decide +kernel, .inl rfl⟩
  obtain ⟨path, hpath, -⟩ := hlists.complete [] ["x.yaml"] hlocated hbelow
  rw [hfiles, if_neg (List.ne_nil_of_mem hpath)] at heq
  cases heq

end StaticDirectory

end ResourceNames
