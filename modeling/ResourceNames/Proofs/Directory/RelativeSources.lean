import ResourceNames.Config.Read
import ResourceNames.Proofs.Directory.CoveredFiles
import ResourceNames.Proofs.Files.ParentPaths
import ResourceNames.Proofs.Files.PrefixedPatterns

/-!
# Relative sources

A relative pattern of a configuration file is meant from the directory of this file, whose path is
put in front of the pattern. What is covered is then what the pattern covers in the directory
(`Relocated`), if the path stands for itself. But it is not escaped, so that it is read as a part of
the pattern if it holds special characters.

* `isRelocated_joinPath`: a pattern behind the path of a directory.
* `isRelocated_of_ofFile`: the relative patterns of a configuration file.
-/

namespace ResourceNames

open Files Files.Glob

/-! ## Covered files -/

/-- What a pattern covers in a directory and what it covers behind the path of this directory: the
same files, of which the latter have the path in front. -/
inductive Relocated (fs : FileSystem) (base pattern : String) :
    (inside found : Except DirectoryError (List String)) → Prop where
  | files {inside found : List String} :
    (found.map fs.locate?).Perm (inside.map fun path => fs.locate? (joinPath base path)) →
      Relocated fs base pattern (.ok inside) (.ok found)
  | none : Relocated fs base pattern (.error (.noMatchingFiles pattern))
      (.error (.noMatchingFiles (joinPath base pattern)))
  | malformed (message message' : String) :
    Relocated fs base pattern (.error (.invalidPattern pattern message))
      (.error (.invalidPattern (joinPath base pattern) message'))

/-- Whether a pattern covers behind the path `base` of the directory `here` what it covers there. -/
def IsRelocated (fs : FileSystem) (here : List String) (base pattern : String) : Prop :=
  Relocated fs base pattern ((Source.pattern pattern).files (fs.seenFrom here))
    ((Source.pattern (joinPath base pattern)).files fs)

/-- A path that stands for itself in front of a pattern. -/
structure IsPlain (base : String) : Prop where
  literal : ∀ c ∈ base.toList, c ∉ ['?', '*', '[']
  /-- Behind dots, a search does not come to an empty part. -/
  somewhere : base = "" ∨ isAbsolute base = true ∨ leadsNowhere (segments base) = false

variable {fs : FileSystem} {base pattern : String} {here : List String}

/-- In front of a pattern, a slash at the end of a path counts only once. -/
theorem searched?_of_locate? {before : String} (hplain : IsPlain base) (hempty : base ≠ "")
    (hbefore : base = before ∨ base = before ++ "/") (hlocate : fs.locate? base = some here) :
    searched? fs before = some here := by
  have hsomewhere := hplain.somewhere.resolve_left hempty
  have hwalk := FileSystem.walk?_segments_of_locate? hbefore hlocate
  obtain rfl | rfl := hbefore
  · have hgoes : ¬ (!isAbsolute base && leadsNowhere (segments base)) = true := by
      obtain h | h := hsomewhere <;> simp [h]
    rw [searched?, if_neg hempty, if_neg hgoes, hlocate]
  · by_cases hnone : before = ""
    · subst hnone
      have hroot : FileSystem.target fs ("" ++ "/") = [] := by
        have hcomponents : components ("" ++ "/") = [.root] := by decide +kernel
        rw [FileSystem.target_eq, hcomponents]
        rfl
      rw [FileSystem.locate?_eq_target hlocate, hroot]
      rfl
    · rw [isAbsolute_append hnone, segments_append_empty] at hsomewhere
      have hgoes : ¬ (!isAbsolute before && leadsNowhere (segments before)) = true := by
        obtain h | h := hsomewhere
        · simp [h]
        · rw [Bool.and_eq_true]
          rintro ⟨-, hnowhere⟩
          simp [leadsNowhere_append hnowhere] at h
      have hstart : fs.startOf (before ++ "/") = fs.startOf before := by
        rw [FileSystem.startOf, FileSystem.startOf, isAbsolute_append hnone]
      rw [searched?, if_neg hnone, if_neg hgoes, ← hwalk, hstart]
      rfl

/-- A pattern that covers the same files behind the path covers none of them if there are none. -/
theorem isRelocated_of_yamlFiles {inside found : List String}
    (hinside : yamlFiles (fs.seenFrom here) pattern = .ok inside)
    (hfound : yamlFiles fs (joinPath base pattern) = .ok found)
    (hperm : (found.map fs.locate?).Perm
      (inside.map fun path => fs.locate? (joinPath base path))) :
    IsRelocated fs here base pattern := by
  have hlength : found.length = inside.length := by simpa using hperm.length_eq
  unfold IsRelocated Source.files
  simp only [hinside, hfound, bind, Except.bind]
  cases inside with
  | nil =>
    obtain rfl := List.length_eq_zero_iff.1 hlength
    exact .none
  | cons first rest =>
    obtain ⟨first', rest', rfl⟩ := List.exists_cons_of_length_eq_add_one hlength
    exact .files hperm

theorem isRelocated_of_error {e e' : PatternError} (hinside : Pattern.parse pattern = .error e)
    (hfound : Pattern.parse (joinPath base pattern) = .error e') :
    IsRelocated fs here base pattern := by
  unfold IsRelocated Source.files yamlFiles
  simp only [hinside, hfound, bind, Except.bind]
  exact .malformed _ _

/-- The empty path puts nothing in front of a pattern. -/
theorem isRelocated_empty (hbase : fs.locate? "" = some here) (pattern : String) :
    IsRelocated fs here "" pattern := by
  cases hparse : Pattern.parse pattern with
  | error e => exact isRelocated_of_error hparse ((joinPath_empty pattern).symm ▸ hparse)
  | ok p =>
    have hfiles : ∃ found, yamlFiles fs pattern = .ok found := by
      unfold yamlFiles
      rw [hparse]
      exact ⟨_, rfl⟩
    obtain ⟨found, hfound⟩ := hfiles
    refine isRelocated_of_yamlFiles ((FileSystem.seenFrom_of_empty hbase).symm ▸ hfound)
      ((joinPath_empty pattern).symm ▸ hfound) ?_
    simp only [joinPath_empty]
    exact .refl _

/-- Behind a plain path of a directory, a relative pattern covers what it covers in this
directory. -/
theorem isRelocated_joinPath (hroot : fs.root.isProper = true) (hplain : IsPlain base)
    (hlocate : fs.locate? base = some here) (habs : isAbsolute pattern = false)
    (hstall : ∀ p, Pattern.parse pattern = .ok p → stalls p.parts = false) :
    IsRelocated fs here base pattern := by
  by_cases hempty : base = ""
  · subst hempty
    exact isRelocated_empty hlocate pattern
  have hne : pattern ≠ "" := by
    rintro rfl
    cases hstall _ rfl
  obtain ⟨before, hbefore, hjoin⟩ := exists_joinPath hempty habs
  have hliteral : ∀ c ∈ before.toList, c ∉ ['?', '*', '['] := by
    obtain rfl | rfl := hbefore
    · exact hplain.literal
    · exact fun c hc => hplain.literal c (by simp [String.toList_append, hc])
  obtain ⟨spelled, hspells, hparse⟩ :=
    exists_toOption_parse_append (readsAs_self hliteral) habs hne
  rw [← hjoin] at hparse
  cases hinside : Pattern.parse pattern with
  | error e =>
    rw [hinside] at hparse
    cases hfound : Pattern.parse (joinPath base pattern) with
    | error e' => exact isRelocated_of_error hinside hfound
    | ok p => simp [hfound, Except.toOption] at hparse
  | ok p =>
    rw [hinside] at hparse
    have hstall := hstall p hinside
    have hsearch := forall₂_search_behind hroot (wellFormed_of_parse hinside) hspells hstall
    rw [searched?_of_locate? hplain hempty hbefore hlocate] at hsearch
    obtain ⟨found, hfound, hperm⟩ := exists_yamlFiles (eq_ok_of_toOption hparse) hsearch
    obtain ⟨inside, hfiles, hpermInside⟩ := exists_yamlFiles hinside
      (forall₂_search_seenFrom hroot here hinside habs hstall)
    refine isRelocated_of_yamlFiles hfiles hfound (hperm.trans ?_)
    simp only [FileSystem.locate?_joinPath_eq_seenFrom hlocate]
    exact hpermInside.symm

/-! ## Configuration files -/

namespace Config

/-- **The relative patterns of a configuration file cover files of its directory**, if the path of
the directory stands for itself: what a pattern covers, seen from the directory, is what it covers
with the path in front. -/
theorem isRelocated_of_ofFile {path content authority : String}
    {patterns directories : List String} (hroot : fs.root.isProper = true)
    (hread : fs.read path = .ok content)
    (hconfig : (Yaml.Document.ofText? content).bind ofDocument? =
      some ⟨authority, .files patterns directories⟩)
    (hplain : IsPlain (parentPath path)) :
    ofFile fs path = .ok ⟨authority, .files (patterns.map (joinPath (parentPath path)))
        (directories.map (joinPath (parentPath path)))⟩ ∧
      ∃ here name, fs.locate? path = some (here ++ [name]) ∧
        fs.locate? (parentPath path) = some here ∧
        ∀ pattern ∈ patterns, isAbsolute pattern = false →
          (∀ p, Pattern.parse pattern = .ok p → stalls p.parts = false) →
          IsRelocated fs here (parentPath path) pattern := by
  obtain ⟨row, hrow, hfile⟩ := FileSystem.exists_file_of_read hread
  obtain ⟨here, name, rfl, hlocate⟩ := FileSystem.locate?_parentPath hrow hfile
  refine ⟨?_, here, name, hrow, hlocate, fun pattern _ habs hstall =>
    isRelocated_joinPath hroot hplain hlocate habs hstall⟩
  unfold ofFile
  simp only [hread, Except.mapError, bind, Except.bind, hconfig]
  rfl

def sampleContent : String := "backend: \x7btype: static, sources: ['x*.yaml']\x7d"

/-- A configuration beside a definition, in a directory of this name. -/
def sampleTree (directory : String) : FileSystem where
  root := .directory [(directory, .directory [("c.yml", .file (some sampleContent)),
    ("x.yaml", .file (some ""))])]

theorem ofText?_sampleContent : (Yaml.Document.ofText? sampleContent).bind ofDocument? =
    some ⟨defaultAuthority, .files ["x*.yaml"] []⟩ := by decide +kernel

theorem isRelocated_of_ofFile_sample :
    ofFile (sampleTree "conf") "conf/c.yml" =
        .ok ⟨defaultAuthority, .files ["conf/x*.yaml"] []⟩ ∧
      Relocated (sampleTree "conf") "conf" "x*.yaml" (.ok ["x.yaml"]) (.ok ["conf/x.yaml"]) := by
  have hparent : parentPath "conf/c.yml" = "conf" := by decide +kernel
  have hjoin : joinPath "conf" "x*.yaml" = "conf/x*.yaml" := by decide +kernel
  have hread : (sampleTree "conf").read "conf/c.yml" = .ok sampleContent :=
    eq_ok_of_toOption (by decide +kernel)
  have hlocate : (sampleTree "conf").locate? "conf" = some ["conf"] := by decide +kernel
  have hinside : (Source.pattern "x*.yaml").files ((sampleTree "conf").seenFrom ["conf"]) =
      .ok ["x.yaml"] := eq_ok_of_toOption (by decide +kernel)
  have hfound : (Source.pattern "conf/x*.yaml").files (sampleTree "conf") = .ok ["conf/x.yaml"] :=
    eq_ok_of_toOption (by decide +kernel)
  have hstall : ∀ p, Pattern.parse "x*.yaml" = .ok p → stalls p.parts = false := by
    intro p hp
    cases hp
    decide
  obtain ⟨hconfig, here, name, -, hhere, h⟩ := isRelocated_of_ofFile (by decide +kernel) hread
    ofText?_sampleContent (hparent ▸ ⟨by simp, by decide +kernel⟩)
  rw [hparent] at hconfig hhere h
  obtain rfl : here = ["conf"] := Option.some.inj (hhere.symm.trans hlocate)
  have hrelocated := h "x*.yaml" List.mem_cons_self (by decide) hstall
  rw [IsRelocated, hjoin, hinside, hfound] at hrelocated
  exact ⟨by rw [hconfig, List.map_singleton, hjoin]; rfl, hrelocated⟩

/-- A path with special characters is read as a part of the pattern: beside a configuration in
`a[b]`, nothing is found. -/
theorem not_forall_isRelocated :
    ¬ ∀ (fs : FileSystem) (path content authority : String) (patterns directories : List String),
      fs.root.isProper = true → fs.read path = .ok content →
      (Yaml.Document.ofText? content).bind ofDocument? =
        some ⟨authority, .files patterns directories⟩ →
      ∀ here, fs.locate? (parentPath path) = some here →
        ∀ pattern ∈ patterns, isAbsolute pattern = false →
          IsRelocated fs here (parentPath path) pattern := by
  intro h
  have hparent : parentPath "a[b]/c.yml" = "a[b]" := by decide +kernel
  have hjoin : joinPath "a[b]" "x*.yaml" = "a[b]/x*.yaml" := by decide +kernel
  have hread : (sampleTree "a[b]").read "a[b]/c.yml" = .ok sampleContent :=
    eq_ok_of_toOption (by decide +kernel)
  have hlocate : (sampleTree "a[b]").locate? "a[b]" = some ["a[b]"] := by decide +kernel
  have hinside : (Source.pattern "x*.yaml").files ((sampleTree "a[b]").seenFrom ["a[b]"]) =
      .ok ["x.yaml"] := eq_ok_of_toOption (by decide +kernel)
  have hfound : (Source.pattern "a[b]/x*.yaml").files (sampleTree "a[b]") =
      .error (.noMatchingFiles "a[b]/x*.yaml") := by decide +kernel
  have hrelocated := h (sampleTree "a[b]") "a[b]/c.yml" sampleContent defaultAuthority ["x*.yaml"]
    [] (by decide +kernel) hread ofText?_sampleContent ["a[b]"] (hparent ▸ hlocate) "x*.yaml"
    List.mem_cons_self (by decide)
  rw [hparent, IsRelocated, hjoin, hinside, hfound] at hrelocated
  cases hrelocated

end Config

end ResourceNames
