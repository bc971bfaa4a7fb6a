import ResourceNames.Proofs.Directory.Sources
import ResourceNames.Proofs.Files.PathOrder

/-!
# What loading a source does

* `summary_foldl_addFile`: what a batch tells of the files that were read into it.
* `readSource_eq_error_iff`: a source fails if it covers no files, or if it yields nothing and
  something in it is rejected.
* `loads_of_readSource`: a source that does not fail takes over its own types and no other ones.
* `load_all_or_nothing`: both together, for the files that a pattern matches.
-/

namespace ResourceNames

open Files

/-! ## What a batch tells of its documents -/

theorem countP_cons_toNat {α : Type} (p : α → Bool) (x : α) (xs : List α) :
    (x :: xs).countP p = (p x).toNat + xs.countP p := by
  rw [List.countP_cons, Nat.add_comm]
  cases p x <;> rfl

namespace Batch

/-- What is noted of a document of the file `source`. -/
def documentIssues (authority source : String) (document : Nat × String) : List LoadIssue :=
  match readDocument authority document.2 with
  | .ok _ => []
  | .error fault => [⟨source, document.1, fault⟩]

/-- What is noted of a file. -/
def fileIssues (authority : String) (fs : FileSystem) (path : String) : List LoadIssue :=
  match fs.read path with
  | .ok content => (splitDocuments content).flatMap (documentIssues authority path)
  | .error e => [⟨path, 0, e.message⟩]

/-- Whether a document is outside of the naming authority. -/
def isSkipped (authority yaml : String) : Bool :=
  match readDocument authority yaml with
  | .ok (.irrelevant _) => true
  | _ => false

/-- What a document adds to the summary. -/
theorem summary_addDocument (authority source : String) (b : Batch) (document : Nat × String) :
    (b.addDocument authority source document).summary =
      { files := b.summary.files
        definitions := b.summary.definitions + 1
        loaded := b.summary.loaded ++ (documentTypes authority document.2).map (·.typeKey)
        skipped := b.summary.skipped + (isSkipped authority document.2).toNat
        issues := b.summary.issues ++ documentIssues authority source document } := by
  unfold addDocument documentTypes isSkipped documentIssues
  cases readDocument authority document.2 with
  | error fault => simp [addIssue]
  | ok extracted =>
    cases extracted with
    | irrelevant group => simp
    | types ds => simp [summary_foldl_addType]

theorem summary_foldl_addDocument (authority source : String) (b : Batch)
    (documents : List (Nat × String)) :
    (documents.foldl (addDocument authority source) b).summary =
      { files := b.summary.files
        definitions := b.summary.definitions + documents.length
        loaded := b.summary.loaded ++
          (documents.flatMap fun document => documentTypes authority document.2).map (·.typeKey)
        skipped := b.summary.skipped +
          (documents.map (·.2)).countP (isSkipped authority)
        issues := b.summary.issues ++ documents.flatMap (documentIssues authority source) } := by
  induction documents generalizing b with
  | nil => simp
  | cons document documents ih =>
    rw [List.foldl_cons, ih, summary_addDocument]
    simp [countP_cons_toNat, Nat.add_assoc, Nat.add_comm 1]

/-- What a file adds to the summary. -/
theorem summary_addFile (authority : String) (fs : FileSystem) (b : Batch) (path : String) :
    (b.addFile authority fs path).summary =
      { files := b.summary.files + 1
        definitions := b.summary.definitions + (fileDocuments fs path).length
        loaded := b.summary.loaded ++ (fileTypes authority fs path).map (·.typeKey)
        skipped := b.summary.skipped + (fileDocuments fs path).countP (isSkipped authority)
        issues := b.summary.issues ++ fileIssues authority fs path } := by
  unfold addFile fileDocuments fileTypes fileIssues
  cases fs.read path with
  | error e => simp [addIssue]
  | ok content => simp [summary_foldl_addDocument]

theorem summary_foldl_addFile (authority : String) (fs : FileSystem) (b : Batch)
    (paths : List String) :
    (paths.foldl (addFile authority fs) b).summary =
      { files := b.summary.files + paths.length
        definitions := b.summary.definitions + (paths.flatMap (fileDocuments fs)).length
        loaded := b.summary.loaded ++
          (paths.flatMap (fileTypes authority fs)).map (·.typeKey)
        skipped := b.summary.skipped +
          (paths.flatMap (fileDocuments fs)).countP (isSkipped authority)
        issues := b.summary.issues ++ paths.flatMap (fileIssues authority fs) } := by
  induction paths generalizing b with
  | nil => simp
  | cons path paths ih =>
    rw [List.foldl_cons, ih, summary_addFile]
    simp [Nat.add_assoc, Nat.add_comm 1]

/-- A file that cannot be read, or with a document that is rejected. -/
def Faulty (authority : String) (fs : FileSystem) (path : String) : Prop :=
  match fs.read path with
  | .ok content =>
    ∃ document ∈ splitDocuments content, ∃ fault, readDocument authority document.2 = .error fault
  | .error _ => True

theorem fileIssues_ne_nil_iff {authority : String} {fs : FileSystem} {path : String} :
    fileIssues authority fs path ≠ [] ↔ Faulty authority fs path := by
  unfold fileIssues Faulty
  cases fs.read path with
  | error e => simp
  | ok content =>
    simp only [ne_eq, List.flatMap_eq_nil_iff, not_forall, exists_prop]
    refine exists_congr fun document => and_congr_right fun _ => ?_
    unfold documentIssues
    cases readDocument authority document.2 <;> simp

end Batch

/-! ## Sources that fail -/

section

variable {authority : String} {fs : FileSystem} {source : Source}

/-- What a source with files comes to. -/
theorem readSource_of_files {files : List String} (hfiles : source.files fs = .ok files) :
    readSource authority fs source =
      if files.flatMap (Batch.fileTypes authority fs) = [] ∧
          files.flatMap (Batch.fileIssues authority fs) ≠ [] then
        .error (.loadFailed source.text
          ("; ".intercalate ((files.flatMap (Batch.fileIssues authority fs)).map (·.text))))
      else .ok (files.foldl (Batch.addFile authority fs) {}) := by
  have hsummary := Batch.summary_foldl_addFile authority fs {} files
  unfold readSource
  rw [hfiles]
  simp only [bind, Except.bind, hsummary, List.nil_append]
  by_cases htypes : files.flatMap (Batch.fileTypes authority fs) = []
  · by_cases hnone : files.flatMap (Batch.fileIssues authority fs) = []
    · simp [htypes, hnone, pure, Except.pure]
    · simp [htypes, hnone]
  · simp [htypes, pure, Except.pure]

theorem readSource_of_files_eq_error {e : DirectoryError} (hfiles : source.files fs = .error e) :
    readSource authority fs source = .error e := by
  unfold readSource
  rw [hfiles]
  rfl

/-- A source fails if it covers no files, or if no type is found in its files and something in them
is rejected. -/
theorem readSource_eq_error_iff :
    (∃ e, readSource authority fs source = .error e) ↔
      (∃ e, source.files fs = .error e) ∨
        ∃ files, source.files fs = .ok files ∧
          (∀ path ∈ files, Batch.fileTypes authority fs path = []) ∧
          ∃ path ∈ files, Batch.Faulty authority fs path := by
  cases hfiles : source.files fs with
  | error e => simp [readSource_of_files_eq_error hfiles]
  | ok files =>
    have hissues : files.flatMap (Batch.fileIssues authority fs) ≠ [] ↔
        ∃ path ∈ files, Batch.Faulty authority fs path := by
      simp only [ne_eq, List.flatMap_eq_nil_iff, not_forall, exists_prop,
        ← Batch.fileIssues_ne_nil_iff]
    have htypes : files.flatMap (Batch.fileTypes authority fs) = [] ↔
        ∀ path ∈ files, Batch.fileTypes authority fs path = [] := List.flatMap_eq_nil_iff
    rw [readSource_of_files hfiles]
    constructor
    · rintro ⟨e, he⟩
      split at he
      · rename_i h
        exact .inr ⟨files, rfl, htypes.1 h.1, hissues.1 h.2⟩
      · cases he
    · rintro (⟨e, he⟩ | ⟨files', hfiles', h⟩)
      · cases he
      · cases hfiles'
        exact ⟨_, if_pos ⟨htypes.2 h.1, hissues.2 h.2⟩⟩

/-- A source that does not fail is read file by file. -/
theorem exists_files_of_readSource {b : Batch} (h : readSource authority fs source = .ok b) :
    ∃ paths, source.files fs = .ok paths ∧ b = paths.foldl (Batch.addFile authority fs) {} := by
  cases hfiles : source.files fs with
  | error e =>
    rw [readSource_of_files_eq_error hfiles] at h
    cases h
  | ok paths =>
    rw [readSource_of_files hfiles] at h
    split at h
    · cases h
    · cases h
      exact ⟨paths, rfl, rfl⟩

/-- The keys in the summary of a source are those of its types, in their order. -/
theorem loaded_of_readSource {b : Batch} (h : readSource authority fs source = .ok b) :
    b.summary.loaded = (sourceTypes authority fs source).map (·.typeKey) := by
  obtain ⟨paths, hfiles, rfl⟩ := exists_files_of_readSource h
  rw [Batch.summary_foldl_addFile, sourceTypes, hfiles]
  rfl

end

/-! ## The files of a pattern -/

/-- A regular YAML file that a pattern matches. -/
def Matches (fs : FileSystem) (p : Glob.Pattern) (path : String) : Prop :=
  path ∈ p.search fs ∧ fs.isFile path = true ∧ isYamlFile path = true

/-- The files that a pattern matches, in the order in which they are read. -/
structure Covers (fs : FileSystem) (p : Glob.Pattern) (files : List String) : Prop where
  perm : files.Perm ((p.search fs).filter fun path => fs.isFile path && isYamlFile path)
  sorted : files.Pairwise fun a b => (comparePaths a b).isLE

theorem Covers.mem_iff {fs : FileSystem} {p : Glob.Pattern} {files : List String}
    (h : Covers fs p files) {path : String} : path ∈ files ↔ Matches fs p path := by
  rw [h.perm.mem_iff, List.mem_filter, Bool.and_eq_true]
  exact Iff.rfl

/-- The files that a pattern covers. -/
theorem files_pattern (fs : FileSystem) (text : String) :
    match Glob.Pattern.parse text with
    | .error _ => ∃ e, (Source.pattern text).files fs = .error e
    | .ok p => ∃ files, Covers fs p files ∧
        (Source.pattern text).files fs =
          if files = [] then .error (.noMatchingFiles text) else .ok files := by
  simp only [Source.files, yamlFiles]
  cases Glob.Pattern.parse text with
  | error e => exact ⟨_, rfl⟩
  | ok p =>
    refine ⟨_, ⟨perm_sortPaths _, pairwise_sortPaths _⟩, ?_⟩
    simp only [bind, Except.bind, List.isEmpty_iff]

/-- Why a pattern cannot be loaded. -/
inductive Unloadable (authority : String) (fs : FileSystem) (text : String) : Prop
  /-- It is no pattern. -/
  | malformed {e : Glob.PatternError} : Glob.Pattern.parse text = .error e →
    Unloadable authority fs text
  /-- It matches no regular YAML file. -/
  | noFile {p : Glob.Pattern} : Glob.Pattern.parse text = .ok p → (∀ path, ¬ Matches fs p path) →
    Unloadable authority fs text
  /-- No type is found in the files that it matches, and something in them is rejected. -/
  | onlyFaults {p : Glob.Pattern} : Glob.Pattern.parse text = .ok p →
    (∀ path, Matches fs p path → Batch.fileTypes authority fs path = []) →
    (∃ path, Matches fs p path ∧ Batch.Faulty authority fs path) → Unloadable authority fs text

theorem readSource_pattern_eq_error_iff {authority : String} {fs : FileSystem} {text : String} :
    (∃ e, readSource authority fs (.pattern text) = .error e) ↔ Unloadable authority fs text := by
  have hpattern := files_pattern fs text
  rw [readSource_eq_error_iff]
  cases hparse : Glob.Pattern.parse text with
  | error e =>
    rw [hparse] at hpattern
    exact ⟨fun _ => .malformed hparse, fun _ => .inl hpattern⟩
  | ok p =>
    rw [hparse] at hpattern
    obtain ⟨files, hcovers, hfiles⟩ := hpattern
    rw [hfiles]
    constructor
    · rintro (⟨e, he⟩ | ⟨files', hfiles', htypes, path, hpath, hfaulty⟩)
      · split at he
        · rename_i hnil
          refine .noFile hparse fun path hpath => ?_
          rw [← hcovers.mem_iff, hnil] at hpath
          cases hpath
        · cases he
      · split at hfiles'
        · cases hfiles'
        · cases hfiles'
          exact .onlyFaults hparse (fun path hpath => htypes path (hcovers.mem_iff.2 hpath))
            ⟨path, hcovers.mem_iff.1 hpath, hfaulty⟩
    · rintro (h | ⟨h, hnone⟩ | ⟨h, htypes, path, hpath, hfaulty⟩)
      · cases hparse.symm.trans h
      · cases hparse.symm.trans h
        have hnil : files = [] :=
          List.eq_nil_iff_forall_not_mem.2 fun path hpath => hnone path (hcovers.mem_iff.1 hpath)
        exact .inl ⟨_, if_pos hnil⟩
      · cases hparse.symm.trans h
        have hmem := hcovers.mem_iff.2 hpath
        exact .inr ⟨files, if_neg (List.ne_nil_of_mem hmem),
          fun path hpath => htypes path (hcovers.mem_iff.1 hpath), path, hmem, hfaulty⟩

/-- The types that a pattern yields are those of the files that it covers, in their order. -/
theorem exists_covers_of_readSource {authority : String} {fs : FileSystem} {text : String}
    {b : Batch} (h : readSource authority fs (.pattern text) = .ok b) :
    ∃ p files, Glob.Pattern.parse text = .ok p ∧ Covers fs p files ∧
      sourceTypes authority fs (.pattern text) =
        files.flatMap (Batch.fileTypes authority fs) := by
  have hpattern := files_pattern fs text
  cases hparse : Glob.Pattern.parse text with
  | error e =>
    rw [hparse] at hpattern
    obtain ⟨e, he⟩ := hpattern
    cases h.symm.trans (readSource_of_files_eq_error he)
  | ok p =>
    rw [hparse] at hpattern
    obtain ⟨files, hcovers, hfiles⟩ := hpattern
    split at hfiles
    · cases h.symm.trans (readSource_of_files_eq_error hfiles)
    · refine ⟨p, files, rfl, hcovers, ?_⟩
      unfold sourceTypes
      rw [hfiles]

/-! ## Directories after a load -/

theorem ofKey_eq_nil_iff {key : String} {ds : List TypeDescriptor} :
    ofKey key ds = [] ↔ key ∉ ds.map (·.typeKey) := by
  simp [ofKey, List.filter_eq_nil_iff]

/-- The last of some types that has a key is its last one. -/
theorem getLast?_ofKey_append {before after : List TypeDescriptor} {t : TypeDescriptor}
    (h : t.typeKey ∉ after.map (·.typeKey)) :
    (ofKey t.typeKey (before ++ t :: after)).getLast? = some t := by
  have hsplit : before ++ t :: after = before ++ [t] ++ after := by simp
  rw [hsplit, ofKey_append, ofKey_append, ofKey_self, ofKey_eq_nil_iff.2 h, List.append_nil,
    List.getLast?_concat]

namespace StaticIndex

theorem find?_types_absorb (index : StaticIndex) {b : Batch} {ds : List TypeDescriptor}
    (h : b.Holds ds) (key : String) :
    (index.absorb b).types.types.find? key =
      ((ofKey key ds).getLast? <|> index.types.types.find? key) := by
  rw [← h.types]
  exact Table.find?_extend index.types.types b.types.types key

/-- A batch without types of a key leaves the validator of the key alone. -/
theorem find?_validators_absorb (index : StaticIndex) {b : Batch} {ds : List TypeDescriptor}
    (h : b.Holds ds) {key : String} (hkey : ofKey key ds = []) :
    (index.absorb b).validators.find? key = index.validators.find? key := by
  have hextend : (index.absorb b).validators.find? key = (b.validators.find? key <|>
      (index.validators.restrict fun key => !b.types.types.contains key).find? key) :=
    Table.find?_extend _ _ key
  rw [hextend, h.validators, Table.find?_restrict, Table.contains, h.types, hkey]
  rfl

theorem types_addSource (index : StaticIndex) (source : Source) :
    (index.addSource source).types = index.types := by
  unfold addSource
  split <;> rfl

theorem validators_addSource (index : StaticIndex) (source : Source) :
    (index.addSource source).validators = index.validators := by
  unfold addSource
  split <;> rfl

end StaticIndex

namespace StaticDirectory

/-- What the load of some types, in their order, makes of a directory. -/
structure Loads (d : StaticDirectory) (ds : List TypeDescriptor) (d' : StaticDirectory) :
    Prop where
  keys : ∀ key, key ∈ d'.typeKeys ↔ key ∈ d.typeKeys ∨ key ∈ ds.map (·.typeKey)
  /-- Of the types with one key the last one counts. -/
  last : ∀ before t after, ds = before ++ t :: after → t.typeKey ∉ after.map (·.typeKey) →
    d'.index.types.types.find? t.typeKey = some t
  /-- All else stays. -/
  others : ∀ key, key ∉ ds.map (·.typeKey) →
    d'.index.types.types.find? key = d.index.types.types.find? key ∧
      d'.index.validators.find? key = d.index.validators.find? key

theorem loads_of_readSource {d : StaticDirectory} {fs : FileSystem} {source : Source} {b : Batch}
    (h : readSource d.authority fs source = .ok b) :
    d.Loads (sourceTypes d.authority fs source)
      { d with index := (d.index.absorb b).addSource source } := by
  have hb := readSource_holds h
  have hfind : ∀ key, ((d.index.absorb b).addSource source).types.types.find? key =
      ((ofKey key (sourceTypes d.authority fs source)).getLast? <|>
        d.index.types.types.find? key) := by
    intro key
    rw [StaticIndex.types_addSource, StaticIndex.find?_types_absorb _ hb]
  constructor
  case keys =>
    intro key
    unfold typeKeys TypeIndex.keys
    rw [Table.mem_keys_iff, Table.mem_keys_iff, hfind]
    by_cases hkey : ofKey key (sourceTypes d.authority fs source) = []
    · simp [hkey, ofKey_eq_nil_iff.1 hkey]
    · have hmem := mt ofKey_eq_nil_iff.2 hkey
      rw [not_not] at hmem
      simp [List.getLast?_eq_some_getLast hkey, hmem]
  case last =>
    intro before t after hds hlast
    rw [hfind, hds, getLast?_ofKey_append hlast]
    rfl
  case others =>
    intro key hkey
    rw [hfind, ofKey_eq_nil_iff.2 hkey, StaticIndex.validators_addSource,
      StaticIndex.find?_validators_absorb _ hb (ofKey_eq_nil_iff.2 hkey)]
    exact ⟨rfl, rfl⟩

/-- Patterns are the same if their texts are. -/
theorem any_same_pattern_iff {sources : List Source} {text : String} :
    sources.any (Source.pattern text).same = true ↔ Source.pattern text ∈ sources := by
  rw [List.any_eq_true]
  constructor
  · rintro ⟨source, hmem, hsame⟩
    cases source with
    | pattern other =>
      simp only [Source.same, decide_eq_true_eq] at hsame
      exact hsame ▸ hmem
    | directory path => cases hsame
  · exact fun hmem => ⟨_, hmem, by simp [Source.same]⟩

/-- **Loading is all or nothing.** The load of a pattern fails if it is malformed, if it matches no
regular YAML file, or if the files yield no type and something in them is rejected; nothing changes
then. Otherwise the types of the files are taken over in the order of the files, documents and
versions, nothing else changes, and the pattern is remembered if it was not yet. -/
theorem load_all_or_nothing (d : StaticDirectory) (fs : FileSystem) (text : String) :
    let source := Source.pattern text
    ((∃ e, ((load fs source).run.run d).1 = .error e) ↔ Unloadable d.authority fs text) ∧
      match (load fs source).run.run d with
      | (.error _, d') => d' = d
      | (.ok summary, d') => ∃ p files, Glob.Pattern.parse text = .ok p ∧ Covers fs p files ∧
          summary.loaded =
            (files.flatMap (Batch.fileTypes d.authority fs)).map (·.typeKey) ∧
          d.Loads (files.flatMap (Batch.fileTypes d.authority fs)) d' ∧
          d'.index.sources =
            if source ∈ d.index.sources then d.index.sources else d.index.sources ++ [source] := by
  intro source
  rw [run_load, ← readSource_pattern_eq_error_iff]
  cases hread : readSource d.authority fs source with
  | error e => exact ⟨by simp, rfl⟩
  | ok b =>
    obtain ⟨p, files, hparse, hcovers, htypes⟩ := exists_covers_of_readSource hread
    refine ⟨by simp, p, files, hparse, hcovers, ?_, ?_, ?_⟩
    · rw [← htypes]
      exact loaded_of_readSource hread
    · rw [← htypes]
      exact loads_of_readSource hread
    · rw [StaticIndex.sources_addSource]
      exact if_congr any_same_pattern_iff rfl rfl

end StaticDirectory

end ResourceNames
