import ResourceNames.Proofs.Definition.Accepted
import ResourceNames.Proofs.Definition.ContentLines
import ResourceNames.Proofs.Directory.Loading

/-!
# What the summary of a load tells

Each document of a source is taken in, skipped or rejected, and the summary counts it as one of
these.

* `takenIn_of_isTaken`: a document that is taken in has a key.
* `balance_files`: the classes add up to all documents and the files that cannot be read.
* `nodup_places_iff`: issues stand at different places unless a file that has some is read twice.
* `load_accounts`: the summary of a load that succeeds.
* `not_forall_nodup_places`: a pattern can lead to a file twice, which is then read twice.
-/

namespace ResourceNames

open Files

/-! ## Documents that are taken in -/

/-- A document is taken in with some keys: it is the definition of a type of the naming authority,
and the keys are those of the served versions, in the order in which the document lists them. -/
def TakenIn (authority text : String) (keys : List String) : Prop :=
  ∃ v d, Yaml.parse? text = some v ∧ Definition.ofJson v = .ok d ∧
    isRelevant d.group authority = true ∧
    (Definition.listedVersions v).map (Definition.readVersion d.name) = d.versions.map .ok ∧
    keys = (d.versions.filter (·.served)).map fun w => typeKeyOf d.kind d.group w.name

namespace Batch

/-- Whether a document is taken in. -/
def isTaken (authority yaml : String) : Bool :=
  match readDocument authority yaml with
  | .ok (.types _) => true
  | _ => false

/-- The keys that a document adds. -/
def documentKeys (authority yaml : String) : List String :=
  (documentTypes authority yaml).map (·.typeKey)

theorem documentKeys_of_not_isTaken {authority yaml : String} (h : isTaken authority yaml = false) :
    documentKeys authority yaml = [] := by
  unfold isTaken at h
  unfold documentKeys documentTypes
  split
  · rename_i ds hread
    simp [hread] at h
  · rfl

/-- A document that is taken in has a key, as a definition must have a served version. -/
theorem takenIn_of_isTaken {authority yaml : String} (h : isTaken authority yaml = true) :
    documentKeys authority yaml ≠ [] ∧ TakenIn authority yaml (documentKeys authority yaml) := by
  unfold isTaken at h
  split at h
  · rename_i ds hread
    have htypes : documentTypes authority yaml = ds := by simp only [documentTypes, hread]
    unfold readDocument at hread
    split at hread
    · cases hread
    · rename_i v hparse
      obtain ⟨d, hd, hextract⟩ := exists_ok_of_bind (eq_ok_of_mapError hread)
      split at hextract
      · rename_i hrelevant
        cases hextract
        have haccepted := Definition.accepted_of_ofJson hd
        have hkeys : documentKeys authority yaml =
            (d.versions.filter (·.served)).map fun w => typeKeyOf d.kind d.group w.name := by
          rw [documentKeys, htypes, Definition.descriptors, List.map_map]
          rfl
        obtain ⟨w, hw, hserved, -⟩ := haccepted.usable
        rw [hkeys]
        exact ⟨List.ne_nil_of_mem (List.mem_map_of_mem (List.mem_filter.2 ⟨hw, hserved⟩)),
          v, d, hparse, hd, hrelevant, haccepted.versions, rfl⟩
      · cases hextract
  · cases h

/-! ## The balance -/

/-- Whether a file cannot be read. -/
def isUnreadable (fs : FileSystem) (path : String) : Bool := !(fs.read path).isOk

/-- A document is skipped, rejected or taken in. -/
theorem balance_document (authority source : String) (document : Nat × String) :
    (isSkipped authority document.2).toNat + (documentIssues authority source document).length +
      (isTaken authority document.2).toNat = 1 := by
  unfold isSkipped documentIssues isTaken
  cases readDocument authority document.2 with
  | error fault => rfl
  | ok extracted => cases extracted <;> rfl

theorem balance_documents (authority source : String) (documents : List (Nat × String)) :
    (documents.map (·.2)).countP (isSkipped authority) +
        (documents.flatMap (documentIssues authority source)).length +
        (documents.map (·.2)).countP (isTaken authority) =
      documents.length := by
  induction documents with
  | nil => rfl
  | cons document documents ih =>
    have hdocument := balance_document authority source document
    rw [List.map_cons, countP_cons_toNat, countP_cons_toNat, List.flatMap_cons,
      List.length_append, List.length_cons]
    omega

/-- A file that cannot be read is an issue itself. -/
theorem balance_file (authority : String) (fs : FileSystem) (path : String) :
    (fileDocuments fs path).countP (isSkipped authority) + (fileIssues authority fs path).length +
        (fileDocuments fs path).countP (isTaken authority) =
      (fileDocuments fs path).length + (isUnreadable fs path).toNat := by
  unfold fileDocuments fileIssues isUnreadable
  cases fs.read path with
  | error e => rfl
  | ok content =>
    have hdocuments := balance_documents authority path (splitDocuments content)
    have hreadable : (!(Except.ok content : Except FileError String).isOk).toNat = 0 := rfl
    rw [hreadable, Nat.add_zero, List.length_map]
    exact hdocuments

theorem balance_files (authority : String) (fs : FileSystem) (paths : List String) :
    (paths.flatMap (fileDocuments fs)).countP (isSkipped authority) +
        (paths.flatMap (fileIssues authority fs)).length +
        (paths.flatMap (fileDocuments fs)).countP (isTaken authority) =
      (paths.flatMap (fileDocuments fs)).length + paths.countP (isUnreadable fs) := by
  induction paths with
  | nil => rfl
  | cons path paths ih =>
    have hfile := balance_file authority fs path
    rw [List.flatMap_cons, List.flatMap_cons, List.countP_append, List.countP_append,
      List.length_append, List.length_append, countP_cons_toNat]
    omega

end Batch

/-! ## The places of issues -/

/-- The file and the document that an issue is about. -/
def LoadIssue.place (issue : LoadIssue) : String × Nat := (issue.source, issue.document)

namespace Batch

theorem place_of_mem_documentIssues {authority source : String} {document : Nat × String}
    {issue : LoadIssue} (h : issue ∈ documentIssues authority source document) :
    issue.place = (source, document.1) := by
  unfold documentIssues at h
  split at h
  · cases h
  · obtain rfl := List.mem_singleton.1 h
    rfl

theorem source_of_mem_fileIssues {authority path : String} {fs : FileSystem} {issue : LoadIssue}
    (h : issue ∈ fileIssues authority fs path) : issue.source = path := by
  unfold fileIssues at h
  split at h
  · obtain ⟨document, -, h⟩ := List.mem_flatMap.1 h
    exact congrArg Prod.fst (place_of_mem_documentIssues h)
  · obtain rfl := List.mem_singleton.1 h
    rfl

/-- The issues of one file are about different documents. -/
theorem nodup_places_fileIssues (authority : String) (fs : FileSystem) (path : String) :
    ((fileIssues authority fs path).map LoadIssue.place).Nodup := by
  unfold fileIssues
  split
  · rename_i content hread
    rw [List.map_flatMap, List.nodup_flatMap]
    refine ⟨fun document _ => ?_, (Documents.pairwise_splitDocuments content).imp ?_⟩
    · unfold documentIssues
      split <;> simp
    · intro a b hab place ha hb
      obtain ⟨issue, hissue, rfl⟩ := List.mem_map.1 ha
      obtain ⟨other, hother, hplace⟩ := List.mem_map.1 hb
      rw [place_of_mem_documentIssues hissue, place_of_mem_documentIssues hother] at hplace
      exact absurd (congrArg Prod.snd hplace) (Nat.ne_of_gt hab)
  · exact List.nodup_singleton _

/-- Issues of different files are at different places, and those of a file read twice are not. -/
theorem disjoint_places_iff {authority : String} {fs : FileSystem} {a b : String} :
    ((fileIssues authority fs a).map LoadIssue.place).Disjoint
        ((fileIssues authority fs b).map LoadIssue.place) ↔
      (a = b → ¬ Faulty authority fs a) := by
  constructor
  · rintro h rfl hfaulty
    rw [← fileIssues_ne_nil_iff] at hfaulty
    obtain ⟨issue, hissue⟩ := List.exists_mem_of_ne_nil _ hfaulty
    exact h (List.mem_map_of_mem hissue) (List.mem_map_of_mem hissue)
  · intro h place ha hb
    obtain ⟨issue, hissue, rfl⟩ := List.mem_map.1 ha
    obtain ⟨other, hother, hplace⟩ := List.mem_map.1 hb
    have hsame : a = b := by
      rw [← source_of_mem_fileIssues hissue, ← source_of_mem_fileIssues hother]
      exact (congrArg Prod.fst hplace).symm
    exact h hsame (fileIssues_ne_nil_iff.1 (List.ne_nil_of_mem hissue))

/-- No member of a kind is equal to a later one exactly if none of the kind stands twice in a
list. -/
theorem pairwise_eq_iff_count_le_one {α : Type} [DecidableEq α] {kind : α → Prop} {xs : List α} :
    (xs.Pairwise fun a b => a = b → ¬ kind a) ↔ ∀ a, kind a → xs.count a ≤ 1 := by
  induction xs with
  | nil => simp
  | cons x xs ih =>
    rw [List.pairwise_cons, ih]
    constructor
    · rintro ⟨hx, hxs⟩ a ha
      rw [List.count_cons]
      split
      · rename_i heq
        obtain rfl := beq_iff_eq.1 heq
        rw [List.count_eq_zero.2 fun hmem => hx x hmem rfl ha]
      · exact hxs a ha
    · intro h
      refine ⟨?_, fun a ha => (List.count_le_count_cons).trans (h a ha)⟩
      rintro _ hmem rfl hx
      have hcount := h x hx
      rw [List.count_cons_self] at hcount
      have hpos := List.count_pos_iff.2 hmem
      omega

theorem nodup_places_iff {authority : String} {fs : FileSystem} {paths : List String} :
    ((paths.flatMap (fileIssues authority fs)).map LoadIssue.place).Nodup ↔
      ∀ path, Faulty authority fs path → paths.count path ≤ 1 := by
  rw [List.map_flatMap, List.nodup_flatMap, ← pairwise_eq_iff_count_le_one]
  exact (and_iff_right fun path _ => nodup_places_fileIssues authority fs path).trans
    (List.Pairwise.iff fun _ _ => disjoint_places_iff)

/-! ## Files with one document -/

theorem documentIssues_of_error {authority source text fault : String} {position : Nat}
    (h : readDocument authority text = .error fault) :
    documentIssues authority source (position, text) = [⟨source, position, fault⟩] := by
  rw [documentIssues, h]

theorem documentIssues_of_ok {authority source text : String} {position : Nat}
    {extracted : Extracted} (h : readDocument authority text = .ok extracted) :
    documentIssues authority source (position, text) = [] := by
  rw [documentIssues, h]

theorem fileIssues_of_document {authority path content document : String} {fs : FileSystem}
    {position : Nat} (hread : fs.read path = .ok content)
    (hsplit : splitDocuments content = [(position, document)]) :
    fileIssues authority fs path = documentIssues authority path (position, document) := by
  rw [fileIssues, hread]
  simp only [hsplit, List.flatMap_singleton]

theorem fileTypes_of_document {authority path content document : String} {fs : FileSystem}
    {position : Nat} {ds : List TypeDescriptor} (hread : fs.read path = .ok content)
    (hsplit : splitDocuments content = [(position, document)])
    (hdocument : readDocument authority document = .ok (.types ds)) :
    fileTypes authority fs path = ds := by
  rw [fileTypes, hread]
  simp only [hsplit, List.flatMap_singleton, documentTypes, hdocument]

end Batch

/-! ## Summaries -/

/-- What a summary tells of the files that were read. -/
structure Accounts (authority : String) (fs : FileSystem) (paths : List String)
    (summary : LoadSummary) : Prop where
  files : summary.files = paths.length
  definitions : summary.definitions = (paths.flatMap (fileDocuments fs)).length
  balance : summary.definitions + paths.countP (Batch.isUnreadable fs) =
    summary.skipped + summary.issues.length +
      (paths.flatMap (fileDocuments fs)).countP (Batch.isTaken authority)
  skipped : summary.skipped =
    (paths.flatMap (fileDocuments fs)).countP (Batch.isSkipped authority)
  issues : summary.issues = paths.flatMap (Batch.fileIssues authority fs)
  /-- The keys come in the order of the files, the documents in them and the versions of these. -/
  loaded : summary.loaded =
    (paths.flatMap (fileDocuments fs)).flatMap (Batch.documentKeys authority)
  taken : ∀ text ∈ paths.flatMap (fileDocuments fs),
    if Batch.isTaken authority text then
      Batch.documentKeys authority text ≠ [] ∧
        TakenIn authority text (Batch.documentKeys authority text)
    else Batch.documentKeys authority text = []

theorem accounts_foldl_addFile (authority : String) (fs : FileSystem) (paths : List String) :
    Accounts authority fs paths (paths.foldl (Batch.addFile authority fs) {}).summary := by
  have hbalance := Batch.balance_files authority fs paths
  rw [Batch.summary_foldl_addFile]
  refine ⟨Nat.zero_add _, Nat.zero_add _, ?_, Nat.zero_add _, List.nil_append _, ?_,
    fun text _ => ?_⟩
  · simp only [Nat.zero_add, List.nil_append]
    omega
  · have htypes : Batch.fileTypes authority fs =
        fun path => (fileDocuments fs path).flatMap (Batch.documentTypes authority) :=
      funext (fileTypes_eq_flatMap authority fs)
    simp only [List.nil_append, htypes, List.map_flatMap, List.flatMap_assoc]
    rfl
  · split
    · rename_i htaken
      exact Batch.takenIn_of_isTaken htaken
    · rename_i htaken
      exact Batch.documentKeys_of_not_isTaken (Bool.eq_false_iff.2 htaken)

/-- The files of a directory are strictly ascending, so none of them is read twice. -/
theorem pairwise_files_directory {fs : FileSystem} {path : String} {paths : List String}
    (h : (Source.directory path).files fs = .ok paths) :
    paths.Pairwise fun a b => comparePaths a b = .lt := by
  obtain ⟨yaml, -, h⟩ := exists_ok_of_bind h
  obtain ⟨yml, -, h⟩ := exists_ok_of_bind h
  simp only at h
  split at h
  · cases h
  · cases h
    exact pairwise_dropRepeats (pairwise_sortPaths _)

theorem exists_covers_of_files {fs : FileSystem} {text : String} {paths : List String}
    (h : (Source.pattern text).files fs = .ok paths) :
    ∃ p, Glob.Pattern.parse text = .ok p ∧ Covers fs p paths := by
  have hpattern := files_pattern fs text
  cases hparse : Glob.Pattern.parse text with
  | error e =>
    rw [hparse] at hpattern
    obtain ⟨e, he⟩ := hpattern
    cases h.symm.trans he
  | ok p =>
    rw [hparse] at hpattern
    obtain ⟨found, hcovers, hfound⟩ := hpattern
    rw [hfound] at h
    split at h
    · cases h
    · cases h
      exact ⟨p, rfl, hcovers⟩

/-- How the files of a source are listed: those of a directory in strictly ascending order, and
those of a pattern as often as its search leads to them. -/
def Source.Lists (fs : FileSystem) (paths : List String) : Source → Prop
  | directory _ => paths.Pairwise fun a b => comparePaths a b = .lt
  | pattern text => ∃ p, Glob.Pattern.parse text = .ok p ∧ Covers fs p paths

theorem Source.lists_of_files {fs : FileSystem} {source : Source} {paths : List String}
    (h : source.files fs = .ok paths) : source.Lists fs paths := by
  cases source with
  | directory path => exact pairwise_files_directory h
  | pattern text => exact exists_covers_of_files h

namespace StaticDirectory

/-- A source with a type is loaded. -/
theorem exists_load_of_files {d : StaticDirectory} {fs : FileSystem} {source : Source}
    {paths : List String} (hfiles : source.files fs = .ok paths)
    (htypes : ∃ path ∈ paths, Batch.fileTypes d.authority fs path ≠ []) :
    ∃ summary d', (load fs source).run.run d = (.ok summary, d') ∧
      summary.issues = paths.flatMap (Batch.fileIssues d.authority fs) := by
  have hread : readSource d.authority fs source = _ := readSource_of_files hfiles
  have hsome : paths.flatMap (Batch.fileTypes d.authority fs) ≠ [] := by
    obtain ⟨path, hpath, hne⟩ := htypes
    exact fun hnil => hne (List.flatMap_eq_nil_iff.1 hnil path hpath)
  rw [if_neg fun h => hsome h.1] at hread
  rw [run_load, hread]
  refine ⟨_, _, rfl, ?_⟩
  rw [Batch.summary_foldl_addFile]
  rfl

/-- **Summaries of loads.** The summary of a load that succeeds counts each document as taken in,
skipped or rejected, and each file that cannot be read as an issue. It lists the keys of the
documents that were taken in, of which each has some; these are the keys whose types the load
replaces or adds. No two issues are about the same document exactly if no file with an issue is read
twice, which only a pattern can make happen. -/
theorem load_accounts {d d' : StaticDirectory} {fs : FileSystem} {source : Source}
    {summary : LoadSummary} (h : (load fs source).run.run d = (.ok summary, d')) :
    ∃ paths, source.files fs = .ok paths ∧ source.Lists fs paths ∧
      Accounts d.authority fs paths summary ∧
      (summary.loaded = (sourceTypes d.authority fs source).map (·.typeKey) ∧
        d.Loads (sourceTypes d.authority fs source) d') ∧
      ((summary.issues.map LoadIssue.place).Nodup ↔
        ∀ path, Batch.Faulty d.authority fs path → paths.count path ≤ 1) := by
  rw [run_load] at h
  cases hread : readSource d.authority fs source with
  | error e =>
    rw [hread] at h
    cases h
  | ok b =>
    rw [hread] at h
    cases h
    obtain ⟨paths, hfiles, rfl⟩ := exists_files_of_readSource hread
    refine ⟨paths, hfiles, Source.lists_of_files hfiles,
      accounts_foldl_addFile d.authority fs paths,
      ⟨loaded_of_readSource hread, loads_of_readSource hread⟩, ?_⟩
    rw [Batch.summary_foldl_addFile]
    exact Batch.nodup_places_iff

/-! ## A pattern that leads to a file twice -/

def rejectedText : String := String.ofList ['x', '\n']

/-- A file that is no definition below two directories, and one that is below the first of them. -/
def repeatedFiles : FileSystem where
  root := .directory [("a", .directory [("b", .directory [("x.yaml", .file (some rejectedText))]),
    ("y.yaml", .file (some sampleText))])]

/-- Of two directories above a file, either can be the one between the double asterisks. -/
def repeatedSource : Source := .pattern "**/*/**/*.yaml"

def repeatedIssue : LoadIssue :=
  ⟨"a/b/x.yaml", 0, "invalid type definition: missing 'kind' field"⟩

theorem files_repeated : repeatedSource.files repeatedFiles =
    .ok ["a/b/x.yaml", "a/b/x.yaml", "a/y.yaml"] := by
  have hfound : ((Glob.Pattern.parse "**/*/**/*.yaml").toOption.map fun p =>
      (p.search repeatedFiles).filter fun path =>
        repeatedFiles.isFile path && isYamlFile path) =
      some ["a/b/x.yaml", "a/b/x.yaml", "a/y.yaml"] := by
    decide +kernel
  have hsorted : sortPaths ["a/b/x.yaml", "a/b/x.yaml", "a/y.yaml"] =
      ["a/b/x.yaml", "a/b/x.yaml", "a/y.yaml"] :=
    List.mergeSort_of_pairwise (by decide +kernel)
  obtain ⟨p, hparse, hsearch⟩ := Option.map_eq_some_iff.1 hfound
  rw [repeatedSource, Source.files, yamlFiles, eq_ok_of_toOption hparse]
  simp only [hsearch, hsorted]
  rfl

theorem read_repeated : repeatedFiles.read "a/b/x.yaml" = .ok rejectedText ∧
    repeatedFiles.read "a/y.yaml" = .ok sampleText := by
  -- As in `read_single`, the contents are kept out of the evaluation.
  have h : ∀ x y, let fs : FileSystem :=
      { root := .directory [("a", .directory [("b", .directory [("x.yaml", .file (some x))]),
        ("y.yaml", .file (some y))])] }
      fs.read "a/b/x.yaml" = .ok x ∧ fs.read "a/y.yaml" = .ok y := fun _ _ => ⟨rfl, rfl⟩
  exact h rejectedText sampleText

theorem splitDocuments_rejected : splitDocuments rejectedText = [(0, rejectedText)] :=
  splitDocuments_of_lines (by decide +kernel) (by decide +kernel) (by decide +kernel)

theorem readDocument_rejected :
    Batch.readDocument "g" rejectedText = .error repeatedIssue.fault := by
  rw [rejectedText, Batch.readDocument, Yaml.parse?, Yaml.Document.ofText?, Yaml.Token.ofText?,
    String.toList_ofList]
  decide +kernel

/-- The file that is no definition is read twice, and this is noted twice. -/
theorem load_repeated : ∃ summary d',
    (load repeatedFiles repeatedSource).run.run { authority := "g" } = (.ok summary, d') ∧
      summary.issues = [repeatedIssue, repeatedIssue] := by
  have hrejected : Batch.fileIssues "g" repeatedFiles "a/b/x.yaml" = [repeatedIssue] := by
    rw [Batch.fileIssues_of_document read_repeated.1 splitDocuments_rejected,
      Batch.documentIssues_of_error readDocument_rejected]
    rfl
  have haccepted : Batch.fileIssues "g" repeatedFiles "a/y.yaml" = [] := by
    rw [Batch.fileIssues_of_document read_repeated.2 splitDocuments_sample,
      Batch.documentIssues_of_ok readDocument_sample]
  have htypes : Batch.fileTypes "g" repeatedFiles "a/y.yaml" ≠ [] := by
    rw [Batch.fileTypes_of_document read_repeated.2 splitDocuments_sample readDocument_sample]
    exact List.cons_ne_nil _ _
  obtain ⟨summary, d', hload, hissues⟩ :=
    exists_load_of_files (d := { authority := "g" }) files_repeated ⟨_, by simp, htypes⟩
  refine ⟨summary, d', hload, hissues.trans ?_⟩
  simp only [List.flatMap_cons, List.flatMap_nil, hrejected, haccepted, List.singleton_append]
  rfl

theorem load_accounts_repeated : ∃ summary d',
    (load repeatedFiles repeatedSource).run.run { authority := "g" } = (.ok summary, d') ∧
      ∃ paths, repeatedSource.files repeatedFiles = .ok paths ∧
        repeatedSource.Lists repeatedFiles paths ∧ Accounts "g" repeatedFiles paths summary ∧
        (summary.loaded = (sourceTypes "g" repeatedFiles repeatedSource).map (·.typeKey) ∧
          ({ authority := "g" } : StaticDirectory).Loads
            (sourceTypes "g" repeatedFiles repeatedSource) d') ∧
        ((summary.issues.map LoadIssue.place).Nodup ↔
          ∀ path, Batch.Faulty "g" repeatedFiles path → paths.count path ≤ 1) := by
  obtain ⟨summary, d', hload, -⟩ := load_repeated
  exact ⟨summary, d', hload, load_accounts hload⟩

/-- Two issues can be about the same document. -/
theorem not_forall_nodup_places :
    ¬ ∀ (d d' : StaticDirectory) (fs : FileSystem) (source : Source) (summary : LoadSummary),
      (load fs source).run.run d = (.ok summary, d') →
        (summary.issues.map LoadIssue.place).Nodup := by
  intro h
  obtain ⟨summary, d', hload, hissues⟩ := load_repeated
  have hnodup := h _ _ _ _ _ hload
  rw [hissues] at hnodup
  revert hnodup
  decide +kernel

end StaticDirectory

end ResourceNames
