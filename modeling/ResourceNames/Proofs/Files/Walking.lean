import Mathlib.Data.List.Induction
import ResourceNames.Files.FileSystem
import ResourceNames.Proofs.Files.PathParts

/-!
# Walks through a tree

A path is a walk from the root or from the working directory, part by part. It leads to a row of
names from the root on (`FileSystem.locate?`), and paths with the same components that lead to
something lead to the same row (`locate?_eq_target`).

* `Node.isProper`: the names in a tree can be names of files. Every file system that is made by
  writing, making directories and removing has such a tree (`Made.isProper`).
* `locate?_joinPath`: a joined path leads where its second path leads from the end of the first.
* `fileName?_of_locate?`: the path of a file ends with the name of the file.
-/

namespace ResourceNames.Files

namespace Node

/-! ## Proper trees -/

mutual

/-- Whether all names in a tree can be names of files, each directory's in ascending order. -/
def isProper : Node → Bool
  | file _ => true
  | directory entries => areProper entries

def areProper : List (String × Node) → Bool
  | [] => true
  | (name, n) :: rest =>
    isName name && rest.all (fun e => name < e.1) && n.isProper && areProper rest

end

theorem areProper_iff {entries : List (String × Node)} :
    areProper entries = true ↔
      Entries.Ascending entries ∧ ∀ e ∈ entries, isName e.1 = true ∧ e.2.isProper = true := by
  induction entries with
  | nil => simp [areProper, Entries.Ascending]
  | cons e rest ih =>
    obtain ⟨name, n⟩ := e
    unfold areProper
    rw [Bool.and_eq_true, Bool.and_eq_true, Bool.and_eq_true, ih, List.forall_mem_cons]
    unfold Entries.Ascending
    rw [List.pairwise_cons, List.all_eq_true]
    simp only [decide_eq_true_eq]
    constructor
    · rintro ⟨⟨⟨hname, hlt⟩, hn⟩, hrest, hall⟩
      exact ⟨⟨hlt, hrest⟩, ⟨hname, hn⟩, hall⟩
    · rintro ⟨⟨hlt, hrest⟩, ⟨hname, hn⟩, hall⟩
      exact ⟨⟨⟨hname, hlt⟩, hn⟩, hrest, hall⟩

theorem isProper_directory_iff {entries : List (String × Node)} :
    (directory entries).isProper = true ↔
      Entries.Ascending entries ∧ ∀ e ∈ entries, isName e.1 = true ∧ e.2.isProper = true := by
  rw [isProper, areProper_iff]

theorem at?_append (n : Node) (xs ys : List String) :
    n.at? (xs ++ ys) = (n.at? xs).bind (·.at? ys) := by
  induction xs generalizing n with
  | nil => simp [at?]
  | cons x xs ih =>
    cases n with
    | file content => rfl
    | directory entries =>
      rw [List.cons_append, at?, at?]
      cases Entries.find? x entries with
      | none => rfl
      | some below => exact ih below

theorem at?_concat_of_directory {root : Node} {here : List String} {entries : List (String × Node)}
    (h : root.at? here = some (.directory entries)) (name : String) :
    root.at? (here ++ [name]) = Entries.find? name entries := by
  rw [at?_append, h]
  cases hfind : Entries.find? name entries <;> simp [at?, hfind]

/-- What has a name stands in a directory. -/
theorem exists_directory_of_at?_concat {root n : Node} {here : List String} {name : String}
    (h : root.at? (here ++ [name]) = some n) :
    ∃ entries, root.at? here = some (.directory entries) ∧ Entries.find? name entries = some n := by
  rw [at?_append] at h
  cases hhere : root.at? here with
  | none => simp [hhere] at h
  | some found =>
    cases found with
    | file content => simp [hhere, at?] at h
    | directory entries =>
      rw [← at?_append, at?_concat_of_directory hhere] at h
      exact ⟨entries, rfl, h⟩

theorem isProper_at? {root n : Node} (hroot : root.isProper = true) {names : List String}
    (h : root.at? names = some n) : n.isProper = true := by
  induction names generalizing root with
  | nil =>
    rw [at?, Option.some.injEq] at h
    exact h ▸ hroot
  | cons name names ih =>
    cases root with
    | file content => cases h
    | directory entries =>
      obtain ⟨below, hbelow, hn⟩ := Option.bind_eq_some_iff.1 h
      exact ih ((isProper_directory_iff.1 hroot).2 _ (Entries.mem_of_find?_eq_some hbelow)).2 hn

/-- Whether there is a directory under a row of names. -/
def isDirectoryAt (root : Node) (names : List String) : Bool :=
  (root.at? names).any (·.isDirectory)

theorem isDirectoryAt_iff {root : Node} {names : List String} :
    root.isDirectoryAt names = true ↔ ∃ entries, root.at? names = some (.directory entries) := by
  unfold isDirectoryAt
  cases root.at? names with
  | none => simp
  | some n => cases n <;> simp [isDirectory]

theorem isDirectoryAt_dropLast {root : Node} {names : List String}
    (h : root.isDirectoryAt names = true) : root.isDirectoryAt names.dropLast = true := by
  cases names using List.reverseRecOn with
  | nil => exact h
  | append_singleton names name =>
    obtain ⟨entries, hat⟩ := isDirectoryAt_iff.1 h
    obtain ⟨above, habove, -⟩ := exists_directory_of_at?_concat hat
    rw [List.dropLast_concat]
    exact isDirectoryAt_iff.2 ⟨above, habove⟩

/-! ## Changes of a tree -/

theorem isProper_put {n new : Node} {names : List String} (hn : n.isProper = true)
    (hnew : new.isProper = true) (hnames : ∀ name ∈ names, isName name = true) :
    (n.put names new).isProper = true := by
  induction names generalizing n with
  | nil => exact hnew
  | cons name names ih =>
    obtain ⟨hname, hrest⟩ := List.forall_mem_cons.1 hnames
    -- A file on the way is replaced by a directory.
    have hput : ∀ entries : List (String × Node), (directory entries).isProper = true →
        (directory (Entries.insert name
          (((Entries.find? name entries).getD (directory [])).put names new)
          entries)).isProper := by
      intro entries hentries
      obtain ⟨hascending, hall⟩ := isProper_directory_iff.1 hentries
      refine isProper_directory_iff.2 ⟨Entries.ascending_insert hascending _ _, fun e he => ?_⟩
      obtain rfl | he := Entries.mem_insert he
      · refine ⟨hname, ih ?_ hrest⟩
        cases hfind : Entries.find? name entries with
        | none => rfl
        | some below => exact (hall _ (Entries.mem_of_find?_eq_some hfind)).2
      · exact hall e he
    cases n with
    | file content => exact hput [] rfl
    | directory entries => exact hput entries hn

theorem isProper_remove {n : Node} {names : List String} (hn : n.isProper = true) :
    (n.remove names).isProper = true := by
  fun_induction n.remove names with
  | case1 name entries =>
    obtain ⟨hascending, hall⟩ := isProper_directory_iff.1 hn
    exact isProper_directory_iff.2
      ⟨Entries.ascending_erase hascending name, fun e he => hall e (List.mem_filter.1 he).1⟩
  | case2 name names entries hne below hfind ih =>
    obtain ⟨hascending, hall⟩ := isProper_directory_iff.1 hn
    obtain ⟨hname, hbelow⟩ := hall _ (Entries.mem_of_find?_eq_some hfind)
    refine isProper_directory_iff.2 ⟨Entries.ascending_insert hascending _ _, fun e he => ?_⟩
    obtain rfl | he := Entries.mem_insert he
    · exact ⟨hname, ih hbelow⟩
    · exact hall e he
  | case3 => exact hn
  | case4 => exact hn

end Node

namespace FileSystem

/-! ## Walks -/

/-- The names that one part leads to from a directory. -/
def enter (names : List String) (part : String) : List String :=
  if part = "" ∨ part = "." then names else if part = ".." then names.dropLast else names ++ [part]

theorem enter_of_isName {part : String} (h : isName part = true) (names : List String) :
    enter names part = names ++ [part] := by
  obtain ⟨hne, hdot, hdots, -⟩ := isName_iff.1 h
  simp [enter, hne, hdot, hdots]

/-- The names that a row of path parts leads to from `names`, if it leads anywhere. -/
def walk? (root : Node) (names parts : List String) : Option (List String) :=
  (walk root names parts).toOption

@[simp] theorem walk?_nil (root : Node) (names : List String) : walk? root names [] = some names :=
  rfl

theorem walk?_cons (root : Node) (names parts : List String) (part : String) :
    walk? root names (part :: parts) =
      if root.isDirectoryAt names then walk? root (enter names part) parts else none := by
  unfold walk? Node.isDirectoryAt
  rw [walk]
  cases root.at? names with
  | none => rfl
  | some n =>
    cases n with
    | file content => rfl
    | directory entries =>
      unfold enter
      simp only [Node.isDirectory, Option.any_some, if_true]
      split
      · rfl
      · split <;> rfl

theorem walk?_append (root : Node) (names xs ys : List String) :
    walk? root names (xs ++ ys) = (walk? root names xs).bind (walk? root · ys) := by
  induction xs generalizing names with
  | nil => rfl
  | cons x xs ih =>
    rw [List.cons_append, walk?_cons, walk?_cons, ih]
    split <;> rfl

theorem walk?_singleton (root : Node) (names : List String) (part : String) :
    walk? root names [part] =
      if root.isDirectoryAt names then some (enter names part) else none := by
  rw [walk?_cons, walk?_nil]

/-- An empty part before others changes nothing. -/
theorem walk?_idle_bind {root : Node} {names parts idle : List String}
    (hidle : idle = [] ∨ idle = [""]) (hparts : parts ≠ []) :
    (walk? root names idle).bind (walk? root · parts) = walk? root names parts := by
  obtain ⟨part, rest, rfl⟩ := List.exists_cons_of_ne_nil hparts
  obtain rfl | rfl := hidle
  · rfl
  · rw [walk?_singleton, walk?_cons]
    split
    · rename_i hdir
      have hstay : enter names "" = names := rfl
      rw [Option.bind_some, hstay, walk?_cons, if_pos hdir]
    · rfl

/-- The directory from which a path starts. -/
def startOf (fs : FileSystem) (path : String) : List String :=
  if isAbsolute path then [] else fs.workingDirectory

/-- The names from the root on that a path leads to. The empty path leads to the working
directory. -/
def locate? (fs : FileSystem) (path : String) : Option (List String) :=
  walk? fs.root (fs.startOf path) (segments path)

/-- What a path leads to is what stands under its names. The empty path leads nowhere here. -/
theorem find?_eq {path : String} (fs : FileSystem) (h : path ≠ "") :
    fs.find? path = (fs.locate? path).bind fs.root.at? := by
  unfold find? resolve locate? walk? startOf
  simp only [h, if_false, bind, Except.bind]
  cases walk fs.root (if isAbsolute path then [] else fs.workingDirectory) (segments path) with
  | error e => rfl
  | ok names =>
    simp only [Except.toOption, Option.bind_some]
    cases fs.root.at? names <;> rfl

theorem find?_empty (fs : FileSystem) : fs.find? "" = none := rfl

/-! ## Places -/

/-- A path text that leads to a row of names. -/
structure Place (fs : FileSystem) (path : String) (names : List String) : Prop where
  ne_empty : path ≠ ""
  locate : fs.locate? path = some names

namespace Place

variable {fs : FileSystem} {place : String} {here : List String}

theorem find?_eq (h : fs.Place place here) : fs.find? place = fs.root.at? here := by
  rw [FileSystem.find?_eq fs h.ne_empty, h.locate, Option.bind_some]

theorem isDirectory_eq (h : fs.Place place here) :
    fs.isDirectory place = fs.root.isDirectoryAt here := by
  rw [FileSystem.isDirectory, h.find?_eq, Node.isDirectoryAt]

end Place

/-- A joined path leads where its second path leads from the end of the first. -/
theorem locate?_joinPath (fs : FileSystem) {place path : String} (hplace : place ≠ "")
    (hpath : isAbsolute path = false) :
    fs.locate? (joinPath place path) =
      (fs.locate? place).bind (walk? fs.root · (segments path)) := by
  obtain ⟨before, idle, -, hidle, hplaceSegments, hsegments⟩ := segments_joinPath hplace hpath
  have hstart : fs.startOf (joinPath place path) = fs.startOf place := by
    rw [startOf, startOf, isAbsolute_joinPath hplace hpath]
  unfold locate?
  rw [hsegments, hplaceSegments, hstart, walk?_append, walk?_append, Option.bind_assoc]
  refine Option.bind_congr fun names _ => ?_
  exact (walk?_idle_bind hidle (segments_ne_nil path)).symm

/-! ## Targets -/

/-- The names that a component leads to. -/
def advance (names : List String) : Component → List String
  | .root => []
  | .current => names
  | .parent => names.dropLast
  | .name s => names ++ [s]

theorem target_eq (fs : FileSystem) (path : String) :
    fs.target path = (components path).foldl advance fs.workingDirectory := by
  unfold target
  congr 1

/-- The component of a part leads where the part does. -/
theorem foldl_advance_innerComponent? (names : List String) (part : String) :
    (innerComponent? part).toList.foldl advance names = enter names part := by
  unfold innerComponent? enter
  split
  · rfl
  · split <;> rfl

theorem foldl_advance_cons (names parts : List String) (part : String) :
    ((part :: parts).filterMap innerComponent?).foldl advance names =
      (parts.filterMap innerComponent?).foldl advance (enter names part) := by
  rw [List.filterMap_cons, ← foldl_advance_innerComponent?]
  cases innerComponent? part <;> rfl

theorem walk?_eq_foldl {root : Node} {names parts row : List String}
    (h : walk? root names parts = some row) :
    row = (parts.filterMap innerComponent?).foldl advance names := by
  induction parts generalizing names with
  | nil => exact (Option.some.inj h).symm
  | cons part parts ih =>
    rw [walk?_cons] at h
    split at h
    · rw [ih h, foldl_advance_cons]
    · cases h

/-- A path leads to nothing but what its components stand for. -/
theorem locate?_eq_target {fs : FileSystem} {path : String} {row : List String}
    (h : fs.locate? path = some row) : row = fs.target path := by
  obtain ⟨first, rest, hsegments⟩ := List.exists_cons_of_ne_nil (segments_ne_nil path)
  unfold locate? startOf at h
  rw [walk?_eq_foldl h, hsegments, target_eq, components_of_segments hsegments, List.foldl_append,
    foldl_advance_cons]
  congr 1
  unfold firstComponents
  cases habs : isAbsolute path with
  | true =>
    -- The first part of an absolute path is empty.
    obtain ⟨rest', -, hrest'⟩ := segments_of_isAbsolute habs
    obtain rfl : first = "" := (List.cons.inj (hsegments.symm.trans hrest')).1
    rfl
  | false =>
    simp only [Bool.false_eq_true, if_false]
    split
    · rename_i hdot
      rw [hdot]
      rfl
    · exact (foldl_advance_innerComponent? _ _).symm

/-- Paths that are the same lead to the same names if they lead anywhere. -/
theorem locate?_eq_of_samePath {fs : FileSystem} {a b : String} {row row' : List String}
    (h : samePath a b = true) (ha : fs.locate? a = some row) (hb : fs.locate? b = some row') :
    row = row' := by
  have hcomponents : components a = components b := by simpa [samePath] using h
  rw [locate?_eq_target ha, locate?_eq_target hb, target_eq, target_eq, hcomponents]

/-- A path whose only component is the working directory leads there. -/
theorem locate?_of_current {fs : FileSystem} {place : String} {here : List String}
    (hcurrent : components place = [.current]) (h : fs.locate? place = some here) :
    here = fs.workingDirectory := by
  rw [locate?_eq_target h, target_eq, hcurrent]
  rfl

/-! ## Other working directories -/

/-- The same files with another working directory. -/
def seenFrom (fs : FileSystem) (here : List String) : FileSystem :=
  { fs with workingDirectory := here }

section

variable {fs : FileSystem} {base : String} {here : List String}

/-- The empty path leads to the working directory. -/
theorem seenFrom_of_empty (h : fs.locate? "" = some here) : fs.seenFrom here = fs := by
  have hcomponents : components "" = [] := by decide +kernel
  have hhere : here = fs.workingDirectory := by
    rw [locate?_eq_target h, target_eq, hcomponents]
    rfl
  rw [hhere]
  rfl

/-- Behind the path of a directory, a path leads where it leads in this directory. -/
theorem locate?_joinPath_eq_seenFrom (hbase : fs.locate? base = some here) (path : String) :
    fs.locate? (joinPath base path) = (fs.seenFrom here).locate? path := by
  by_cases hempty : base = ""
  · subst hempty
    rw [joinPath_empty, seenFrom_of_empty hbase]
  · cases habs : isAbsolute path with
    | true => simp [joinPath, locate?, startOf, seenFrom, habs]
    | false =>
      rw [locate?_joinPath fs hempty habs, hbase]
      simp [locate?, startOf, seenFrom, habs]

/-- A slash at the end of a path changes nothing. -/
theorem walk?_segments_of_locate? {before : String} (hbefore : base = before ∨ base = before ++ "/")
    (h : fs.locate? base = some here) :
    walk? fs.root (fs.startOf base) (segments before) = some here := by
  obtain rfl | rfl := hbefore
  · exact h
  · unfold locate? at h
    rw [segments_append_empty, walk?_append] at h
    obtain ⟨names, hnames, hstay⟩ := Option.bind_eq_some_iff.1 h
    rw [walk?_singleton] at hstay
    split at hstay
    · exact hnames.trans hstay
    · cases hstay

end

/-! ## Files -/

/-- The last part of the path of a file is the name of the file. -/
theorem exists_name_of_locate? {fs : FileSystem} {path : String} {row : List String}
    {content : Option String} (h : fs.locate? path = some row)
    (hfile : fs.root.at? row = some (.file content)) :
    ∃ parts name here, segments path = parts ++ [name] ∧ isName name = true ∧
      row = here ++ [name] ∧ walk? fs.root (fs.startOf path) parts = some here := by
  obtain ⟨parts, name, hsegments⟩ :=
    (List.eq_nil_or_concat (segments path)).resolve_left (segments_ne_nil path)
  rw [List.concat_eq_append] at hsegments
  unfold locate? at h
  rw [hsegments, walk?_append, Option.bind_eq_some_iff] at h
  obtain ⟨here, hhere, hrow⟩ := h
  rw [walk?_singleton] at hrow
  split at hrow
  · rename_i hdir
    obtain rfl := Option.some.inj hrow
    -- Every other part leads to a directory.
    have hnot : ∀ names, fs.root.isDirectoryAt names = true → enter here name ≠ names := by
      rintro names hnames rfl
      simp [Node.isDirectoryAt, hfile, Node.isDirectory] at hnames
    have hmem : name ∈ segments path := by simp [hsegments]
    have hname : isName name = true := by
      refine isName_iff.2 ⟨?_, ?_, ?_, not_mem_of_mem_segments hmem⟩
      · rintro rfl
        exact hnot here hdir rfl
      · rintro rfl
        exact hnot here hdir rfl
      · rintro rfl
        exact hnot here.dropLast (Node.isDirectoryAt_dropLast hdir) rfl
    exact ⟨parts, name, here, hsegments, hname, enter_of_isName hname here, hhere⟩
  · cases hrow

/-- The path of a file ends with the name of the file. -/
theorem fileName?_of_locate? {fs : FileSystem} {path : String} {row : List String}
    {content : Option String} (h : fs.locate? path = some row)
    (hfile : fs.root.at? row = some (.file content)) : fileName? path = row.getLast? := by
  obtain ⟨parts, name, here, hsegments, hname, rfl, -⟩ := exists_name_of_locate? h hfile
  rw [fileName?_of_segments hsegments hname, List.getLast?_concat]

/-! ## Changes of a file system -/

theorem isName_of_mem_target {fs : FileSystem}
    (h : ∀ name ∈ fs.workingDirectory, isName name = true) (path : String) :
    ∀ name ∈ fs.target path, isName name = true := by
  rw [target_eq]
  refine List.foldlRecOn (motive := fun names => ∀ name ∈ names, isName name = true) _ _ h
    fun names hnames c hc => ?_
  cases c with
  | root => simp [advance]
  | current => exact hnames
  | parent => exact fun name hname => hnames name (List.dropLast_subset names hname)
  | name s =>
    intro name hname
    obtain hname | hname := List.mem_append.1 hname
    · exact hnames name hname
    · rw [List.mem_singleton.1 hname]
      exact isName_of_mem_components hc

theorem isProper_write {fs : FileSystem} (hroot : fs.root.isProper = true)
    (h : ∀ name ∈ fs.workingDirectory, isName name = true) (path : String)
    (content : Option String) : (fs.write path content).root.isProper = true :=
  Node.isProper_put hroot rfl (isName_of_mem_target h path)

theorem isProper_makeDirectory {fs : FileSystem} (hroot : fs.root.isProper = true)
    (h : ∀ name ∈ fs.workingDirectory, isName name = true) (path : String) :
    (fs.makeDirectory path).root.isProper = true := by
  unfold makeDirectory
  split
  · exact hroot
  · exact Node.isProper_put hroot rfl (isName_of_mem_target h path)

theorem isProper_remove {fs : FileSystem} (hroot : fs.root.isProper = true) (path : String) :
    (fs.remove path).root.isProper = true :=
  Node.isProper_remove hroot

/-- A file system that is made from an empty one, change by change. -/
inductive Made : FileSystem → Prop where
  | empty {names : List String} : (∀ name ∈ names, isName name = true) →
    Made { workingDirectory := names }
  | write {fs : FileSystem} (path : String) (content : Option String) :
    Made fs → Made (fs.write path content)
  | makeDirectory {fs : FileSystem} (path : String) : Made fs → Made (fs.makeDirectory path)
  | remove {fs : FileSystem} (path : String) : Made fs → Made (fs.remove path)

/-- The changes keep the tree proper, and no change leaves the working directory. -/
theorem Made.isProper {fs : FileSystem} (h : fs.Made) :
    fs.root.isProper = true ∧ ∀ name ∈ fs.workingDirectory, isName name = true := by
  induction h with
  | empty hnames => exact ⟨rfl, hnames⟩
  | write path content _ ih =>
    exact ⟨isProper_write ih.1 ih.2 path content, ih.2⟩
  | makeDirectory path _ ih =>
    refine ⟨isProper_makeDirectory ih.1 ih.2 path, ?_⟩
    unfold FileSystem.makeDirectory
    split <;> exact ih.2
  | remove path _ ih => exact ⟨isProper_remove ih.1 path, ih.2⟩

end FileSystem

end ResourceNames.Files
