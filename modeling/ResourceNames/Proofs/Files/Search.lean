import Mathlib.Data.List.Forall2
import ResourceNames.Proofs.Files.Reaching

/-!
# Searches as walks through the tree

A search goes from path text to path text. What it finds does not depend on these texts: in a
proper tree it finds a path for each row of names that the parts reach (`reach`), in this order.

There is one exception. Under the working directory, whose entries are found without a place in
front of them, an empty part leads to the empty path, that is nowhere (`stalls`).

* `forall₂_searchFrom`: a search that does not stall finds paths to the rows that are reached.
* `searchFrom_eq_nil_of_leadsNowhere`: names that come to an empty part by dots alone lead to
  nothing.
-/

namespace ResourceNames.Files.Glob

open FileSystem

/-- Whether the parts come to an empty part by nothing but parts that stand for the working
directory. -/
def stalls : List Part → Bool
  | [] => false
  | part :: parts =>
    part = [] || (part.head? = some (.char '.') && matchesName part ['.'] && stalls parts)

theorem stalls_cons_eq_false_iff {part : Part} {parts : List Part} :
    stalls (part :: parts) = false ↔
      part ≠ [] ∧ (part.head? = some (.char '.') → matchesName part ['.'] = true →
        stalls parts = false) := by
  rw [stalls]
  simp

/-! ## Paths of entries -/

variable {fs : FileSystem} {place : String} {here : List String}

theorem locate?_childPath (h : fs.Place place here) {name : String}
    (hname : '/' ∉ name.toList) :
    fs.locate? (childPath place name) = walk? fs.root here [name] := by
  have habs := isAbsolute_of_not_mem hname
  unfold childPath
  split
  · rename_i hcurrent
    rw [locate?, segments_of_not_mem hname, startOf, habs, locate?_of_current hcurrent h.locate]
    rfl
  · rw [locate?_joinPath fs h.ne_empty habs, h.locate, segments_of_not_mem hname]
    rfl

theorem place_joinPath (h : fs.Place place here) (hdir : fs.root.isDirectoryAt here = true)
    {name : String} (hname : '/' ∉ name.toList) :
    fs.Place (joinPath place name) (enter here name) where
  ne_empty := joinPath_ne_empty h.ne_empty name
  locate := by
    rw [locate?_joinPath fs h.ne_empty (isAbsolute_of_not_mem hname), h.locate,
      segments_of_not_mem hname, Option.bind_some, walk?_singleton, if_pos hdir]

theorem components_joinPath_of_not_mem (h : place ≠ "") {name : String}
    (hname : '/' ∉ name.toList) :
    components (joinPath place name) = components place ++ (innerComponent? name).toList := by
  rw [components_joinPath h (isAbsolute_of_not_mem hname), segments_of_not_mem hname]
  cases hc : innerComponent? name <;> simp [hc]

/-- Only a dot leads from the working directory to itself. -/
theorem current_of_childPath (h : place ≠ "") {name : String} (hname : '/' ∉ name.toList)
    (hcurrent : components (childPath place name) = [.current]) :
    components place = [.current] ∧ name = "." := by
  unfold childPath at hcurrent
  split at hcurrent
  · rename_i hplace
    refine ⟨hplace, ?_⟩
    rw [components_of_segments (segments_of_not_mem hname), isAbsolute_of_not_mem hname] at hcurrent
    unfold firstComponents at hcurrent
    by_contra hdot
    simp only [Bool.false_eq_true, if_false, if_neg hdot, List.filterMap_nil,
      List.append_nil] at hcurrent
    have hsome : innerComponent? name = some .current := by
      cases hc : innerComponent? name with
      | none => simp [hc] at hcurrent
      | some c => simpa [hc] using hcurrent
    exact innerComponent?_ne_current name hsome
  · rename_i hplace
    rw [components_joinPath_of_not_mem h hname, List.append_eq_singleton_iff] at hcurrent
    obtain ⟨-, hsome⟩ | ⟨hcomponents, -⟩ := hcurrent
    · cases hc : innerComponent? name with
      | none => simp [hc] at hsome
      | some c =>
        refine absurd hc ?_
        obtain rfl : c = .current := by simpa [hc] using hsome
        exact innerComponent?_ne_current name
    · exact absurd hcomponents hplace

/-- What is known of an entry that stands for a row of names. -/
structure StandsFor (fs : FileSystem) (e : Entry) (row : List String) : Prop where
  place : fs.Place e.path row
  name : row.getLast? = some e.name
  not_current : components e.path ≠ [.current]

theorem standsFor_child (h : fs.Place place here) (hdir : fs.root.isDirectoryAt here = true)
    {name : String} (hname : isName name = true) :
    StandsFor fs ⟨childPath place name, name⟩ (here ++ [name]) := by
  obtain ⟨hne, hdot, -, hslash⟩ := isName_iff.1 hname
  refine ⟨⟨?_, ?_⟩, List.getLast?_concat, fun hcurrent => ?_⟩
  · unfold childPath
    split
    · exact hne
    · exact joinPath_ne_empty h.ne_empty name
  · rw [locate?_childPath h hslash, walk?_singleton, if_pos hdir, enter_of_isName hname]
  · exact hdot (current_of_childPath h.ne_empty hslash hcurrent).2

theorem forall₂_entriesIn (h : fs.Place place here) (hroot : fs.root.isProper = true) :
    List.Forall₂ (StandsFor fs) (entriesIn fs place) (fs.root.rowsIn here) := by
  unfold entriesIn FileSystem.list Node.rowsIn
  rw [h.find?_eq]
  cases hat : fs.root.at? here with
  | none => exact .nil
  | some n =>
    cases n with
    | file content => exact .nil
    | directory entries =>
      obtain ⟨-, hall⟩ := Node.isProper_directory_iff.1 (Node.isProper_at? hroot hat)
      have hdir := Node.isDirectoryAt_iff.2 ⟨entries, hat⟩
      simp only [List.map_map, List.forall₂_map_left_iff, List.forall₂_map_right_iff]
      exact List.forall₂_same.2 fun e he => standsFor_child h hdir (hall e he).1

mutual

theorem forall₂_nodeEntries {n : Node} {place : String} {here : List String}
    (h : fs.Place place here) (hat : fs.root.at? here = some n) (hn : n.isProper = true) :
    List.Forall₂ (StandsFor fs) (nodeEntries place n) (n.rows.map (here ++ ·)) := by
  cases n with
  | file content => exact .nil
  | directory entries =>
    rw [nodeEntries, Node.rows]
    have hascending := (Node.isProper_directory_iff.1 hn).1
    exact forall₂_allEntries h hat (fun e he => Entries.find?_eq_some_of_mem hascending he)
      (Node.isProper_directory_iff.1 hn).2

theorem forall₂_allEntries {all entries : List (String × Node)} {place : String}
    {here : List String} (h : fs.Place place here)
    (hat : fs.root.at? here = some (.directory all))
    (hfind : ∀ e ∈ entries, Entries.find? e.1 all = some e.2)
    (hproper : ∀ e ∈ entries, isName e.1 = true ∧ e.2.isProper = true) :
    List.Forall₂ (StandsFor fs) (allEntries place entries)
      ((Node.rowsOf entries).map (here ++ ·)) := by
  cases entries with
  | nil => exact .nil
  | cons e rest =>
    obtain ⟨name, n⟩ := e
    obtain ⟨⟨hname, hn⟩, hrest⟩ := List.forall_mem_cons.1 hproper
    obtain ⟨hfindName, hfindRest⟩ := List.forall_mem_cons.1 hfind
    have hchild := standsFor_child h (Node.isDirectoryAt_iff.2 ⟨all, hat⟩) hname
    have hbelow := forall₂_nodeEntries hchild.place
      ((Node.at?_concat_of_directory hat name).trans hfindName) hn
    have hafter := forall₂_allEntries h hat hfindRest hrest
    rw [allEntries, Node.rowsOf, List.map_append, List.map_map, List.map_cons]
    refine List.rel_append ?_ (.cons hchild hafter)
    simpa [Function.comp_def] using hbelow

end

theorem forall₂_entriesBelow (h : fs.Place place here) (hroot : fs.root.isProper = true) :
    List.Forall₂ (StandsFor fs) (entriesBelow fs place) (fs.root.rowsBelow here) := by
  unfold entriesBelow Node.rowsBelow
  rw [h.find?_eq]
  cases hat : fs.root.at? here with
  | none => exact .nil
  | some n => exact forall₂_nodeEntries h hat (Node.isProper_at? hroot hat)

/-! ## The search -/

theorem forall₂_flatMap_self {α β γ : Type} {r : β → γ → Prop} {f : α → List β} {g : α → List γ}
    {xs : List α} (h : ∀ x ∈ xs, List.Forall₂ r (f x) (g x)) :
    List.Forall₂ r (xs.flatMap f) (xs.flatMap g) := by
  induction xs with
  | nil => exact .nil
  | cons x xs ih =>
    rw [List.flatMap_cons, List.flatMap_cons]
    exact List.rel_append (h x List.mem_cons_self) (ih fun y hy => h y (List.mem_cons_of_mem x hy))

/-- Tests that agree on what is related leave related members. -/
theorem forall₂_filter {α β : Type} {r : α → β → Prop} {p : α → Bool} {q : β → Bool}
    (hpq : ∀ a b, r a b → p a = q b) {xs : List α} {ys : List β} (h : List.Forall₂ r xs ys) :
    List.Forall₂ r (xs.filter p) (ys.filter q) :=
  List.rel_filter (fun a b hab => iff_of_eq (congrArg (· = true) (hpq a b hab))) h

/-- What is found by the names of entries, if the rest of the search goes on alike. -/
theorem forall₂_byName {entries : List Entry} {rows : List (List String)}
    {search : String → List String} {reach : List String → List (List String)} (part : Part)
    (h : List.Forall₂ (StandsFor fs) entries rows)
    (hrest : ∀ {e : Entry} {row : List String}, StandsFor fs e row →
      List.Forall₂ fs.Place (search e.path) (reach row)) :
    List.Forall₂ fs.Place
      (entries.flatMap fun e => if matchesName part e.name.toList then search e.path else [])
      (rows.flatMap fun row =>
        if matchesName part (row.getLast?.getD "").toList then reach row else []) := by
  refine List.rel_flatMap h fun e row he => ?_
  rw [he.name, Option.getD_some]
  split
  · exact hrest he
  · exact .nil

/-- A part without wildcards: the search finds out by the path whether there is anything. -/
theorem condition_eq_isSome_reached? (h : fs.Place place here) {name : List Char}
    (hname : '/' ∉ name) (hne : childPath place (String.ofList name) ≠ "") :
    ((decide (name = ['.']) || decide (name = ['.', '.'])) && fs.isDirectory place ||
        !(decide (name = ['.']) || decide (name = ['.', '.'])) &&
          fs.exists? (childPath place (String.ofList name))) =
      (reached? fs.root here (String.ofList name)).isSome := by
  rw [← Bool.decide_or]
  have hslash : '/' ∉ (String.ofList name).toList := by rwa [String.toList_ofList]
  unfold reached?
  by_cases hdots : name = ['.'] ∨ name = ['.', '.']
  · simp only [hdots, decide_true, Bool.true_and, Bool.not_true, Bool.false_and, Bool.or_false,
      h.isDirectory_eq, walk?_singleton]
    cases hdir : fs.root.isDirectoryAt here with
    | false => rfl
    | true =>
      obtain ⟨entries, hat⟩ := Node.isDirectoryAt_iff.1 hdir
      obtain ⟨above, habove⟩ := Node.isDirectoryAt_iff.1 (Node.isDirectoryAt_dropLast hdir)
      obtain rfl | rfl := hdots
      · have henter : enter here (String.ofList ['.']) = here := rfl
        simp [henter, hat]
      · have henter : enter here (String.ofList ['.', '.']) = here.dropLast := rfl
        simp [henter, habove]
  · simp only [hdots, decide_false, Bool.false_and, Bool.not_false, Bool.true_and, Bool.false_or,
      FileSystem.exists?, find?_eq fs hne, locate?_childPath h hslash]
    cases walk? fs.root here [String.ofList name] with
    | none => rfl
    | some row => cases hat : fs.root.at? row <;> simp [hat]

/-- What is found under a name that is written out, if the rest of the search goes on alike. -/
theorem forall₂_named {search : String → List String} {reach : List String → List (List String)}
    (h : fs.Place place here) {name : List Char} (hname : '/' ∉ name)
    (hne : childPath place (String.ofList name) ≠ "")
    (hrest : ∀ {row : List String}, fs.Place (childPath place (String.ofList name)) row →
      List.Forall₂ fs.Place (search (childPath place (String.ofList name))) (reach row)) :
    List.Forall₂ fs.Place
      (if (decide (name = ['.']) || decide (name = ['.', '.'])) && fs.isDirectory place ||
          !(decide (name = ['.']) || decide (name = ['.', '.'])) &&
            fs.exists? (childPath place (String.ofList name)) then
        search (childPath place (String.ofList name)) else [])
      (((reached? fs.root here (String.ofList name)).map reach).getD []) := by
  have hslash : '/' ∉ (String.ofList name).toList := by rwa [String.toList_ofList]
  simp only [condition_eq_isSome_reached? h hname hne]
  cases hreached : reached? fs.root here (String.ofList name) with
  | none => exact .nil
  | some row =>
    refine hrest ⟨hne, ?_⟩
    rw [locate?_childPath h hslash]
    exact (Option.filter_eq_some_iff.1 hreached).1

/-- What is found by the dots that a directory holds besides its entries. -/
theorem forall₂_dots {search : String → List String} {reach : List String → List (List String)}
    (part : Part) (h : fs.Place place here)
    (hrest : ∀ {name : String}, name = "." ∨ name = ".." → part.head? = some (.char '.') →
      matchesName part name.toList = true → fs.Place (joinPath place name) (enter here name) →
      List.Forall₂ fs.Place (search (joinPath place name)) (reach (enter here name))) :
    List.Forall₂ fs.Place
      (if fs.isDirectory place && part.head? = some (.char '.') then
        [".", ".."].flatMap fun name =>
          if matchesName part name.toList then search (joinPath place name) else []
      else [])
      (if fs.root.isDirectoryAt here && part.head? = some (.char '.') then
        [".", ".."].flatMap fun name =>
          if matchesName part name.toList then reach (enter here name) else []
      else []) := by
  rw [h.isDirectory_eq]
  split
  · rename_i hdots
    rw [Bool.and_eq_true, decide_eq_true_eq] at hdots
    obtain ⟨hdir, hhead⟩ := hdots
    refine forall₂_flatMap_self fun name hmem => ?_
    have hname : name = "." ∨ name = ".." := by simpa using hmem
    have hslash : '/' ∉ name.toList := by obtain rfl | rfl := hname <;> simp
    split
    · rename_i hmatch
      exact hrest hname hhead hmatch (place_joinPath h hdir hslash)
    · exact .nil
  · exact .nil

/-- A search that does not stall finds a path for each row that the parts reach, in this order. -/
theorem forall₂_searchFrom (hroot : fs.root.isProper = true) (wantsDirectory : Bool)
    {parts : List Part} (hparts : ∀ part ∈ parts, Token.char '/' ∉ part) {below : Bool}
    {place : String} {here : List String} (h : fs.Place place here)
    (hstall : below = false → components place = [.current] → stalls parts = false) :
    List.Forall₂ fs.Place (searchFrom fs wantsDirectory below parts place)
      (reach fs.root wantsDirectory below parts here) := by
  induction parts generalizing below place here with
  | nil =>
    cases below with
    | false =>
      rw [searchFrom, reach, h.isDirectory_eq]
      split
      · exact .cons h .nil
      · exact .nil
    | true =>
      rw [searchFrom, reach]
      exact forall₂_filter (fun _ _ hplace => hplace.isDirectory_eq)
        (List.forall₂_map_left_iff.2
          ((forall₂_entriesBelow h hroot).imp fun _ _ he => he.place))
  | cons part parts ih =>
    obtain ⟨hslash, hrest⟩ := List.forall_mem_cons.1 hparts
    have hentry : ∀ {e : Entry} {row : List String}, StandsFor fs e row →
        List.Forall₂ fs.Place (searchFrom fs wantsDirectory false parts e.path)
          (reach fs.root wantsDirectory false parts row) := fun he =>
      ih hrest he.place fun _ hcurrent => absurd hcurrent he.not_current
    unfold searchFrom reach
    simp only
    split
    · exact ih hrest h (by simp)
    · split
      · exact forall₂_byName part (forall₂_entriesBelow h hroot) hentry
      · rename_i hbelow
        rw [Bool.not_eq_true] at hbelow
        specialize hstall hbelow
        cases htext : part.text? with
        | some name =>
          obtain rfl := text?_eq_some_iff.1 htext
          have hname : '/' ∉ name := fun hmem => hslash (List.mem_map_of_mem hmem)
          have hne : childPath place (String.ofList name) ≠ "" := by
            unfold childPath
            split
            · rename_i hcurrent
              simpa [ne_empty_iff] using (stalls_cons_eq_false_iff.1 (hstall hcurrent)).1
            · exact joinPath_ne_empty h.ne_empty _
          refine forall₂_named h hname hne fun hplace => ih hrest hplace fun _ hcurrent => ?_
          -- The part is a dot, in the working directory.
          obtain ⟨hworking, hdot⟩ := current_of_childPath h.ne_empty
            (by rwa [String.toList_ofList]) hcurrent
          obtain rfl : name = ['.'] := by simpa using congrArg String.toList hdot
          exact (stalls_cons_eq_false_iff.1 (hstall hworking)).2 rfl (by simp [matchesName])
        | none =>
          refine List.rel_append (forall₂_byName part (forall₂_entriesIn h hroot) hentry)
            (forall₂_dots part h fun hname hhead hmatch hplace =>
              ih hrest hplace fun _ hcurrent => ?_)
          -- Two dots leave the working directory, so the part matches one.
          obtain rfl | rfl := hname
          · rw [components_joinPath_of_not_mem h.ne_empty (by simp)] at hcurrent
            exact (stalls_cons_eq_false_iff.1
              (hstall ((List.append_nil _).symm.trans hcurrent))).2 hhead hmatch
          · rw [components_joinPath_of_not_mem h.ne_empty (by simp)] at hcurrent
            exact absurd (congrArg List.getLast? hcurrent) (by simp [innerComponent?])

/-! ## Patterns -/

/-- The directory in which the search of a pattern starts. -/
def Pattern.startNames (p : Pattern) (fs : FileSystem) : List String := fs.startOf p.start

/-- A pattern as it is read: it starts in the root or in the working directory, and its parts hold
no slash. -/
structure Pattern.WellFormed (p : Pattern) : Prop where
  start : p.start = "." ∨ p.start = "/"
  ne_nil : p.parts ≠ []
  slash : ∀ part ∈ p.parts, Token.char '/' ∉ part

/-- Without a directory to start from, a path leads nowhere. -/
theorem find?_eq_none {path : String} (h : fs.root.isDirectoryAt (fs.startOf path) = false) :
    fs.find? path = none := by
  by_cases hne : path = ""
  · rw [hne, find?_empty]
  · obtain ⟨first, rest, hsegments⟩ := List.exists_cons_of_ne_nil (segments_ne_nil path)
    rw [find?_eq fs hne, locate?, hsegments, walk?_cons, h]
    rfl

theorem searchFrom_eq_nil {place : String} (hplace : fs.find? place = none)
    (hchild : ∀ name : String, '/' ∉ name.toList → fs.find? (childPath place name) = none)
    (wantsDirectory : Bool) {below : Bool} {parts : List Part}
    (hslash : ∀ part ∈ parts, Token.char '/' ∉ part) (hparts : below = true ∨ parts ≠ []) :
    searchFrom fs wantsDirectory below parts place = [] := by
  have hbelow : entriesBelow fs place = [] := by
    rw [entriesBelow, hplace]
    rfl
  have hin : entriesIn fs place = [] := by
    rw [entriesIn, FileSystem.list, hplace]
    rfl
  have hdir : fs.isDirectory place = false := by
    rw [FileSystem.isDirectory, hplace]
    rfl
  induction parts generalizing below with
  | nil =>
    obtain rfl : below = true := hparts.resolve_right (by simp)
    rw [searchFrom, hbelow]
    rfl
  | cons part parts ih =>
    obtain ⟨hpart, hrest⟩ := List.forall_mem_cons.1 hslash
    unfold searchFrom
    simp only [hbelow, hin, hdir, List.flatMap_nil, List.nil_append, Bool.false_and, Bool.and_false,
      Bool.false_or, Bool.false_eq_true, if_false]
    split
    · exact ih hrest (.inl rfl)
    · split
      · rfl
      · split
        · rename_i name htext
          obtain rfl := text?_eq_some_iff.1 htext
          have hname : '/' ∉ (String.ofList name).toList := by
            rw [String.toList_ofList]
            exact fun hmem => hpart (List.mem_map_of_mem hmem)
          simp [FileSystem.exists?, hchild _ hname]
        · rfl

theorem place_start {p : Pattern} (hp : p.WellFormed)
    (hdir : fs.root.isDirectoryAt (p.startNames fs) = true) :
    fs.Place p.start (p.startNames fs) := by
  unfold Pattern.startNames at hdir ⊢
  obtain h | h := hp.start
  all_goals
    rw [h] at hdir ⊢
    refine ⟨by decide, ?_⟩
    unfold locate?
  · have hsegments : segments "." = ["."] := by decide +kernel
    rw [hsegments, walk?_singleton, if_pos hdir]
    rfl
  · have hsegments : segments "/" = ["", ""] := by decide +kernel
    have hstay : enter (fs.startOf "/") "" = fs.startOf "/" := rfl
    rw [hsegments, walk?_cons, if_pos hdir, hstay, walk?_singleton, if_pos hdir, hstay]

theorem find?_childPath_start {p : Pattern} (hp : p.WellFormed)
    (hdir : fs.root.isDirectoryAt (p.startNames fs) = false) {name : String}
    (hname : '/' ∉ name.toList) : fs.find? (childPath p.start name) = none := by
  unfold Pattern.startNames at hdir
  refine find?_eq_none ?_
  have habs := isAbsolute_of_not_mem hname
  obtain h | h := hp.start
  all_goals
    rw [h] at hdir ⊢
    unfold childPath
  · have hcurrent : components "." = [.current] := by decide +kernel
    rw [if_pos hcurrent, startOf, habs]
    exact hdir
  · have hcurrent : components "/" ≠ [.current] := by decide +kernel
    rw [if_neg hcurrent, startOf, isAbsolute_joinPath (by decide) habs]
    exact hdir

/-- The search of a pattern that does not stall finds a path for each row that its parts reach. -/
theorem forall₂_search (hroot : fs.root.isProper = true) {p : Pattern} (hp : p.WellFormed)
    (hstall : p.start = "." → stalls p.parts = false) :
    List.Forall₂ fs.Place (p.search fs)
      (reach fs.root p.wantsDirectory false p.parts (p.startNames fs)) := by
  unfold Pattern.search
  cases hdir : fs.root.isDirectoryAt (p.startNames fs) with
  | true =>
    refine forall₂_searchFrom hroot p.wantsDirectory hp.slash (place_start hp hdir)
      fun _ hcurrent => hstall ?_
    obtain h | h := hp.start
    · exact h
    · rw [h] at hcurrent
      exact absurd hcurrent (by decide +kernel)
  | false =>
    rw [reach_eq_nil hdir p.wantsDirectory (.inr hp.ne_nil),
      searchFrom_eq_nil (find?_eq_none hdir) (fun name => find?_childPath_start hp hdir)
        p.wantsDirectory hp.slash (.inr hp.ne_nil)]
    exact .nil

/-! ## Searches that stall -/

/-- Whether the first part that is no dot is empty. -/
def leadsNowhere (parts : List String) : Bool := (parts.dropWhile (· = ".")).head? = some ""

theorem leadsNowhere_cons (part : String) (parts : List String) :
    leadsNowhere (part :: parts) =
      if part = "." then leadsNowhere parts else decide (part = "") := by
  unfold leadsNowhere
  rw [List.dropWhile_cons]
  by_cases h : part = "." <;> simp [h]

theorem leadsNowhere_append {parts : List String} (h : leadsNowhere parts = true)
    (rest : List String) : leadsNowhere (parts ++ rest) = true := by
  induction parts with
  | nil => cases h
  | cons part parts ih =>
    rw [List.cons_append]
    rw [leadsNowhere_cons] at h ⊢
    split
    · rename_i hdot
      rw [if_pos hdot] at h
      exact ih h
    · rename_i hdot
      rwa [if_neg hdot] at h

theorem Spells.eq_nil_iff {part : Part} {text : List Char} (h : Spells part text) :
    part = [] ↔ text = [] := by
  cases h <;> simp

theorem Spells.eq_dot {part : Part} (h : Spells part ['.']) : part = [.char '.'] := by
  cases h with
  | char c h => rw [h.eq_nil_iff.2 rfl]
  | set hc h => exact absurd hc (by decide)

/-- Parts that spell names stall exactly if the names lead nowhere. -/
theorem stalls_append_of_spells {spelled rest : List Part} {texts : List String}
    (h : SpellsEach spelled texts)
    (hrest : stalls rest = false) : stalls (spelled ++ rest) = leadsNowhere texts := by
  induction h with
  | nil => exact hrest
  | @cons part text spelled texts hpart _ ih =>
    rw [List.cons_append, stalls, leadsNowhere_cons, ih]
    by_cases hdot : text = "."
    · subst hdot
      obtain rfl := hpart.eq_dot
      simp [matchesName]
    · have hmatch : matchesName part ['.'] = false := by
        rw [← Bool.not_eq_true, hpart.matchesName_iff]
        exact fun he => hdot (String.toList_inj.1 he.symm)
      have hnil : part = [] ↔ text = "" := by
        rw [← String.toList_eq_nil_iff, hpart.eq_nil_iff]
      simp [hmatch, hdot, hnil]

/-- From the working directory, parts that spell names leading nowhere find nothing. -/
theorem searchFrom_eq_nil_of_leadsNowhere {wantsDirectory : Bool} {spelled : List Part}
    {texts : List String}
    (h : SpellsEach spelled texts)
    (htexts : leadsNowhere texts = true) (rest : List Part) :
    searchFrom fs wantsDirectory false (spelled ++ rest) "." = [] := by
  have hcurrent : components "." = [.current] := by decide +kernel
  induction h with
  | nil => cases htexts
  | @cons part text spelled texts hpart _ ih =>
    rw [leadsNowhere_cons] at htexts
    by_cases hdot : text = "."
    · subst hdot
      obtain rfl := hpart.eq_dot
      rw [if_pos rfl] at htexts
      simp [searchFrom, Part.isDirectories, Part.text?, childPath, hcurrent, ih htexts]
    · rw [if_neg hdot, decide_eq_true_eq] at htexts
      subst htexts
      obtain rfl := hpart.eq_nil_iff.2 rfl
      simp [searchFrom, Part.isDirectories, Part.text?, childPath, hcurrent, FileSystem.exists?,
        find?_empty]

end ResourceNames.Files.Glob
