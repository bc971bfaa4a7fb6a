import ResourceNames.Proofs.Files.PatternTexts
import ResourceNames.Proofs.Files.Search
import ResourceNames.Proofs.Results

/-!
# Patterns behind a path

A path that is read as itself may stand in front of a pattern. Its parts are then read before those
of the pattern (`Pattern.behind`), and a fault of the pattern stays one.

* `wellFormed_of_parse`: the parts of a pattern hold no slash.
* `exists_toOption_parse_append`: how the pattern behind a path is read.
* `forall₂_search_behind`: it is searched in the directory of the path (`searched?`).
-/

namespace ResourceNames.Files.Glob

theorem suffix_of_setBody? {s body rest : List Char} (h : setBody? s = some (body, rest)) :
    rest <:+ s := by
  cases s with
  | nil => cases h
  | cons first s =>
    obtain ⟨⟨inner, after⟩, hcut, heq⟩ := Option.map_eq_some_iff.1 h
    cases heq
    rw [(Text.cut?_eq_some_iff.1 hcut).1]
    exact ⟨first :: (inner ++ [']']), by simp⟩

/-- But for the faults, what is read does not depend on how much was read before, nor on how much
more could be read than there is. -/
theorem toOption_readTokens {fuel fuel' : Nat} {s : List Char} (h : s.length ≤ fuel)
    (h' : s.length ≤ fuel') (position position' : Nat) (before : Bool) :
    (readTokens fuel position before s).toOption =
      (readTokens fuel' position' before s).toOption := by
  induction fuel generalizing fuel' position position' before s with
  | zero =>
    obtain rfl : s = [] := List.length_eq_zero_iff.1 (Nat.le_zero.1 h)
    cases fuel' <;> simp [readTokens]
  | succ fuel ih =>
    cases s with
    | nil => cases fuel' <;> simp [readTokens]
    | cons c s =>
      obtain ⟨fuel', rfl⟩ := Nat.exists_eq_add_of_le' (Nat.le_of_add_left_le h')
      -- A token and what is read of a later part of the text.
      have hnext : ∀ {rest : List Char} (t : Token) (position position' : Nat) (before : Bool),
          rest <:+ s →
          (readTokens fuel position before rest >>= fun us => pure (t :: us)).toOption =
            (readTokens fuel' position' before rest >>= fun us => pure (t :: us)).toOption := by
        intro rest t position position' before hrest
        have hlength := hrest.length_le
        rw [List.length_cons] at h h'
        have hread : (readTokens fuel position before rest).toOption =
            (readTokens fuel' position' before rest).toOption :=
          ih (by omega) (by omega) position position' before
        rw [toOption_bind_pure, toOption_bind_pure, hread]
      have hdrop : s.dropWhile (· = '*') <:+ s := List.dropWhile_suffix _
      rw [readTokens.eq_def, readTokens.eq_def]
      simp only
      split
      · exact hnext _ _ _ _ (List.suffix_refl s)
      · split
        · split
          · exact hnext _ _ _ _ hdrop
          · split
            · split
              · rfl
              · rename_i hslash
                exact hnext _ _ _ _ ((hslash ▸ List.suffix_cons _ _).trans hdrop)
              · rfl
            · rfl
          · rfl
        · split
          · split
            · split
              · rename_i hbody
                exact hnext _ _ _ _ ((suffix_of_setBody? hbody).trans (List.suffix_cons _ _))
              · rfl
            · split
              · rename_i hbody
                exact hnext _ _ _ _ (suffix_of_setBody? hbody)
              · rfl
          · exact hnext _ _ _ _ (List.suffix_refl s)

/-- The single characters that are read stand in the text. -/
theorem mem_of_mem_readTokens {fuel position : Nat} {before : Bool} {s : List Char}
    {ts : List Token} (h : readTokens fuel position before s = .ok ts) {c : Char}
    (hc : Token.char c ∈ ts) : c ∈ s := by
  induction fuel generalizing position before s ts with
  | zero =>
    simp only [readTokens, Except.ok.injEq] at h
    simp [← h] at hc
  | succ fuel ih =>
    cases s with
    | nil =>
      simp only [readTokens, Except.ok.injEq] at h
      simp [← h] at hc
    | cons d s =>
      -- A token and what is read of a later part of the text.
      have hnext : ∀ {t : Token} {position : Nat} {before : Bool} {rest : List Char},
          (readTokens fuel position before rest >>= fun us => pure (t :: us)) = .ok ts →
          rest <:+ s → t ≠ .char c ∨ c = d → c ∈ d :: s := by
        intro t position before rest hread hrest ht
        obtain ⟨us, hus, heq⟩ := exists_ok_of_bind hread
        cases heq
        obtain heq | hmem := List.mem_cons.1 hc
        · exact (ht.resolve_left (not_not.2 heq.symm)) ▸ List.mem_cons_self
        · exact List.mem_cons_of_mem d (hrest.subset (ih hus hmem))
      have hdrop : s.dropWhile (· = '*') <:+ s := List.dropWhile_suffix _
      rw [readTokens.eq_def] at h
      simp only at h
      split at h
      · exact hnext h (List.suffix_refl s) (.inl (by simp))
      · split at h
        · split at h
          · exact hnext h hdrop (.inl (by simp))
          · split at h
            · split at h
              · cases h
                simp at hc
              · rename_i hslash
                exact hnext h ((hslash ▸ List.suffix_cons _ _).trans hdrop) (.inl (by simp))
              · cases h
            · cases h
          · cases h
        · split at h
          · split at h
            · split at h
              · rename_i hbody
                exact hnext h ((suffix_of_setBody? hbody).trans (List.suffix_cons _ _))
                  (.inl (by simp))
              · cases h
            · split at h
              · rename_i hbody
                exact hnext h (suffix_of_setBody? hbody) (.inl (by simp))
              · cases h
          · refine hnext h (List.suffix_refl s) ?_
            by_cases hcd : c = d
            · exact .inr hcd
            · exact .inl (by simpa using Ne.symm hcd)

/-! ## Parts -/

theorem segments_of_relative {path : String} (habs : isAbsolute path = false) (hne : path ≠ "") :
    ∃ first rest, segments path = first :: rest ∧ first ≠ "" := by
  obtain ⟨first, rest, hsegments⟩ := List.exists_cons_of_ne_nil (segments_ne_nil path)
  refine ⟨first, rest, hsegments, ?_⟩
  rintro rfl
  by_cases hrest : rest = []
  · -- A path of one empty part is empty.
    obtain ⟨x, xs, hparts⟩ := List.exists_cons_of_ne_nil (List.splitOn_ne_nil '/' path.toList)
    unfold segments at hsegments
    rw [hparts, hrest, List.map_cons, List.cons.injEq, List.map_eq_nil_iff] at hsegments
    obtain ⟨hx, rfl⟩ := hsegments
    obtain rfl : x = [] := by simpa using congrArg String.toList hx
    exact hne (String.toList_eq_nil_iff.1 (Text.splitOn_eq_cons_iff.1 hparts).1)
  · rw [isAbsolute_iff.2 ⟨rest, hrest, hsegments⟩] at habs
    cases habs

theorem partTexts_subset (text : String) {part : String} (h : part ∈ partTexts text) :
    part ∈ segments text := by
  have hall : ∀ texts : List String,
      part ∈ (if texts.getLast? = some "" then texts.dropLast else texts) → part ∈ texts := by
    intro texts hmem
    split at hmem
    · exact List.dropLast_subset _ hmem
    · exact hmem
  have hmem := hall _ h
  split at hmem
  · exact List.mem_of_mem_tail hmem
  · exact hmem

theorem partTexts_of_relative {text : String} (habs : isAbsolute text = false) :
    partTexts text = if (segments text).getLast? = some "" then (segments text).dropLast
      else segments text := by
  unfold partTexts
  simp [habs]

theorem partTexts_ne_nil {text : String} (habs : isAbsolute text = false) (hne : text ≠ "") :
    partTexts text ≠ [] := by
  obtain ⟨first, rest, hsegments, hfirst⟩ := segments_of_relative habs hne
  rw [partTexts_of_relative habs, hsegments]
  split
  · rename_i hlast
    cases rest with
    | nil => exact absurd (Option.some.inj hlast) hfirst
    | cons next rest => simp
  · simp

/-- With a slash behind it, the empty path is absolute. -/
theorem isAbsolute_append_slash (path rest : String) :
    isAbsolute (path ++ "/" ++ rest) = decide (path = "" ∨ isAbsolute path) := by
  rw [String.append_assoc]
  by_cases hpath : path = ""
  · subst hpath
    simp [isAbsolute, String.toList_append]
  · rw [isAbsolute_append hpath]
    simp [hpath]

/-- The parts of a directory's path that are searched, one after the other. -/
def directoryParts (path : String) : List String :=
  if path = "" ∨ isAbsolute path then (segments path).tail else segments path

theorem not_mem_of_mem_directoryParts {path part : String} (h : part ∈ directoryParts path) :
    '/' ∉ part.toList := by
  unfold directoryParts at h
  split at h
  · exact not_mem_of_mem_segments (List.mem_of_mem_tail h)
  · exact not_mem_of_mem_segments h

theorem partTexts_append (path : String) {text : String} (habs : isAbsolute text = false) :
    partTexts (path ++ "/" ++ text) = directoryParts path ++ partTexts text := by
  have hall : (if isAbsolute (path ++ "/" ++ text) then (segments (path ++ "/" ++ text)).tail
      else segments (path ++ "/" ++ text)) = directoryParts path ++ segments text := by
    simp only [isAbsolute_append_slash, segments_append_slash, decide_eq_true_eq]
    unfold directoryParts
    split
    · obtain ⟨first, rest, hsegments⟩ := List.exists_cons_of_ne_nil (segments_ne_nil path)
      rw [hsegments]
      rfl
    · rfl
  have hne := segments_ne_nil text
  rw [partTexts_of_relative habs]
  unfold partTexts
  simp only [hall, List.getLast?_append_of_ne_nil _ hne]
  split
  · exact List.dropLast_append_of_ne_nil hne
  · rfl

theorem ReadsAs.directoryParts {written path : String} (h : ReadsAs written path) :
    List.Forall₂ ReadsAs (Glob.directoryParts written) (Glob.directoryParts path) := by
  have hsegments := h.segments
  unfold Glob.directoryParts
  simp only [h.eq_empty_iff, h.isAbsolute_eq]
  split
  · simpa [List.drop_one] using List.forall₂_drop 1 hsegments
  · exact hsegments

/-! ## Parsing -/

/-- The pattern of a text with these parts. -/
def Pattern.ofParts (text : String) (parts : List Part) : Pattern where
  start := if isAbsolute text then "/" else "."
  parts := if parts.isEmpty then [[]] else parts
  wantsDirectory := text.toList.getLast? = some '/'

/-- What is read of a text, but for the faults. -/
theorem toOption_parse (text : String) :
    (Pattern.parse text).toOption = (tokens text.toList).toOption.bind fun _ =>
      ((partTexts text).mapM fun part => (tokens part.toList).toOption).map
        (Pattern.ofParts text) := by
  rw [← toOption_mapM]
  unfold Pattern.parse
  cases tokens text.toList with
  | error e => rfl
  | ok ts => cases (partTexts text).mapM (fun part => tokens part.toList) <;> rfl

theorem exists_ofParts_of_parse {text : String} {p : Pattern} (h : Pattern.parse text = .ok p) :
    ∃ parts, ((partTexts text).mapM fun part => (tokens part.toList).toOption) = some parts ∧
      Pattern.ofParts text parts = p := by
  replace h := congrArg Except.toOption h
  rw [toOption_parse] at h
  obtain ⟨-, -, h⟩ := Option.bind_eq_some_iff.1 h
  exact Option.map_eq_some_iff.1 h

theorem start_of_parse {text : String} {p : Pattern} (h : Pattern.parse text = .ok p) :
    p.start = if isAbsolute text then "/" else "." := by
  obtain ⟨parts, -, rfl⟩ := exists_ofParts_of_parse h
  rfl

/-- The parts of a pattern hold no slash. -/
theorem wellFormed_of_parse {text : String} {p : Pattern} (h : Pattern.parse text = .ok p) :
    p.WellFormed := by
  obtain ⟨parts, hparts, rfl⟩ := exists_ofParts_of_parse h
  have hslash : ∀ part ∈ parts, Token.char '/' ∉ part := by
    intro part hpart hmem
    have hmap := mapM_eq_some_iff.1 hparts ▸ List.mem_map_of_mem (f := some) hpart
    obtain ⟨source, hsource, htokens⟩ := List.mem_map.1 hmap
    exact not_mem_of_mem_segments (partTexts_subset text hsource)
      (mem_of_mem_readTokens (eq_ok_of_toOption htokens) hmem)
  refine ⟨?_, ?_, ?_⟩
  · unfold Pattern.ofParts
    simp only
    split
    · exact .inr rfl
    · exact .inl rfl
  · unfold Pattern.ofParts
    simp only
    split
    · simp
    · rename_i hne
      simpa using hne
  · unfold Pattern.ofParts
    simp only
    split
    · simp
    · exact hslash

/-- What is read of a text that stands for itself and of the pattern behind it. -/
theorem toOption_tokens_append {written : List Char} {part : Part} {text : List Char}
    (h : Writes written part text) (rest : List Char) :
    (tokens (written ++ '/' :: rest)).toOption =
      (tokens rest).toOption.map (part ++ .char '/' :: ·) := by
  obtain ⟨position, before, hread⟩ := tokens_append_of_writes h ('/' :: rest)
  have hrest : (readTokens (written.length - text.length + (rest.length + 1)) (position + 1) true
      rest).toOption = (readTokens (rest.length + 1) 0 true rest).toOption :=
    toOption_readTokens (by omega) (by omega) _ _ _
  rw [hread, List.length_cons, ← Nat.add_assoc, readTokens_char (by decide), decide_eq_true rfl]
  unfold tokens
  rw [← hrest]
  cases readTokens (written.length - text.length + (rest.length + 1)) (position + 1) true rest with
  | error e => rfl
  | ok ts => rfl

/-- Parts that are read as names spell these names. -/
theorem exists_spelled {written names : List String} (h : List.Forall₂ ReadsAs written names) :
    ∃ spelled, (written.mapM fun part => (tokens part.toList).toOption) = some spelled ∧
      SpellsEach spelled names := by
  induction h with
  | nil => exact ⟨[], rfl, .nil⟩
  | cons hname _ ih =>
    obtain ⟨part, hpart⟩ := hname
    obtain ⟨spelled, hmap, hspells⟩ := ih
    refine ⟨part :: spelled, ?_, .cons hpart.spells hspells⟩
    rw [List.mapM_cons, hmap, tokens_of_writes hpart]
    rfl

/-- A pattern behind a path that is spelled by parts of its own. -/
def Pattern.behind (p : Pattern) (path : String) (spelled : List Part) : Pattern where
  start := if path = "" ∨ isAbsolute path then "/" else "."
  parts := spelled ++ p.parts
  wantsDirectory := p.wantsDirectory

/-- The parts of a path that stands for itself are read before those of the pattern behind it. -/
theorem exists_toOption_parse_append {written path text : String} (h : ReadsAs written path)
    (habs : isAbsolute text = false) (hne : text ≠ "") :
    ∃ spelled, SpellsEach spelled (directoryParts path) ∧
      (Pattern.parse (written ++ "/" ++ text)).toOption =
        (Pattern.parse text).toOption.map (·.behind path spelled) := by
  obtain ⟨spelled, hmap, hspells⟩ := exists_spelled h.directoryParts
  refine ⟨spelled, hspells, ?_⟩
  obtain ⟨part, hpart⟩ := h
  have htoList : (written ++ "/" ++ text).toList = written.toList ++ '/' :: text.toList := by
    simp [String.toList_append]
  rw [toOption_parse, toOption_parse, htoList, toOption_tokens_append hpart,
    partTexts_append written habs, List.mapM_append, hmap]
  cases (tokens text.toList).toOption with
  | none => rfl
  | some ts =>
    cases hparts : (partTexts text).mapM fun part => (tokens part.toList).toOption with
    | none => rfl
    | some parts =>
      have hempty : parts ≠ [] := by
        rintro rfl
        exact partTexts_ne_nil habs hne (List.map_eq_nil_iff.1 (mapM_eq_some_iff.1 hparts))
      have hlast : (written ++ "/" ++ text).toList.getLast? = text.toList.getLast? := by
        rw [htoList, List.getLast?_append_of_ne_nil _ (by simp), ← List.singleton_append,
          List.getLast?_append_of_ne_nil _ (ne_empty_iff.1 hne)]
      have hreads : ReadsAs written path := ⟨part, hpart⟩
      have hrooted : (written = "" ∨ isAbsolute written = true) ↔
          (path = "" ∨ isAbsolute path = true) := by
        rw [hreads.eq_empty_iff, hreads.isAbsolute_eq]
      unfold Pattern.ofParts Pattern.behind
      rw [hlast]
      simp [hempty, isAbsolute_append_slash, hrooted]

/-! ## Searching -/

/-- The directory that is searched for a pattern behind a path. -/
def searched? (fs : FileSystem) (path : String) : Option (List String) :=
  if path = "" then some []
  else if !isAbsolute path && leadsNowhere (segments path) then none
  else fs.locate? path

section

variable {fs : FileSystem} {path : String} {spelled : List Part} {p : Pattern}

theorem wellFormed_behind (hp : p.WellFormed)
    (h : SpellsEach spelled (directoryParts path)) :
    (p.behind path spelled).WellFormed where
  start := by
    unfold Pattern.behind
    simp only
    split
    · exact .inr rfl
    · exact .inl rfl
  ne_nil := by simp [Pattern.behind, hp.ne_nil]
  slash := by
    intro part hpart
    obtain hpart | hpart := List.mem_append.1 hpart
    · exact slash_not_mem_of_spells h (fun _ => not_mem_of_mem_directoryParts) part hpart
    · exact hp.slash part hpart

theorem startNames_behind (fs : FileSystem) (p : Pattern) (path : String) (spelled : List Part) :
    (p.behind path spelled).startNames fs =
      if path = "" ∨ isAbsolute path then [] else fs.workingDirectory := by
  unfold Pattern.startNames Pattern.behind
  split
  · have habs : isAbsolute "/" = true := by decide +kernel
    exact if_pos habs
  · have habs : ¬ isAbsolute "." = true := by decide +kernel
    exact if_neg habs

/-- A path that does not lead nowhere is walked along part by part. -/
theorem walk?_directoryParts (fs : FileSystem) (p : Pattern) (spelled : List Part)
    (h : path = "" ∨ isAbsolute path = true ∨ leadsNowhere (segments path) = false) :
    FileSystem.walk? fs.root ((p.behind path spelled).startNames fs) (directoryParts path) =
      searched? fs path := by
  rw [startNames_behind]
  unfold searched? directoryParts
  by_cases hpath : path = ""
  · rw [if_pos hpath, if_pos (.inl hpath), if_pos (.inl hpath), hpath]
    rfl
  · rw [if_neg hpath]
    cases habs : isAbsolute path with
    | true =>
      obtain ⟨rest, hrest, hsegments⟩ := segments_of_isAbsolute habs
      have hidle : FileSystem.walk? fs.root [] ([""] ++ rest) =
          FileSystem.walk? fs.root [] rest := by
        rw [FileSystem.walk?_append, FileSystem.walk?_idle_bind (.inr rfl) hrest]
      simp only [or_true, if_true, Bool.not_true, Bool.false_and, Bool.false_eq_true, if_false,
        FileSystem.locate?, FileSystem.startOf, habs, hsegments, List.tail_cons]
      exact hidle.symm
    | false =>
      have hsomewhere := (h.resolve_left hpath).resolve_left (by simp [habs])
      simp [hpath, hsomewhere, FileSystem.locate?, FileSystem.startOf, habs]

/-- Behind a path, the search of a pattern finds paths to what its parts reach from the directory
that is searched. -/
theorem forall₂_search_behind (hroot : fs.root.isProper = true) (hp : p.WellFormed)
    (hspells : SpellsEach spelled (directoryParts path)) (hstall : stalls p.parts = false) :
    List.Forall₂ fs.Place ((p.behind path spelled).search fs)
      (((searched? fs path).map (reach fs.root p.wantsDirectory false p.parts)).getD []) := by
  by_cases h : path = "" ∨ isAbsolute path = true ∨ leadsNowhere (segments path) = false
  · have hfound := forall₂_search hroot (wellFormed_behind hp hspells) fun hstart => by
      have hrelative : ¬ (path = "" ∨ isAbsolute path = true) := by
        intro hrooted
        simp [Pattern.behind, hrooted] at hstart
      have hsomewhere := (or_assoc.2 h).resolve_left hrelative
      rw [Pattern.behind, stalls_append_of_spells hspells hstall, directoryParts,
        if_neg hrelative, hsomewhere]
    have hrows := reach_append_of_spells hroot p.wantsDirectory hspells
      (fun _ => not_mem_of_mem_directoryParts) hp.ne_nil
      ((p.behind path spelled).startNames fs)
    rw [walk?_directoryParts fs p spelled h] at hrows
    exact hrows ▸ hfound
  · obtain ⟨hpath, h⟩ := not_or.1 h
    obtain ⟨habs, hnowhere⟩ := not_or.1 h
    rw [Bool.not_eq_true] at habs
    rw [Bool.not_eq_false] at hnowhere
    have hrelative : ¬ (path = "" ∨ isAbsolute path = true) := by simp [hpath, habs]
    have hparts : directoryParts path = segments path := if_neg hrelative
    have hnil : (p.behind path spelled).search fs = [] := by
      rw [hparts] at hspells
      simp only [Pattern.search, Pattern.behind, hrelative, if_false]
      exact searchFrom_eq_nil_of_leadsNowhere hspells hnowhere _
    have hnone : searched? fs path = none := by
      simp [searched?, hpath, habs, hnowhere]
    rw [hnil, hnone]
    exact .nil

end

/-- In a directory, a relative pattern finds paths to what its parts reach from there. -/
theorem forall₂_search_seenFrom {fs : FileSystem} (hroot : fs.root.isProper = true)
    (here : List String) {text : String} {p : Pattern} (hparse : Pattern.parse text = .ok p)
    (habs : isAbsolute text = false) (hstall : stalls p.parts = false) :
    List.Forall₂ (fs.seenFrom here).Place (p.search (fs.seenFrom here))
      (reach fs.root p.wantsDirectory false p.parts here) := by
  have hhere : p.startNames (fs.seenFrom here) = here := by
    have hcurrent : isAbsolute "." = false := by decide +kernel
    rw [Pattern.startNames, start_of_parse hparse, habs]
    simp [FileSystem.startOf, hcurrent, FileSystem.seenFrom]
  have hroot' : (fs.seenFrom here).root.isProper = true := hroot
  have hfound := forall₂_search hroot' (wellFormed_of_parse hparse) fun _ => hstall
  rw [hhere] at hfound
  exact hfound

end ResourceNames.Files.Glob
