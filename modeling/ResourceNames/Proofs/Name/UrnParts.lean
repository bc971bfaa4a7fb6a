import Mathlib.Data.List.Induction
import ResourceNames.Name.Urn
import ResourceNames.Proofs.Tables
import ResourceNames.Proofs.Text.Splitting

/-!
# The parts of a URN

What each part of the parser of URNs takes, and what it refuses.

* `splitTypeKey_append_continued`, `splitTypeKey_of_not_isKey`: the type key of a URN.
* `templateTail_of_isHead`, `templateTail_of_not_isHead`: the head of a template.
* `readFields_eq_ok_iff`, `readFields_of_short`, `matchSegments_of_misfit`: segments that fit, too
  few of them, and the leftmost one that does not fit.
* `find?_typeKeyField_fieldsOf`, `find?_fieldsOf_of_ne`: the fields that segments give.
-/

namespace ResourceNames.Urn

open Text

/-! ## Type keys and heads -/

/-- A type key as it stands at the front of a URN: two non-empty segments. -/
def IsKey (key : List Char) : Prop :=
  ∃ name version, key = name ++ '/' :: version ∧ name ≠ [] ∧ version ≠ [] ∧ '/' ∉ name ∧
    '/' ∉ version

theorem IsKey.ne_nil {key : List Char} (h : IsKey key) : key ≠ [] := by
  obtain ⟨_, _, rfl, -⟩ := h
  simp

/-- The head of a template: the segment for the type key or two other non-empty segments. -/
def IsHead (head : List Char) : Prop :=
  head = typeKeySegment ∨
    ∃ first second, head = first ++ '/' :: second ∧ first ≠ [] ∧ second ≠ [] ∧ '/' ∉ first ∧
      '/' ∉ second ∧ first ≠ typeKeySegment

theorem slash_not_mem_typeKeySegment : '/' ∉ typeKeySegment := by decide +kernel

/-- What follows the type key of a URN, with the slash before it. -/
def continued : Option (List Char) → List Char
  | none => []
  | some rest => '/' :: rest

/-- A text is cut before its first slash, if it has any. -/
theorem exists_continued (s : List Char) :
    ∃ version rest, s = version ++ continued rest ∧ '/' ∉ version := by
  cases hcut : cut? '/' s with
  | none => exact ⟨s, none, (List.append_nil s).symm, cut?_eq_none_iff.1 hcut⟩
  | some p =>
    obtain ⟨hs, hversion⟩ := cut?_eq_some_iff.1 hcut
    exact ⟨p.1, some p.2, hs, hversion⟩

/-- The first two segments must not be empty. -/
theorem splitTypeKey_append {name version : List Char} (hname : '/' ∉ name)
    (hversion : '/' ∉ version) (rest : Option (List Char)) (input : String) :
    splitTypeKey input (name ++ '/' :: (version ++ continued rest)) =
      if name = [] ∨ version = [] then .error (.malformed (.noTypeKey input))
      else .ok (name ++ '/' :: version, rest) := by
  have hsplit : splitUpTo '/' 3 (name ++ '/' :: (version ++ continued rest)) =
      name :: version :: rest.toList := by
    cases rest with
    | none =>
      simp only [continued, List.append_nil, splitUpTo, cut?_append hname,
        cut?_eq_none_iff.2 hversion, Option.toList_none]
    | some more =>
      simp only [continued, splitUpTo, cut?_append hname, cut?_append hversion, Option.toList_some]
  unfold splitTypeKey
  simp only [hsplit, Bool.or_eq_true, List.isEmpty_iff]
  cases rest <;> rfl

theorem splitTypeKey_append_continued {key : List Char} (hkey : IsKey key) (input : String)
    (rest : Option (List Char)) : splitTypeKey input (key ++ continued rest) = .ok (key, rest) := by
  obtain ⟨name, version, rfl, hn, hv, hname, hversion⟩ := hkey
  rw [List.append_assoc, List.cons_append, splitTypeKey_append hname hversion,
    if_neg (not_or.2 ⟨hn, hv⟩)]

theorem splitTypeKey_of_not_isKey {input : String} {body : List Char}
    (h : ∀ key rest, IsKey key → body ≠ key ++ continued rest) :
    splitTypeKey input body = .error (.malformed (.noTypeKey input)) := by
  cases hcut : cut? '/' body with
  | none => simp only [splitTypeKey, splitUpTo, hcut]
  | some p =>
    obtain ⟨name, more⟩ := p
    obtain ⟨rfl, hname⟩ := cut?_eq_some_iff.1 hcut
    obtain ⟨version, rest, rfl, hversion⟩ := exists_continued more
    have hempty : name = [] ∨ version = [] := by
      refine Decidable.byContradiction fun hne => ?_
      obtain ⟨hn, hv⟩ := not_or.1 hne
      exact h _ rest ⟨name, version, rfl, hn, hv, hname, hversion⟩ (by simp)
    rw [splitTypeKey_append hname hversion, if_pos hempty]

theorem templateTail_key {tail : List (List Char)} (hwhole : ∀ e ∈ tail, '/' ∉ e)
    (template : String) :
    templateTail template (typeKeySegment ++ behind '/' tail) =
      if typeKeySegment ∈ tail then .error (.malformed (.typeKeyInTail template))
      else .ok tail := by
  have hs : (typeKeySegment ++ behind '/' tail).splitOn '/' = typeKeySegment :: tail :=
    splitOn_eq_cons_iff.2 ⟨rfl, List.forall_mem_cons.2 ⟨slash_not_mem_typeKeySegment, hwhole⟩⟩
  unfold templateTail
  simp only [hs, if_true, List.contains_iff_mem]

/-- A literal head must have two halves that are not empty. -/
theorem templateTail_literal {first second : List Char} {tail : List (List Char)}
    (hfirst : '/' ∉ first) (hsecond : '/' ∉ second) (hf : first ≠ typeKeySegment)
    (hwhole : ∀ e ∈ tail, '/' ∉ e) (template : String) :
    templateTail template (first ++ '/' :: second ++ behind '/' tail) =
      if first = [] ∨ second = [] then .error (.malformed (.templateHead template))
      else if typeKeySegment ∈ tail then .error (.malformed (.typeKeyInTail template))
      else .ok tail := by
  have hs : (first ++ '/' :: second ++ behind '/' tail).splitOn '/' = first :: second :: tail :=
    splitOn_eq_cons_iff.2 ⟨by simp, List.forall_mem_cons.2
      ⟨hfirst, List.forall_mem_cons.2 ⟨hsecond, hwhole⟩⟩⟩
  unfold templateTail
  simp only [hs, hf, if_false, Bool.or_eq_true, List.isEmpty_iff, List.contains_iff_mem]
  by_cases hne : first = [] ∨ second = []
  · simp only [hne, if_true]
  · simp only [hne, if_false]

theorem templateTail_of_isHead {head : List Char} {tail : List (List Char)} (hhead : IsHead head)
    (hwhole : ∀ e ∈ tail, '/' ∉ e) (template : String) :
    templateTail template (head ++ behind '/' tail) =
      if typeKeySegment ∈ tail then .error (.malformed (.typeKeyInTail template))
      else .ok tail := by
  rcases hhead with rfl | ⟨first, second, rfl, h1, h2, hs1, hs2, hf⟩
  · exact templateTail_key hwhole template
  · rw [templateTail_literal hs1 hs2 hf hwhole, if_neg (not_or.2 ⟨h1, h2⟩)]

theorem templateTail_append_behind {head : List Char} {tail : List (List Char)}
    (hhead : IsHead head) (hwhole : ∀ e ∈ tail, '/' ∉ e) (hk : typeKeySegment ∉ tail)
    (template : String) : templateTail template (head ++ behind '/' tail) = .ok tail := by
  rw [templateTail_of_isHead hhead hwhole, if_neg hk]

theorem templateTail_of_not_isHead {template : String} {body : List Char}
    (h : ∀ head tail, IsHead head → (∀ e ∈ tail, '/' ∉ e) → body ≠ head ++ behind '/' tail) :
    templateTail template body = .error (.malformed (.templateHead template)) := by
  obtain ⟨first, rest, hs⟩ := List.exists_cons_of_ne_nil (List.splitOn_ne_nil '/' body)
  obtain ⟨rfl, hwhole⟩ := splitOn_eq_cons_iff.1 hs
  obtain ⟨hfirst, hrest⟩ := List.forall_mem_cons.1 hwhole
  have hkey : first ≠ typeKeySegment := fun he => h first rest (.inl he) hrest rfl
  cases rest with
  | nil =>
    unfold templateTail
    simp only [hs, if_neg hkey]
  | cons second tail =>
    obtain ⟨hsecond, htail⟩ := List.forall_mem_cons.1 hrest
    rw [behind_cons, ← List.cons_append, ← List.append_assoc] at h ⊢
    have hempty : first = [] ∨ second = [] := by
      refine Decidable.byContradiction fun hne => ?_
      obtain ⟨h1, h2⟩ := not_or.1 hne
      exact h _ tail (.inr ⟨first, second, rfl, h1, h2, hfirst, hsecond, hkey⟩) htail rfl
    rw [templateTail_literal hfirst hsecond hkey htail, if_pos hempty]

/-! ## Segments -/

/-- Whether a segment of a URN fits one of a template: anything but nothing for a placeholder, else
the very text. -/
def Fits (expected actual : List Char) : Prop :=
  match placeholderName? expected with
  | some _ => actual ≠ []
  | none => expected = actual

theorem Fits.ne_nil {e a n : List Char} (h : Fits e a) (hn : placeholderName? e = some n) :
    a ≠ [] := by
  unfold Fits at h
  rwa [hn] at h

theorem Fits.eq {e a : List Char} (h : Fits e a) (hn : placeholderName? e = none) : e = a := by
  unfold Fits at h
  rwa [hn] at h

/-- Segments of a template, each with the segment of the URN in its place. -/
abbrev Pairing := List (List Char × List Char)

/-- The names of the placeholders and what stands in their places. -/
def bindings (pairing : Pairing) : List (String × String) :=
  pairing.filterMap fun p =>
    (placeholderName? p.1).map fun n => (String.ofList n, String.ofList p.2)

theorem matchSegments_eq_ok_iff {input : String} {fields out : Table String} {pairing : Pairing} :
    matchSegments input fields (pairing.map (·.1)) (pairing.map (·.2)) = .ok out ↔
      (∀ p ∈ pairing, Fits p.1 p.2) ∧ out = fields.insertAll (bindings pairing) := by
  induction pairing generalizing fields with
  | nil => simp [matchSegments, bindings, eq_comm]
  | cons p pairing ih =>
    obtain ⟨e, a⟩ := p
    simp only [List.map_cons, matchSegments, List.forall_mem_cons]
    cases hn : placeholderName? e with
    | none =>
      have hb : bindings ((e, a) :: pairing) = bindings pairing := by simp [bindings, hn]
      by_cases he : e = a
      · subst he
        simp [ih, Fits, hn, hb]
      · simp [he, Fits, hn]
    | some n =>
      have hb : bindings ((e, a) :: pairing) =
          (String.ofList n, String.ofList a) :: bindings pairing := by simp [bindings, hn]
      by_cases ha : a = []
      · simp [ha, Fits, hn]
      · simp [ha, Fits, hn, ih, hb]

/-- What is reported of a segment that does not fit. -/
def misfit (input : String) (p : List Char × List Char) : ParseError :=
  match placeholderName? p.1 with
  | some _ => .malformed (.emptySegment input (String.ofList p.1))
  | none => .templateMismatch (String.ofList p.1) (String.ofList p.2)

/-- Of several segments that do not fit, the leftmost one is reported. -/
theorem matchSegments_of_misfit {input : String} {fields : Table String} {before after : Pairing}
    {p : List Char × List Char} (hfits : ∀ q ∈ before, Fits q.1 q.2) (hp : ¬ Fits p.1 p.2) :
    matchSegments input fields ((before ++ p :: after).map (·.1))
        ((before ++ p :: after).map (·.2)) = .error (misfit input p) := by
  induction before generalizing fields with
  | nil =>
    simp only [List.nil_append, List.map_cons, matchSegments]
    unfold Fits at hp
    unfold misfit
    cases hn : placeholderName? p.1 with
    | some n =>
      rw [hn] at hp
      have hempty : p.2 = [] := Decidable.not_not.1 hp
      simp only [hempty, List.isEmpty_nil, if_true]
    | none =>
      rw [hn] at hp
      simp only [if_neg hp]
  | cons q before ih =>
    obtain ⟨hq, hbefore⟩ := List.forall_mem_cons.1 hfits
    simp only [List.cons_append, List.map_cons, matchSegments]
    cases hn : placeholderName? q.1 with
    | some n => simp only [List.isEmpty_iff, hq.ne_nil hn, if_false, ih hbefore]
    | none => simp only [hq.eq hn, if_true, ih hbefore]

/-- If not all segments fit, there is a leftmost one that does not. -/
theorem exists_leftmost_misfit {pairing : Pairing} (h : ¬ ∀ p ∈ pairing, Fits p.1 p.2) :
    ∃ before p after, pairing = before ++ p :: after ∧ (∀ q ∈ before, Fits q.1 q.2) ∧
      ¬ Fits p.1 p.2 := by
  induction pairing with
  | nil => exact absurd (fun _ hp => by cases hp) h
  | cons q pairing ih =>
    by_cases hq : Fits q.1 q.2
    · have hrest : ¬ ∀ p ∈ pairing, Fits p.1 p.2 := fun hall =>
        h (List.forall_mem_cons.2 ⟨hq, hall⟩)
      obtain ⟨before, p, after, rfl, hbefore, hp⟩ := ih hrest
      exact ⟨q :: before, p, after, rfl, List.forall_mem_cons.2 ⟨hq, hbefore⟩, hp⟩
    · exact ⟨[], q, pairing, rfl, by simp, hq⟩

/-- The fields of a type key and of matched segments. -/
def fieldsOf (key : List Char) (pairing : Pairing) : Table String :=
  (Table.empty.insert typeKeyField (String.ofList key)).insertAll (bindings pairing)

/-- A pairing of the whole tail of a template with what a URN has behind its type key. `surplus` is
what is left of the URN, which only a template without a tail allows. -/
structure Pairs (rest : List Char) (tail : List (List Char)) (pairing : Pairing)
    (surplus : List Char) : Prop where
  tail_eq : tail = pairing.map (·.1)
  rest_eq : rest = behind '/' (pairing.map (·.2)) ++ surplus
  surplus_eq : surplus = [] ∨ pairing = []
  fits : ∀ p ∈ pairing, Fits p.1 p.2
  /-- Only the last segment may hold slashes. -/
  cut : ∀ a ∈ (pairing.map (·.2)).dropLast, '/' ∉ a
  /-- A URN that ends in the slash behind its type key has no segments. -/
  some_text : pairing.map (·.2) ≠ [[]]

/-- Without a tail, all that a URN has behind its type key is left. -/
theorem pairs_nil (rest : List Char) : Pairs rest [] [] rest :=
  ⟨rfl, rfl, .inr rfl, by simp, by simp, by simp⟩

/-- Number of segments behind the type key. A slash with nothing behind it begins none. -/
def segmentCount : Option (List Char) → Nat
  | some (c :: cs) => (c :: cs).count '/' + 1
  | _ => 0

/-- What a URN has behind its type key, cut at its first slashes. -/
structure Cut (rest : Option (List Char)) (segments : List (List Char)) : Prop where
  rest_eq : continued rest = behind '/' segments
  /-- Only the last segment may hold slashes. -/
  cut : ∀ a ∈ segments.dropLast, '/' ∉ a
  /-- A URN that ends in the slash behind its type key has no segments. -/
  some_text : segments ≠ [[]]

/-- What is behind a type key can be cut into as many segments as there are, or fewer. -/
theorem exists_cut {rest : Option (List Char)} {tail : List (List Char)} (htail : tail ≠ [])
    (hcount : ¬ segmentCount rest < tail.length) :
    ∃ pairing : Pairing, pairing.map (·.1) = tail ∧ Cut rest (pairing.map (·.2)) := by
  have hpos : 0 < tail.length := List.length_pos_iff.2 htail
  unfold segmentCount at hcount
  split at hcount
  · rename_i c cs
    have hlength := length_splitUpTo '/' tail.length (c :: cs)
    generalize hs : splitUpTo '/' tail.length (c :: cs) = segments at hlength
    have heq : segments.length = tail.length := by omega
    obtain ⟨x, xs, rfl⟩ : ∃ x xs, segments = x :: xs :=
      List.exists_cons_of_ne_nil (List.ne_nil_of_length_pos (by omega))
    rw [← heq, List.length_cons] at hs
    obtain ⟨htext, hcut⟩ := splitUpTo_eq_cons_iff.1 hs
    have hsnd : (tail.zip (x :: xs)).map (·.2) = x :: xs := List.map_snd_zip (by omega)
    refine ⟨tail.zip (x :: xs), List.map_fst_zip (by omega), ?_⟩
    rw [hsnd]
    refine ⟨by rw [behind_cons, ← htext]; rfl, hcut, fun he => ?_⟩
    cases he
    simp at htext
  · omega

/-- A cut has a text, and is what the text is split into. -/
theorem Cut.exists_text {rest : Option (List Char)} {segments : List (List Char)}
    (h : Cut rest segments) (hne : segments ≠ []) :
    ∃ c cs, rest = some (c :: cs) ∧ splitUpTo '/' segments.length (c :: cs) = segments := by
  obtain ⟨x, xs, rfl⟩ := List.exists_cons_of_ne_nil hne
  have hrest := h.rest_eq
  rw [behind_cons] at hrest
  cases rest with
  | none => cases hrest
  | some text =>
    obtain ⟨-, rfl⟩ := List.cons.inj hrest
    obtain ⟨c, cs, hc⟩ : ∃ c cs, x ++ behind '/' xs = c :: cs := by
      refine List.exists_cons_of_ne_nil fun he => h.some_text ?_
      obtain ⟨hx, hxs⟩ := List.append_eq_nil_iff.1 he
      cases xs with
      | nil => rw [hx]
      | cons y ys => cases hxs
    exact ⟨c, cs, by rw [hc], hc ▸ splitUpTo_join h.cut⟩

theorem Cut.pairs {rest : Option (List Char)} {pairing : Pairing}
    (h : Cut rest (pairing.map (·.2))) (hfits : ∀ p ∈ pairing, Fits p.1 p.2) :
    Pairs (continued rest) (pairing.map (·.1)) pairing [] :=
  ⟨rfl, by rw [List.append_nil, h.rest_eq], .inl rfl, hfits, h.cut, h.some_text⟩

theorem Pairs.isCut {rest : Option (List Char)} {tail : List (List Char)} {pairing : Pairing}
    {surplus : List Char} (h : Pairs (continued rest) tail pairing surplus) (hne : pairing ≠ []) :
    Cut rest (pairing.map (·.2)) := by
  obtain rfl : surplus = [] := h.surplus_eq.resolve_right hne
  exact ⟨by rw [h.rest_eq, List.append_nil], h.cut, h.some_text⟩

/-- The segments of a cut are matched with those of a template. -/
theorem readFields_of_cut {key : List Char} {rest : Option (List Char)} {pairing : Pairing}
    (h : Cut rest (pairing.map (·.2))) (hne : pairing ≠ []) (input template : String) :
    readFields input template key rest (pairing.map (·.1)) =
      matchSegments input (Table.empty.insert typeKeyField (String.ofList key))
        (pairing.map (·.1)) (pairing.map (·.2)) := by
  obtain ⟨c, cs, rfl, hsplit⟩ := h.exists_text (by simpa using hne)
  rw [List.length_map] at hsplit
  unfold readFields
  simp only [List.isEmpty_iff, List.map_eq_nil_iff, hne, if_false, List.length_map, hsplit,
    Nat.lt_irrefl]

/-- Too few segments are counted. -/
theorem readFields_of_short {rest : Option (List Char)} {tail : List (List Char)}
    (h : segmentCount rest < tail.length) (input template : String) (key : List Char) :
    readFields input template key rest tail =
      .error (.segmentCount template input tail.length (segmentCount rest)) := by
  have htail : tail.isEmpty = false := by
    rw [List.isEmpty_eq_false_iff]
    exact List.ne_nil_of_length_pos (by omega)
  unfold readFields
  rw [htail]
  unfold segmentCount at h ⊢
  split at h
  · rename_i c cs
    have hlength := length_splitUpTo '/' tail.length (c :: cs)
    have heq : (splitUpTo '/' tail.length (c :: cs)).length = (c :: cs).count '/' + 1 := by omega
    simp only [heq, h, if_true, Bool.false_eq_true, if_false]
  · simp [h]

theorem readFields_eq_ok_iff {input template : String} {key : List Char}
    {rest : Option (List Char)} {tail : List (List Char)} {out : Table String} :
    readFields input template key rest tail = .ok out ↔
      ∃ pairing surplus, Pairs (continued rest) tail pairing surplus ∧
        out = fieldsOf key pairing := by
  constructor
  · intro h
    by_cases htail : tail = []
    · subst htail
      cases h
      exact ⟨[], continued rest, pairs_nil _, rfl⟩
    · by_cases hshort : segmentCount rest < tail.length
      · rw [readFields_of_short hshort] at h
        cases h
      · obtain ⟨pairing, rfl, hcut⟩ := exists_cut htail hshort
        rw [readFields_of_cut hcut (by simpa using htail)] at h
        obtain ⟨hfits, hout⟩ := matchSegments_eq_ok_iff.1 h
        exact ⟨pairing, [], hcut.pairs hfits, hout⟩
  · rintro ⟨pairing, surplus, hpairs, rfl⟩
    obtain rfl := hpairs.tail_eq
    by_cases hne : pairing = []
    · subst hne
      rfl
    · rw [readFields_of_cut (hpairs.isCut hne) hne]
      exact matchSegments_eq_ok_iff.2 ⟨hpairs.fits, rfl⟩

/-! ## Fields -/

theorem map_fst_bindings (pairing : Pairing) :
    (bindings pairing).map (·.1) =
      (pairing.filterMap fun p => placeholderName? p.1).map String.ofList := by
  unfold bindings
  rw [List.map_filterMap, List.map_filterMap]
  congr 1
  funext p
  cases placeholderName? p.1 <;> rfl

theorem typeKeySegment_eq : typeKeySegment = '<' :: (typeKeyField.toList ++ ['>']) := by
  decide +kernel

theorem placeholderName?_eq_some_iff {segment name : List Char} :
    placeholderName? segment = some name ↔ segment = '<' :: (name ++ ['>']) ∧ name ≠ [] := by
  unfold placeholderName?
  constructor
  · intro h
    split at h
    · rename_i rest
      split at h
      · rename_i c cs hb
        cases h
        exact ⟨by rw [before?_eq_some_iff.1 hb], by simp⟩
      · cases h
    · cases h
  · rintro ⟨rfl, hn⟩
    obtain ⟨c, cs, rfl⟩ := List.exists_cons_of_ne_nil hn
    have hb : before? ['>'] (c :: cs ++ ['>']) = some (c :: cs) := before?_eq_some_iff.2 rfl
    simp only [hb]

/-- No segment behind the head binds the type key. -/
theorem typeKeyField_not_mem_bindings {pairing : Pairing}
    (h : typeKeySegment ∉ pairing.map (·.1)) : typeKeyField ∉ (bindings pairing).map (·.1) := by
  rw [map_fst_bindings]
  intro hm
  obtain ⟨n, hn, he⟩ := List.mem_map.1 hm
  obtain ⟨p, hp, hname⟩ := List.mem_filterMap.1 hn
  refine h (List.mem_map.2 ⟨p, hp, ?_⟩)
  rw [typeKeySegment_eq, (placeholderName?_eq_some_iff.1 hname).1, ← he, String.toList_ofList]

theorem find?_typeKeyField_fieldsOf (key : List Char) {pairing : Pairing}
    (h : typeKeySegment ∉ pairing.map (·.1)) :
    (fieldsOf key pairing).find? typeKeyField = some (String.ofList key) := by
  unfold fieldsOf
  rw [Table.find?_insertAll_of_not_mem (typeKeyField_not_mem_bindings h),
    Table.find?_insert_self]

theorem mem_bindings_iff {pairing : Pairing} {k v : String} :
    (k, v) ∈ bindings pairing ↔
      ∃ p ∈ pairing, ∃ n, placeholderName? p.1 = some n ∧ k = String.ofList n ∧
        v = String.ofList p.2 := by
  unfold bindings
  rw [List.mem_filterMap]
  constructor
  · rintro ⟨p, hp, hb⟩
    obtain ⟨n, hn, he⟩ := Option.map_eq_some_iff.1 hb
    cases he
    exact ⟨p, hp, n, hn, rfl, rfl⟩
  · rintro ⟨p, hp, n, hn, rfl, rfl⟩
    exact ⟨p, hp, by rw [hn]; rfl⟩

/-- What the fields hold if no name comes twice. -/
theorem find?_fieldsOf_eq_some_iff {key : List Char} {pairing : Pairing}
    (hno : typeKeySegment ∉ pairing.map (·.1))
    (hnodup : (pairing.filterMap fun p => placeholderName? p.1).Nodup) {k v : String} :
    (fieldsOf key pairing).find? k = some v ↔
      (k = typeKeyField ∧ v = String.ofList key) ∨
        ∃ p ∈ pairing, ∃ n, placeholderName? p.1 = some n ∧ k = String.ofList n ∧
          v = String.ofList p.2 := by
  have hb : ((bindings pairing).map (·.1)).Nodup := by
    rw [map_fst_bindings]
    exact List.pairwise_map.2 (hnodup.imp fun hne he => hne (String.ofList_injective he))
  by_cases hk : k = typeKeyField
  · subst hk
    rw [find?_typeKeyField_fieldsOf key hno, ← mem_bindings_iff]
    have hnot : (typeKeyField, v) ∉ bindings pairing := fun hm =>
      typeKeyField_not_mem_bindings hno (List.mem_map.2 ⟨_, hm, rfl⟩)
    simp [hnot, eq_comm]
  · unfold fieldsOf
    rw [Table.find?_insertAll hb, Table.find?_insert, if_neg (Ne.symm hk), Table.find?_empty,
      ← mem_bindings_iff, ← Entries.find?_eq_some_iff hb]
    simp [hk]

/-- A template has one head and one tail. -/
theorem head_tail_unique {head head' : List Char} {tail tail' : List (List Char)}
    (hhead : IsHead head) (hhead' : IsHead head') (hwhole : ∀ e ∈ tail, '/' ∉ e)
    (hwhole' : ∀ e ∈ tail', '/' ∉ e) (hno : typeKeySegment ∉ tail)
    (h : head ++ behind '/' tail = head' ++ behind '/' tail') : head = head' ∧ tail = tail' := by
  have e := templateTail_append_behind hhead hwhole hno ""
  rw [h, templateTail_of_isHead hhead' hwhole'] at e
  split at e
  · cases e
  · cases e
    exact ⟨List.append_cancel_right h, rfl⟩

theorem ofFields_fieldsOf {key : List Char} (hkey : IsKey key) {pairing : Pairing}
    (h : typeKeySegment ∉ pairing.map (·.1)) (input : String) :
    Resource.ofFields .urn (fieldsOf key pairing) input =
      .ok ⟨.urn, fieldsOf key pairing, input, ""⟩ := by
  have hne : String.ofList key ≠ "" := fun he =>
    hkey.ne_nil (by simpa using congrArg String.toList he)
  unfold Resource.ofFields
  rw [find?_typeKeyField_fieldsOf key h]
  simp only [hne, if_false]

/-- The segments of a URN in the places of a placeholder, from left to right. -/
def places (pairing : Pairing) (name : List Char) : List (List Char) :=
  (pairing.filter fun p => placeholderName? p.1 = some name).map (·.2)

theorem fieldsOf_concat (key : List Char) (pairing : Pairing) (p : List Char × List Char) :
    fieldsOf key (pairing ++ [p]) =
      match placeholderName? p.1 with
      | some n => (fieldsOf key pairing).insert (String.ofList n) (String.ofList p.2)
      | none => fieldsOf key pairing := by
  unfold fieldsOf bindings Table.insertAll
  rw [List.filterMap_append, List.foldl_append]
  cases hn : placeholderName? p.1 <;> simp [hn]

theorem places_concat (pairing : Pairing) (p : List Char × List Char) (name : List Char) :
    places (pairing ++ [p]) name =
      if placeholderName? p.1 = some name then places pairing name ++ [p.2]
      else places pairing name := by
  unfold places
  rw [List.filter_append, List.map_append]
  by_cases h : placeholderName? p.1 = some name <;> simp [h]

theorem find?_fieldsOf_of_ne {key : List Char} {pairing : Pairing} {name : String}
    (hname : name ≠ typeKeyField) :
    (fieldsOf key pairing).find? name =
      (places pairing name.toList).getLast?.map String.ofList := by
  induction pairing using List.reverseRecOn with
  | nil =>
    show (Table.empty.insert typeKeyField (String.ofList key)).find? name = none
    rw [Table.find?_insert, if_neg (Ne.symm hname), Table.find?_empty]
  | append_singleton pairing p ih =>
    rw [fieldsOf_concat, places_concat]
    cases hn : placeholderName? p.1 with
    | none =>
      simp only [reduceCtorEq, if_false]
      exact ih
    | some n =>
      simp only [Option.some.injEq]
      rw [Table.find?_insert]
      by_cases he : n = name.toList
      · rw [if_pos he, if_pos (by rw [he, String.ofList_toList]), List.getLast?_concat]
        rfl
      · rw [if_neg he, if_neg fun h => he (by rw [← h, String.toList_ofList])]
        exact ih

end ResourceNames.Urn
