import ResourceNames.Proofs.Name.UrnRoundTrip

/-!
# Rewriting URNs

A URN is rewritten if the fields that it is read as are written with the same template.

* `Pattern`: templates that are a head and whole segments behind it, of which some may be empty.
* `Pattern.render_eq_iff`: rewriting with such a template changes no more than the type key.
* `Pattern.render_parse_eq`: it changes nothing if the head stands for the type key.
-/

namespace ResourceNames.Urn

open Text
open Template (names filled)

/-- A template in its parts. No placeholder comes twice behind the head. -/
structure Pattern where
  /-- The halves of a literal head. Without them the head stands for the type key. -/
  halves : Option (Plain × Plain)
  tail : List Part
  distinct : (tail.filterMap Part.name?).Nodup

namespace Pattern

variable (pattern : Pattern)

def head : List Char :=
  match pattern.halves with
  | none => typeKeySegment
  | some (first, second) => first.chars ++ '/' :: second.chars

/-- The text of a template. -/
def text : String :=
  String.ofList (urnLead.toList ++ (pattern.head ++ behind '/' (pattern.tail.map Part.chars)))

variable {pattern}

theorem head_of_none (h : pattern.halves = none) : pattern.head = typeKeySegment := by
  simp only [head, h]

theorem head_of_some {first second : Plain} (h : pattern.halves = some (first, second)) :
    pattern.head = first.chars ++ '/' :: second.chars := by
  simp only [head, h]

theorem whole : ∀ e ∈ pattern.tail.map Part.chars, '/' ∉ e := by
  intro e he
  obtain ⟨part, -, rfl⟩ := List.mem_map.1 he
  exact part.slash_not_mem

/-- A pattern with which a URN is read has no empty half and no type key behind its head. -/
theorem head_of_reading {input : String} (reading : Reading input pattern.text) :
    (∃ start : Head, start.chars = pattern.head) ∧
      typeKeySegment ∉ pattern.tail.map Part.chars := by
  have htext : pattern.text.toList = _ := String.toList_ofList
  rw [reading.template_eq] at htext
  have htail := templateTail_append_behind reading.isHead reading.whole reading.no_key ""
  rw [List.append_cancel_left htext] at htail
  cases hhalves : pattern.halves with
  | none =>
    rw [head_of_none hhalves, templateTail_key whole] at htail
    split at htail
    · cases htail
    · rename_i hno
      exact ⟨⟨.key, (head_of_none hhalves).symm⟩, hno⟩
  | some halves =>
    obtain ⟨first, second⟩ := halves
    have hkey : first.chars ≠ typeKeySegment := fun he =>
      first.open_not_mem (by rw [he, typeKeySegment_eq]; exact List.mem_cons_self)
    rw [head_of_some hhalves,
      templateTail_literal first.slash_not_mem second.slash_not_mem hkey whole] at htail
    split at htail
    · cases htail
    · rename_i hne
      obtain ⟨hfirst, hsecond⟩ := not_or.1 hne
      split at htail
      · cases htail
      · rename_i hno
        exact ⟨⟨.literal ⟨_, hfirst, first.plain⟩ ⟨_, hsecond, second.plain⟩,
          (head_of_some hhalves).symm⟩, hno⟩

theorem names_text {start : Head} (hstart : start.chars = pattern.head) :
    names pattern.text.toList = names start.chars ++ pattern.tail.filterMap Part.name? := by
  rw [text, String.toList_ofList, Template.names_append_of_open_not_mem open_not_mem_urnLead,
    ← hstart, Head.names_append, Part.names_behind]

theorem nodup_names {start : Head} (hstart : start.chars = pattern.head)
    (hno : typeKeySegment ∉ pattern.tail.map Part.chars) : (names pattern.text.toList).Nodup := by
  rw [names_text hstart]
  refine start.nodup_names_append pattern.distinct ?_
  rw [← Part.tailNames_eq]
  exact typeKeyField_not_mem_tailNames hno

/-- Reading finds the placeholders that filling finds. -/
def shape {start : Head} (hstart : start.chars = pattern.head)
    (hno : typeKeySegment ∉ pattern.tail.map Part.chars) : Shape pattern.text where
  head := pattern.head
  tail := pattern.tail.map Part.chars
  isHead := hstart ▸ start.isHead
  text_eq := String.toList_ofList
  whole := whole
  no_key := hno
  names_eq := by rw [names_text hstart, hstart, Part.tailNames_eq]
  key_only := hstart ▸ start.names_eq

/-- Rewriting changes no more than the type key. -/
theorem render_eq_iff (htail : pattern.tail ≠ []) {input : String}
    (reading : Reading input pattern.text) :
    render reading.fields pattern.text = input ↔
      filled reading.fields pattern.head = reading.key := by
  obtain ⟨⟨_, hstart⟩, hno⟩ := head_of_reading reading
  have hsurplus : reading.surplus = [] :=
    ((shape hstart hno).surplus_of_reading reading).resolve_right fun h =>
      htail (List.map_eq_nil_iff.1 h.1)
  rw [(shape hstart hno).render_eq_iff (nodup_names hstart hno) reading, hsurplus,
    List.append_nil]
  rfl

theorem render_fields_of_none (htail : pattern.tail ≠ []) (hhalves : pattern.halves = none)
    {input : String} (reading : Reading input pattern.text) :
    render reading.fields pattern.text = input := by
  rw [render_eq_iff htail, head_of_none hhalves]
  exact Layout.filled_head_key (find?_typeKeyField_fieldsOf _ reading.no_key)

theorem render_fields_iff_of_some (htail : pattern.tail ≠ []) {first second : Plain}
    (hhalves : pattern.halves = some (first, second)) {input : String}
    (reading : Reading input pattern.text) :
    render reading.fields pattern.text = input ↔
      reading.key = first.chars ++ '/' :: second.chars := by
  have hopen : '<' ∉ first.chars ++ '/' :: second.chars := by
    simp [first.open_not_mem, second.open_not_mem]
  rw [render_eq_iff htail, head_of_some hhalves,
    Template.filled_of_names_eq_nil _ (Template.names_of_open_not_mem hopen)]
  exact eq_comm

/-- **Rewriting a URN.** With a head that stands for the type key, a URN is rewritten as it is, so
two URNs are never read as the same fields. With a literal head, it is rewritten as it is exactly if
its type key is the text of the head. -/
theorem render_parse_eq (htail : pattern.tail ≠ []) {input : String} {r : Resource}
    (h : parse input pattern.text = .ok r) :
    (pattern.halves = none → render r.fields pattern.text = input ∧
      ∀ input' s, parse input' pattern.text = .ok s → s.fields = r.fields → input' = input) ∧
    ∀ first second, pattern.halves = some (first, second) →
      (render r.fields pattern.text = input ↔
        r.typeKey = String.ofList (first.chars ++ '/' :: second.chars)) := by
  obtain ⟨reading, rfl⟩ := parse_eq_ok_iff.1 h
  refine ⟨fun hhalves => ⟨render_fields_of_none htail hhalves reading, ?_⟩,
    fun first second hhalves => ?_⟩
  · intro input' s hs hfields
    obtain ⟨reading', rfl⟩ := parse_eq_ok_iff.1 hs
    have hsame : reading'.fields = reading.fields := hfields
    rw [← render_fields_of_none htail hhalves reading', hsame,
      render_fields_of_none htail hhalves reading]
  · rw [render_fields_iff_of_some htail hhalves reading, reading.typeKey_eq, String.ofList_inj]

/-- The template `urn:ccrn:<ccrn>//<a>/x/<b>`, one of whose segments is empty. -/
def sample : Pattern where
  halves := none
  tail := [.literal ⟨[], by simp⟩, .placeholder ⟨['a'], by simp, by simp⟩,
    .literal ⟨['x'], by simp⟩, .placeholder ⟨['b'], by simp, by simp⟩]
  distinct := by decide

/-- The template `urn:ccrn:t/v/<a>`, whose head is literal. -/
def literalSample : Pattern where
  halves := some (⟨['t'], by simp⟩, ⟨['v'], by simp⟩)
  tail := [.placeholder ⟨['a'], by simp, by simp⟩]
  distinct := by decide

/-- Brackets and slashes in values are no obstacle. A type key that is not that of a literal head is
replaced by it. -/
theorem render_parse_sample :
    (∃ r, parse "urn:ccrn:t.g/v//<b>/x/y/z" sample.text = .ok r ∧
        render r.fields sample.text = "urn:ccrn:t.g/v//<b>/x/y/z") ∧
      ∃ r, parse "urn:ccrn:T/v/x" literalSample.text = .ok r ∧
        render r.fields literalSample.text ≠ "urn:ccrn:T/v/x" := by
  have hparse : parse "urn:ccrn:t.g/v//<b>/x/y/z" sample.text =
      .ok ⟨.urn, ((Table.empty.insert "ccrn" "t.g/v").insert "a" "<b>").insert "b" "y/z",
        "urn:ccrn:t.g/v//<b>/x/y/z", sample.text⟩ := rfl
  have hliteral : parse "urn:ccrn:T/v/x" literalSample.text =
      .ok ⟨.urn, (Table.empty.insert "ccrn" "T/v").insert "a" "x", "urn:ccrn:T/v/x",
        literalSample.text⟩ := rfl
  refine ⟨⟨_, hparse, ((render_parse_eq (by simp [sample]) hparse).1 rfl).1⟩, _, hliteral, ?_⟩
  rw [ne_eq, (render_parse_eq (by simp [literalSample]) hliteral).2 _ _ rfl]
  decide +kernel

end Pattern

end ResourceNames.Urn
