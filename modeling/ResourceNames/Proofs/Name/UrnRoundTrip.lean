import Mathlib.Data.List.Basic
import ResourceNames.Proofs.Name.TemplateShape

/-!
# Templates of whole segments

* `Part.names_behind`: filling finds the placeholders among whole segments.
* `Layout`: the templates that are a head and whole segments behind it, no placeholder coming
  twice.
* `Layout.shape`: filling such a template finds the placeholders that reading finds.
* `Layout.parse_render_iff`: the fields that are read back from the URN they are written to.
-/

namespace ResourceNames.Urn

open Text
open Template (IsName names)

/-- A text without slashes and angle brackets. -/
structure Plain where
  chars : List Char
  plain : ∀ c ∈ chars, c ≠ '/' ∧ c ≠ '<' ∧ c ≠ '>'

namespace Plain

variable (p : Plain)

theorem slash_not_mem : '/' ∉ p.chars := fun h => (p.plain _ h).1 rfl

theorem open_not_mem : '<' ∉ p.chars := fun h => (p.plain _ h).2.1 rfl

end Plain

/-- A text without slashes and angle brackets, and not empty. -/
structure Word where
  chars : List Char
  ne_nil : chars ≠ []
  plain : ∀ c ∈ chars, c ≠ '/' ∧ c ≠ '<' ∧ c ≠ '>'

namespace Word

variable (w : Word)

def toPlain : Plain := ⟨w.chars, w.plain⟩

theorem slash_not_mem : '/' ∉ w.chars := w.toPlain.slash_not_mem

theorem open_not_mem : '<' ∉ w.chars := w.toPlain.open_not_mem

theorem isName : IsName w.chars :=
  ⟨w.ne_nil, fun c hc => by simp [Template.isBracket, (w.plain c hc).2]⟩

end Word

/-- The head of a template: the placeholder for the type key or the two halves of a literal one. -/
inductive Head where
  | key
  | literal (first second : Word)

namespace Head

def chars : Head → List Char
  | key => typeKeySegment
  | literal first second => first.chars ++ '/' :: second.chars

theorem isHead (head : Head) : IsHead head.chars := by
  cases head with
  | key => exact .inl rfl
  | literal first second =>
    refine .inr ⟨_, _, rfl, first.ne_nil, second.ne_nil, first.slash_not_mem,
      second.slash_not_mem, fun h => first.open_not_mem ?_⟩
    rw [h, typeKeySegment_eq]
    exact List.mem_cons_self

theorem open_not_mem_literal (first second : Word) : '<' ∉ (literal first second).chars := by
  simp [chars, first.open_not_mem, second.open_not_mem]

theorem names_append (head : Head) (s : List Char) :
    names (head.chars ++ s) = names head.chars ++ names s := by
  cases head with
  | key =>
    have h := Template.names_placeholder isName_typeKeyField
    rw [chars, typeKeySegment_eq, List.cons_append, List.append_assoc, List.singleton_append, h, h]
    simp
  | literal first second =>
    have h := open_not_mem_literal first second
    rw [Template.names_append_of_open_not_mem h, Template.names_of_open_not_mem h,
      List.nil_append]

theorem names_eq (head : Head) : ∀ n ∈ names head.chars, n = typeKeyField.toList := by
  cases head with
  | key =>
    rw [chars, typeKeySegment_eq, Template.names_placeholder isName_typeKeyField]
    simp
  | literal first second =>
    rw [Template.names_of_open_not_mem (open_not_mem_literal first second)]
    simp

/-- A head brings no placeholder twice, nor one that comes behind it. -/
theorem nodup_names_append (head : Head) {tail : List (List Char)} (hnodup : tail.Nodup)
    (hkey : typeKeyField.toList ∉ tail) : (names head.chars ++ tail).Nodup := by
  refine List.nodup_append.2 ⟨?_, hnodup, fun a ha b hb hab => ?_⟩
  · cases head with
    | key =>
      rw [chars, typeKeySegment_eq, Template.names_placeholder isName_typeKeyField]
      simp
    | literal first second =>
      rw [Template.names_of_open_not_mem (open_not_mem_literal first second)]
      exact List.nodup_nil
  · rw [← hab, head.names_eq a ha] at hb
    exact hkey hb

end Head

/-- A segment behind a head, which may be empty. -/
inductive Part where
  | literal (text : Plain)
  | placeholder (name : Word)

namespace Part

def chars : Part → List Char
  | literal text => text.chars
  | placeholder name => '<' :: (name.chars ++ ['>'])

def name? : Part → Option (List Char)
  | literal _ => none
  | placeholder name => some name.chars

theorem slash_not_mem (part : Part) : '/' ∉ part.chars := by
  cases part with
  | literal text => exact text.slash_not_mem
  | placeholder name => simp [chars, name.slash_not_mem]

theorem placeholderName?_chars (part : Part) : placeholderName? part.chars = part.name? := by
  cases part with
  | literal text =>
    refine Option.eq_none_iff_forall_ne_some.2 fun n hn => text.open_not_mem ?_
    rw [show text.chars = _ from (placeholderName?_eq_some_iff.1 hn).1]
    exact List.mem_cons_self
  | placeholder name => exact placeholderName?_eq_some_iff.2 ⟨rfl, name.ne_nil⟩

theorem names_behind (parts : List Part) :
    names (behind '/' (parts.map chars)) = parts.filterMap name? := by
  induction parts with
  | nil => simp
  | cons part parts ih =>
    rw [List.map_cons, behind_cons, Template.names_cons_of_ne (by decide)]
    cases part with
    | literal text =>
      rw [chars, Template.names_append_of_open_not_mem text.open_not_mem, ih]
      rfl
    | placeholder name =>
      rw [chars, List.cons_append, List.append_assoc, List.singleton_append,
        Template.names_placeholder name.isName, ih]
      rfl

theorem tailNames_eq (parts : List Part) :
    tailNames (parts.map chars) = parts.filterMap name? := by
  unfold tailNames
  rw [List.filterMap_map]
  exact congrArg (parts.filterMap ·) (funext placeholderName?_chars)

end Part

/-- A segment behind the head. -/
inductive Segment where
  | literal (word : Word)
  | placeholder (name : Word)

namespace Segment

def chars : Segment → List Char
  | literal word => word.chars
  | placeholder name => '<' :: (name.chars ++ ['>'])

def name? : Segment → Option (List Char)
  | literal _ => none
  | placeholder name => some name.chars

theorem ne_nil (segment : Segment) : segment.chars ≠ [] := by
  cases segment with
  | literal word => exact word.ne_nil
  | placeholder name => simp [chars]

def toPart : Segment → Part
  | literal word => .literal word.toPlain
  | placeholder name => .placeholder name

theorem chars_toPart (segment : Segment) : segment.toPart.chars = segment.chars := by
  cases segment <;> rfl

theorem name?_toPart (segment : Segment) : segment.toPart.name? = segment.name? := by
  cases segment <;> rfl

theorem map_chars_toPart (segments : List Segment) :
    (segments.map toPart).map Part.chars = segments.map chars := by
  simp only [List.map_map, Function.comp_def, chars_toPart]

theorem filterMap_name?_toPart (segments : List Segment) :
    (segments.map toPart).filterMap Part.name? = segments.filterMap name? := by
  simp only [List.filterMap_map, Function.comp_def, name?_toPart]

theorem slash_not_mem (segment : Segment) : '/' ∉ segment.chars := by
  rw [← chars_toPart]
  exact segment.toPart.slash_not_mem

theorem placeholderName?_chars (segment : Segment) :
    placeholderName? segment.chars = segment.name? := by
  rw [← chars_toPart, Part.placeholderName?_chars, name?_toPart]

theorem names_behind (segments : List Segment) :
    names (behind '/' (segments.map chars)) = segments.filterMap name? := by
  rw [← map_chars_toPart, Part.names_behind, filterMap_name?_toPart]

theorem tailNames_eq (segments : List Segment) :
    tailNames (segments.map chars) = segments.filterMap name? := by
  rw [← map_chars_toPart, Part.tailNames_eq, filterMap_name?_toPart]

end Segment

/-- A template in its parts. No placeholder comes twice, and none for the type key behind the
head. -/
structure Layout where
  head : Head
  tail : List Segment
  distinct : (typeKeyField.toList :: tail.filterMap Segment.name?).Nodup

namespace Layout

variable (layout : Layout)

/-- The text of a template. -/
def text : String :=
  String.ofList
    (urnLead.toList ++ (layout.head.chars ++ behind '/' (layout.tail.map Segment.chars)))

/-- The names of the placeholders behind the head. -/
def placeholders : List String := (layout.tail.filterMap Segment.name?).map String.ofList

/-- The fields that URNs of the template carry. -/
def carries (name : String) : Bool := name = typeKeyField || name ∈ layout.placeholders

theorem names_text :
    names layout.text.toList = names layout.head.chars ++ layout.tail.filterMap Segment.name? := by
  rw [text, String.toList_ofList, Template.names_append_of_open_not_mem open_not_mem_urnLead,
    Head.names_append, Segment.names_behind]

theorem nodup_names : (names layout.text.toList).Nodup := by
  obtain ⟨hkey, htail⟩ := List.nodup_cons.1 layout.distinct
  rw [names_text]
  exact layout.head.nodup_names_append htail hkey

/-- Reading finds the placeholders that filling finds. -/
def shape : Shape layout.text where
  head := layout.head.chars
  tail := layout.tail.map Segment.chars
  isHead := layout.head.isHead
  text_eq := String.toList_ofList
  whole := by
    intro e he
    obtain ⟨segment, -, rfl⟩ := List.mem_map.1 he
    exact segment.slash_not_mem
  no_key := by
    intro hm
    obtain ⟨segment, hs, he⟩ := List.mem_map.1 hm
    refine (List.nodup_cons.1 layout.distinct).1 (List.mem_filterMap.2 ⟨segment, hs, ?_⟩)
    rw [← Segment.placeholderName?_chars, he, typeKeySegment_eq]
    exact placeholderName?_eq_some_iff.2 ⟨rfl, by decide +kernel⟩
  names_eq := by rw [names_text, Segment.tailNames_eq]
  key_only := layout.head.names_eq

theorem shape_head : layout.shape.head = layout.head.chars := rfl

theorem shape_tail : layout.shape.tail = layout.tail.map Segment.chars := rfl

theorem mem_placeholders_iff {name : String} :
    name ∈ layout.placeholders ↔
      ∃ n ∈ tailNames layout.shape.tail, name = String.ofList n := by
  rw [placeholders, shape_tail, Segment.tailNames_eq, List.mem_map]
  exact exists_congr fun n => and_congr_right fun _ => eq_comm

theorem carried_text : carried layout.text = layout.carries := by
  funext name
  rw [Bool.eq_iff_iff, layout.shape.carried_iff_mem_tailNames, carries, Bool.or_eq_true,
    decide_eq_true_eq, decide_eq_true_eq, mem_placeholders_iff]

/-- Fields that are read back from their URN. -/
structure Readable (fields : Table String) : Prop where
  /-- The type key has two halves, those of the head if that is literal. -/
  key : ∃ key, IsKey key ∧ fields.find? typeKeyField = some (String.ofList key) ∧
    ∀ first second, layout.head = .literal first second →
      key = first.chars ++ '/' :: second.chars
  bound : ∀ name ∈ layout.placeholders, ∃ v, fields.find? name = some v ∧ v ≠ ""
  /-- Only the last segment may hold slashes. -/
  slashes : ∀ name : Word, .placeholder name ∈ layout.tail → ∀ v,
    fields.find? (String.ofList name.chars) = some v → '/' ∈ v.toList →
    layout.tail.getLast? = some (.placeholder name)

variable {layout} {fields : Table String}

/-- A literal head is all of the type key that it fills. -/
theorem eq_of_append_eq {key more : List Char} (hkey : IsKey key) {first second : Word}
    (h : first.chars ++ '/' :: second.chars = key ++ more)
    (hmore : more = [] ∨ ∃ s, more = '/' :: s) : key = first.chars ++ '/' :: second.chars := by
  rcases hmore with rfl | ⟨s, rfl⟩
  · rw [h, List.append_nil]
  · obtain ⟨name, version, rfl, -, -, hname, -⟩ := hkey
    rw [List.append_assoc, List.cons_append] at h
    have hsecond := (append_sep_inj first.slash_not_mem hname h).2
    exact absurd (by simp [hsecond]) second.slash_not_mem

theorem filled_head_literal {first second : Word} :
    Template.filled fields (Head.literal first second).chars =
      first.chars ++ '/' :: second.chars :=
  Template.filled_of_names_eq_nil fields
    (Template.names_of_open_not_mem (Head.open_not_mem_literal first second))

theorem filled_head_key {key : List Char}
    (h : fields.find? typeKeyField = some (String.ofList key)) :
    Template.filled fields Head.key.chars = key := by
  have hfill := Template.filled_append_placeholder fields isName_typeKeyField [] []
  rw [List.nil_append, Template.filled_nil, List.nil_append, List.append_nil] at hfill
  rw [Head.chars, typeKeySegment_eq, hfill]
  exact Shape.value_of_find? (by rwa [String.ofList_toList])

theorem mem_dropLast_or_getLast? {segment : Segment} (h : segment ∈ layout.tail) :
    segment ∈ layout.tail.dropLast ∨ layout.tail.getLast? = some segment := by
  cases hlast : layout.tail.getLast? with
  | none =>
    rw [List.getLast?_eq_none_iff.1 hlast] at h
    cases h
  | some last =>
    rw [← List.dropLast_append_getLast? last hlast] at h
    exact (List.mem_append.1 h).imp_right fun hm => by rw [List.mem_singleton.1 hm]

/-- The placeholder in the last segment comes nowhere before. -/
theorem not_mem_dropLast {name : Word} (h : layout.tail.getLast? = some (.placeholder name)) :
    .placeholder name ∉ layout.tail.dropLast := by
  intro hm
  have hnodup := (List.nodup_cons.1 layout.distinct).2
  have htail : layout.tail = layout.tail.dropLast ++ [.placeholder name] :=
    (List.dropLast_append_getLast? _ h).symm
  rw [htail, List.filterMap_append] at hnodup
  exact (List.nodup_append.1 hnodup).2.2 _ (List.mem_filterMap.2 ⟨_, hm, rfl⟩) name.chars
    (by simp [Segment.name?]) rfl

theorem segmentValue_literal (word : Word) :
    segmentValue fields (Segment.literal word).chars = word.chars := by
  simp only [segmentValue, Segment.placeholderName?_chars, Segment.name?]
  rfl

theorem readable_of_suits (h : layout.shape.Suits fields) : layout.Readable fields where
  key := by
    obtain ⟨key, more, hkey, hfind, hfilled, hmore⟩ := h.key
    refine ⟨key, hkey, hfind, fun first second hhead => ?_⟩
    rw [shape_head, hhead, filled_head_literal] at hfilled
    exact eq_of_append_eq hkey hfilled (hmore.imp_right (·.2))
  bound := by
    intro name hname
    obtain ⟨n, hn, rfl⟩ := layout.mem_placeholders_iff.1 hname
    exact h.bound n hn
  slashes := by
    intro name hname v hv hslash
    refine (mem_dropLast_or_getLast? hname).resolve_left fun hm => ?_
    refine h.cut _ (by rw [shape_tail, ← List.map_dropLast]; exact List.mem_map_of_mem hm) ?_
    rwa [Shape.segmentValue_placeholder (Segment.placeholderName?_chars (.placeholder name)) hv]

theorem suits_of_readable (h : layout.Readable fields) : layout.shape.Suits fields where
  key := by
    obtain ⟨key, hkey, hfind, hliteral⟩ := h.key
    refine ⟨key, [], hkey, hfind, ?_, .inl rfl⟩
    rw [List.append_nil, shape_head]
    cases hhead : layout.head with
    | key => rw [filled_head_key hfind]
    | literal first second => rw [filled_head_literal, hliteral first second hhead]
  bound := fun n hn => h.bound _ (layout.mem_placeholders_iff.2 ⟨n, hn, rfl⟩)
  cut := by
    intro e he hslash
    rw [shape_tail, ← List.map_dropLast] at he
    obtain ⟨segment, hs, rfl⟩ := List.mem_map.1 he
    cases segment with
    | literal word =>
      rw [segmentValue_literal] at hslash
      exact word.slash_not_mem hslash
    | placeholder name =>
      have hmem := List.dropLast_subset _ hs
      have hname : name.chars ∈ layout.tail.filterMap Segment.name? :=
        List.mem_filterMap.2 ⟨_, hmem, rfl⟩
      obtain ⟨v, hv, -⟩ := h.bound _ (List.mem_map_of_mem hname)
      rw [Shape.segmentValue_placeholder (Segment.placeholderName?_chars (.placeholder name)) hv]
        at hslash
      exact not_mem_dropLast (h.slashes name hmem v hv hslash) hs
  some_text := by
    intro he
    obtain ⟨segment, -, hs⟩ := List.map_eq_singleton_iff.1 he
    exact segment.ne_nil hs

/-- Readable fields are read back. -/
theorem exists_parse_render (h : layout.Readable fields) :
    ∃ r, parse (render fields layout.text) layout.text = .ok r ∧
      r.fields = fields.restrict layout.carries := by
  rw [← carried_text, layout.shape.parse_render_iff_suits layout.nodup_names]
  exact suits_of_readable h

theorem text_ne_empty : layout.text ≠ "" := ne_empty_of_urnLead String.toList_ofList

variable (layout fields)

/-- **Round trip through a URN.** The fields a template carries are read back from their URN
exactly if they are readable. -/
theorem parse_render_iff :
    (∃ r, parse (render fields layout.text) layout.text = .ok r ∧
      r.fields = fields.restrict layout.carries) ↔ layout.Readable fields := by
  rw [← carried_text, layout.shape.parse_render_iff_suits layout.nodup_names]
  exact ⟨readable_of_suits, suits_of_readable⟩

end Layout

end ResourceNames.Urn
