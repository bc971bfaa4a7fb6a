import ResourceNames.Proofs.Name.UrnParts

/-!
# How URNs are read

`Reading input template` says how the segments of a URN and those of a template are matched with
each other. A URN that cannot be read so is refused for one definite reason: `Refused` has a
constructor for each check of the parser, in their order, and says what passed before.

* `read_or_refused`: each URN is read or refused.
* `parse_eq_ok_iff`: parsing succeeds exactly if there is a reading, and gives its fields.
* `parse_eq_error_iff`: it fails exactly if the URN is refused, and gives the reason.
* `parse_eq_iff`: what parsing gives, for any two texts.
-/

namespace ResourceNames.Urn

open Text

/-! ## Readings -/

/-- How a URN is read with a template. -/
structure Reading (input template : String) where
  key : List Char
  head : List Char
  pairing : Pairing
  surplus : List Char
  rest : Option (List Char)
  isKey : IsKey key
  isHead : IsHead head
  input_eq : input.toList = urnLead.toList ++ (key ++ continued rest)
  template_eq : template.toList = urnLead.toList ++ (head ++ behind '/' (pairing.map (·.1)))
  pairs : Pairs (continued rest) (pairing.map (·.1)) pairing surplus
  whole : ∀ e ∈ pairing.map (·.1), '/' ∉ e
  no_key : typeKeySegment ∉ pairing.map (·.1)

namespace Reading

variable {input template : String}

/-- The fields that a URN has by a reading. -/
def fields (reading : Reading input template) : Table String :=
  fieldsOf reading.key reading.pairing

/-- What stands before the segments of a URN is its type key, and what is left over. -/
theorem append_behind_eq_iff (reading : Reading input template) {head : List Char} :
    head ++ behind '/' (reading.pairing.map (·.2)) = reading.key ++ continued reading.rest ↔
      head = reading.key ++ reading.surplus := by
  rw [reading.pairs.rest_eq]
  rcases reading.pairs.surplus_eq with hs | hp
  · rw [hs, List.append_nil, List.append_nil]
    exact List.append_left_inj _
  · simp [hp]

end Reading

/-- A URN and a template that both begin as they have to: with a type key, and with a head. -/
structure Parts (input template : String) (key : List Char) (rest : Option (List Char))
    (tail : List (List Char)) : Prop where
  isKey : IsKey key
  input_eq : input.toList = urnLead.toList ++ (key ++ continued rest)
  template_eq :
    ∃ head, IsHead head ∧ template.toList = urnLead.toList ++ (head ++ behind '/' tail)
  whole : ∀ e ∈ tail, '/' ∉ e
  no_key : typeKeySegment ∉ tail

theorem Reading.parts {input template : String} (reading : Reading input template) :
    Parts input template reading.key reading.rest (reading.pairing.map (·.1)) :=
  ⟨reading.isKey, reading.input_eq, ⟨reading.head, reading.isHead, reading.template_eq⟩,
    reading.whole, reading.no_key⟩

/-- What parsing comes to after the checks of both beginnings. -/
theorem Parts.parse_eq {input template : String} {key : List Char} {rest : Option (List Char)}
    {tail : List (List Char)} (h : Parts input template key rest tail) :
    parse input template = do
      let fields ← readFields input template key rest tail
      let resource ← Resource.ofFields .urn fields input
      return { resource with urnTemplateUsed := template } := by
  obtain ⟨head, hhead, htemplate⟩ := h.template_eq
  unfold parse
  rw [h.input_eq, htemplate, after?_append, after?_append]
  simp only [bind, Except.bind, splitTypeKey_append_continued h.isKey,
    templateTail_append_behind hhead h.whole h.no_key]

theorem Reading.parse_eq {input template : String} (reading : Reading input template) :
    parse input template = .ok ⟨.urn, reading.fields, input, template⟩ := by
  have hfields : readFields input template reading.key reading.rest
      (reading.pairing.map (·.1)) = .ok reading.fields :=
    readFields_eq_ok_iff.2 ⟨_, _, reading.pairs, rfl⟩
  have hof : Resource.ofFields .urn reading.fields input =
      .ok ⟨.urn, reading.fields, input, ""⟩ :=
    ofFields_fieldsOf reading.isKey reading.no_key input
  rw [reading.parts.parse_eq, hfields]
  simp only [bind, Except.bind, hof]
  rfl

/-! ## Refusals -/

/-- Why a URN is not read with a template. -/
inductive Refused (input template : String) : ParseError → Prop
  | notUrn (h : ¬ urnLead.toList <+: input.toList) :
    Refused input template (.malformed (.notUrn input))
  | templateNotUrn (hinput : urnLead.toList <+: input.toList)
    (h : ¬ urnLead.toList <+: template.toList) :
    Refused input template (.malformed (.templateNotUrn template))
  | noTypeKey {body : List Char} (hinput : input.toList = urnLead.toList ++ body)
    (htemplate : urnLead.toList <+: template.toList)
    (h : ∀ key rest, IsKey key → body ≠ key ++ continued rest) :
    Refused input template (.malformed (.noTypeKey input))
  | templateHead {key body : List Char} {rest : Option (List Char)} (hkey : IsKey key)
    (hinput : input.toList = urnLead.toList ++ (key ++ continued rest))
    (htemplate : template.toList = urnLead.toList ++ body)
    (h : ∀ head tail, IsHead head → (∀ e ∈ tail, '/' ∉ e) → body ≠ head ++ behind '/' tail) :
    Refused input template (.malformed (.templateHead template))
  | typeKeyInTail {key head : List Char} {rest : Option (List Char)} {tail : List (List Char)}
    (hkey : IsKey key) (hinput : input.toList = urnLead.toList ++ (key ++ continued rest))
    (hhead : IsHead head)
    (htemplate : template.toList = urnLead.toList ++ (head ++ behind '/' tail))
    (hwhole : ∀ e ∈ tail, '/' ∉ e) (h : typeKeySegment ∈ tail) :
    Refused input template (.malformed (.typeKeyInTail template))
  | segmentCount {key : List Char} {rest : Option (List Char)} {tail : List (List Char)}
    (parts : Parts input template key rest tail) (h : segmentCount rest < tail.length) :
    Refused input template (.segmentCount template input tail.length (segmentCount rest))
  | misfit {key : List Char} {rest : Option (List Char)} {before after : Pairing}
    {p : List Char × List Char}
    (parts : Parts input template key rest ((before ++ p :: after).map (·.1)))
    (hcut : Cut rest ((before ++ p :: after).map (·.2))) (hfits : ∀ q ∈ before, Fits q.1 q.2)
    (h : ¬ Fits p.1 p.2) : Refused input template (misfit input p)

theorem parse_of_refused {input template : String} {e : ParseError}
    (h : Refused input template e) : parse input template = .error e := by
  cases h with
  | notUrn h => simp only [parse, after?_eq_none h]
  | templateNotUrn hinput h =>
    obtain ⟨body, hbody⟩ := hinput
    unfold parse
    rw [← hbody, after?_append]
    simp only [after?_eq_none h]
  | noTypeKey hinput htemplate h =>
    obtain ⟨body, hbody⟩ := htemplate
    unfold parse
    rw [hinput, ← hbody, after?_append, after?_append]
    simp only [splitTypeKey_of_not_isKey h]
    rfl
  | templateHead hkey hinput htemplate h =>
    unfold parse
    rw [hinput, htemplate, after?_append, after?_append]
    simp only [bind, Except.bind, splitTypeKey_append_continued hkey,
      templateTail_of_not_isHead h]
  | typeKeyInTail hkey hinput hhead htemplate hwhole h =>
    unfold parse
    rw [hinput, htemplate, after?_append, after?_append]
    simp only [bind, Except.bind, splitTypeKey_append_continued hkey,
      templateTail_of_isHead hhead hwhole, if_pos h]
  | segmentCount parts h =>
    rw [parts.parse_eq, readFields_of_short h]
    rfl
  | misfit parts hcut hfits h =>
    rw [parts.parse_eq, readFields_of_cut hcut (by simp), matchSegments_of_misfit hfits h]
    rfl

theorem Parts.read_or_refused {input template : String} {key : List Char}
    {rest : Option (List Char)} {tail : List (List Char)}
    (h : Parts input template key rest tail) :
    Nonempty (Reading input template) ∨ ∃ e, Refused input template e := by
  obtain ⟨head, hhead, htemplate⟩ := h.template_eq
  have hread : ∀ (pairing : Pairing) {surplus : List Char}, pairing.map (·.1) = tail →
      Pairs (continued rest) (pairing.map (·.1)) pairing surplus →
      Nonempty (Reading input template) := by
    rintro pairing surplus rfl hpairs
    exact ⟨⟨key, head, pairing, surplus, rest, h.isKey, hhead, h.input_eq, htemplate, hpairs,
      h.whole, h.no_key⟩⟩
  by_cases htail : tail = []
  · exact .inl (hread [] htail.symm (pairs_nil _))
  · by_cases hshort : Urn.segmentCount rest < tail.length
    · exact .inr ⟨_, .segmentCount h hshort⟩
    · obtain ⟨pairing, rfl, hcut⟩ := exists_cut htail hshort
      by_cases hfits : ∀ p ∈ pairing, Fits p.1 p.2
      · exact .inl (hread pairing rfl (hcut.pairs hfits))
      · obtain ⟨before, p, after, rfl, hbefore, hp⟩ := exists_leftmost_misfit hfits
        exact .inr ⟨_, .misfit h hcut hbefore hp⟩

/-- Each URN is read or refused. -/
theorem read_or_refused (input template : String) :
    Nonempty (Reading input template) ∨ ∃ e, Refused input template e := by
  -- The cases are the checks of the parser, in their order.
  by_cases hurn : urnLead.toList <+: input.toList
  · by_cases htemplate : urnLead.toList <+: template.toList
    · obtain ⟨body, hbody⟩ := hurn
      obtain ⟨templateBody, htemplateBody⟩ := htemplate
      by_cases hkey : ∃ key rest, IsKey key ∧ body = key ++ continued rest
      · obtain ⟨key, rest, hkey, rfl⟩ := hkey
        by_cases hhead : ∃ head tail, IsHead head ∧ (∀ e ∈ tail, '/' ∉ e) ∧
            templateBody = head ++ behind '/' tail
        · obtain ⟨head, tail, hhead, hwhole, rfl⟩ := hhead
          by_cases hno : typeKeySegment ∈ tail
          · exact .inr ⟨_, .typeKeyInTail hkey hbody.symm hhead htemplateBody.symm hwhole hno⟩
          · exact Parts.read_or_refused
              ⟨hkey, hbody.symm, ⟨head, hhead, htemplateBody.symm⟩, hwhole, hno⟩
        · exact .inr ⟨_, .templateHead hkey hbody.symm htemplateBody.symm
            fun head tail h hwhole he => hhead ⟨head, tail, h, hwhole, he⟩⟩
      · exact .inr ⟨_, .noTypeKey hbody.symm ⟨_, htemplateBody⟩
          fun key rest h he => hkey ⟨key, rest, h, he⟩⟩
    · exact .inr ⟨_, .templateNotUrn hurn htemplate⟩
  · exact .inr ⟨_, .notUrn hurn⟩

/-! ## Results -/

/-- **Parsing a URN.** It succeeds exactly if there is a way to read the URN with the template. -/
theorem parse_eq_ok_iff {input template : String} {r : Resource} :
    parse input template = .ok r ↔
      ∃ reading : Reading input template, r = ⟨.urn, reading.fields, input, template⟩ := by
  constructor
  · intro h
    obtain ⟨⟨reading⟩⟩ | ⟨e, he⟩ := read_or_refused input template
    · cases reading.parse_eq.symm.trans h
      exact ⟨reading, rfl⟩
    · cases (parse_of_refused he).symm.trans h
  · rintro ⟨reading, rfl⟩
    exact reading.parse_eq

theorem parse_eq_error_iff {input template : String} {e : ParseError} :
    parse input template = .error e ↔ Refused input template e := by
  constructor
  · intro h
    obtain ⟨⟨reading⟩⟩ | ⟨e', he'⟩ := read_or_refused input template
    · cases h.symm.trans reading.parse_eq
    · cases h.symm.trans (parse_of_refused he')
      exact he'
  · exact parse_of_refused

/-- Some fields are those of a reading: the type key, whatever the head of the template says, and
for each placeholder what stands in its last place. -/
structure Reading.Gives {input template : String} (reading : Reading input template)
    (fields : Table String) : Prop where
  typeKey : fields.find? typeKeyField = some (String.ofList reading.key)
  last : ∀ name ≠ typeKeyField,
    fields.find? name = (places reading.pairing name.toList).getLast?.map String.ofList

theorem Reading.gives_iff {input template : String} (reading : Reading input template)
    {fields : Table String} : reading.Gives fields ↔ fields = reading.fields := by
  have hkey := find?_typeKeyField_fieldsOf reading.key reading.no_key
  constructor
  · intro h
    refine Table.ext_find? fun name => ?_
    by_cases hname : name = typeKeyField
    · rw [hname, h.typeKey]
      exact hkey.symm
    · rw [h.last name hname]
      exact (find?_fieldsOf_of_ne hname).symm
  · rintro rfl
    exact ⟨hkey, fun name hname => find?_fieldsOf_of_ne hname⟩

/-- **Parsing any text with any template.** A resource comes of it exactly if there is a way to
read the URN with the template, and has the fields of that reading; a fault comes of it exactly if
the URN is refused for it. -/
theorem parse_eq_iff {input template : String} {result : Except ParseError Resource} :
    parse input template = result ↔
      match result with
      | .ok r => ∃ reading : Reading input template,
          r.format = .urn ∧ r.rawInput = input ∧ r.urnTemplateUsed = template ∧
            reading.Gives r.fields
      | .error e => Refused input template e := by
  cases result with
  | error e => exact parse_eq_error_iff
  | ok r =>
    rw [parse_eq_ok_iff]
    refine exists_congr fun reading => ?_
    rw [reading.gives_iff]
    constructor
    · rintro rfl
      exact ⟨rfl, rfl, rfl, rfl⟩
    · rintro ⟨hformat, hinput, htemplate, hfields⟩
      show ⟨r.format, r.fields, r.rawInput, r.urnTemplateUsed⟩ = (_ : Resource)
      rw [hformat, hfields, hinput, htemplate]

/-! ## Type keys of readings -/

theorem ne_empty_of_urnLead {text : String} {rest : List Char}
    (h : text.toList = urnLead.toList ++ rest) : text ≠ "" := by
  rintro rfl
  rw [String.toList_empty] at h
  have hlead : urnLead.toList = [] := (List.append_eq_nil_iff.1 h.symm).1
  exact absurd hlead (by decide +kernel)

theorem Reading.typeKey_eq {input template : String} (reading : Reading input template) :
    (⟨.urn, reading.fields, input, template⟩ : Resource).typeKey = String.ofList reading.key := by
  unfold Resource.typeKey Reading.fields
  rw [find?_typeKeyField_fieldsOf _ reading.no_key, Option.getD_some]

/-- However a URN is read, its type key is the same. -/
theorem Reading.parseTypeKey {input template : String} (reading : Reading input template) :
    Urn.parseTypeKey input = .ok (String.ofList reading.key) := by
  let alone : Reading input typeKeyTemplate :=
    ⟨reading.key, typeKeySegment, [], continued reading.rest, reading.rest, reading.isKey, .inl rfl,
      reading.input_eq, by decide +kernel, pairs_nil _, by simp, by simp⟩
  simp only [Urn.parseTypeKey, alone.parse_eq, bind, Except.bind, pure, Except.pure,
    alone.typeKey_eq]
  rfl

/-- What is read as a URN is taken for one. -/
theorem Reading.detect_eq {input template : String} (reading : Reading input template) :
    Format.detect input = .ok .urn := by
  have hurn : startsWith urnLead input = true := by
    unfold startsWith
    rw [reading.input_eq, after?_append]
    rfl
  have hlist : startsWith fieldListLead input = false := by
    have hc : fieldListLead.toList = ['c', 'c', 'r', 'n', '='] := by decide +kernel
    have hu : urnLead.toList = ['u', 'r', 'n', ':', 'c', 'c', 'r', 'n', ':'] := by decide +kernel
    unfold startsWith
    rw [reading.input_eq, hc, hu]
    rfl
  simp only [Format.detect, hlist, hurn, if_true, if_false, Bool.false_eq_true]

end ResourceNames.Urn
