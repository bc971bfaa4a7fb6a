import ResourceNames.Proofs.Name.FilledTemplates

/-!
# What reading and filling take for a placeholder

Reading looks at whole segments behind the head of a template, filling at `<name>` anywhere.

* `Reading.isSome_find?_fields_iff`: the names that a URN has values for do not depend on the URN.
* `binds_iff_unresolved`: when reading and filling find the same names.
-/

namespace ResourceNames.Urn

open Text
open Template (IsName names)

/-! ## Segments that are placeholders -/

/-- Filling finds a segment that is a placeholder unless there are brackets in its name. -/
theorem mem_names_iff_isName {before : List Char} {tail : List (List Char)} {n : List Char}
    (hn : n ∈ tailNames tail) : n ∈ names (before ++ behind '/' tail) ↔ IsName n := by
  refine ⟨Template.isName_of_mem_names, fun hname => ?_⟩
  obtain ⟨e, he, hsegment⟩ := List.mem_filterMap.1 hn
  rw [Template.mem_names_iff_infix hname, Template.Piece.written,
    ← (placeholderName?_eq_some_iff.1 hsegment).1]
  exact infix_append_behind_of_mem (List.mem_cons_of_mem _ he)

namespace Reading

variable {input template : String} (reading : Reading input template)

/-- The tail of a template is the one that the reading goes by. -/
theorem exists_templateTail :
    ∃ body, after? urnLead.toList template.toList = some body ∧
      templateTail template body = .ok (reading.pairing.map (·.1)) := by
  refine ⟨_, by rw [reading.template_eq, after?_append], ?_⟩
  exact templateTail_append_behind reading.isHead reading.whole reading.no_key template

theorem isSome_find?_fields_iff {name : String} (hname : name ≠ typeKeyField) :
    (reading.fields.find? name).isSome ↔
      name.toList ∈ tailNames (reading.pairing.map (·.1)) := by
  have hne : name.toList ≠ typeKeyField.toList := fun he => hname (String.toList_inj.1 he)
  rw [← String.ofList_toList (s := name), Reading.fields, isSome_find?_fieldsOf_iff,
    String.toList_ofList]
  exact or_iff_right hne

end Reading

/-! ## Templates -/

theorem mem_unresolved_iff {name template : String} :
    name ∈ Template.unresolved template ↔ name.toList ∈ names template.toList := by
  rw [Template.unresolved_eq, List.mem_map]
  constructor
  · rintro ⟨n, hn, rfl⟩
    rwa [String.toList_ofList]
  · exact fun hn => ⟨_, hn, String.ofList_toList⟩

/-- **Placeholders of reading and of filling.** Whatever the URN, reading gives values to the
segments behind the head that are placeholders, besides the type key. Filling finds those of them
that have no brackets in their names. So both find the same names exactly if there are no such
brackets, and if all that filling finds, in the head or elsewhere, also has its own segment. -/
theorem binds_iff_unresolved {input template : String} {r : Resource}
    (h : parse input template = .ok r) :
    ∃ body tail, after? urnLead.toList template.toList = some body ∧
      templateTail template body = .ok tail ∧
      (∀ name ≠ typeKeyField,
        ((r.fields.find? name).isSome ↔ name.toList ∈ tailNames tail)) ∧
      (∀ n ∈ tailNames tail, String.ofList n ∈ Template.unresolved template ↔ IsName n) ∧
      ((∀ name ≠ typeKeyField,
          ((r.fields.find? name).isSome ↔ name ∈ Template.unresolved template)) ↔
        (∀ n ∈ tailNames tail, IsName n) ∧
          ∀ name ∈ Template.unresolved template, name ≠ typeKeyField →
            name.toList ∈ tailNames tail) := by
  obtain ⟨reading, rfl⟩ := parse_eq_ok_iff.1 h
  obtain ⟨body, hbody, htail⟩ := reading.exists_templateTail
  have hbinds : ∀ name ≠ typeKeyField, ((reading.fields.find? name).isSome ↔
      name.toList ∈ tailNames (reading.pairing.map (·.1))) :=
    fun _ hname => reading.isSome_find?_fields_iff hname
  have hseen : ∀ n ∈ tailNames (reading.pairing.map (·.1)),
      String.ofList n ∈ Template.unresolved template ↔ IsName n := fun n hn => by
    rw [mem_unresolved_iff, String.toList_ofList, reading.names_body]
    exact mem_names_iff_isName hn
  refine ⟨body, _, hbody, htail, hbinds, hseen, ?_⟩
  constructor
  · intro hsame
    refine ⟨fun n hn => ?_, fun name hm hname => ?_⟩
    · have hname : String.ofList n ≠ typeKeyField := fun he => by
        rw [← String.toList_ofList (l := n), he] at hn
        exact typeKeyField_not_mem_tailNames reading.no_key hn
      rw [← hseen n hn, ← hsame _ hname, hbinds _ hname, String.toList_ofList]
      exact hn
    · rwa [← hbinds name hname, hsame name hname]
  · rintro ⟨hnames, hown⟩ name hname
    rw [hbinds name hname]
    refine ⟨fun hm => ?_, fun hm => hown name hm hname⟩
    rw [← String.ofList_toList (s := name), hseen _ hm]
    exact hnames _ hm

/-- With a literal before its one placeholder, a template is read and filled alike. -/
theorem binds_iff_unresolved_sample :
    let r : Resource := ⟨.urn, (Table.empty.insert "ccrn" "t.g/v").insert "a" "y",
      "urn:ccrn:t.g/v/x/y", "urn:ccrn:<ccrn>/x/<a>"⟩
    parse "urn:ccrn:t.g/v/x/y" "urn:ccrn:<ccrn>/x/<a>" = .ok r ∧
      ∀ name ≠ typeKeyField,
        ((r.fields.find? name).isSome ↔ name ∈ Template.unresolved "urn:ccrn:<ccrn>/x/<a>") := by
  intro r
  have hparse : parse "urn:ccrn:t.g/v/x/y" "urn:ccrn:<ccrn>/x/<a>" = .ok r := rfl
  obtain ⟨body, tail, hbody, htail, -, hseen, hiff⟩ := binds_iff_unresolved hparse
  obtain rfl : "<ccrn>/x/<a>".toList = body := Option.some.inj hbody
  obtain rfl : ["x".toList, "<a>".toList] = tail := Except.ok.inj htail
  have hnames : tailNames ["x".toList, "<a>".toList] = ["a".toList] := by decide +kernel
  have hfound : Template.unresolved "urn:ccrn:<ccrn>/x/<a>" = ["ccrn", "a"] := by decide +kernel
  rw [hnames, hfound] at hseen hiff
  refine ⟨hparse, hfound ▸ hiff.2 ⟨fun n hn => (hseen n hn).1 ?_, fun name hm hname => ?_⟩⟩
  · obtain rfl := List.mem_singleton.1 hn
    simp
  · rcases List.mem_cons.1 hm with rfl | hm
    · exact absurd rfl hname
    · rw [List.mem_singleton.1 hm]
      exact List.mem_singleton_self _

/-- A placeholder in a head is filled, but no URN has a value for it. -/
theorem not_forall_binds_iff_unresolved :
    ¬ ∀ (input template : String) (r : Resource), parse input template = .ok r →
      ∀ name ≠ typeKeyField,
        ((r.fields.find? name).isSome ↔ name ∈ Template.unresolved template) := by
  intro h
  have hparse : parse "urn:ccrn:t.g/v/x" "urn:ccrn:<a>/v/<b>" =
      .ok ⟨.urn, (Table.empty.insert "ccrn" "t.g/v").insert "b" "x", "urn:ccrn:t.g/v/x",
        "urn:ccrn:<a>/v/<b>"⟩ := rfl
  have hseen : "a" ∈ Template.unresolved "urn:ccrn:<a>/v/<b>" := by decide +kernel
  have hbound := (h _ _ _ hparse "a" (by decide)).2 hseen
  revert hbound
  decide +kernel

end ResourceNames.Urn
