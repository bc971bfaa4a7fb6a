import ResourceNames.Proofs.Directory.ListedTypes
import ResourceNames.Proofs.Name.Rewriting
import ResourceNames.Proofs.Verdict.Conversion

/-!
# URNs of valid URNs

A valid URN is written anew from the fields that it was read as.

* `urn_complete_eq_iff`: what this gives, and when it is the same URN again.
* `urn_complete_eq_of_pattern`: it does with a template that begins with the segment for the type
  key and goes on with whole segments.
-/

namespace ResourceNames.StaticDirectory

open Text

variable {d : StaticDirectory}

section

variable {input urn : String} {c : Conversion} (hformat : Format.detect input = .ok .urn)
  (hc : (d.complete input).conversion = some c) (hurn : c.urn = some urn)

include hformat hc hurn

/-- A valid URN is read and written with one and the same template, that of its type. -/
theorem exists_reading_of_complete :
    ∃ (template : String) (reading : Urn.Reading input template),
      (d.complete input).parsed = some ⟨.urn, reading.fields, input, template⟩ ∧
      d.getUrnTemplate (splitTypeKey (String.ofList reading.key)).1
        (splitTypeKey (String.ofList reading.key)).2 = .ok template ∧
      urn = Urn.render reading.fields template ∧ Template.unresolved urn = [] := by
  obtain ⟨r, hparsed, hr, -, hconvert⟩ := complete_conversion hc
  rw [readInput_of_urn hformat] at hr
  obtain ⟨key, template, hkey, ht, hparse⟩ := exists_template_of_readUrn hr
  obtain ⟨reading, rfl⟩ := Urn.parse_eq_ok_iff.1 hparse
  obtain rfl : String.ofList reading.key = key :=
    Except.ok.inj (reading.parseTypeKey.symm.trans hkey)
  have hne : template ≠ "" := Urn.ne_empty_of_urnLead reading.template_eq
  rw [convert_of_urnTemplateUsed hne] at hconvert
  obtain ⟨hrender, hfilled⟩ := urn_convertWith hconvert hurn
  refine ⟨template, reading, hparsed, ht, ?_, hfilled⟩
  rw [hrender]
  simp [Resource.toUrn?, hne]

theorem urn_complete_eq_of_pattern {pattern : Urn.Pattern} (hhalves : pattern.halves = none)
    (htail : pattern.tail ≠ [])
    (htemplate : (d.complete input).parsed.map (·.urnTemplateUsed) = some pattern.text) :
    urn = input := by
  obtain ⟨template, reading, hparsed, -, rfl, -⟩ := exists_reading_of_complete hformat hc hurn
  rw [hparsed] at htemplate
  obtain rfl : template = pattern.text := Option.some.inj htemplate
  exact Urn.Pattern.render_fields_of_none htail hhalves reading

end

/-- **URNs of valid URNs.** A valid URN is read with the template of its type, and what it was read
as is filled into the same template. That gives the URN again, with none of its fields left out,
exactly if reading and filling find the same placeholders in the template and the filled head is the
type key of the URN, together with what is left over of it. -/
theorem urn_complete_eq_iff {input urn : String} {c : Conversion}
    (hformat : Format.detect input = .ok .urn) (hc : (d.complete input).conversion = some c)
    (hurn : c.urn = some urn) :
    ∃ (template : String) (reading : Urn.Reading input template),
      (d.complete input).parsed = some ⟨.urn, reading.fields, input, template⟩ ∧
      d.getUrnTemplate (splitTypeKey (String.ofList reading.key)).1
        (splitTypeKey (String.ofList reading.key)).2 = .ok template ∧
      urn = Urn.render reading.fields template ∧
      ((urn = input ∧ reading.fields.restrict (Urn.carried template) = reading.fields) ↔
        ∃ shape : Urn.Shape template,
          Template.filled reading.fields shape.head = reading.key ++ reading.surplus) := by
  obtain ⟨template, reading, hparsed, ht, hrender, hfilled⟩ :=
    exists_reading_of_complete hformat hc hurn
  refine ⟨template, reading, hparsed, ht, hrender, ?_⟩
  rw [hrender] at hfilled ⊢
  exact reading.render_eq_iff hfilled

/-- A literal head stands for the type key, in whichever letters that was written. -/
example : Urn.render ((Table.empty.insert "ccrn" "T.g/v").insert "a" "x") spacedTemplate =
    "urn:ccrn:t.g/v/x" := by decide +kernel

/-- Without a tail, a template has no place for what follows the type key. -/
example : (Urn.parse "urn:ccrn:t.g/v/x" "urn:ccrn:<ccrn>").toOption.map
    (fun r => Urn.render r.fields r.urnTemplateUsed) = some "urn:ccrn:t.g/v" := by decide +kernel

/-- In the small run, a URN is written as itself. -/
theorem urn_complete_eq_sample :
    let verdict := (run "g" sampleSteps).complete "urn:ccrn:t.g/v/x/y"
    Format.detect "urn:ccrn:t.g/v/x/y" = .ok .urn ∧
      verdict.conversion = some ⟨"ccrn=t.g/v, a=x, b=y", some "urn:ccrn:t.g/v/x/y"⟩ ∧
      ∃ (template : String) (reading : Urn.Reading "urn:ccrn:t.g/v/x/y" template),
        verdict.parsed = some ⟨.urn, reading.fields, "urn:ccrn:t.g/v/x/y", template⟩ ∧
        "urn:ccrn:t.g/v/x/y" = Urn.render reading.fields template ∧
        reading.fields.restrict (Urn.carried template) = reading.fields ∧
        ∃ shape : Urn.Shape template,
          Template.filled reading.fields shape.head = reading.key ++ reading.surplus := by
  have hdetect : (Format.detect "urn:ccrn:t.g/v/x/y").toOption = some .urn := by decide +kernel
  have hparse : (Urn.parse "urn:ccrn:t.g/v/x/y" sampleTemplate).toOption =
      some ⟨.urn, sampleFields "x" "y", "urn:ccrn:t.g/v/x/y", sampleTemplate⟩ := by
    decide +kernel
  have hconvert : (convertWith ⟨.urn, sampleFields "x" "y", "urn:ccrn:t.g/v/x/y", sampleTemplate⟩
      (some sampleTemplate)).toOption =
        some ⟨"ccrn=t.g/v, a=x, b=y", some "urn:ccrn:t.g/v/x/y"⟩ := by
    decide +kernel
  obtain ⟨-, hparsed, hc⟩ := complete_urn_sample rfl hparse rfl hconvert
  obtain ⟨template, reading, hread, -, hrender, hiff⟩ :=
    urn_complete_eq_iff (eq_ok_of_toOption hdetect) hc rfl
  have hall : reading.fields.restrict (Urn.carried template) = reading.fields := by
    obtain ⟨hfields, rfl⟩ : reading.fields = sampleFields "x" "y" ∧ template = sampleTemplate := by
      simpa using hread.symm.trans hparsed
    rw [hfields]
    decide +kernel
  exact ⟨eq_ok_of_toOption hdetect, hc, template, reading, hread, hrender, hall,
    hiff.1 ⟨rfl, hall⟩⟩

/-! ## Type keys in capitals -/

theorem normalizeTypeKey_capitals : normalizeTypeKey "T.g/v" = "t.g/v" := by decide +kernel

theorem find?_types_spaced : (run "g" spacedSteps).index.types.find? "T.g/v" =
    some (sampleType "v" (.obj []) spacedTemplate) := by
  unfold TypeIndex.find?
  rw [normalizeTypeKey_capitals, (holds_run _ _).types, readings_spaced]
  decide +kernel

theorem find?_validators_spaced :
    (run "g" spacedSteps).index.validators.find? "t.g/v" = some ⟨.keywords [], [], 1⟩ := by
  rw [(holds_run _ _).validators, readings_spaced]
  rfl

/-- A type key in capitals is replaced by a literal head. -/
theorem not_forall_urn_complete_eq :
    ¬ ∀ (authority : String) (steps : List Step) (input urn : String) (c : Conversion),
      Format.detect input = .ok .urn →
      ((run authority steps).complete input).valid = true →
      ((run authority steps).complete input).conversion = some c → c.urn = some urn →
      urn = input := by
  intro h
  have hdetect : (Format.detect "urn:ccrn:T.g/v/x").toOption = some .urn := by decide +kernel
  let r : Resource := ⟨.urn, (Table.empty.insert "ccrn" "T.g/v").insert "a" "x",
    "urn:ccrn:T.g/v/x", spacedTemplate⟩
  have hparse : Urn.parse "urn:ccrn:T.g/v/x" spacedTemplate = .ok r := rfl
  have hkey : r.typeKey = "T.g/v" := rfl
  have haccepts : (run "g" spacedSteps).Accepts r := by
    refine accepts_of_violations (by rw [hkey, find?_types_spaced]) ?_ violations_empty
    rw [hkey, normalizeTypeKey_capitals, find?_validators_spaced]
  have hread := (readInput_eq_ok_iff find?_types_spaced
    (slash_mem_of_find?_run find?_types_spaced) (by decide +kernel) hkey).2 (.inl hparse)
  have hconvert : (run "g" spacedSteps).convert r =
      .ok ⟨"ccrn=T.g/v, a=x", some "urn:ccrn:t.g/v/x"⟩ := by
    rw [convert_of_urnTemplateUsed (by decide +kernel)]
    exact eq_ok_of_toOption (by decide +kernel)
  obtain ⟨hvalid, -, hc⟩ := complete_of_accepts hread haccepts hconvert
  exact absurd (h _ _ _ _ _ (eq_ok_of_toOption hdetect) hvalid hc rfl) (by decide)

end ResourceNames.StaticDirectory
