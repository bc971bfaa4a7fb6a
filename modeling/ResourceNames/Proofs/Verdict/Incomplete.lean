import ResourceNames.Proofs.Name.Leftovers
import ResourceNames.Proofs.Verdict.Conversion

/-!
# Incomplete conversions

A conversion fails if the filled template still holds placeholders. Those are looked for in the
filled text, where the template left some and where a value may look like one.

* `run_convert_of_template`: what a conversion by a template comes to.
* `run_convert_eq_iff`: what was left is always reported, and nothing else exactly if no placeholder
  is spelled by characters.
-/

namespace ResourceNames

/-- What a conversion by a template comes to if some placeholders are missing. -/
def Resource.conversionWithout (r : Resource) (template : String) (missing : List String) :
    Except DirectoryError Conversion :=
  if missing = [] then .ok ⟨FieldList.render r.fields, some (Urn.render r.fields template)⟩
  else .error (.incompleteConversion r.rawInput missing)

/-- The placeholders of a template that stay in the URN of a resource. -/
def Resource.leftIn (r : Resource) (template : String) : List String :=
  (Template.kept r.fields [] (Template.names template.toList)).map String.ofList

/-- What filling a template for a resource makes of it spells no placeholder. -/
def Resource.FillsPlainly (r : Resource) (template : String) : Prop :=
  Template.Unspelled (Template.filledPieces r.fields [] (Template.pieces template.toList))

theorem Resource.conversionWithout_inj {r : Resource} {template : String} {ms ns : List String}
    (h : r.conversionWithout template ms = r.conversionWithout template ns) : ms = ns := by
  unfold conversionWithout at h
  split at h <;> split at h
  · rename_i hms hns
    rw [hms, hns]
  · cases h
  · cases h
  · cases h
    rfl

variable {σ : Type} [TypeDirectory σ] {s s' : σ} {r : Resource} {template : String}

/-- The template that is selected is the one that is filled. -/
theorem getD_toUrn?_of_selected
    (h : (conversionTemplate r : Lookup σ _).run.run s = (.ok (some template), s')) :
    (r.toUrn? template).getD "" = Urn.render r.fields template := by
  by_cases hne : template = ""
  · subst hne
    by_cases hused : r.urnTemplateUsed = ""
    · simp [Resource.toUrn?, hused, Urn.render, Template.fill, Template.pieces_nil,
        Template.fillPieces]
    · unfold conversionTemplate at h
      rw [if_neg hused] at h
      exact absurd (Option.some.inj (Except.ok.inj (congrArg Prod.fst h))) hused
  · simp [Resource.toUrn?, hne]

theorem run_convert_of_template
    (h : (conversionTemplate r : Lookup σ _).run.run s = (.ok (some template), s')) :
    (convert r : Lookup σ _).run.run s =
      (r.conversionWithout template (Template.unresolved (Urn.render r.fields template)), s') := by
  unfold convert convertWith Resource.conversionWithout
  rw [Lookup.run_bind, h]
  simp only [Lookup.run_liftExcept, getD_toUrn?_of_selected h]
  cases Template.unresolved (Urn.render r.fields template) <;> rfl

/-- **Incomplete conversions.** If a template is selected, a conversion reports each placeholder
that filling leaves in it. It reports these and no others, and so succeeds if there are none,
exactly if no placeholder is spelled by characters of values and of the template. -/
theorem run_convert_eq_iff {σ : Type} [TypeDirectory σ] {s s' : σ} {r : Resource}
    {template : String}
    (h : (conversionTemplate r : Lookup σ _).run.run s = (.ok (some template), s')) :
    (∃ missing, (r.leftIn template).Sublist missing ∧
        (convert r : Lookup σ _).run.run s = (r.conversionWithout template missing, s')) ∧
      ((convert r : Lookup σ _).run.run s =
          (r.conversionWithout template (r.leftIn template), s') ↔
        r.FillsPlainly template) := by
  obtain ⟨hsub, hiff⟩ := Template.names_fill r.fields template
  have hmissing := Template.unresolved_eq (Urn.render r.fields template)
  have hleft : r.leftIn template = Template.unresolved (Urn.render r.fields template) ↔
      r.FillsPlainly template := by
    rw [Resource.FillsPlainly, ← hiff, hmissing, Resource.leftIn, eq_comm]
    exact List.map_inj_right fun _ _ he => String.ofList_injective he
  rw [run_convert_of_template h]
  refine ⟨⟨_, hmissing ▸ hsub.map String.ofList, rfl⟩, ?_⟩
  rw [← hleft]
  constructor
  · exact fun he => (Resource.conversionWithout_inj (congrArg Prod.fst he)).symm
  · exact fun he => by rw [he]

/-! ## In the small run -/

open StaticDirectory (Step run sampleSteps sampleFields sampleTemplate)

/-- A value in angle brackets is taken for a placeholder that is left over. -/
example : Template.unresolved (Urn.render (sampleFields "<b>" "y") sampleTemplate) = ["b"] := by
  decide +kernel

/-- In the small run, the template of the type is selected. -/
theorem conversionTemplate_sample {fields : Table String} (input : String)
    (hkey : fields.find? typeKeyField = some "t.g/v") :
    (conversionTemplate ⟨.fieldList, fields, input, ""⟩ : Lookup StaticDirectory _).run.run
        (run "g" sampleSteps) = (.ok (some sampleTemplate), run "g" sampleSteps) := by
  have htypeKey : Resource.typeKey ⟨.fieldList, fields, input, ""⟩ = "t.g/v" :=
    Resource.typeKey_of_find? hkey
  have ht := StaticDirectory.find?_types_sample
  rw [← htypeKey] at ht
  rw [StaticDirectory.run_conversionTemplate, StaticDirectory.conversionTemplate_of_find? rfl ht
    (StaticDirectory.slash_mem_of_find?_run ht)]
  rfl

/-- In the small run, a field that is missing is reported. -/
theorem run_convert_sample :
    let r : Resource := ⟨.fieldList, (Table.empty.insert "ccrn" "t.g/v").insert "a" "x",
      "ccrn=t.g/v, a=x", ""⟩
    (conversionTemplate r : Lookup StaticDirectory _).run.run (run "g" sampleSteps) =
        (.ok (some sampleTemplate), run "g" sampleSteps) ∧
      (convert r : Lookup StaticDirectory _).run.run (run "g" sampleSteps) =
        (.error (.incompleteConversion "ccrn=t.g/v, a=x" ["b"]), run "g" sampleSteps) := by
  intro r
  have hkey : r.fields.find? typeKeyField = some "t.g/v" := by decide +kernel
  have hselected := conversionTemplate_sample "ccrn=t.g/v, a=x" hkey
  have hleft : r.leftIn sampleTemplate = ["b"] := by decide +kernel
  have hplain : r.FillsPlainly sampleTemplate :=
    (Template.names_fill r.fields sampleTemplate).2.1 (by decide +kernel)
  have hrun := (run_convert_eq_iff hselected).2.2 hplain
  rw [hleft] at hrun
  exact ⟨hselected, hrun⟩

/-- A value in angle brackets is reported as a placeholder, although the field of that name has a
value as well. -/
theorem not_forall_run_convert :
    ¬ ∀ (authority : String) (steps : List Step) (r : Resource) (template : String),
      (conversionTemplate r : Lookup StaticDirectory _).run.run (run authority steps) =
          (.ok (some template), run authority steps) →
      (convert r : Lookup StaticDirectory _).run.run (run authority steps) =
        (r.conversionWithout template (r.leftIn template), run authority steps) := by
  intro h
  have hkey : (sampleFields "<b>" "y").find? typeKeyField = some "t.g/v" := by decide +kernel
  have hselected := conversionTemplate_sample "ccrn=t.g/v, a=<b>, b=y" hkey
  have hrun := h _ _ _ _ hselected
  rw [run_convert_of_template hselected] at hrun
  have hmissing := Resource.conversionWithout_inj (congrArg Prod.fst hrun)
  revert hmissing
  decide +kernel

end ResourceNames
