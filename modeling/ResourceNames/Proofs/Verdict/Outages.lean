import ResourceNames.Proofs.ControlPlane.Memory
import ResourceNames.Proofs.Directory.Templates
import ResourceNames.Proofs.Live.Answers
import ResourceNames.Proofs.Verdict.Steps
import ResourceNames.Proofs.Verdict.UnknownTypes

/-!
# Verdicts in an outage

While a control plane answers nothing, a live directory knows the types of its index and no more.

* `Outage`: the states of a control plane in which every call fails, and does not end that.
* `Outage.resolve_cases`, `Outage.getUrnTemplate_cases`, `Outage.validateValue_fails`: what is still
  answered.
* `verdict_of_outage`: no verdict is about the resource or its type.
-/

namespace ResourceNames

variable {π α : Type}

/-! ## Outages -/

/-- A failure of a live directory that changes it in its control plane only, which is still down. -/
def FailsDown (down : π → Prop) (d : LiveDirectory π)
    (out : Except DirectoryError α × LiveDirectory π) : Prop :=
  ∃ e plane, down plane ∧ out = (.error (.api e), { d with plane })

/-- The states of a control plane in which every call fails, and does not end that. -/
structure Outage [ControlPlane π] (down : π → Prop) : Prop where
  beginListing : ∀ p, down p → down (ControlPlane.beginListing p)
  listing : ∀ p, down p → ∃ e p', down p' ∧
    (ControlPlane.listing : Lookup π _).run.run p = (.error (.api e), p')
  create : ∀ d namespaceName name object p, down p → ∃ e p', down p' ∧
    (ControlPlane.create d namespaceName name object : Lookup π _).run.run p = (.error (.api e), p')

/-- A control plane in memory that is unavailable stays so, and admits nothing. -/
theorem MemoryPlane.outage (created : List CreatedObject) :
    Outage fun p : MemoryPlane => p.unavailable = true ∧ p.created = created where
  beginListing _ hp := hp
  listing p hp := by
    have hrun := p.run_listing
    rw [if_pos hp.1] at hrun
    exact ⟨_, p, hp, hrun⟩
  create d namespaceName name object p hp := by
    have hrun := p.run_create d namespaceName name object
    rw [if_pos hp.1] at hrun
    exact ⟨_, p.count, hp, hrun⟩

/-! ## Answers in an outage -/

namespace Outage

open Live

variable [ControlPlane π] {down : π → Prop} (h : Outage down) {d : LiveDirectory π}
  (hd : down d.plane)

include h hd

theorem refresh_fails :
    FailsDown down d ((LiveHolder.refresh : Lookup (LiveDirectory π) Unit).run.run d) := by
  obtain ⟨e, plane, hplane, hlisting⟩ := h.listing _ (h.beginListing _ hd)
  refine ⟨e, plane, hplane, (LiveDirectory.run_refresh d).trans ?_⟩
  rw [LiveDirectory.run_receive, LiveDirectory.run_ask]
  have hasked : (ControlPlane.listing : Lookup π _).run.run d.beginListing.plane = _ := hlisting
  rw [hasked]
  rfl

/-- Types are known from the index, or the refresh fails. -/
theorem resolve_cases (key : String) :
    (∃ t, (resolve key : Lookup (LiveDirectory π) _).run.run d = (.ok t, d)) ∨
      FailsDown down d ((resolve key : Lookup (LiveDirectory π) _).run.run d) := by
  rw [run_resolve]
  cases (LiveHolder.directory d).index.find? key with
  | some t => exact .inl ⟨t, rfl⟩
  | none =>
    obtain ⟨e, plane, hplane, hrefresh⟩ := h.refresh_fails hd
    rw [hrefresh]
    exact .inr ⟨e, plane, hplane, rfl⟩

/-- Templates are known from the index, or it is known that there is none, or the refresh fails. -/
theorem getUrnTemplate_cases (name version : String) :
    (∃ result, (getUrnTemplate name version : Lookup (LiveDirectory π) _).run.run d =
      (result, d) ∧ ∀ e, result = .error e →
        Reason.ofDirectoryError e = .templateUnavailable ∧
          ∃ t, d.index.named? d.order name version = some t ∧ t.hasUrnTemplate = false) ∨
      FailsDown down d
        ((getUrnTemplate name version : Lookup (LiveDirectory π) _).run.run d) := by
  rw [run_getUrnTemplate]
  cases htemplate : (LiveHolder.directory d).urnTemplate name version with
  | ok template => exact .inl ⟨_, rfl, nofun⟩
  | error e =>
    simp only
    by_cases hnotFound : e.isNotFound = true
    · obtain ⟨e', plane, hplane, hrefresh⟩ := h.refresh_fails hd
      rw [if_pos hnotFound, hrefresh]
      exact .inr ⟨e', plane, hplane, rfl⟩
    · rw [if_neg hnotFound]
      refine .inl ⟨_, rfl, fun e' he' => ?_⟩
      cases he'
      exact (TypeIndex.urnTemplate_eq_error htemplate).resolve_left hnotFound

/-- Nothing is admitted. -/
theorem validateValue_fails (key : String) (value : Resource) :
    FailsDown down d
      ((validateValue key value : Lookup (LiveDirectory π) _).run.run d) := by
  rcases h.resolve_cases hd key with ⟨t, ht⟩ | ⟨e, plane, hplane, hfails⟩
  · obtain ⟨e, plane, hplane, hcreate⟩ := h.create t d.namespaceName (objectName t.kind)
      (submission value d.namespaceName (objectName t.kind)) _ hd
    have hanswer : answerTo d.plane t d.namespaceName value = _ := hcreate
    have hrun : (validateValue key value : Lookup (LiveDirectory π) _).run.run d =
      ((answerTo d.plane t d.namespaceName value).1,
        { d with plane := (answerTo d.plane t d.namespaceName value).2 }) :=
      run_validateValue_of_resolve ht
    rw [hanswer] at hrun
    exact ⟨e, plane, hplane, hrun⟩
  · rw [run_validateValue, hfails]
    exact ⟨e, plane, hplane, rfl⟩

end Outage

/-! ## Verdicts in an outage -/

/-- An input that cannot be read in the form that its start promises, at least not as a URN with some
template. -/
inductive Unreadable (input : String) (e : ParseError) : Prop
  | form : Format.detect input = .error e → Unreadable input e
  | fieldList : Format.detect input = .ok .fieldList → FieldList.parse input = .error e →
    Unreadable input e
  | typeKey : Format.detect input = .ok .urn → Urn.parseTypeKey input = .error e →
    Unreadable input e
  | urn {template : String} : Format.detect input = .ok .urn → Urn.parse input template = .error e →
    Unreadable input e

/-- What an input can be rejected for without a word about the resource that it names. -/
inductive Excuse (index : TypeIndex) (order : TypeIndex.IterationOrder) (input template : String) :
    Reason → Prop
  | unreadable {e : ParseError} : Unreadable input e →
    Excuse index order input template (.ofParseError e)
  /-- It is a URN, and the index has a descriptor for it that is without a template. -/
  | noTemplate {key : String} {t : TypeDescriptor} : template = "" →
    Format.detect input = .ok .urn → Urn.parseTypeKey input = .ok key →
    index.named? order (splitTypeKey key).1 (splitTypeKey key).2 = some t →
    t.hasUrnTemplate = false → Excuse index order input template .templateUnavailable
  /-- The directory failed. -/
  | backend : Excuse index order input template .backend

/-- A verdict that does not tell anything about the resource, given by a live directory that keeps
what it knows. -/
structure Withheld (down : π → Prop) (d : LiveDirectory π) (input template : String)
    (out : Verdict × LiveDirectory π) : Prop where
  valid : out.1.valid = false
  reason : ∃ reason, out.1.reason = some reason ∧ Excuse d.index d.order input template reason
  not_unsupported : out.1.reason ≠ some .unsupportedType
  not_violation : out.1.reason ≠ some .schemaViolation
  index : out.2.index = d.index
  generation : out.2.generation = d.generation
  plane : down out.2.plane

theorem Excuse.ne {index : TypeIndex} {order : TypeIndex.IterationOrder} {input template : String}
    {reason : Reason} (h : Excuse index order input template reason) :
    reason ≠ .unsupportedType ∧ reason ≠ .schemaViolation := by
  cases h with
  | @unreadable e => cases e <;> exact ⟨nofun, nofun⟩
  | noTemplate | backend => exact ⟨nofun, nofun⟩

theorem withheld_of_excuse {down : π → Prop} {d : LiveDirectory π} {input template : String}
    {v : Verdict} {reason : Reason} {plane : π} (hvalid : v.valid = false)
    (hreason : v.reason = some reason) (hexcuse : Excuse d.index d.order input template reason)
    (hplane : down plane) : Withheld down d input template (v, { d with plane }) where
  valid := hvalid
  reason := ⟨reason, hreason, hexcuse⟩
  not_unsupported h := hexcuse.ne.1 (Option.some.inj (hreason.symm.trans h))
  not_violation h := hexcuse.ne.2 (Option.some.inj (hreason.symm.trans h))
  index := rfl
  generation := rfl
  plane := hplane

/-- What comes of reading an input: a resource, or a verdict that does not tell anything. -/
inductive ReadOrWithheld (down : π → Prop) (d : LiveDirectory π) (input template : String) :
    Except Verdict Resource × LiveDirectory π → Prop
  | read {r : Resource} {plane : π} : down plane →
    ReadOrWithheld down d input template (.ok r, { d with plane })
  | withheld {verdict : Verdict} {d' : LiveDirectory π} :
    Withheld down d input template (verdict, d') →
    ReadOrWithheld down d input template (.error verdict, d')

/-- What is read without the directory. -/
theorem readOrWithheld_of_parse {down : π → Prop} {d : LiveDirectory π} {input template : String}
    {x : Except ParseError Resource} (hx : ∀ e, x = .error e → Unreadable input e)
    (hd : down d.plane) :
    ReadOrWithheld down d input template (x.mapError .ofParseError, d) := by
  cases x with
  | ok r => exact .read hd
  | error e => exact .withheld (withheld_of_excuse rfl rfl (.unreadable (hx e rfl)) hd)

namespace Outage

open Live

variable [ControlPlane π] {down : π → Prop} (h : Outage down) {d : LiveDirectory π}
  (hd : down d.plane) (input template : String)

include h hd

/-- No resource is judged. -/
theorem withheld_judge (r : Resource) :
    Withheld down d input template ((judge r : StateM (LiveDirectory π) _).run d) := by
  rw [TypeDirectory.run_judge, typeDirectory_getType]
  rcases h.resolve_cases hd r.typeKey with ⟨t, ht⟩ | ⟨e, plane, hplane, hfails⟩
  · -- A type that is still known is of no use, as the check needs the control plane.
    obtain ⟨e, plane, hplane, hfails⟩ := h.validateValue_fails hd r.typeKey r
    simp only [ht, typeDirectory_validateValue, hfails]
    exact withheld_of_excuse rfl rfl .backend hplane
  · simp only [hfails]
    exact withheld_of_excuse rfl rfl .backend hplane

theorem readOrWithheld_readUrn (htemplate : template = "")
    (hdetect : Format.detect input = .ok .urn) :
    ReadOrWithheld down d input template ((readUrn input : StateM (LiveDirectory π) _).run d) := by
  rw [TypeDirectory.run_readUrn]
  cases hkey : Urn.parseTypeKey input with
  | error e =>
    exact .withheld (withheld_of_excuse rfl rfl (.unreadable (.typeKey hdetect hkey)) hd)
  | ok key =>
    simp only [typeDirectory_getUrnTemplate]
    rcases h.getUrnTemplate_cases hd (splitTypeKey key).1 (splitTypeKey key).2 with
      ⟨result, hknown, hnone⟩ | ⟨e, plane, hplane, hfails⟩
    · simp only [hknown]
      cases result with
      | ok template => exact readOrWithheld_of_parse (fun _ => .urn hdetect) hd
      | error e =>
        obtain ⟨hreason, t, ht, hhas⟩ := hnone e rfl
        refine .withheld (withheld_of_excuse (valid_ofLookupFailure key e) ?_
          (.noTemplate htemplate hdetect hkey ht hhas) hd)
        rw [StaticDirectory.reason_ofLookupFailure, hreason]
    · simp only [hfails]
      exact .withheld (withheld_of_excuse rfl rfl .backend hplane)

theorem readOrWithheld_readInput :
    ReadOrWithheld down d input template
      ((readInput input template : StateM (LiveDirectory π) _).run d) := by
  rw [TypeDirectory.run_readInput]
  cases hdetect : Format.detect input with
  | error e => exact .withheld (withheld_of_excuse rfl rfl (.unreadable (.form hdetect)) hd)
  | ok format =>
    cases format with
    | fieldList => exact readOrWithheld_of_parse (fun _ => .fieldList hdetect) hd
    | urn =>
      by_cases htemplate : template = ""
      · simp only [if_pos htemplate]
        exact h.readOrWithheld_readUrn hd input template htemplate hdetect
      · simp only [if_neg htemplate]
        exact readOrWithheld_of_parse (fun _ => .urn hdetect) hd

/-- No input is validated. -/
theorem withheld_validateWithTemplate :
    Withheld down d input template
      ((validateWithTemplate input template : StateM (LiveDirectory π) _).run d) := by
  rw [TypeDirectory.run_validateWithTemplate]
  have hread := h.readOrWithheld_readInput hd input template
  generalize (readInput input template : StateM (LiveDirectory π) _).run d = out at hread ⊢
  cases hread with
  | @read r plane hplane =>
    obtain ⟨hvalid, hreason, hsupported, hviolation, hindex, hgeneration, hfinal⟩ :=
      h.withheld_judge (d := { d with plane }) hplane input template r
    exact ⟨hvalid, hreason, hsupported, hviolation, hindex, hgeneration, hfinal⟩
  | withheld hverdict => exact hverdict

end Outage

/-- **Outages.** While every call of the control plane fails, no input is valid. What it is rejected
for is that it cannot be read, that it is a URN of an indexed type without a template, or that the
directory failed, but never that its type is unknown or that it breaks a schema. The directory keeps
its index and its generation, and a control plane in memory what it admitted before. -/
theorem verdict_of_outage :
    (∀ {π : Type} [ControlPlane π] (down : π → Prop), Outage down →
      ∀ d : LiveDirectory π, down d.plane → ∀ input template : String,
        Withheld down d input template ((validateWithTemplate input template).run d) ∧
        Withheld down d input "" ((validate input).run d) ∧
        Withheld down d input "" ((complete input).run d)) ∧
    ∀ created : List CreatedObject,
      Outage fun p : MemoryPlane => p.unavailable = true ∧ p.created = created := by
  refine ⟨fun down h d hd input template => ?_, MemoryPlane.outage⟩
  have hvalidate : Withheld down d input "" ((validate input).run d) :=
    h.withheld_validateWithTemplate hd input ""
  refine ⟨h.withheld_validateWithTemplate hd input template, hvalidate, ?_⟩
  rwa [TypeDirectory.run_complete_of_invalid d input hvalidate.valid]

/-! ## An outage after a refresh -/

/-- A live directory whose control plane became unavailable after a refresh. -/
def cutOffDirectory : LiveDirectory MemoryPlane :=
  { sampleDirectory with
    plane := { sampleDirectory.plane with
      unavailable := true
      created := [⟨"t.g/v", "n", "t-****-*", .obj []⟩] } }

/-- A resource of a known type and one of an unknown type are rejected alike, and a URN of the known
type for its want of a template. -/
theorem verdict_of_outage_sample :
    let onKnown := (complete "ccrn=t.g/v").run cutOffDirectory
    let onUnknown := (validate "ccrn=u.g/v").run cutOffDirectory
    let onUrn := (validate "urn:ccrn:t.g/v/x").run cutOffDirectory
    (onKnown.1.valid = false ∧ onUnknown.1.valid = false ∧ onUrn.1.valid = false) ∧
      onKnown.1.reason = some .backend ∧ onUnknown.1.reason = some .backend ∧
      onUrn.1.reason = some .templateUnavailable ∧
      onKnown.2.generation = 1 ∧ onKnown.2.plane.created = cutOffDirectory.plane.created := by
  intro onKnown onUnknown onUrn
  obtain ⟨hverdict, houtage⟩ := verdict_of_outage
  have hall := hverdict _ (houtage cutOffDirectory.plane.created) cutOffDirectory ⟨rfl, rfl⟩
  obtain ⟨-, -, hknown⟩ := hall "ccrn=t.g/v" ""
  obtain ⟨-, hunknown, -⟩ := hall "ccrn=u.g/v" ""
  obtain ⟨-, hurn, -⟩ := hall "urn:ccrn:t.g/v/x" ""
  refine ⟨⟨hknown.valid, hunknown.valid, hurn.valid⟩, ?_, ?_, ?_, hknown.generation,
    hknown.plane.2⟩
  · decide +kernel
  · decide +kernel
  · decide +kernel

end ResourceNames
