import ResourceNames.Proofs.ControlPlane.Recorded
import ResourceNames.Proofs.Verdict.Live
import ResourceNames.Proofs.Verdict.UnknownTypes

/-!
# Requests for a verdict

How often a live directory calls on its control plane for one verdict. The look-up of a template and
that of a type do not agree on what a hit is, so each of them may list.

* `maps_forget`: a record of the requests does not change the answers.
* `verdictListings_eq_two_iff`: when two listings are made for one verdict.
* `requests_validate`: the bounds on the requests for a verdict.
-/

namespace ResourceNames

variable {π : Type} [ControlPlane π]

namespace LiveDirectory

/-! ## Recorded directories -/

/-- The directory with an empty record of the requests to its control plane. -/
def recorded {π : Type} (d : LiveDirectory π) : LiveDirectory (Recorded π) :=
  ⟨⟨d.plane, []⟩, d.authority, d.namespaceName, d.index, d.generation, d.order⟩

/-- The directory without its record. -/
def forget {π : Type} (d : LiveDirectory (Recorded π)) : LiveDirectory π :=
  ⟨d.plane.plane, d.authority, d.namespaceName, d.index, d.generation, d.order⟩

theorem forget_recorded {π : Type} (d : LiveDirectory π) : d.recorded.forget = d := rfl

theorem index_forget {π : Type} (d : LiveDirectory (Recorded π)) : d.forget.index = d.index := rfl

theorem urnTemplate_forget {π : Type} (d : LiveDirectory (Recorded π)) (name version : String) :
    d.forget.urnTemplate name version = d.urnTemplate name version := rfl

variable (d : LiveDirectory (Recorded π))

theorem run_refresh_forget :
    (refresh : Lookup (LiveDirectory π) Unit).run.run d.forget =
      Prod.map id forget ((refresh : Lookup (LiveDirectory (Recorded π)) Unit).run.run d) := by
  rw [run_refresh, run_refresh, run_receive, run_receive, run_ask, run_ask, Recorded.run_listing]
  have hplane : d.forget.beginListing.plane = d.beginListing.plane.plane := rfl
  rw [hplane]
  rcases (ControlPlane.listing : Lookup π _).run.run d.beginListing.plane.plane with
    ⟨e | documents, plane⟩ <;> rfl

theorem run_resolve_forget (key : String) :
    (Live.resolve key : Lookup (LiveDirectory π) _).run.run d.forget =
      Prod.map id forget
        ((Live.resolve key : Lookup (LiveDirectory (Recorded π)) _).run.run d) := by
  rw [run_resolve, run_resolve, run_refresh_forget, index_forget]
  cases d.index.find? key with
  | some t => rfl
  | none =>
    rcases (refresh : Lookup (LiveDirectory (Recorded π)) Unit).run.run d with ⟨e | u, d'⟩
    · rfl
    · simp only [Prod.map_apply, id_eq, index_forget]
      cases d'.index.find? key <;> rfl

theorem run_getUrnTemplate_forget (name version : String) :
    (Live.getUrnTemplate name version : Lookup (LiveDirectory π) _).run.run d.forget =
      Prod.map id forget
        ((Live.getUrnTemplate name version : Lookup (LiveDirectory (Recorded π)) _).run.run d) := by
  rw [run_getUrnTemplate, run_getUrnTemplate, run_refresh_forget, urnTemplate_forget]
  cases d.urnTemplate name version with
  | ok template => rfl
  | error e =>
    by_cases hmiss : e.isNotFound = true
    · simp only [if_pos hmiss]
      rcases (refresh : Lookup (LiveDirectory (Recorded π)) Unit).run.run d with
        ⟨e' | u, d'⟩ <;> rfl
    · simp only [if_neg hmiss]
      rfl

theorem answerTo_forget (plane : Recorded π) (t : TypeDescriptor) (namespaceName : String)
    (r : Resource) :
    Live.answerTo plane t namespaceName r =
      let answer := Live.answerTo plane.plane t namespaceName r
      (answer.1, { plane.note .submission with plane := answer.2 }) :=
  Recorded.run_create plane _ _ _ _

theorem run_validateValue_forget (key : String) (r : Resource) :
    (Live.validateValue key r : Lookup (LiveDirectory π) _).run.run d.forget =
      Prod.map id forget
        ((Live.validateValue key r : Lookup (LiveDirectory (Recorded π)) _).run.run d) := by
  rw [Live.run_validateValue, Live.run_validateValue, run_resolve_forget]
  rcases (Live.resolve key : Lookup (LiveDirectory (Recorded π)) _).run.run d with ⟨e | t, d'⟩
  · rfl
  · simp only [Prod.map_apply, id_eq]
    rw [Live.run_submit, Live.run_submit]
    simp only [answerTo_forget]
    rfl

theorem maps_forget : TypeDirectory.Maps (forget : LiveDirectory (Recorded π) → _) where
  getType := run_resolve_forget
  validateValue := run_validateValue_forget
  getUrnTemplate := run_getUrnTemplate_forget

/-! ## Counts -/

theorem requests_refreshed :
    d.refreshed.plane.requests = d.plane.requests ++ [.listing] := by
  rw [plane_refreshed, Recorded.run_listing]
  rfl

/-- For a judgement there is a listing exactly if the type is not known, and then a submission, if
the type is found. -/
theorem requests_judge (r : Resource) :
    ∃ m ≤ 1, ((judge r : StateM (LiveDirectory (Recorded π)) _).run d).2.plane.requests =
      d.plane.requests ++ List.replicate (!d.index.contains r.typeKey).toNat .listing ++
        List.replicate m .submission := by
  have hafter := d.after_resolve r.typeKey
  have hrequests : ((Live.resolve r.typeKey : Lookup (LiveDirectory (Recorded π)) _).run.run
      d).2.plane.requests = d.plane.requests ++
        List.replicate (!d.index.contains r.typeKey).toNat .listing := by
    rw [hafter]
    cases d.index.contains r.typeKey with
    | false => exact d.requests_refreshed
    | true => exact (List.append_nil _).symm
  rw [run_judge]
  rcases hresolve : (Live.resolve r.typeKey : Lookup (LiveDirectory (Recorded π)) _).run.run d with
    ⟨e | t, d'⟩
  · rw [hresolve] at hrequests
    exact ⟨0, Nat.zero_le 1, by rw [← hrequests]; exact (List.append_nil _).symm⟩
  · rw [hresolve] at hrequests
    refine ⟨1, Nat.le_refl 1, ?_⟩
    rw [← hrequests]
    simp only [answerTo_forget]
    rfl

/-- Whether the look-up of the template for an input comes upon no descriptor. -/
def missesTemplate {π : Type} (d : LiveDirectory π) (input : String) : Bool :=
  match soughtKey? input "" with
  | none => false
  | some key => (d.named? (splitTypeKey key).1 (splitTypeKey key).2).isNone

theorem after_readInput {π : Type} [ControlPlane π] (d : LiveDirectory π) (input : String) :
    ((readInput input "" : StateM (LiveDirectory π) _).run d).2 =
      if d.missesTemplate input then d.refreshed else d := by
  unfold missesTemplate
  cases hsought : soughtKey? input "" with
  | none => exact TypeDirectory.snd_readInput_of_not_sought d hsought
  | some key =>
    rw [d.after_readInput_of_sought hsought]
    cases hnamed : d.named? (splitTypeKey key).1 (splitTypeKey key).2 <;> simp [hnamed]

/-- How many listings a verdict takes: one if no template comes up, and one if a resource was read
whose type is still not known. -/
def verdictListings (d : LiveDirectory π) (input : String) : Nat :=
  (d.missesTemplate input).toNat +
    match (readInput input "" : StateM (LiveDirectory π) _).run d with
    | (.error _, _) => 0
    | (.ok r, read) => (!read.index.contains r.typeKey).toNat

theorem verdictListings_of_error {π : Type} [ControlPlane π] {d : LiveDirectory π} {input : String}
    {verdict : Verdict}
    (h : ((readInput input "" : StateM (LiveDirectory π) _).run d).1 = .error verdict) :
    d.verdictListings input = (d.missesTemplate input).toNat := by
  unfold verdictListings
  rcases hread : (readInput input "" : StateM (LiveDirectory π) _).run d with ⟨verdict | r, read⟩
  · rfl
  · rw [hread] at h
    cases h

theorem verdictListings_of_ok {π : Type} [ControlPlane π] {d : LiveDirectory π} {input : String}
    {r : Resource} (h : ((readInput input "" : StateM (LiveDirectory π) _).run d).1 = .ok r) :
    d.verdictListings input =
      if d.missesTemplate input then 1 + (!d.refreshed.index.contains r.typeKey).toNat
      else (!d.index.contains r.typeKey).toNat := by
  have hafter := d.after_readInput input
  unfold verdictListings
  rcases hread : (readInput input "" : StateM (LiveDirectory π) _).run d with ⟨verdict | s, read⟩
  · rw [hread] at h
    cases h
  · rw [hread] at h hafter
    cases h
    obtain rfl : read = if d.missesTemplate input then d.refreshed else d := hafter
    cases d.missesTemplate input with
    | false => exact Nat.zero_add _
    | true => rfl

theorem requests_readInput (input : String) :
    ((readInput input "" : StateM (LiveDirectory (Recorded π)) _).run d).2.plane.requests =
      d.plane.requests ++ List.replicate (d.missesTemplate input).toNat .listing := by
  rw [after_readInput]
  cases d.missesTemplate input with
  | false => exact (List.append_nil _).symm
  | true => exact d.requests_refreshed

/-- The listings for a verdict come before the submission, if there is one. -/
theorem requests_validate_eq (input : String) :
    ∃ m ≤ 1, ((validate input : StateM (LiveDirectory (Recorded π)) _).run d).2.plane.requests =
      d.plane.requests ++ List.replicate (d.verdictListings input) .listing ++
        List.replicate m .submission := by
  have hrequests := d.requests_readInput input
  unfold verdictListings validate
  rw [TypeDirectory.run_validateWithTemplate]
  rcases hread : (readInput input "" : StateM (LiveDirectory (Recorded π)) _).run d with
    ⟨verdict | r, read⟩
  · rw [hread] at hrequests
    exact ⟨0, Nat.zero_le 1, by simpa using hrequests⟩
  · rw [hread] at hrequests
    obtain ⟨m, hm, hjudge⟩ := read.requests_judge r
    refine ⟨m, hm, ?_⟩
    rw [hjudge, hrequests, List.append_assoc d.plane.requests, List.replicate_append_replicate]

theorem verdictListings_forget (input : String) :
    d.forget.verdictListings input = d.verdictListings input := by
  unfold verdictListings
  rw [maps_forget.readInput]
  rcases (readInput input "" : StateM (LiveDirectory (Recorded π)) _).run d with
    ⟨verdict | r, read⟩ <;> rfl

/-! ## Bounds -/

section

variable {d : LiveDirectory π} {input key : String}

theorem verdictListings_le (d : LiveDirectory π) (input : String) :
    d.verdictListings input ≤ 2 := by
  unfold verdictListings
  have hmisses := Bool.toNat_le (d.missesTemplate input)
  split
  · omega
  · exact Nat.add_le_add hmisses (Bool.toNat_le _)

theorem soughtKey?_eq_some_iff :
    soughtKey? input "" = some key ↔ Urn.parseTypeKey input = .ok key := by
  constructor
  · intro h
    unfold soughtKey? at h
    split at h
    · exact eq_ok_of_toOption h
    · cases h
  · intro h
    obtain ⟨reading, -⟩ := StaticDirectory.exists_reading_of_parseTypeKey h
    simp only [soughtKey?, reading.detect_eq, if_true, h]
    rfl

/-- The resource that is read of an input is of the type that the input names. -/
theorem typeKey_of_readInput {r : Resource} (h : StaticDirectory.NamesType input key)
    (hread : ((readInput input "" : StateM (LiveDirectory π) _).run d).1 = .ok r) :
    r.typeKey = key := by
  cases h with
  | fieldList hparse hkey =>
    rw [TypeDirectory.run_readInput, StaticDirectory.detect_of_parse_fieldList hparse] at hread
    simp only [hparse] at hread
    cases hread
    exact hkey
  | urn hkey =>
    obtain ⟨found, -, hparse⟩ :=
      (d.fst_readInput_of_sought (soughtKey?_eq_some_iff.2 hkey)).1 hread
    obtain ⟨reading, rfl⟩ := Urn.parse_eq_ok_iff.1 hparse
    rw [reading.typeKey_eq]
    exact Except.ok.inj (reading.parseTypeKey.symm.trans hkey)

omit [ControlPlane π] in
/-- For a known type the template comes up. -/
theorem missesTemplate_of_contains (h : StaticDirectory.NamesType input key)
    (hkey : d.index.contains key = true) : d.missesTemplate input = false := by
  unfold missesTemplate
  cases h with
  | fieldList hparse _ =>
    have hsought : soughtKey? input "" = none := by
      simp only [soughtKey?, StaticDirectory.detect_of_parse_fieldList hparse]
    rw [hsought]
  | urn hparse =>
    rw [soughtKey?_eq_some_iff.2 hparse]
    obtain ⟨reading, rfl⟩ := StaticDirectory.exists_reading_of_parseTypeKey hparse
    obtain ⟨t, ht⟩ := Option.isSome_iff_exists.1 hkey
    simp only [named?, TypeIndex.named?,
      splitTypeKey_join (StaticDirectory.slash_mem_of_reading reading), ht]
    rfl

/-- A known type takes no listing. -/
theorem verdictListings_of_contains (h : StaticDirectory.NamesType input key)
    (hkey : d.index.contains key = true) : d.verdictListings input = 0 := by
  have hmisses := missesTemplate_of_contains h hkey
  cases hread : ((readInput input "" : StateM (LiveDirectory π) _).run d).1 with
  | error verdict =>
    rw [verdictListings_of_error hread, hmisses]
    rfl
  | ok r =>
    rw [verdictListings_of_ok hread, hmisses, typeKey_of_readInput h hread, hkey]
    rfl

/-- A URN names a type that is not known, and neither is a document of that name. A refresh then
brings such a document, but no type of that name, and the URN can be read with the template of the
type that the document defines, or of the first such type if there are several. -/
def ListsTwice (d : LiveDirectory π) (input : String) : Prop :=
  ∃ key template r, Urn.parseTypeKey input = .ok key ∧
    d.named? (splitTypeKey key).1 (splitTypeKey key).2 = none ∧
    d.refreshed.index.find? key = none ∧
    d.refreshed.urnTemplate (splitTypeKey key).1 (splitTypeKey key).2 = .ok template ∧
    Urn.parse input template = .ok r

omit [ControlPlane π] in
theorem missesTemplate_eq_true_iff :
    d.missesTemplate input = true ↔ ∃ key, Urn.parseTypeKey input = .ok key ∧
      d.named? (splitTypeKey key).1 (splitTypeKey key).2 = none := by
  unfold missesTemplate
  cases hsought : soughtKey? input "" with
  | none =>
    refine iff_of_false Bool.false_ne_true ?_
    rintro ⟨key, hkey, -⟩
    cases hsought.symm.trans (soughtKey?_eq_some_iff.2 hkey)
  | some key =>
    have hkey := soughtKey?_eq_some_iff.1 hsought
    rw [Option.isNone_iff_eq_none]
    refine ⟨fun h => ⟨key, hkey, h⟩, ?_⟩
    rintro ⟨key', hkey', h⟩
    cases hkey.symm.trans hkey'
    exact h

/-- Two listings are made exactly if a template comes up after the first, but not the type. -/
theorem verdictListings_eq_two_iff : d.verdictListings input = 2 ↔ d.ListsTwice input := by
  constructor
  · intro h
    cases hread : ((readInput input "" : StateM (LiveDirectory π) _).run d).1 with
    | error verdict =>
      rw [verdictListings_of_error hread] at h
      cases hmisses : d.missesTemplate input <;> simp [hmisses] at h
    | ok r =>
      rw [verdictListings_of_ok hread] at h
      cases hmisses : d.missesTemplate input with
      | false => cases hknown : d.index.contains r.typeKey <;> simp [hmisses, hknown] at h
      | true =>
        obtain ⟨key, hkey, hmiss⟩ := missesTemplate_eq_true_iff.1 hmisses
        obtain ⟨template, htemplate, hparse⟩ :=
          (d.fst_readInput_of_sought (soughtKey?_eq_some_iff.2 hkey)).1 hread
        rw [typeKey_of_readInput (.urn hkey) hread] at h
        have hunknown : d.refreshed.index.find? key = none := by
          cases hfind : d.refreshed.index.find? key with
          | none => rfl
          | some t => simp [hmisses, TypeIndex.contains, hfind] at h
        exact ⟨key, template, r, hkey, hmiss, hunknown,
          (d.fst_getUrnTemplate_of_miss hmiss).1 htemplate, hparse⟩
  · rintro ⟨key, template, r, hkey, hmiss, hunknown, htemplate, hparse⟩
    have hread : ((readInput input "" : StateM (LiveDirectory π) _).run d).1 = .ok r :=
      (d.fst_readInput_of_sought (soughtKey?_eq_some_iff.2 hkey)).2
        ⟨template, (d.fst_getUrnTemplate_of_miss hmiss).2 htemplate, hparse⟩
    rw [verdictListings_of_ok hread, missesTemplate_eq_true_iff.2 ⟨key, hkey, hmiss⟩,
      typeKey_of_readInput (.urn hkey) hread]
    simp [TypeIndex.contains, hunknown]

end

/-- **Requests for a verdict.** A verdict takes at most two listings and at most one submission, and
two listings exactly if the first brings a template for a URN, but not the type that the URN names.
A known type takes no listing. -/
theorem requests_validate (d : LiveDirectory π) (input : String) :
    let after := (validate input : StateM (LiveDirectory (Recorded π)) _).run d.recorded
    Prod.map id forget after = (validate input : StateM (LiveDirectory π) _).run d ∧
      ∃ listings submissions : Nat,
        after.2.plane.requests = List.replicate listings .listing ++
          List.replicate submissions .submission ∧
        listings ≤ 2 ∧ submissions ≤ 1 ∧ (listings = 2 ↔ d.ListsTwice input) ∧
        ∀ key, StaticDirectory.NamesType input key → d.index.contains key = true →
          listings = 0 := by
  intro after
  refine ⟨(maps_forget.validateWithTemplate d.recorded input "").symm, ?_⟩
  obtain ⟨m, hm, hrequests⟩ := d.recorded.requests_validate_eq input
  rw [← verdictListings_forget, forget_recorded] at hrequests
  exact ⟨d.verdictListings input, m, hrequests, d.verdictListings_le input, hm,
    verdictListings_eq_two_iff, fun key h hkey => verdictListings_of_contains h hkey⟩

/-! ## A document that is named like a type -/

/-- Nothing is known yet, and a document of the name `x` defines a type of another name. -/
def strangerDirectory : LiveDirectory MemoryPlane where
  plane := { definitions := [xDefinition "k" "urn:ccrn:<ccrn>/<a>"] }
  authority := "g"
  namespaceName := "n"

theorem requests_stranger :
    ((validate "urn:ccrn:x/v/b" : StateM (LiveDirectory (Recorded MemoryPlane)) _).run
      strangerDirectory.recorded).2.plane.requests = [.listing, .listing] := by
  decide +kernel

/-- One listing is not always enough. -/
theorem not_forall_requests_validate :
    ¬ ∀ {π : Type} [ControlPlane π] (d : LiveDirectory π) (input : String),
      let after := (validate input : StateM (LiveDirectory (Recorded π)) _).run d.recorded
      after.2.plane.requests.count .listing ≤ 1 ∧
        after.2.plane.requests.count .submission ≤ 1 ∧
        ∀ key, StaticDirectory.NamesType input key → d.index.contains key = true →
          after.2.plane.requests.count .listing = 0 := by
  intro h
  have hle := (h strangerDirectory "urn:ccrn:x/v/b").1
  rw [requests_stranger] at hle
  exact absurd hle (by decide)

end LiveDirectory

end ResourceNames
