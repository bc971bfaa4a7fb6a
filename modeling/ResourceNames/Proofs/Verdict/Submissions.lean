import ResourceNames.Proofs.ControlPlane.Memory
import ResourceNames.Proofs.Tables
import ResourceNames.Proofs.Verdict.Live

/-!
# What verdicts leave on a control plane

A live directory submits a resource to have it checked, and a control plane that admits the object
keeps it.

* `Live.submission_eq`: what is submitted are the fields of the resource.
* `objects_of_validate`: one object is kept exactly for a valid input, and one submission is made
  exactly if the type is found.
-/

namespace ResourceNames

/-! ## Objects -/

/-- What is submitted of a resource: the type key and all fields but one named `metadata`. -/
def Resource.content (r : Resource) : Json :=
  .ofTexts ((r.fields.insert typeKeyField r.typeKey).erase "metadata")

/-- The object that a control plane keeps of a resource that it admits. -/
def Resource.objectOf (r : Resource) (t : TypeDescriptor) (namespaceName : String) :
    CreatedObject :=
  ⟨t.typeKey, namespaceName, Live.objectName t.kind, r.content⟩

/-- An object is built like a table. -/
theorem Json.object_eq (entries : List (String × Json)) :
    Json.object entries = .obj (Table.ofList entries).entries := by
  have hfold : entries.foldl (fun acc e => Entries.insert e.1 e.2 acc) Table.empty.entries =
      (entries.foldl (fun t e => t.insert e.1 e.2) Table.empty).entries :=
    List.foldl_hom Table.entries fun _ _ => rfl
  exact congrArg Json.obj hfold

namespace Live

/-- Neither the metadata that is added nor a field of that name is submitted. -/
theorem submission_eq (r : Resource) (namespaceName name : String) :
    submission r namespaceName name = r.content := by
  let metadata := Json.object [("name", .str name), ("namespace", .str namespaceName)]
  let fixed := (Table.empty.insert typeKeyField (.str r.typeKey)).insert "metadata" metadata
  let rest := (r.fields.erase typeKeyField).erase "metadata"
  have hobject : r.toObject namespaceName name =
      .obj (fixed.extend (rest.mapValues .str)).entries := Json.object_eq _
  have htable : (fixed.extend (rest.mapValues .str)).erase "metadata" =
      ((r.fields.insert typeKeyField r.typeKey).erase "metadata").mapValues .str := by
    refine Table.ext_find? fun key => ?_
    simp only [fixed, rest, Table.find?_erase, Table.find?_extend, Table.find?_mapValues,
      Table.find?_insert, Table.find?_empty]
    by_cases hmetadata : "metadata" = key
    · simp only [if_pos hmetadata, Option.map_none]
    · simp only [if_neg hmetadata]
      by_cases hkey : typeKeyField = key
      · simp [hkey]
      · simp [hkey]
  unfold submission
  rw [hobject]
  exact congrArg (fun t : Table Json => Json.obj t.entries) htable

end Live

/-! ## Effects -/

namespace LiveDirectory

/-- Refreshes only list. -/
theorem RefreshedFrom.sameButListings {d d' : LiveDirectory MemoryPlane}
    (h : d.RefreshedFrom d') : MemoryPlane.SameButListings d.plane d'.plane := by
  induction h with
  | refl => exact .refl _
  | @next d' _ ih =>
    rw [d'.plane_refreshed]
    exact ih.trans d'.plane.sameButListings_listing

/-- An answer says whether an object is kept; each submission is counted. -/
theorem run_answerTo_cases (plane : MemoryPlane) (t : TypeDescriptor) (namespaceName : String)
    (r : Resource) :
    Live.answerTo plane t namespaceName r = (.ok (), plane.store (r.objectOf t namespaceName)) ∨
      ∃ e, Live.answerTo plane t namespaceName r = (.error e, plane.count) := by
  unfold Live.answerTo Resource.objectOf
  simp only [Live.submission_eq]
  exact plane.run_create_cases t namespaceName (Live.objectName t.kind) r.content

variable (d : LiveDirectory MemoryPlane) (input template : String)

/-- **Effects of a verdict.** A control plane keeps one more object for a valid input, with the
fields of the resource as its content, and none for any other. A submission is made exactly if the
input is read and its type is found, which may take refreshes. A completion has the same effect as
the verdict, but for listings. -/
theorem objects_of_validate :
    let after := (validateWithTemplate input template : StateM (LiveDirectory MemoryPlane) _).run d
    (after.1.valid = true → ∃ r t, after.1.parsed = some r ∧
      after.2.index.find? r.typeKey = some t ∧
      after.2.plane.created = d.plane.created ++ [r.objectOf t d.namespaceName]) ∧
    (after.1.valid = false → after.2.plane.created = d.plane.created) ∧
    ((∃ r t d', d.Resolves input template r t d') →
      after.2.plane.creates = d.plane.creates + 1) ∧
    ((¬ ∃ r t d', d.Resolves input template r t d') →
      after.2.plane.creates = d.plane.creates) ∧
    MemoryPlane.SameButListings
      ((validate input : StateM (LiveDirectory MemoryPlane) _).run d).2.plane
      ((complete input : StateM (LiveDirectory MemoryPlane) _).run d).2.plane := by
  intro after
  have hcomplete := (d.refreshedFrom_complete input).sameButListings
  rcases d.run_validateWithTemplate_cases input template with
    ⟨r, t, d', hresolves, hrun⟩ | ⟨hmiss, verdict, d', hrun, hinvalid, hrefreshed⟩
  · have hafter : after = _ := hrun
    have hsame := hresolves.refreshedFrom.sameButListings
    have hname := hresolves.refreshedFrom.namespaceName_eq
    rcases run_answerTo_cases d'.plane t d'.namespaceName r with hanswer | ⟨e, hanswer⟩
    · rw [hanswer] at hafter
      rw [hafter]
      refine ⟨fun _ => ⟨r, t, rfl, hresolves.find?, ?_⟩, nofun, fun _ => ?_,
        fun hmiss => absurd ⟨r, t, d', hresolves⟩ hmiss, hcomplete⟩
      · rw [← hname, ← hsame.created_eq]
        rfl
      · rw [← hsame.creates_eq]
        rfl
    · rw [hanswer] at hafter
      rw [hafter]
      refine ⟨nofun, fun _ => hsame.created_eq, fun _ => ?_,
        fun hmiss => absurd ⟨r, t, d', hresolves⟩ hmiss, hcomplete⟩
      rw [← hsame.creates_eq]
      rfl
  · have hafter : after = _ := hrun
    have hsame := hrefreshed.sameButListings
    rw [hafter]
    refine ⟨fun hvalid => ?_, fun _ => hsame.created_eq, fun hresolves => absurd hresolves hmiss,
      fun _ => hsame.creates_eq, hcomplete⟩
    rw [hinvalid] at hvalid
    cases hvalid

/-- The type is not known before the refresh, and a field named `metadata` is not submitted. -/
example :
    let d : LiveDirectory MemoryPlane :=
      { plane := { definitions := [xDefinition "t" "urn:ccrn:<ccrn>/<a>"] }
        authority := "g"
        namespaceName := "n" }
    ((validate "ccrn=t.g/v, a=x, metadata=y" : StateM _ _).run d).2.plane.created =
      [⟨"t.g/v", "n", "t-****-*", .obj [("a", .str "x"), ("ccrn", .str "t.g/v")]⟩] := by
  decide +kernel

end LiveDirectory

end ResourceNames
