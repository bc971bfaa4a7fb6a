import ResourceNames.ControlPlane.Cluster
import ResourceNames.Proofs.Verdict.Submissions

/-!
# Objects sent to a cluster

A resource that is submitted to a cluster becomes the object of one request. Its fields stand in the
object behind the type and the metadata, so that a field of the same name takes their place.

* `ClusterPlane.requests_create`: an object to be created is sent in one request.
* `ClusterPlane.get?_creation`: what a server reads under a key of the object.
* `LiveDirectory.creates_validateValue_iff`: the metadata are those of the directory; the type is
  that of the descriptor exactly if no field gives another one.
-/

namespace ResourceNames

open Lookup

namespace ClusterPlane

/-! ## Requests -/

theorem requests_send (r : ServerRequest) (plane : ClusterPlane) :
    ((send r).run.run plane).2.requests = plane.requests ++ [r] := by
  unfold send
  rw [Lookup.run_bind, Lookup.run_get]
  simp only
  split <;> rfl

/-- The request to create an object of a type. -/
def creation (plane : ClusterPlane) (t : TypeDescriptor) (namespaceName name : String)
    (object : Json) : ServerRequest where
  method := "POST"
  uri := s!"/apis/{t.group}/{t.version}/namespaces/{namespaceName}/{t.plural}?" ++
    if plane.dryRun then "&dryRun=All" else ""
  body := some (objectEntries t namespaceName name object)

/-- How an error that a server reports of an object is passed on. -/
def explain (t : TypeDescriptor) : DirectoryError → Lookup ClusterPlane String
  | .api (.refused status message reason code) =>
    if code ∈ rejectionCodes then throw (.schemaViolation t.typeKey message)
    else throw (.api (.refused status message reason code))
  | e => throw e

/-- Whether a server answers with the object that it created. -/
def checkCreated (body : String) : Lookup ClusterPlane Unit :=
  match Json.parse? body with
  | none => throw (.api (.unreadable "*"))
  | some v => if (v.get? "metadata").isNone then throw (missingEntry body "metadata") else pure ()

theorem create_eq (t : TypeDescriptor) (namespaceName name : String) (object : Json) :
    create t namespaceName name object = get >>= fun plane =>
      tryCatch (send (plane.creation t namespaceName name object)) (explain t) >>=
        checkCreated := rfl

variable {plane : ClusterPlane} {requests : List ServerRequest}

/-- Nothing else is sent on account of an answer. -/
theorem keeps_explain (t : TypeDescriptor) (e : DirectoryError) :
    Keeps (fun p => p.requests = requests) (explain t e) := by
  unfold explain
  split
  · split <;> exact keeps_throw _
  · exact keeps_throw _

theorem keeps_checkCreated (body : String) :
    Keeps (fun p => p.requests = requests) (checkCreated body) := by
  unfold checkCreated
  split
  · exact keeps_throw _
  · split
    · exact keeps_throw _
    · exact keeps_pure _

/-- An object to be created is sent in one request, whatever the answer. -/
theorem requests_create (plane : ClusterPlane) (t : TypeDescriptor) (namespaceName name : String)
    (object : Json) :
    ((create t namespaceName name object).run.run plane).2.requests =
      plane.requests ++ [plane.creation t namespaceName name object] := by
  have hsend := requests_send (plane.creation t namespaceName name object) plane
  rw [create_eq, Lookup.run_bind, Lookup.run_get]
  simp only
  rw [Lookup.run_bind, Lookup.run_tryCatch]
  rcases hrun : (send (plane.creation t namespaceName name object)).run.run plane with
    ⟨e | body, p⟩ <;> rw [hrun] at hsend
  · have hexplain := keeps_explain t e p hsend
    simp only
    rcases hexplained : (explain t e).run.run p with ⟨e' | body, p'⟩ <;>
      rw [hexplained] at hexplain
    · exact hexplain
    · exact keeps_checkCreated body p' hexplain
  · exact keeps_checkCreated body p hsend

/-! ## What a server reads -/

/-- The metadata that a directory gives an object. -/
def metadata (namespaceName name : String) : Json :=
  .object [("name", .str name), ("namespace", .str namespaceName)]

/-- A server reads the fields that are submitted, and only behind them the type and the
metadata. -/
theorem get?_creation (plane : ClusterPlane) (t : TypeDescriptor) (namespaceName name : String)
    (r : Resource) (key : String) :
    (plane.creation t namespaceName name r.content).json.get? key =
      ((((r.fields.insert typeKeyField r.typeKey).erase "metadata").find? key).map Json.str <|>
        Entries.find? key [("apiVersion", .str s!"{t.group}/{t.version}"), ("kind", .str t.kind),
          ("metadata", metadata namespaceName name)]) := by
  let fields := ((r.fields.insert typeKeyField r.typeKey).erase "metadata").mapValues Json.str
  let fixed : List (String × Json) :=
    [("apiVersion", .str s!"{t.group}/{t.version}"), ("kind", .str t.kind),
      ("metadata", metadata namespaceName name)]
  have hjson : (plane.creation t namespaceName name r.content).json =
      .obj ((Table.empty.insertAll fixed).extend fields).entries :=
    (Json.object_eq _).trans
      (congrArg (fun t : Table Json => Json.obj t.entries) List.foldl_append)
  have hfixed : (Table.empty.insertAll fixed).find? key = Entries.find? key fixed := by
    rw [Table.find?_insertAll (by simp [fixed]), Table.find?_empty]
    cases Entries.find? key fixed <;> rfl
  rw [hjson]
  refine (Table.find?_extend _ fields key).trans ?_
  rw [hfixed, Table.find?_mapValues]

theorem metadata_creation (plane : ClusterPlane) (t : TypeDescriptor) (namespaceName name : String)
    (r : Resource) :
    (plane.creation t namespaceName name r.content).json.get? "metadata" =
      some (metadata namespaceName name) := by
  rw [get?_creation, Table.find?_erase, if_pos rfl]
  rfl

/-- A field of the name stands for the API version or the kind. -/
theorem getText?_creation (plane : ClusterPlane) (t : TypeDescriptor) (namespaceName name : String)
    (r : Resource) (key own : String)
    (hkey : (key, own) ∈ [("apiVersion", s!"{t.group}/{t.version}"), ("kind", t.kind)]) :
    (plane.creation t namespaceName name r.content).json.getText? key =
      some ((r.field? key).getD own) := by
  have hown : key ≠ "metadata" ∧ typeKeyField ≠ key ∧
      Entries.find? key [("apiVersion", Json.str s!"{t.group}/{t.version}"), ("kind", .str t.kind),
        ("metadata", metadata namespaceName name)] = some (.str own) := by
    simp only [List.mem_cons, List.not_mem_nil, or_false, Prod.mk.injEq] at hkey
    rcases hkey with ⟨rfl, rfl⟩ | ⟨rfl, rfl⟩ <;> exact ⟨by decide, by decide, rfl⟩
  obtain ⟨hmetadata, htype, hfixed⟩ := hown
  rw [Json.getText?, get?_creation, Table.find?_erase, if_neg (Ne.symm hmetadata),
    Table.find?_insert, if_neg htype, hfixed, Resource.field?]
  cases r.fields.find? key <;> rfl

/-- What a request to create an object of a type must say. -/
structure Creates (request : ServerRequest) (t : TypeDescriptor) (namespaceName name : String) :
    Prop where
  method : request.method = "POST"
  apiVersion : request.json.getText? "apiVersion" = some s!"{t.group}/{t.version}"
  kind : request.json.getText? "kind" = some t.kind
  metadata : request.json.get? "metadata" = some (metadata namespaceName name)

end ClusterPlane

/-- No field of a resource gives an API version or a kind other than that of its type. -/
structure Resource.Suits (r : Resource) (t : TypeDescriptor) : Prop where
  apiVersion : ∀ given, r.field? "apiVersion" = some given → given = s!"{t.group}/{t.version}"
  kind : ∀ given, r.field? "kind" = some given → given = t.kind

theorem getD_eq_iff {α : Type} {o : Option α} {a : α} :
    o.getD a = a ↔ ∀ b, o = some b → b = a := by
  cases o <;> simp

namespace ClusterPlane

/-- A request tells the type of its object exactly if no field tells another one. -/
theorem creates_creation_iff (plane : ClusterPlane) (t : TypeDescriptor)
    (namespaceName name : String) (r : Resource) :
    Creates (plane.creation t namespaceName name r.content) t namespaceName name ↔ r.Suits t := by
  have hversion := getText?_creation plane t namespaceName name r "apiVersion" _ List.mem_cons_self
  have hkind := getText?_creation plane t namespaceName name r "kind" _
    (List.mem_cons_of_mem _ List.mem_cons_self)
  constructor
  · intro h
    exact ⟨getD_eq_iff.1 (Option.some.inj (hversion.symm.trans h.apiVersion)),
      getD_eq_iff.1 (Option.some.inj (hkind.symm.trans h.kind))⟩
  · intro h
    exact ⟨rfl, hversion.trans (congrArg some (getD_eq_iff.2 h.apiVersion)),
      hkind.trans (congrArg some (getD_eq_iff.2 h.kind)),
      metadata_creation plane t namespaceName name r⟩

end ClusterPlane

namespace LiveDirectory

open ClusterPlane

/-- A resource whose type is found is sent in one request. -/
theorem requests_validateValue {d d' : LiveDirectory ClusterPlane} {key : String}
    {t : TypeDescriptor} (r : Resource)
    (h : (Live.resolve key : Lookup (LiveDirectory ClusterPlane) _).run.run d = (.ok t, d')) :
    ((Live.validateValue key r : Lookup (LiveDirectory ClusterPlane) _).run.run
        d).2.plane.requests =
      d'.plane.requests ++
        [d'.plane.creation t d.namespaceName (Live.objectName t.kind) r.content] := by
  have hrefreshed := Live.keeps_resolve d.keeps_refreshedFrom key d .refl
  rw [h] at hrefreshed
  have hname : d'.namespaceName = d.namespaceName := hrefreshed.namespaceName_eq
  have hrun : (Live.validateValue key r : Lookup (LiveDirectory ClusterPlane) _).run.run d = _ :=
    Live.run_validateValue_of_resolve h
  refine (congrArg (fun p => p.2.plane.requests) hrun).trans ?_
  rw [← hname]
  simp only [Live.answerTo, Live.submission_eq]
  exact requests_create d'.plane t d'.namespaceName (Live.objectName t.kind) r.content

/-- **Objects sent to a cluster.** A resource whose type is found is sent in one request, and any
other in none. The metadata are always those that the directory chooses; the API version and the
kind are those of the type exactly if no field of the resource gives other ones. -/
theorem creates_validateValue_iff (d : LiveDirectory ClusterPlane) (key : String) (r : Resource) :
    let sent := ((Live.validateValue key r : Lookup (LiveDirectory ClusterPlane) _).run.run
      d).2.plane.requests
    match (Live.resolve key : Lookup (LiveDirectory ClusterPlane) _).run.run d with
    | (.error _, d') => sent = d'.plane.requests
    | (.ok t, d') => ∃ request, sent = d'.plane.requests ++ [request] ∧
        request.json.get? "metadata" = some (metadata d.namespaceName (Live.objectName t.kind)) ∧
        (Creates request t d.namespaceName (Live.objectName t.kind) ↔ r.Suits t) := by
  intro sent
  rcases hresolve : (Live.resolve key : Lookup (LiveDirectory ClusterPlane) _).run.run d with
    ⟨e | t, d'⟩
  · have hrun := Live.run_validateValue d key r
    rw [hresolve] at hrun
    exact congrArg (fun p => p.2.plane.requests) hrun
  · exact ⟨_, requests_validateValue r hresolve, metadata_creation _ _ _ _ _,
      creates_creation_iff _ _ _ _ _⟩

/-- A resource with a field named `kind`, as it is read from a field list. -/
def kindResource : Resource where
  format := .fieldList
  fields := .ofList [("ccrn", "t.g/v"), ("kind", "x")]
  rawInput := "ccrn=t.g/v, kind=x"

/-- A directory on a cluster that knows one type. -/
def kindDirectory : LiveDirectory ClusterPlane where
  plane := {}
  authority := "g"
  namespaceName := "n"
  index := indexOf "g" [xDefinition "t" ""]

/-- A field named `kind` decides on the kind of the object that is sent. -/
theorem not_forall_creates :
    FieldList.parse "ccrn=t.g/v, kind=x" = .ok kindResource ∧
    ¬ ∀ (d d' : LiveDirectory ClusterPlane) (key : String) (r : Resource) (t : TypeDescriptor),
      (Live.resolve key : Lookup (LiveDirectory ClusterPlane) _).run.run d = (.ok t, d') →
      ∃ request, ((Live.validateValue key r : Lookup (LiveDirectory ClusterPlane) _).run.run
          d).2.plane.requests = d'.plane.requests ++ [request] ∧
        Creates request t d.namespaceName (Live.objectName t.kind) := by
  refine ⟨by decide +kernel, fun h => ?_⟩
  have hresolve : (Live.resolve "t.g/v" : Lookup (LiveDirectory ClusterPlane) _).run.run
      kindDirectory = (.ok (xType "t" ""), kindDirectory) :=
    Live.run_resolve_of_find? (by decide +kernel)
  obtain ⟨request, hrequest, hcreates⟩ :=
    h kindDirectory kindDirectory "t.g/v" kindResource (xType "t" "") hresolve
  rw [requests_validateValue kindResource hresolve] at hrequest
  rw [← List.singleton_inj.1 (List.append_cancel_left hrequest)] at hcreates
  have hsuits := (creates_creation_iff _ _ _ _ kindResource).1 hcreates
  exact absurd (hsuits.kind "x" (by decide +kernel)) (by decide)

end LiveDirectory

end ResourceNames
