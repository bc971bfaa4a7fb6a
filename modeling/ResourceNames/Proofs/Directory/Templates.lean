import ResourceNames.Proofs.Directory.ListedTypes

/-!
# Template look-ups

The URN template of a type is looked up by the type's key, or else by the name of the document that
defines the type. For the latter the descriptors are gone through in no particular order.

* `TypeIndex.named?`: what a look-up comes upon.
* `TypeIndex.OrderFree`: a look-up gives the same in every order.
* `TypeIndex.orderFree_iff`: it does exactly if the key is known or the candidates agree.
* `urnTemplate_orderFree_iff`: the same for static and live directories.
-/

namespace ResourceNames

/-- A document of a name defines a type at a version. -/
def TypeDescriptor.DefinedAs (t : TypeDescriptor) (name version : String) : Prop :=
  Text.asciiLower t.name = Text.asciiLower name ∧ t.version = version

namespace TypeIndex

variable {index : TypeIndex} {order : IterationOrder} {ds es : List TypeDescriptor}
  {d e : TypeDescriptor} {name version : String}

/-! ## Candidates -/

theorem definedBy?_eq_none_iff :
    definedBy? ds name version = none ↔ ∀ d ∈ ds, ¬ d.DefinedAs name version := by
  unfold definedBy? TypeDescriptor.DefinedAs
  rw [List.find?_eq_none]
  simp only [decide_eq_true_eq]

theorem mem_of_definedBy? (h : definedBy? ds name version = some d) :
    d ∈ ds ∧ d.DefinedAs name version :=
  ⟨List.mem_of_find?_eq_some h, by simpa [TypeDescriptor.DefinedAs] using List.find?_some h⟩

theorem definedBy?_cons (h : d.DefinedAs name version) :
    definedBy? (d :: ds) name version = some d :=
  List.find?_cons_of_pos (decide_eq_true h)

/-! ## Answers -/

/-- The answer to a look-up that has come upon a descriptor, if any. -/
def templateOf (name version : String) : Option TypeDescriptor → Except DirectoryError String
  | none => .error (.notFound s!"{name}/{version}")
  | some d =>
    if d.hasUrnTemplate then .ok d.urnTemplate
    else .error (.templateNotFound name (templateAnnotationKey d.version))

theorem urnTemplateAmong_eq (index : TypeIndex) (ds : List TypeDescriptor)
    (name version : String) :
    index.urnTemplateAmong ds name version =
      templateOf name version
        (index.find? s!"{name}/{version}" <|> definedBy? ds name version) := rfl

theorem urnTemplateAmong_of_find? (h : index.find? s!"{name}/{version}" = some d) :
    index.urnTemplateAmong ds name version = templateOf name version (some d) := by
  rw [urnTemplateAmong_eq, h]
  rfl

theorem urnTemplateAmong_of_miss (h : index.find? s!"{name}/{version}" = none) :
    index.urnTemplateAmong ds name version =
      templateOf name version (definedBy? ds name version) := by
  rw [urnTemplateAmong_eq, h]
  rfl

/-- Of descriptors at one version, only the templates count. -/
theorem templateOf_eq_iff (hversion : d.version = e.version) :
    templateOf name version (some d) = templateOf name version (some e) ↔
      d.urnTemplate = e.urnTemplate := by
  unfold templateOf TypeDescriptor.hasUrnTemplate
  simp only [ne_eq, decide_not, Bool.not_eq_true', decide_eq_false_iff_not, hversion]
  by_cases hd : d.urnTemplate = "" <;> by_cases he : e.urnTemplate = ""
  · simp [hd, he]
  · simp [hd, he, Ne.symm he]
  · simp [hd, he]
  · simp [hd, he]

/-- What a type name and a version stand for: a type, or else the first one that a document of that
name defines. -/
def named? (index : TypeIndex) (order : IterationOrder) (name version : String) :
    Option TypeDescriptor :=
  index.find? s!"{name}/{version}" <|> definedBy? (order.list index) name version

theorem urnTemplate_eq (index : TypeIndex) (order : IterationOrder) (name version : String) :
    index.urnTemplate order name version =
      templateOf name version (index.named? order name version) := rfl

theorem urnTemplate_of_named?_none (h : index.named? order name version = none) :
    index.urnTemplate order name version = .error (.notFound s!"{name}/{version}") := by
  rw [urnTemplate_eq, h]
  rfl

/-- A template that an index lacks is that of an unknown type, or of one without a template. -/
theorem urnTemplate_eq_error {e : DirectoryError}
    (h : index.urnTemplate order name version = .error e) :
    e.isNotFound = true ∨ Reason.ofDirectoryError e = .templateUnavailable ∧
      ∃ t, index.named? order name version = some t ∧ t.hasUrnTemplate = false := by
  rw [urnTemplate_eq] at h
  cases ht : index.named? order name version with
  | none =>
    rw [ht] at h
    cases h
    exact .inl rfl
  | some t =>
    simp only [ht, templateOf] at h
    split at h
    · cases h
    · rename_i hhas
      cases h
      exact .inr ⟨rfl, t, rfl, Bool.eq_false_iff.2 hhas⟩

/-- A look-up that comes upon a descriptor does not miss the type. -/
theorem isNotFound_of_urnTemplate {e : DirectoryError} {t : TypeDescriptor}
    (ht : index.named? order name version = some t)
    (h : index.urnTemplate order name version = .error e) :
    e.isNotFound = false := by
  rw [urnTemplate_eq, ht, templateOf] at h
  split at h
  · cases h
  · cases h
    rfl

/-! ## Orders -/

/-- A look-up of a template gives the same in whatever order the descriptors are gone through. -/
def OrderFree (index : TypeIndex) (name version : String) : Prop :=
  ∀ ds es : List TypeDescriptor, ds.Perm index.descriptors → es.Perm index.descriptors →
    index.urnTemplateAmong ds name version = index.urnTemplateAmong es name version

theorem OrderFree.urnTemplate_eq (h : index.OrderFree name version)
    (order order' : IterationOrder) :
    index.urnTemplate order name version = index.urnTemplate order' name version :=
  h _ _ (order.perm index) (order'.perm index)

/-- All types that documents of a name define at a version have the same template. -/
def Unambiguous (index : TypeIndex) (name version : String) : Prop :=
  ∀ d ∈ index.descriptors, ∀ e ∈ index.descriptors, d.DefinedAs name version →
    e.DefinedAs name version → d.urnTemplate = e.urnTemplate

/-- Candidates that agree give the same answer, whichever comes first. -/
theorem Unambiguous.templateOf_eq (h : index.Unambiguous name version)
    (hds : ds.Perm index.descriptors) (hes : es.Perm index.descriptors) :
    templateOf name version (definedBy? ds name version) =
      templateOf name version (definedBy? es name version) := by
  cases hd : definedBy? ds name version with
  | none =>
    have hnone := definedBy?_eq_none_iff.1 hd
    rw [definedBy?_eq_none_iff.2 fun e he => hnone e ((hes.trans hds.symm).subset he)]
  | some d =>
    obtain ⟨hmem, hdefined⟩ := mem_of_definedBy? hd
    cases he : definedBy? es name version with
    | none =>
      exact absurd hdefined
        (definedBy?_eq_none_iff.1 he d ((hds.trans hes.symm).subset hmem))
    | some e =>
      obtain ⟨hmem', hdefined'⟩ := mem_of_definedBy? he
      rw [templateOf_eq_iff (hdefined.2.trans hdefined'.2.symm)]
      exact h d (hds.subset hmem) e (hes.subset hmem') hdefined hdefined'

/-- The order does not count exactly if the type is known by its key, or if the candidates for the
name agree. -/
theorem orderFree_iff :
    index.OrderFree name version ↔
      index.contains s!"{name}/{version}" = true ∨ index.Unambiguous name version := by
  unfold contains
  cases hkey : index.find? s!"{name}/{version}" with
  | some d =>
    refine iff_of_true (fun ds es _ _ => ?_) (.inl rfl)
    rw [urnTemplateAmong_of_find? hkey, urnTemplateAmong_of_find? hkey]
  | none =>
    rw [or_iff_right (by simp)]
    constructor
    · intro hfree d hd e he hdefined hdefined'
      -- Each candidate comes first in some order.
      have hsame := hfree (d :: index.descriptors.erase d) (e :: index.descriptors.erase e)
        (List.perm_cons_erase hd).symm (List.perm_cons_erase he).symm
      rw [urnTemplateAmong_of_miss hkey, urnTemplateAmong_of_miss hkey, definedBy?_cons hdefined,
        definedBy?_cons hdefined'] at hsame
      exact (templateOf_eq_iff (hdefined.2.trans hdefined'.2.symm)).1 hsame
    · intro hagree ds es hds hes
      rw [urnTemplateAmong_of_miss hkey, urnTemplateAmong_of_miss hkey]
      exact hagree.templateOf_eq hds hes

end TypeIndex

/-- **Orders of an index.** After any run of a static directory and at any time of refreshes of a
live one, a template is looked up with the same answer in every order of the index exactly if the
type is known by its key, or if all types that documents of the given name define at the version
have the same template. -/
theorem urnTemplate_orderFree_iff (authority name version : String) :
    (∀ steps : List StaticDirectory.Step,
      let index := (StaticDirectory.run authority steps).index.types
      index.OrderFree name version ↔
        index.contains s!"{name}/{version}" = true ∨ index.Unambiguous name version) ∧
    ∀ {π : Type} [ControlPlane π] (plane : π) (namespaceName : String) (actions : List (Action π)),
      let index := (course plane authority namespaceName actions).refreshes.directory.index
      index.OrderFree name version ↔
        index.contains s!"{name}/{version}" = true ∨ index.Unambiguous name version :=
  ⟨fun _ => TypeIndex.orderFree_iff, fun _ _ _ => TypeIndex.orderFree_iff⟩

/-! ## Two documents of one name -/

/-- A definition of a type in a document of the name `x`. -/
def xDefinition (kind template : String) : Json :=
  .obj [("kind", .str definitionKind),
    ("metadata", .obj [("annotations", .obj [("ccrn/v.urn-template", .str template)]),
      ("name", .str "x")]),
    ("spec", .obj [("group", .str "g"), ("names", .obj [("kind", .str kind)]),
      ("versions", .arr [.obj [("name", .str "v"),
        ("schema", .obj [("openAPIV3Schema", .obj [])]), ("served", .bool true)]])])]

def xType (kind template : String) : TypeDescriptor :=
  ⟨"x", "g", kind, "v", kind, kind, .obj [], template⟩

/-- A control plane that serves two documents of one name. -/
def twinPlane : MemoryPlane where
  definitions := [xDefinition "k" "urn:ccrn:<ccrn>/<a>", xDefinition "t" "urn:ccrn:<ccrn>/<b>"]

theorem index_twins :
    (course twinPlane "g" "n" sampleActions).refreshes.directory.index =
      LiveDirectory.indexOf "g" twinPlane.definitions := rfl

theorem descriptors_twins :
    (LiveDirectory.indexOf "g" twinPlane.definitions).descriptors =
      [xType "k" "urn:ccrn:<ccrn>/<a>", xType "t" "urn:ccrn:<ccrn>/<b>"] := by
  decide +kernel

/-- With two documents of one name, the order of an index can count. -/
theorem not_forall_urnTemplate_orderFree :
    ¬ ∀ (authority name version : String),
      (∀ steps : List StaticDirectory.Step,
        (StaticDirectory.run authority steps).index.types.OrderFree name version) ∧
      ∀ {π : Type} [ControlPlane π] (plane : π) (namespaceName : String)
        (actions : List (Action π)),
        (course plane authority namespaceName actions).refreshes.directory.index.OrderFree name
          version := by
  intro h
  have hfree := (h "g" "x" "v").2 twinPlane "n" sampleActions
  rw [index_twins, TypeIndex.orderFree_iff] at hfree
  rcases hfree with hkey | hagree
  · exact absurd hkey (by decide +kernel)
  · have hk : xType "k" "urn:ccrn:<ccrn>/<a>" ∈
        (LiveDirectory.indexOf "g" twinPlane.definitions).descriptors := by
      rw [descriptors_twins]
      exact List.mem_cons_self
    have ht : xType "t" "urn:ccrn:<ccrn>/<b>" ∈
        (LiveDirectory.indexOf "g" twinPlane.definitions).descriptors := by
      rw [descriptors_twins]
      exact List.mem_cons_of_mem _ List.mem_cons_self
    exact absurd (hagree _ hk _ ht ⟨rfl, rfl⟩ ⟨rfl, rfl⟩) (by decide)

end ResourceNames
