import ResourceNames.Directory.Static
import ResourceNames.Proofs.Tables

/-!
# What sources and indexes hold

A source yields a row of descriptors, in the order of its files and documents.

* `readSource_holds`: in a batch, the last descriptor of a type counts, and the last validator.
* `StaticIndex.Holds.absorb`: in an index, the last reading that has descriptors of a type counts.
-/

namespace ResourceNames

open Files

/-- The descriptors of a type among some. -/
def ofKey (key : String) (ds : List TypeDescriptor) : List TypeDescriptor :=
  ds.filter fun d => d.typeKey = key

theorem mem_ofKey_iff {key : String} {d : TypeDescriptor} {ds : List TypeDescriptor} :
    d ∈ ofKey key ds ↔ d ∈ ds ∧ d.typeKey = key := by
  unfold ofKey
  rw [List.mem_filter, decide_eq_true_eq]

theorem ofKey_append (key : String) (ds es : List TypeDescriptor) :
    ofKey key (ds ++ es) = ofKey key ds ++ ofKey key es := List.filter_append _ _

theorem ofKey_self (d : TypeDescriptor) : ofKey d.typeKey [d] = [d] := by simp [ofKey]

theorem ofKey_of_ne {key : String} {d : TypeDescriptor} (h : d.typeKey ≠ key) :
    ofKey key [d] = [] := by
  simp [ofKey, h]

/-! ## Batches -/

namespace Batch

/-- The types and validators of a batch are those of some descriptors. -/
structure Holds (b : Batch) (ds : List TypeDescriptor) : Prop where
  types : ∀ key, b.types.types.find? key = (ofKey key ds).getLast?
  validators : ∀ key,
    b.validators.find? key = ((ofKey key ds).filterMap TypeDescriptor.validator?).getLast?

theorem holds_empty : Holds {} [] := ⟨fun _ => rfl, fun _ => rfl⟩

/-- Only the types and the validators of a batch matter. -/
theorem Holds.of_eq {b c : Batch} {ds : List TypeDescriptor} (h : b.Holds ds)
    (htypes : c.types = b.types) (hvalidators : c.validators = b.validators) : c.Holds ds :=
  ⟨htypes ▸ h.types, hvalidators ▸ h.validators⟩

theorem Holds.addType {b : Batch} {ds : List TypeDescriptor} (h : b.Holds ds)
    (d : TypeDescriptor) : (b.addType d).Holds (ds ++ [d]) where
  types := by
    intro key
    have hi : (b.addType d).types.types.find? key =
        if d.typeKey = key then some d else b.types.types.find? key :=
      Table.find?_insert b.types.types d.typeKey key d
    rw [hi, ofKey_append]
    by_cases hk : d.typeKey = key
    · rw [if_pos hk, ← hk, ofKey_self, List.getLast?_concat]
    · rw [if_neg hk, ofKey_of_ne hk, List.append_nil, h.types]
  validators := by
    intro key
    rw [ofKey_append, List.filterMap_append]
    by_cases hk : d.typeKey = key
    · subst hk
      rw [ofKey_self]
      cases hv : d.validator? with
      | none => simp [Batch.addType, hv, h.validators]
      | some v => simp [Batch.addType, hv]
    · rw [ofKey_of_ne hk, List.filterMap_nil, List.append_nil, ← h.validators]
      cases hv : d.validator? with
      | none => simp only [Batch.addType, hv]
      | some v => simp only [Batch.addType, hv, Table.find?_insert, if_neg hk]

/-- If a step adds some descriptors, a row of steps adds those of each. -/
theorem Holds.foldl {α : Type} {step : Batch → α → Batch} {yield : α → List TypeDescriptor}
    (hstep : ∀ {b ds}, b.Holds ds → ∀ x, (step b x).Holds (ds ++ yield x)) {b : Batch}
    {ds : List TypeDescriptor} (h : b.Holds ds) (xs : List α) :
    (xs.foldl step b).Holds (ds ++ xs.flatMap yield) := by
  induction xs generalizing b ds with
  | nil => simpa using h
  | cons x xs ih =>
    rw [List.foldl_cons, List.flatMap_cons, ← List.append_assoc]
    exact ih (hstep h x)

/-- Taking descriptors in adds their keys to the summary, and nothing else. -/
theorem summary_foldl_addType (b : Batch) (ds : List TypeDescriptor) :
    (ds.foldl addType b).summary =
      { b.summary with loaded := b.summary.loaded ++ ds.map (·.typeKey) } := by
  induction ds generalizing b with
  | nil => simp
  | cons d ds ih =>
    rw [List.foldl_cons, ih]
    simp [addType]

/-- The descriptors in a document. -/
def documentTypes (authority yaml : String) : List TypeDescriptor :=
  match readDocument authority yaml with
  | .ok (.types ds) => ds
  | _ => []

/-- The descriptors in a file. -/
def fileTypes (authority : String) (fs : FileSystem) (path : String) : List TypeDescriptor :=
  match fs.read path with
  | .ok content =>
    (splitDocuments content).flatMap fun document => documentTypes authority document.2
  | .error _ => []

theorem Holds.addDocument {b : Batch} {ds : List TypeDescriptor} (authority source : String)
    (h : b.Holds ds) (document : Nat × String) :
    (b.addDocument authority source document).Holds (ds ++ documentTypes authority document.2) := by
  unfold Batch.addDocument documentTypes
  cases readDocument authority document.2 with
  | error fault => exact (List.append_nil ds).symm ▸ h.of_eq rfl rfl
  | ok extracted =>
    cases extracted with
    | irrelevant group => exact (List.append_nil ds).symm ▸ h.of_eq rfl rfl
    | types es =>
      have hb : ∀ {c : Batch}, c.Holds ds → (es.foldl Batch.addType c).Holds (ds ++ es) := by
        intro c hc
        have hes := Holds.foldl Holds.addType hc es
        rwa [List.flatMap_singleton'] at hes
      exact hb (h.of_eq rfl rfl)

theorem Holds.addFile {b : Batch} {ds : List TypeDescriptor} (authority : String)
    (fs : FileSystem) (h : b.Holds ds) (path : String) :
    (b.addFile authority fs path).Holds (ds ++ fileTypes authority fs path) := by
  unfold Batch.addFile fileTypes
  cases fs.read path with
  | error e => exact (List.append_nil ds).symm ▸ h.of_eq rfl rfl
  | ok content =>
    have hb : ∀ {c : Batch}, c.Holds ds → Holds _ _ := fun hc =>
      Holds.foldl (Holds.addDocument authority path) hc (splitDocuments content)
    exact hb (h.of_eq rfl rfl)

end Batch

/-! ## Sources -/

/-- The descriptors in the files of a source. -/
def sourceTypes (authority : String) (fs : FileSystem) (source : Source) : List TypeDescriptor :=
  match source.files fs with
  | .ok files => files.flatMap (Batch.fileTypes authority fs)
  | .error _ => []

theorem readSource_holds {authority : String} {fs : FileSystem} {source : Source} {b : Batch}
    (h : readSource authority fs source = .ok b) : b.Holds (sourceTypes authority fs source) := by
  unfold readSource at h
  unfold sourceTypes
  cases hf : source.files fs with
  | error e => rw [hf] at h; cases h
  | ok files =>
    rw [hf] at h
    simp only [bind, Except.bind] at h
    have hb := Batch.Holds.foldl (Batch.Holds.addFile authority fs) Batch.holds_empty files
    split at h
    · cases h
    · cases h
      exact hb

/-- The texts of the documents in a file, as far as it can be read. -/
def fileDocuments (fs : FileSystem) (path : String) : List String :=
  match fs.read path with
  | .ok content => (splitDocuments content).map (·.2)
  | .error _ => []

/-- The texts of the documents in the files of a source, in the order in which they are read. -/
def sourceDocuments (fs : FileSystem) (source : Source) : List String :=
  match source.files fs with
  | .ok files => files.flatMap (fileDocuments fs)
  | .error _ => []

theorem fileTypes_eq_flatMap (authority : String) (fs : FileSystem) (path : String) :
    Batch.fileTypes authority fs path =
      (fileDocuments fs path).flatMap (Batch.documentTypes authority) := by
  unfold Batch.fileTypes fileDocuments
  cases fs.read path with
  | error e => rfl
  | ok content => exact (List.flatMap_map _ _ _).symm

theorem sourceTypes_eq_flatMap (authority : String) (fs : FileSystem) (source : Source) :
    sourceTypes authority fs source =
      (sourceDocuments fs source).flatMap (Batch.documentTypes authority) := by
  unfold sourceTypes sourceDocuments
  cases source.files fs with
  | error e => rfl
  | ok files =>
    have hfile : Batch.fileTypes authority fs =
        fun path => (fileDocuments fs path).flatMap (Batch.documentTypes authority) :=
      funext (fileTypes_eq_flatMap authority fs)
    rw [hfile, List.flatMap_assoc]

/-- The descriptors that a source yields unless it fails. -/
def reading? (authority : String) (fs : FileSystem) (source : Source) :
    Option (List TypeDescriptor) :=
  match readSource authority fs source with
  | .ok _ => some (sourceTypes authority fs source)
  | .error _ => none

/-- A source with one good document yields its descriptors. -/
theorem reading?_of_document {authority path content document : String} {fs : FileSystem}
    {source : Source} {position : Nat} {ds : List TypeDescriptor}
    (hfiles : source.files fs = .ok [path]) (hread : fs.read path = .ok content)
    (hsplit : splitDocuments content = [(position, document)])
    (hdocument : Batch.readDocument authority document = .ok (.types ds)) :
    reading? authority fs source = some ds := by
  have htypes : sourceTypes authority fs source = ds := by
    simp [sourceTypes, hfiles, Batch.fileTypes, hread, hsplit, Batch.documentTypes, hdocument]
  have hbatch : ∃ b, readSource authority fs source = .ok b := by
    simp [readSource, hfiles, bind, Except.bind, Batch.addFile, hread, hsplit,
      Batch.addDocument, hdocument, Batch.summary_foldl_addType, pure, Except.pure]
  obtain ⟨b, hb⟩ := hbatch
  simp only [reading?, hb, htypes]

/-! ## Indexes -/

/-- The descriptors of a type in the last of some readings that has any. -/
def latest (key : String) (readings : List (List TypeDescriptor)) : List TypeDescriptor :=
  readings.foldl (fun held ds => if ofKey key ds = [] then held else ofKey key ds) []

theorem latest_concat (key : String) (readings : List (List TypeDescriptor))
    (ds : List TypeDescriptor) :
    latest key (readings ++ [ds]) =
      if ofKey key ds = [] then latest key readings else ofKey key ds := by
  simp [latest]

namespace StaticIndex

/-- The types and validators of an index are those of some readings. -/
structure Holds (index : StaticIndex) (readings : List (List TypeDescriptor)) : Prop where
  types : ∀ key, index.types.types.find? key = (latest key readings).getLast?
  validators : ∀ key,
    index.validators.find? key =
      ((latest key readings).filterMap TypeDescriptor.validator?).getLast?

theorem holds_empty : Holds {} [] := ⟨fun _ => rfl, fun _ => rfl⟩

theorem Holds.of_eq {index other : StaticIndex} {readings : List (List TypeDescriptor)}
    (h : index.Holds readings) (htypes : other.types = index.types)
    (hvalidators : other.validators = index.validators) : other.Holds readings :=
  ⟨htypes ▸ h.types, hvalidators ▸ h.validators⟩

/-- What an index holds is all that there is to its types and validators. -/
theorem Holds.unique {index other : StaticIndex} {readings : List (List TypeDescriptor)}
    (h : index.Holds readings) (hother : other.Holds readings) :
    index.types = other.types ∧ index.validators = other.validators := by
  have htypes : index.types.types = other.types.types :=
    Table.ext_find? fun key => (h.types key).trans (hother.types key).symm
  exact ⟨congrArg TypeIndex.mk htypes,
    Table.ext_find? fun key => (h.validators key).trans (hother.validators key).symm⟩

theorem Holds.absorb {index : StaticIndex} {readings : List (List TypeDescriptor)} {b : Batch}
    {ds : List TypeDescriptor} (h : index.Holds readings) (hb : b.Holds ds) :
    (index.absorb b).Holds (readings ++ [ds]) where
  types := by
    intro key
    have hi : (index.absorb b).types.types.find? key =
        (b.types.types.find? key <|> index.types.types.find? key) :=
      Table.find?_extend index.types.types b.types.types key
    rw [hi, latest_concat, hb.types]
    by_cases hk : ofKey key ds = []
    · rw [if_pos hk, hk]
      exact h.types key
    · rw [if_neg hk, List.getLast?_eq_some_getLast hk]
      rfl
  validators := by
    intro key
    have hi : (index.absorb b).validators.find? key = (b.validators.find? key <|>
        (index.validators.restrict fun key => !b.types.types.contains key).find? key) :=
      Table.find?_extend _ _ key
    rw [hi, latest_concat, hb.validators, Table.find?_restrict, Table.contains, hb.types]
    by_cases hk : ofKey key ds = []
    · rw [if_pos hk, hk]
      exact h.validators key
    · rw [if_neg hk, List.getLast?_eq_some_getLast hk]
      simp

theorem Holds.addSource {index : StaticIndex} {readings : List (List TypeDescriptor)}
    (h : index.Holds readings) (source : Source) : (index.addSource source).Holds readings := by
  unfold StaticIndex.addSource
  split
  · exact h
  · exact h.of_eq rfl rfl

end StaticIndex

end ResourceNames
