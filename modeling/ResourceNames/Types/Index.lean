import ResourceNames.Directory.Error
import ResourceNames.Types.Descriptor

/-!
# Type indexes

The descriptors that a directory knows, each under its type key.
-/

namespace ResourceNames

/-- Descriptors by their type keys. -/
structure TypeIndex where
  types : Table TypeDescriptor := .empty
  deriving DecidableEq, Repr

namespace TypeIndex

/-- The index with one more descriptor, which replaces the one with the same key. -/
def insert (index : TypeIndex) (d : TypeDescriptor) : TypeIndex :=
  ⟨index.types.insert d.typeKey d⟩

/-- The index with all descriptors of another one, which replace those with the same keys. -/
def merge (index other : TypeIndex) : TypeIndex := ⟨index.types.extend other.types⟩

/-- The descriptor of a type, whose key need not be normalized. -/
def find? (index : TypeIndex) (key : String) : Option TypeDescriptor :=
  index.types.find? (normalizeTypeKey key)

def contains (index : TypeIndex) (key : String) : Bool := (index.find? key).isSome

/-- The keys of all types in ascending order. -/
def keys (index : TypeIndex) : List String := index.types.keys

/-- All descriptors in ascending order of their keys. -/
def descriptors (index : TypeIndex) : List TypeDescriptor := index.types.values

/-- Descriptors sorted by the keys of their types. -/
def sortByTypeKey (ds : List TypeDescriptor) : List TypeDescriptor :=
  ds.mergeSort fun a b => a.typeKey ≤ b.typeKey

/-- All descriptors, sorted by the keys of their types. -/
def sortedTypes (index : TypeIndex) : List TypeDescriptor := sortByTypeKey index.descriptors

def size (index : TypeIndex) : Nat := index.types.size

/-- The order in which the descriptors of an index are gone through. It is not known, and may depend
on all that the index holds. -/
structure IterationOrder where
  list (index : TypeIndex) : List TypeDescriptor
  perm (index : TypeIndex) : (list index).Perm index.descriptors

/-- The order of the keys. -/
def IterationOrder.ascending : IterationOrder := ⟨descriptors, fun _ => .refl _⟩

/-- The first of some descriptors that a document of the given name defines, at a version. -/
def definedBy? (ds : List TypeDescriptor) (name version : String) : Option TypeDescriptor :=
  ds.find? fun d => Text.asciiLower d.name = Text.asciiLower name ∧ d.version = version

/-- The URN template of a type at a version. The type is named like in its key or like the document
that defines it, in which case it is looked for among `ds`. -/
def urnTemplateAmong (index : TypeIndex) (ds : List TypeDescriptor) (name version : String) :
    Except DirectoryError String :=
  match index.find? s!"{name}/{version}" <|> definedBy? ds name version with
  | none => .error (.notFound s!"{name}/{version}")
  | some d =>
    if d.hasUrnTemplate then .ok d.urnTemplate
    else .error (.templateNotFound name (templateAnnotationKey d.version))

/-- The URN template of a type at a version. If several documents have the name, the order tells
which of their types it is. -/
def urnTemplate (index : TypeIndex) (order : IterationOrder) (name version : String) :
    Except DirectoryError String :=
  index.urnTemplateAmong (order.list index) name version

end TypeIndex

end ResourceNames
