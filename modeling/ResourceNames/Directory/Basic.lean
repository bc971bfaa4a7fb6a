import ResourceNames.Types.Index

/-!
# Type directories

What a directory of resource types can be asked. An answer may change the directory, as one that
looks a missing type up elsewhere remembers what it found; a failed one may as well.
-/

namespace ResourceNames

/-- An action on a state that may fail; what it did to the state before failing remains. -/
abbrev Lookup (σ α : Type) := ExceptT DirectoryError (StateM σ) α

/-- A source of truth for resource types. -/
class TypeDirectory (σ : Type) where
  /-- The descriptor of a type. -/
  getType (key : String) : Lookup σ TypeDescriptor
  /-- Checks a resource against the schema of a type. -/
  validateValue (key : String) (value : Resource) : Lookup σ Unit
  /-- The URN template of a type at a version. -/
  getUrnTemplate (name version : String) : Lookup σ String
  /-- All known descriptors in ascending order of their keys. -/
  listTypes : Lookup σ (List TypeDescriptor)
  /-- Whether a type is known. -/
  isSupported (key : String) : StateM σ Bool := do
    return (← (getType key).run).toBool
  /-- Whether values of a type can be validated. -/
  hasValidator (key : String) : StateM σ Bool := do
    return (← (getType key).run).toBool

end ResourceNames
