import ResourceNames.Directory.Basic

/-!
# Control planes

A control plane serves type definitions and decides whether an object of one of these types is
acceptable. A listing takes time: `beginListing` is the request, `listing` the answer, which comes
`listingTime` milliseconds later.
-/

namespace ResourceNames

/-- What a control plane is asked for. -/
class ControlPlane (π : Type) where
  /-- How many milliseconds a listing that starts now takes. -/
  listingTime : π → Nat
  /-- What the start of a listing changes. -/
  beginListing : π → π
  /-- All definition documents that are served when the answer is given. -/
  listing : Lookup π (List Json)
  /-- Submits an object of a type. An object that is not admitted breaks the schema. -/
  create (d : TypeDescriptor) (namespaceName name : String) (object : Json) : Lookup π Unit

end ResourceNames
