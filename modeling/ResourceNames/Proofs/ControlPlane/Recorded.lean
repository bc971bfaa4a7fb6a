import ResourceNames.ControlPlane.Basic
import ResourceNames.Proofs.Directory.Lookup

/-!
# Recorded control planes

Beside a control plane it is written down what it is asked for. Its answers do not depend on that.

* `run_listing`, `run_create`: it answers as without the record.
-/

namespace ResourceNames

/-- What a control plane is asked for. -/
inductive PlaneRequest where
  | listing
  | submission
  deriving DecidableEq, Repr

/-- A control plane with the requests that it was sent. -/
structure Recorded (π : Type) where
  plane : π
  requests : List PlaneRequest := []

namespace Recorded

variable {π α : Type}

def note (p : Recorded π) (request : PlaneRequest) : Recorded π :=
  { p with requests := p.requests ++ [request] }

/-- Has the control plane do something. -/
def ask (action : Lookup π α) : Lookup (Recorded π) α := do
  let p ← get
  let (result, plane) := action.run p.plane
  set { p with plane }
  liftExcept result

instance [ControlPlane π] : ControlPlane (Recorded π) where
  listingTime p := ControlPlane.listingTime p.plane
  beginListing p := { p.note .listing with plane := ControlPlane.beginListing p.plane }
  listing := ask ControlPlane.listing
  create d namespaceName name object := do
    modify fun p => p.note .submission
    ask (ControlPlane.create d namespaceName name object)

theorem run_ask (action : Lookup π α) (p : Recorded π) :
    (ask action).run.run p =
      ((action.run.run p.plane).1, { p with plane := (action.run.run p.plane).2 }) := by
  unfold ask
  simp only [Lookup.run_bind, Lookup.run_get]
  exact Lookup.run_liftExcept _ _

variable [ControlPlane π] (p : Recorded π)

theorem run_listing :
    (ControlPlane.listing : Lookup (Recorded π) _).run.run p =
      let answer := (ControlPlane.listing : Lookup π _).run.run p.plane
      (answer.1, { p with plane := answer.2 }) :=
  run_ask ControlPlane.listing p

theorem run_create (d : TypeDescriptor) (namespaceName name : String) (object : Json) :
    (ControlPlane.create d namespaceName name object : Lookup (Recorded π) Unit).run.run p =
      let answer :=
        (ControlPlane.create d namespaceName name object : Lookup π Unit).run.run p.plane
      (answer.1, { p.note .submission with plane := answer.2 }) :=
  run_ask (ControlPlane.create d namespaceName name object) (p.note .submission)

end Recorded

end ResourceNames
