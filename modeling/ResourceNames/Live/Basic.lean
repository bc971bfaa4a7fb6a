import ResourceNames.ControlPlane.Basic
import ResourceNames.Definition.Basic

/-!
# Live directories

A live directory mirrors the types that a control plane serves. A refresh lists all definitions and
replaces the index as a whole. A look-up that misses refreshes once before it gives up, and values
are checked by submitting them to the control plane.

A refresh is taken step by step (`Refreshes.step?`), so that several of them can go on at once. They
take turns by a lock, and one that waited while another one completed does not list again.
-/

namespace ResourceNames

/-- A directory of the types that a control plane serves. -/
structure LiveDirectory (π : Type) where
  plane : π
  /-- Only types whose group contains the naming authority are known. -/
  authority : String
  /-- The namespace of the objects that are submitted. -/
  namespaceName : String
  index : TypeIndex := {}
  /-- Number of completed refreshes. -/
  generation : Nat := 0
  /-- How descriptors are gone through. -/
  order : TypeIndex.IterationOrder := .ascending

/-- Where one of several refreshes stands. -/
inductive Stage where
  | pending
  /-- It has noted the generation and wants the lock. -/
  | waiting (observed : Nat)
  /-- It has the lock. -/
  | locked (observed : Nat)
  /-- It has to list, as no other refresh completed while it waited. -/
  | due
  /-- Its listing is under way. -/
  | listing
  | listed (documents : List Json)
  /-- It has replaced the index. -/
  | replaced
  /-- It knows its result and still has the lock. -/
  | leaving (result : Except DirectoryError Unit)
  | finished (result : Except DirectoryError Unit)

/-- What a refresh does in one step. -/
inductive Event where
  /-- It notes the generation. -/
  | read (generation : Nat)
  /-- It gets the lock. -/
  | acquired
  /-- It looks at the generation again. -/
  | checked (generation : Nat)
  /-- It starts a listing. -/
  | requested
  /-- It receives the answer to its listing. -/
  | answered (result : Except DirectoryError (List Json))
  /-- It replaces the index by that of a listing. -/
  | replaced (documents : List Json)
  /-- It counts itself as completed. -/
  | bumped
  /-- It gives the lock back and is over. -/
  | released (result : Except DirectoryError Unit)

/-- Refreshes of one directory that go on at once, known by their position. -/
structure Refreshes (π : Type) where
  directory : LiveDirectory π
  stages : List Stage := []
  /-- The refresh that has the lock. -/
  holder : Option Nat := none

namespace LiveDirectory

variable {π : Type}

/-- The URN template of a type at a version, as far as the index knows it. -/
def urnTemplate (d : LiveDirectory π) (name version : String) : Except DirectoryError String :=
  d.index.urnTemplate d.order name version

/-- Takes the types of a document in. Malformed and irrelevant documents are passed over. -/
def addDocument (authority : String) (index : TypeIndex) (document : Json) : TypeIndex :=
  match Definition.extract document authority with
  | .ok (.types ds) => ds.foldl TypeIndex.insert index
  | _ => index

/-- The types that the documents of a listing describe. -/
def indexOf (authority : String) (documents : List Json) : TypeIndex :=
  documents.foldl (addDocument authority) {}

/-- Replaces the index by that of a listing. -/
def replaceIndex (d : LiveDirectory π) (documents : List Json) : LiveDirectory π :=
  { d with index := indexOf d.authority documents }

/-- Counts one more refresh as completed. -/
def bump (d : LiveDirectory π) : LiveDirectory π := { d with generation := d.generation + 1 }

variable [ControlPlane π]

/-- Has the control plane do something. -/
def ask (action : Lookup π α) : Lookup (LiveDirectory π) α := do
  let d ← get
  let (result, plane) := action.run d.plane
  set { d with plane }
  liftExcept result

def beginListing (d : LiveDirectory π) : LiveDirectory π :=
  { d with plane := ControlPlane.beginListing d.plane }

/-- Receives the answer to a listing and takes effect if it is one. -/
def receive : Lookup (LiveDirectory π) Unit := do
  let documents ← ask ControlPlane.listing
  modify fun d => (d.replaceIndex documents).bump

/-- A refresh while there is no other one. -/
def refresh : Lookup (LiveDirectory π) Unit := do
  modify beginListing
  receive

end LiveDirectory

namespace Refreshes

variable {π : Type}

def stage? (r : Refreshes π) (i : Nat) : Option Stage := r.stages[i]?

def setStage (r : Refreshes π) (i : Nat) (s : Stage) : Refreshes π :=
  { r with stages := r.stages.set i s }

/-- One more refresh, which has not begun. -/
def add (r : Refreshes π) : Refreshes π := { r with stages := r.stages ++ [.pending] }

/-- The result of a refresh, if it is over. -/
def result? (r : Refreshes π) (i : Nat) : Option (Except DirectoryError Unit) :=
  match r.stage? i with
  | some (.finished result) => some result
  | _ => none

variable [ControlPlane π]

/-- What a refresh does next and what comes of it, unless it is over or has to wait for the lock. -/
def step? (r : Refreshes π) (i : Nat) : Option (Event × Refreshes π) :=
  let d := r.directory
  match r.stage? i with
  | some .pending => some (.read d.generation, r.setStage i (.waiting d.generation))
  | some (.waiting observed) =>
    match r.holder with
    | none => some (.acquired, { r.setStage i (.locked observed) with holder := some i })
    | some _ => none
  | some (.locked observed) =>
    let stage := if d.generation ≠ observed then .leaving (.ok ()) else .due
    some (.checked d.generation, r.setStage i stage)
  | some .due => some (.requested, { r.setStage i .listing with directory := d.beginListing })
  | some .listing =>
    let (result, directory) := (LiveDirectory.ask ControlPlane.listing).run d
    let stage :=
      match result with
      | .ok documents => .listed documents
      | .error e => .leaving (.error e)
    some (.answered result, { r.setStage i stage with directory })
  | some (.listed documents) =>
    let directory := d.replaceIndex documents
    some (.replaced documents, { r.setStage i .replaced with directory })
  | some .replaced => some (.bumped, { r.setStage i (.leaving (.ok ())) with directory := d.bump })
  | some (.leaving result) =>
    some (.released result, { r.setStage i (.finished result) with holder := none })
  | some (.finished _) | none => none

/-- A refresh takes its next step if it can. -/
def advance (r : Refreshes π) (i : Nat) : Refreshes π :=
  match r.step? i with
  | some (_, next) => next
  | none => r

/-- A waiting refresh gets the lock. It is over if another one completed in the meantime, or else
starts a listing. -/
def enter (r : Refreshes π) (i : Nat) : Refreshes π := ((r.advance i).advance i).advance i

/-- The answer to the listing of a refresh arrives, and with it the refresh is over. A listing takes
two steps more to take effect than a failure. -/
def answer (r : Refreshes π) (i : Nat) : Refreshes π := (((r.advance i).advance i).advance i).advance i

end Refreshes

end ResourceNames
