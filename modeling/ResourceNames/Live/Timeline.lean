import ResourceNames.Live.Lookup

/-!
# Refreshes in time

On a timeline a caller acts step by step, while other refreshes and periodic ones go on in the
background. Time passes only while the caller waits, from one event to the next. Of what falls on
the same moment the caller's part comes first, and then everything in the order in which it was
arranged.
-/

namespace ResourceNames

/-- What can come to pass in the background. -/
inductive Happening where
  /-- A refresh begins. -/
  | start (refresh : Nat)
  /-- A refresh gets the lock. -/
  | enter (refresh : Nat)
  /-- The answer to the listing of a refresh arrives. -/
  | answer (refresh : Nat)
  /-- A loop is set up. -/
  | launch (loop : Nat)
  /-- It is time for the next refresh of a loop. -/
  | tick (loop : Nat)
  deriving DecidableEq, Repr

/-- Periodic refreshes. -/
structure RefreshLoop where
  interval : Nat
  /-- When the next refresh is due. -/
  next : Nat := 0
  /-- The refresh that is under way. -/
  current : Option Nat := none
  deriving Repr

/-- A live directory in time, in milliseconds. -/
structure Timeline (π : Type) where
  refreshes : Refreshes π
  /-- The refreshes that want the lock in the order in which they get it. The first has it, or is
  about to. -/
  queue : List Nat := []
  now : Nat := 0
  loops : List RefreshLoop := []
  /-- What can happen at once, in order. -/
  ready : List Happening := []
  /-- What is going to happen and when, in the order in which it was arranged. -/
  timers : List (Nat × Happening) := []
  /-- The caller's own refresh. -/
  own : Option Nat := none

namespace Timeline

variable {π : Type}

def ofDirectory (d : LiveDirectory π) : Timeline π := { refreshes := { directory := d } }

/-- Arranges for something to happen. -/
def arrange (t : Timeline π) (due : Nat) (h : Happening) : Timeline π :=
  { t with timers := t.timers ++ [(due, h)] }

/-- Waits for the next tick of a loop. If it is overdue, it comes at once. -/
def awaitTick (t : Timeline π) (j : Nat) : Timeline π :=
  match t.loops[j]? with
  | none => t
  | some l =>
    if l.next ≤ t.now then { t with ready := .tick j :: t.ready } else t.arrange l.next (.tick j)

/-- What follows after a refresh is over: the next one gets the lock, and a loop goes on. -/
def afterFinish (t : Timeline π) (i : Nat) : Timeline π :=
  let queue := t.queue.tail
  let t : Timeline π :=
    { t with queue, ready := t.ready ++ queue.head?.toList.map Happening.enter }
  match t.loops.findIdx? fun l => l.current = some i with
  | some j =>
    { t with loops := t.loops.modify j fun l => { l with current := none } }.awaitTick j
  | none => t

variable [ControlPlane π]

/-- The answer to a listing arrives. -/
def answer (t : Timeline π) (i : Nat) : Timeline π :=
  { t with refreshes := t.refreshes.answer i }.afterFinish i

/-- A refresh gets the lock. A listing that takes no time is answered at once. -/
def enter (t : Timeline π) (i : Nat) : Timeline π :=
  let time := ControlPlane.listingTime t.refreshes.directory.plane
  let t := { t with refreshes := t.refreshes.enter i }
  if (t.refreshes.result? i).isSome then t.afterFinish i
  else if time = 0 then t.answer i
  else t.arrange (t.now + time) (.answer i)

/-- A refresh begins. It goes on at once if it gets the lock. -/
def start (t : Timeline π) (i : Nat) : Timeline π :=
  let t := { t with refreshes := t.refreshes.advance i, queue := t.queue ++ [i] }
  if t.queue.head? = some i then t.enter i else t

/-- The position of the next refresh. -/
def nextId (t : Timeline π) : Nat := t.refreshes.stages.length

def perform (t : Timeline π) : Happening → Timeline π
  | .start i => t.start i
  | .enter i => t.enter i
  | .answer i => t.answer i
  | .launch j =>
    match t.loops[j]? with
    | some l =>
      if l.interval = 0 then t
      else
        { t with loops := t.loops.set j { l with next := t.now + l.interval } }.awaitTick j
    | none => t
  | .tick j =>
    let i := t.nextId
    { t with
      refreshes := t.refreshes.add
      loops := t.loops.modify j fun l =>
        { l with next := l.next + l.interval, current := some i } }.start i

/-- Has all happen that can happen at once. -/
def drain : Nat → Timeline π → Timeline π
  | 0, t => t
  | fuel + 1, t =>
    match t.ready with
    | [] => t
    | h :: rest => drain fuel ({ t with ready := rest }.perform h)

/-- Number of happenings that can follow each other at one moment. Every refresh has three, and a
loop may have to catch up. -/
def pace (t : Timeline π) : Nat :=
  let overdue := t.loops.foldl (fun n l => n + 2 + (t.now - l.next) / max l.interval 1) 0
  4 * (t.ready.length + t.queue.length + overdue) + 8

/-- Whether something is the caller's own part. -/
def isOwn (t : Timeline π) : Happening → Bool
  | .enter i | .answer i => t.own = some i
  | _ => false

/-- Lets time pass until `due`. -/
def advance (t : Timeline π) (due : Nat) : Timeline π :=
  let arrived := (t.timers.filter fun e => e.1 ≤ due).map (·.2)
  { t with
    now := max t.now due
    timers := t.timers.filter fun e => due < e.1
    ready := t.ready ++ arrived }

/-- The caller waits until `done`, which is the case at the time `wake` at the latest. -/
def wait (done : Timeline π → Bool) (wake : Option Nat) : Nat → Timeline π → Timeline π
  | 0, t => t
  | fuel + 1, t =>
    let mine := t.ready.filter t.isOwn
    let t := mine.foldl perform { t with ready := t.ready.filter fun h => !t.isOwn h }
    if done t then t
    else
      let t := drain t.pace t
      if done t || t.ready.any t.isOwn then wait done wake fuel t
      else
        match (t.timers.map (·.1) ++ wake.toList).min? with
        | some due => wait done wake fuel (t.advance due)
        | none => t

/-- How often the caller looks up while it waits for refreshes: time passes in between, and each
refresh in the queue takes the time of one listing. -/
def patience (t : Timeline π) (more : Nat) : Nat :=
  let time := ControlPlane.listingTime t.refreshes.directory.plane
  4 * (t.queue.length + t.ready.length + t.loops.length + more + 2) * (time + 2)

/-- Waits until some refreshes are over. -/
def waitFor (t : Timeline π) (ids : List Nat) : Timeline π :=
  wait (fun t => ids.all fun i => (t.refreshes.result? i).isSome) none (t.patience ids.length) t

/-- Lets time pass. -/
def sleep (t : Timeline π) (time : Nat) : Timeline π :=
  let due := t.now + time
  wait (fun t => due ≤ t.now) (some due) (2 * time + 2) t

/-- The caller refreshes the directory and waits for the result. -/
def refresh : Lookup (Timeline π) Unit := do
  let t ← get
  let i := t.nextId
  let t := { t with refreshes := t.refreshes.add, own := some i }.start i
  let t := t.waitFor [i]
  set { t with own := none }
  liftExcept ((t.refreshes.result? i).getD (.ok ()))

/-- Begins `n` refreshes together; their results. -/
def refreshTogether (n : Nat) : StateM (Timeline π) (List (Except DirectoryError Unit)) := do
  let t ← get
  let ids := (List.range n).map (t.nextId + ·)
  let t := { t with
    refreshes := ids.foldl (fun r _ => r.add) t.refreshes
    ready := t.ready ++ ids.map Happening.start }.waitFor ids
  set t
  return ids.filterMap t.refreshes.result?

/-- Sets up periodic refreshes. -/
def launchLoop (t : Timeline π) (interval : Nat) : Timeline π :=
  { t with
    loops := t.loops ++ [{ interval }]
    ready := t.ready ++ [.launch t.loops.length] }

instance : LiveHolder (Timeline π) π where
  directory t := t.refreshes.directory
  setDirectory t d := { t with refreshes := { t.refreshes with directory := d } }
  refresh := refresh

end Timeline

end ResourceNames
