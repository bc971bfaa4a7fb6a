import ResourceNames.Live.Basic
import ResourceNames.Proofs.Directory.Lookup

/-!
# Moves of a refresh

What one step of one of several refreshes does.

* `Stage.Next`: where the step takes the refresh itself.
* `Move`: what it changes altogether. The other refreshes stay where they are.
* `move_of_step?`: the steps are moves.
-/

namespace ResourceNames

variable {π : Type}

namespace LiveDirectory

theorem run_ask (action : Lookup π α) (d : LiveDirectory π) :
    (ask action).run.run d =
      ((action.run.run d.plane).1, { d with plane := (action.run.run d.plane).2 }) := by
  unfold ask
  simp only [Lookup.run_bind, Lookup.run_get]
  exact Lookup.run_liftExcept _ _

variable [ControlPlane π]

theorem run_receive (d : LiveDirectory π) :
    (receive : Lookup (LiveDirectory π) Unit).run.run d =
      match (ask ControlPlane.listing : Lookup (LiveDirectory π) _).run.run d with
      | (.ok documents, d) => (.ok (), (d.replaceIndex documents).bump)
      | (.error e, d) => (.error e, d) := by
  unfold receive
  rw [Lookup.run_bind]
  rcases (ask ControlPlane.listing : Lookup (LiveDirectory π) _).run.run d with ⟨e | a, t⟩ <;> rfl

theorem run_refresh (d : LiveDirectory π) :
    (refresh : Lookup (LiveDirectory π) Unit).run.run d =
      (receive : Lookup (LiveDirectory π) Unit).run.run d.beginListing := rfl

end LiveDirectory

/-- Where an event takes a refresh. -/
inductive Stage.Next : Stage → Event → Stage → Prop
  | read (g : Nat) : Next .pending (.read g) (.waiting g)
  | acquired (g : Nat) : Next (.waiting g) .acquired (.locked g)
  | passed {g observed : Nat} :
    g ≠ observed → Next (.locked observed) (.checked g) (.leaving (.ok ()))
  | due (g : Nat) : Next (.locked g) (.checked g) .due
  | requested : Next .due .requested .listing
  | listed (documents : List Json) :
    Next .listing (.answered (.ok documents)) (.listed documents)
  | failed (e : DirectoryError) : Next .listing (.answered (.error e)) (.leaving (.error e))
  | replaced (documents : List Json) : Next (.listed documents) (.replaced documents) .replaced
  | bumped : Next .replaced .bumped (.leaving (.ok ()))
  | released (result : Except DirectoryError Unit) :
    Next (.leaving result) (.released result) (.finished result)

/-- Whether a refresh has the lock. -/
def Stage.inside : Stage → Bool
  | pending | waiting _ | finished _ => false
  | locked _ | due | listing | listed _ | replaced | leaving _ => true

/-- Whether a refresh has replaced the index without being counted yet. -/
def Stage.isReplaced : Stage → Bool
  | replaced => true
  | _ => false

namespace Event

/-- Who has the lock after an event of refresh `i`. -/
def holder (i : Nat) (holder : Option Nat) : Event → Option Nat
  | acquired => some i
  | released _ => none
  | _ => holder

/-- What an event does to the directory, apart from its control plane. -/
def effect (d : LiveDirectory π) : Event → LiveDirectory π
  | replaced documents => d.replaceIndex documents
  | bumped => d.bump
  | _ => d

/-- A generation that an event shows is `g`. -/
def Shows (g : Nat) : Event → Prop
  | read shown | checked shown => shown = g
  | _ => True

/-- The listing that an event puts in the place of the index. -/
def replacement? : Event → Option (List Json)
  | replaced documents => some documents
  | _ => none

def isBump : Event → Bool
  | bumped => true
  | _ => false

theorem isBump_iff {e : Event} : e.isBump = true ↔ e = .bumped := by
  cases e <;> simp [isBump]

theorem replacement?_eq_some_iff {e : Event} {documents : List Json} :
    e.replacement? = some documents ↔ e = .replaced documents := by
  cases e <;> simp [replacement?]

theorem authority_effect (e : Event) (d : LiveDirectory π) :
    (e.effect d).authority = d.authority := by
  cases e <;> rfl

theorem index_effect (e : Event) (d : LiveDirectory π) :
    (e.effect d).index =
      e.replacement?.elim d.index (LiveDirectory.indexOf d.authority) := by
  cases e <;> rfl

theorem generation_effect (e : Event) (d : LiveDirectory π) :
    (e.effect d).generation = d.generation + if e.isBump then 1 else 0 := by
  cases e <;> rfl

end Event

namespace Stage.Next

variable {s s' : Stage} {e : Event} {i j : Nat} {holder : Option Nat}

/-- If a refresh has the lock at the stages inside, it still does so after an event of its own. -/
theorem holder_self (h : s.Next e s') (hs : holder = some i ↔ s.inside = true) :
    e.holder i holder = some i ↔ s'.inside = true := by
  cases h with
  | acquired g | released result => simp [Event.holder, inside]
  | _ => exact hs

/-- An event takes the lock from no other refresh and gives it to no other one. -/
theorem holder_other (h : s.Next e s') (hs : holder = some i ↔ s.inside = true)
    (hfree : e = .acquired → holder = none) (hij : i ≠ j) :
    e.holder i holder = some j ↔ holder = some j := by
  cases h with
  | acquired g => simp [Event.holder, hfree rfl, hij]
  | released result => simp [Event.holder, hs.2 rfl, hij]
  | _ => exact Iff.rfl

/-- A refresh that replaced the index is counted by its next event. -/
theorem isReplaced (h : s.Next e s') :
    (if s'.isReplaced then 1 else 0) + (if e.isBump then 1 else 0) =
      (if s.isReplaced then 1 else 0) + e.replacement?.toList.length := by
  cases h <;> rfl

end Stage.Next

namespace Refreshes

/-- Where a refresh stands. One that is not there has not begun. -/
def stage (r : Refreshes π) (i : Nat) : Stage := (r.stage? i).getD .pending

@[simp] theorem stage_add (r : Refreshes π) (i : Nat) : r.add.stage i = r.stage i := by
  unfold stage stage? add
  rcases Nat.lt_trichotomy i r.stages.length with h | rfl | h
  · rw [List.getElem?_append_left h]
  · simp
  · rw [List.getElem?_eq_none (Nat.le_of_lt h), List.getElem?_eq_none (by simpa using Nat.succ_le_of_lt h)]

theorem stage_of_stage? {r : Refreshes π} {i : Nat} {s : Stage} (h : r.stage? i = some s) :
    r.stage i = s := by
  rw [stage, h, Option.getD_some]

theorem stage?_of_stage {r : Refreshes π} {i : Nat} {s : Stage} (h : r.stage i = s)
    (hs : s ≠ .pending) : r.stage? i = some s := by
  unfold stage at h
  cases hi : r.stage? i with
  | none => exact absurd (by simpa [hi] using h.symm) hs
  | some s' => exact congrArg some (by simpa [hi] using h)

theorem result?_eq_some_iff {r : Refreshes π} {i : Nat} {result : Except DirectoryError Unit} :
    r.result? i = some result ↔ r.stage? i = some (.finished result) := by
  unfold result?
  cases r.stage? i with
  | none => simp
  | some s => cases s <;> simp

variable [ControlPlane π]

/-- What a step of refresh `i` changes. -/
structure Move (r : Refreshes π) (i : Nat) (e : Event) (next : Refreshes π) : Prop where
  stages : ∃ s s', r.stage? i = some s ∧ s.Next e s' ∧ next.stages = r.stages.set i s'
  holder : next.holder = e.holder i r.holder
  /-- The lock is taken only while nobody has it. -/
  free : e = .acquired → r.holder = none
  directory : ∃ plane, next.directory = e.effect { r.directory with plane }
  shows : e.Shows r.directory.generation
  /-- The answer to a listing is that of the control plane. -/
  answer : ∀ result, e = .answered result →
    (ControlPlane.listing.run.run r.directory.plane).1 = result

theorem move_of_step? {r next : Refreshes π} {i : Nat} {e : Event}
    (h : r.step? i = some (e, next)) : Move r i e next := by
  unfold step? at h
  cases hs : r.stage? i with
  | none => simp [hs] at h
  | some s =>
    simp only [hs] at h
    cases s with
    | pending =>
      cases h
      exact ⟨⟨_, _, hs, .read _, rfl⟩, rfl, nofun, ⟨_, rfl⟩, rfl, nofun⟩
    | waiting observed =>
      cases hh : r.holder with
      | some j => simp [hh] at h
      | none =>
        simp only [hh] at h
        cases h
        exact ⟨⟨_, _, hs, .acquired _, rfl⟩, rfl, fun _ => hh, ⟨_, rfl⟩, trivial, nofun⟩
    | locked observed =>
      cases h
      refine ⟨⟨_, _, hs, ?_, rfl⟩, rfl, nofun, ⟨_, rfl⟩, rfl, nofun⟩
      split
      · rename_i hne
        exact .passed hne
      · rename_i heq
        rw [Decidable.not_not.1 heq]
        exact .due _
    | due =>
      cases h
      exact ⟨⟨_, _, hs, .requested, rfl⟩, rfl, nofun, ⟨_, rfl⟩, trivial, nofun⟩
    | listing =>
      have hask : (LiveDirectory.ask ControlPlane.listing).run r.directory = _ :=
        LiveDirectory.run_ask ControlPlane.listing r.directory
      rw [hask] at h
      cases h
      refine ⟨⟨_, _, hs, ?_, rfl⟩, rfl, nofun, ⟨_, rfl⟩, trivial, fun result h => by cases h; rfl⟩
      split
      · rename_i documents hok
        rw [hok]
        exact .listed documents
      · rename_i e herror
        rw [herror]
        exact .failed e
    | listed documents =>
      cases h
      exact ⟨⟨_, _, hs, .replaced _, rfl⟩, rfl, nofun, ⟨_, rfl⟩, trivial, nofun⟩
    | replaced =>
      cases h
      exact ⟨⟨_, _, hs, .bumped, rfl⟩, rfl, nofun, ⟨_, rfl⟩, trivial, nofun⟩
    | leaving result =>
      cases h
      exact ⟨⟨_, _, hs, .released _, rfl⟩, rfl, nofun, ⟨_, rfl⟩, trivial, nofun⟩
    | finished result => cases h

theorem step?_of_leaving {r : Refreshes π} {i : Nat} {result : Except DirectoryError Unit}
    (h : r.stage? i = some (.leaving result)) :
    r.step? i =
      some (.released result, { r.setStage i (.finished result) with holder := none }) := by
  simp only [step?, h]

theorem step?_of_finished {r : Refreshes π} {i : Nat} {result : Except DirectoryError Unit}
    (h : r.stage? i = some (.finished result)) : r.step? i = none := by
  simp only [step?, h]

/-- A refresh can go on unless it is over or waits for the lock. -/
theorem isSome_step? {r : Refreshes π} {i : Nat} {s : Stage} (hs : r.stage? i = some s)
    (h : s.inside = true ∨ s = .pending ∨ r.holder = none ∧ ∃ g, s = .waiting g) :
    (r.step? i).isSome = true := by
  rcases h with h | rfl | ⟨hfree, g, rfl⟩
  · cases s with
    | pending | waiting g | finished result => cases h
    | listing =>
      simp only [step?, hs]
      rfl
    | _ => simp only [step?, hs, Option.isSome_some]
  · simp only [step?, hs, Option.isSome_some]
  · simp only [step?, hs, hfree, Option.isSome_some]

/-- A move takes its refresh to the next stage and leaves the others where they are. -/
theorem Move.stage {r next : Refreshes π} {i : Nat} {e : Event} (h : Move r i e next) :
    ∃ s', (r.stage i).Next e s' ∧ ∀ j, next.stage j = if j = i then s' else r.stage j := by
  obtain ⟨s, s', hs, hnext, hset⟩ := h.stages
  obtain ⟨hi, -⟩ := List.getElem?_eq_some_iff.1 hs
  refine ⟨s', stage_of_stage? hs ▸ hnext, fun j => ?_⟩
  unfold Refreshes.stage stage?
  rw [hset]
  split
  · rename_i hj
    rw [hj, List.getElem?_set_self hi, Option.getD_some]
  · rename_i hj
    rw [List.getElem?_set_ne (Ne.symm hj)]

theorem Move.authority {r next : Refreshes π} {i : Nat} {e : Event} (h : Move r i e next) :
    next.directory.authority = r.directory.authority := by
  obtain ⟨plane, hd⟩ := h.directory
  rw [hd, e.authority_effect]

theorem Move.index {r next : Refreshes π} {i : Nat} {e : Event} (h : Move r i e next) :
    next.directory.index =
      e.replacement?.elim r.directory.index (LiveDirectory.indexOf r.directory.authority) := by
  obtain ⟨plane, hd⟩ := h.directory
  rw [hd, e.index_effect]

theorem Move.generation {r next : Refreshes π} {i : Nat} {e : Event} (h : Move r i e next) :
    next.directory.generation = r.directory.generation + if e.isBump then 1 else 0 := by
  obtain ⟨plane, hd⟩ := h.directory
  rw [hd, e.generation_effect]

/-- A refresh that goes on alone is `LiveDirectory.refresh`. -/
theorem answer_enter_advance_alone (d : LiveDirectory π) :
    let r : Refreshes π := { directory := d, stages := [.pending] }
    let (result, directory) := (LiveDirectory.refresh : Lookup (LiveDirectory π) Unit).run.run d
    ((r.advance 0).enter 0).answer 0 = { directory, stages := [.finished result] } := by
  intro r
  have hentered : (r.advance 0).enter 0 =
      { directory := d.beginListing, stages := [.listing], holder := some 0 } := by
    simp [r, enter, advance, step?, stage?, setStage]
  rw [hentered, LiveDirectory.run_refresh, LiveDirectory.run_receive]
  have hask : (LiveDirectory.ask ControlPlane.listing).run d.beginListing = _ :=
    LiveDirectory.run_ask ControlPlane.listing d.beginListing
  rw [LiveDirectory.run_ask]
  cases h : ((ControlPlane.listing : Lookup π _).run.run d.beginListing.plane).1 with
  | error e => simp [answer, advance, step?, stage?, setStage, hask, h]
  | ok documents => simp [answer, advance, step?, stage?, setStage, hask, h]

end Refreshes

end ResourceNames
