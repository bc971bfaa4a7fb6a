import Mathlib.Data.List.Basic
import Mathlib.Data.List.Nodup
import ResourceNames.Proofs.Live.SingleFlight

/-!
# Refreshes in the order of the lock

What refreshes do while they have the lock comes in turns, one refresh after the other.

* `Log.lockOrder`: the refreshes in the order in which they got the lock.
* `Log.TakesTurns`: the log, but for what is done without the lock, has their turns in this order.
* `Course.From`: what is known of a course that starts with any directory.
-/

namespace ResourceNames

variable {π : Type}

namespace Event

/-- Whether a refresh notes the generation, which takes no lock. -/
def isRead : Event → Bool
  | read _ => true
  | _ => false

def isAcquired : Event → Bool
  | acquired => true
  | _ => false

/-- The answer to a listing. -/
def answer? : Event → Option (Except DirectoryError (List Json))
  | answered result => some result
  | _ => none

def isRequest : Event → Bool
  | requested => true
  | _ => false

end Event

/-! ## Turns -/

namespace Log

/-- The refreshes in the order in which they got the lock. -/
def lockOrder (log : Log) : List Nat :=
  log.filterMap fun x => if x.2.isAcquired then some x.1 else none

/-- The refreshes that listed, in order. -/
def listers (log : Log) : List Nat :=
  log.filterMap fun x => if x.2.isRequest then some x.1 else none

/-- The answers to their listings, in order. -/
def answers (log : Log) : List (Except DirectoryError (List Json)) :=
  log.filterMap (·.2.answer?)

/-- What refreshes did with the lock. -/
def locked (log : Log) : Log := log.filter fun x => !x.2.isRead

/-- What one refresh did with the lock. -/
def deeds (log : Log) (i : Nat) : List Event := (log.past i).filter fun e => !e.isRead

/-- What one refresh did with the lock, as a part of a log. -/
def turn (log : Log) (i : Nat) : Log := (log.deeds i).map (Prod.mk i)

variable (log : Log) (i j : Nat) (e : Event)

theorem lockOrder_concat :
    lockOrder (log ++ [(i, e)]) = log.lockOrder ++ if e.isAcquired then [i] else [] := by
  unfold lockOrder
  rw [List.filterMap_append]
  cases h : e.isAcquired <;> simp [h]

theorem locked_concat :
    locked (log ++ [(i, e)]) = log.locked ++ if e.isRead then [] else [(i, e)] := by
  unfold locked
  rw [List.filter_append]
  cases h : e.isRead <;> simp [h]

theorem turn_concat :
    turn (log ++ [(i, e)]) j =
      log.turn j ++ if j = i ∧ e.isRead = false then [(i, e)] else [] := by
  unfold turn deeds
  rw [past_concat]
  by_cases hj : j = i
  · subst hj
    cases h : e.isRead <;> simp [h]
  · simp [hj]

variable {log i j e}

theorem turn_concat_self (he : e.isRead = false) :
    turn (log ++ [(i, e)]) i = log.turn i ++ [(i, e)] := by
  rw [turn_concat, if_pos ⟨rfl, he⟩]

theorem turn_concat_of_ne (hij : j ≠ i) : turn (log ++ [(i, e)]) j = log.turn j := by
  rw [turn_concat, if_neg fun h => hij h.1, List.append_nil]

theorem turn_concat_of_isRead (he : e.isRead = true) :
    turn (log ++ [(i, e)]) j = log.turn j := by
  rw [turn_concat, he, if_neg (by simp), List.append_nil]

theorem mem_lockOrder_iff : i ∈ log.lockOrder ↔ .acquired ∈ log.past i := by
  rw [mem_past]
  unfold lockOrder
  rw [List.mem_filterMap]
  constructor
  · rintro ⟨⟨j, e⟩, hmem, h⟩
    cases e with
    | acquired =>
      cases h
      exact hmem
    | _ => cases h
  · exact fun hmem => ⟨_, hmem, rfl⟩

/-- The turn of the last refresh goes on. -/
theorem locked_concat_of_last {before : List Nat} (he : e.isRead = false) (hi : i ∉ before)
    (hlog : log.locked = before.flatMap log.turn ++ log.turn i) :
    locked (log ++ [(i, e)]) = (before ++ [i]).flatMap (turn (log ++ [(i, e)])) := by
  have hbefore : before.flatMap (turn (log ++ [(i, e)])) = before.flatMap log.turn :=
    List.flatMap_congr fun j hj => turn_concat_of_ne fun hji => hi (hji ▸ hj)
  rw [locked_concat, he, hlog, List.flatMap_append, hbefore, List.flatMap_singleton,
    turn_concat_self he, List.append_assoc]
  rfl

/-- The refreshes of a log have the lock one after the other, at last the one that has it now. -/
structure TakesTurns (log : Log) (holder : Option Nat) : Prop where
  nodup : log.lockOrder.Nodup
  locked : log.locked = log.lockOrder.flatMap log.turn
  last : ∀ i, holder = some i → log.lockOrder.getLast? = some i

namespace TakesTurns

variable {holder : Option Nat} (h : log.TakesTurns holder)

theorem nil : TakesTurns [] none := ⟨List.nodup_nil, rfl, nofun⟩

include h

theorem read (g : Nat) : TakesTurns (log ++ [(i, .read g)]) holder := by
  have horder : lockOrder (log ++ [(i, .read g)]) = log.lockOrder := by
    rw [lockOrder_concat]
    exact List.append_nil _
  have hturns : turn (log ++ [(i, .read g)]) = log.turn :=
    funext fun j => turn_concat_of_isRead rfl
  refine ⟨horder ▸ h.nodup, ?_, horder ▸ h.last⟩
  rw [locked_concat, horder, hturns, h.locked]
  exact List.append_nil _

/-- A new turn begins. -/
theorem acquired (hi : i ∉ log.lockOrder) (hturn : log.turn i = []) :
    TakesTurns (log ++ [(i, .acquired)]) (some i) := by
  have horder : lockOrder (log ++ [(i, .acquired)]) = log.lockOrder ++ [i] := lockOrder_concat ..
  refine ⟨?_, ?_, fun j hj => ?_⟩
  · rw [horder]
    exact List.nodup_append_comm.1 (List.nodup_cons.2 ⟨hi, h.nodup⟩)
  · rw [horder]
    refine locked_concat_of_last rfl hi ?_
    rw [hturn, List.append_nil, h.locked]
  · obtain rfl := Option.some.inj hj
    rw [horder, List.getLast?_concat]

/-- The turn of the refresh that has the lock goes on. -/
theorem inside (hholder : holder = some i) (he : e.isRead = false) (hacquired : e.isAcquired = false)
    {holder' : Option Nat} (hkept : ∀ j, holder' = some j → holder = some j) :
    TakesTurns (log ++ [(i, e)]) holder' := by
  have horder : lockOrder (log ++ [(i, e)]) = log.lockOrder := by
    rw [lockOrder_concat, hacquired]
    exact List.append_nil _
  -- The turn that goes on is the last one, so those before it stay as they are.
  obtain ⟨before, hbefore⟩ := List.getLast?_eq_some_iff.1 (h.last i hholder)
  have hi : i ∉ before := by
    have hnodup := h.nodup
    rw [hbefore] at hnodup
    exact (List.nodup_cons.1 (List.nodup_append_comm.1 hnodup)).1
  refine ⟨horder ▸ h.nodup, ?_, fun j hj => horder ▸ h.last j (hkept j hj)⟩
  rw [horder, hbefore]
  refine locked_concat_of_last he hi ?_
  rw [h.locked, hbefore, List.flatMap_append, List.flatMap_singleton]

end TakesTurns

end Log

section

variable [ControlPlane π] {r next : Refreshes π} {i : Nat} {e : Event}

open Refreshes

theorem Refreshes.Move.takesTurns (h : Move r i e next) {log : Log}
    (hpast : ∀ j, Past (r.stage j) (log.past j))
    (hlock : ∀ j, r.holder = some j ↔ (r.stage j).inside = true)
    (hturns : log.TakesTurns r.holder) : Log.TakesTurns (log ++ [(i, e)]) next.holder := by
  obtain ⟨s', hnext, -⟩ := h.stage
  have hi := hpast i
  have hholder := (hlock i).2
  rw [h.holder]
  generalize r.stage i = s at hnext hi hholder
  cases hnext with
  | read g => exact hturns.read g
  | acquired g =>
    -- A refresh that waits for the lock did not have it before.
    generalize hlog : log.past i = es at hi
    cases hi
    refine hturns.acquired (fun hmem => ?_) ?_
    · rw [Log.mem_lockOrder_iff, hlog] at hmem
      simp at hmem
    · rw [Log.turn, Log.deeds, hlog]
      rfl
  | released result => exact hturns.inside (hholder rfl) rfl rfl nofun
  | _ => exact hturns.inside (hholder rfl) rfl rfl fun _ => id

end

/-! ## Courses of any directory -/

/-- The course of some actions on a directory without refreshes. -/
def courseFrom [ControlPlane π] (d : LiveDirectory π) (actions : List (Action π)) : Course π :=
  actions.foldl Course.act { refreshes := { directory := d } }

/-- The log of a course tells what became of the directory that it began with. -/
structure Course.From (d : LiveDirectory π) (c : Course π) : Prop where
  past : ∀ i, Past (c.refreshes.stage i) (c.log.past i)
  holder : ∀ i, c.refreshes.holder = some i ↔ (c.refreshes.stage i).inside = true
  authority : c.refreshes.directory.authority = d.authority
  index : c.refreshes.directory.index =
    c.log.replacements.getLast?.elim d.index (LiveDirectory.indexOf d.authority)
  generation : c.refreshes.directory.generation = d.generation + c.log.bumps
  shown : ∀ (before : Log) (i : Nat) (e : Event), before ++ [(i, e)] <+: c.log →
    e.Shows (d.generation + before.bumps)
  turns : c.log.TakesTurns c.refreshes.holder

namespace Course.From

variable [ControlPlane π] {d : LiveDirectory π} {c : Course π} {i : Nat}

theorem move (h : c.From d) {e : Event} {next : Refreshes π} (hmove : c.refreshes.Move i e next) :
    Course.From d ⟨next, c.log ++ [(i, e)]⟩ where
  past := hmove.past h.past
  holder := hmove.holder_iff h.holder
  authority := hmove.authority.trans h.authority
  index := by
    rw [hmove.index, h.authority, h.index, Log.replacements_concat]
    cases e.replacement? <;> simp
  generation := by rw [hmove.generation, h.generation, Log.bumps_concat, Nat.add_assoc]
  shown := by
    intro before j e' hp
    rcases List.prefix_concat_iff.1 hp with heq | hp
    · obtain ⟨rfl, hx⟩ := List.append_inj' heq rfl
      cases hx
      exact h.generation ▸ hmove.shows
    · exact h.shown before j e' hp
  turns := hmove.takesTurns h.past h.holder h.turns

theorem act (h : c.From d) (action : Action π) : (c.act action).From d := by
  cases action with
  | add =>
    refine ⟨fun i => ?_, fun i => ?_, h.authority, h.index, h.generation, h.shown, h.turns⟩
    · exact (Refreshes.stage_add c.refreshes i).symm ▸ h.past i
    · exact (Refreshes.stage_add c.refreshes i).symm ▸ h.holder i
  | advance i =>
    cases hstep : c.refreshes.step? i with
    | none => rwa [act_advance_of_none hstep]
    | some step =>
      rw [act_advance_of_some hstep]
      exact h.move (Refreshes.move_of_step? hstep)
  | change plane =>
    exact ⟨h.past, h.holder, h.authority, h.index, h.generation, h.shown, h.turns⟩

end Course.From

theorem from_courseFrom [ControlPlane π] (d : LiveDirectory π) (actions : List (Action π)) :
    (courseFrom d actions).From d := by
  induction actions using List.reverseRecOn with
  | nil =>
    refine ⟨fun i => .pending, fun i => ⟨nofun, nofun⟩, rfl, rfl, rfl, fun before i e h => ?_,
      .nil⟩
    exact absurd (List.prefix_nil.1 h) (List.append_ne_nil_of_right_ne_nil _ nofun)
  | append_singleton actions action ih =>
    have hconcat : courseFrom d (actions ++ [action]) = (courseFrom d actions).act action := by
      simp [courseFrom]
    rw [hconcat]
    exact ih.act action

end ResourceNames
