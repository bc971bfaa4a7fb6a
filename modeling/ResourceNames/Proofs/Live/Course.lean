import Mathlib.Data.List.Induction
import ResourceNames.Proofs.Live.Moves

/-!
# Courses of refreshes

A course is what several refreshes of a new directory do in some order, step by step, while the
control plane changes. Its log has all that they did.

* `Past`: all that a refresh has done when it stands at some stage.
* `Course.Sound`: how the log of a course tells the state of the directory.
* `sound_course`: all courses are sound.
-/

namespace ResourceNames

variable {π : Type}

/-! ## The log -/

/-- What refreshes did, each with its position, in order. -/
abbrev Log := List (Nat × Event)

namespace Log

/-- What a refresh did. -/
def past (log : Log) (i : Nat) : List Event :=
  log.filterMap fun x => if x.1 = i then some x.2 else none

/-- The listings by which the index was replaced. -/
def replacements (log : Log) : List (List Json) := log.filterMap (·.2.replacement?)

/-- How many refreshes completed. -/
def bumps (log : Log) : Nat := log.countP (·.2.isBump)

/-- The index according to the latest listing by which it was replaced. -/
def index (authority : String) (log : Log) : TypeIndex :=
  log.replacements.getLast?.elim {} (LiveDirectory.indexOf authority)

/-- The generations that events show count the refreshes that were completed by then. -/
def Shown (log : Log) : Prop :=
  ∀ (before : Log) (i : Nat) (e : Event), before ++ [(i, e)] <+: log → e.Shows before.bumps

variable (log : Log) (i : Nat) (e : Event)

theorem past_concat (j : Nat) :
    past (log ++ [(i, e)]) j = if j = i then log.past j ++ [e] else log.past j := by
  unfold past
  rw [List.filterMap_append, List.filterMap_cons, List.filterMap_nil]
  by_cases h : j = i
  · simp [h]
  · simp [h, Ne.symm h]

theorem replacements_concat :
    replacements (log ++ [(i, e)]) = log.replacements ++ e.replacement?.toList := by
  unfold replacements
  rw [List.filterMap_append]
  cases h : e.replacement? <;> simp [h]

theorem index_concat (name : String) :
    index name (log ++ [(i, e)]) =
      e.replacement?.elim (log.index name) (LiveDirectory.indexOf name) := by
  unfold index
  rw [replacements_concat]
  cases e.replacement? <;> simp

theorem bumps_concat : bumps (log ++ [(i, e)]) = log.bumps + if e.isBump then 1 else 0 := by
  unfold bumps
  rw [List.countP_append, List.countP_singleton]

theorem Shown.concat {log : Log} {e : Event} (h : log.Shown) (i : Nat) (he : e.Shows log.bumps) :
    Shown (log ++ [(i, e)]) := by
  intro before j e' hp
  rcases List.prefix_concat_iff.1 hp with heq | hp
  · obtain ⟨rfl, hx⟩ := List.append_inj' heq rfl
    cases hx
    exact he
  · exact h before j e' hp

end Log

/-! ## The past of a refresh -/

/-- What a refresh did that noted a generation and listed. -/
def request (g : Nat) : List Event := [.read g, .acquired, .checked g, .requested]

/-- What a refresh at a stage has done. -/
inductive Past : Stage → List Event → Prop
  | pending : Past .pending []
  | waiting (g : Nat) : Past (.waiting g) [.read g]
  | locked (g : Nat) : Past (.locked g) [.read g, .acquired]
  | passed {g observed : Nat} (h : g ≠ observed) :
    Past (.leaving (.ok ())) [.read observed, .acquired, .checked g]
  | due (g : Nat) : Past .due [.read g, .acquired, .checked g]
  | listing (g : Nat) : Past .listing (request g)
  | failed (g : Nat) (e : DirectoryError) :
    Past (.leaving (.error e)) (request g ++ [.answered (.error e)])
  | listed (g : Nat) (documents : List Json) :
    Past (.listed documents) (request g ++ [.answered (.ok documents)])
  | replaced (g : Nat) (documents : List Json) :
    Past .replaced (request g ++ [.answered (.ok documents), .replaced documents])
  | bumped (g : Nat) (documents : List Json) :
    Past (.leaving (.ok ()))
      (request g ++ [.answered (.ok documents), .replaced documents, .bumped])
  | finished {result : Except DirectoryError Unit} {events : List Event} :
    Past (.leaving result) events → Past (.finished result) (events ++ [.released result])

theorem Past.next {s s' : Stage} {e : Event} {events : List Event} (h : Past s events)
    (hnext : s.Next e s') : Past s' (events ++ [e]) := by
  cases hnext with
  | read g => cases h; exact .waiting g
  | acquired g => cases h; exact .locked g
  | passed hne => cases h; exact .passed hne
  | due g => cases h; exact .due g
  | requested => cases h with | due g => exact .listing g
  | listed documents => cases h with | listing g => exact .listed g documents
  | failed e => cases h with | listing g => exact .failed g e
  | replaced documents => cases h with | listed g => exact .replaced g documents
  | bumped => cases h with | replaced g documents => exact .bumped g documents
  | released result => exact .finished h

/-! ## Courses -/

/-- What can happen between refreshes. -/
inductive Action (π : Type) where
  /-- One more refresh is about to begin. -/
  | add
  /-- A refresh takes its next step if it can. -/
  | advance (i : Nat)
  /-- The control plane is another one now. -/
  | change (plane : π)

/-- Refreshes with all that they did. -/
structure Course (π : Type) where
  refreshes : Refreshes π
  log : Log := []

/-- A course after one more action. -/
def Course.act [ControlPlane π] (c : Course π) : Action π → Course π
  | .add => { c with refreshes := c.refreshes.add }
  | .advance i =>
    match c.refreshes.step? i with
    | some (e, next) => ⟨next, c.log ++ [(i, e)]⟩
    | none => c
  | .change plane =>
    { c with refreshes := { c.refreshes with directory := { c.refreshes.directory with plane } } }

namespace Course

variable [ControlPlane π] {c : Course π} {i : Nat}

theorem act_advance_of_some {e : Event} {next : Refreshes π}
    (h : c.refreshes.step? i = some (e, next)) :
    c.act (.advance i) = ⟨next, c.log ++ [(i, e)]⟩ := by
  simp only [act, h]

theorem act_advance_of_none (h : c.refreshes.step? i = none) : c.act (.advance i) = c := by
  simp only [act, h]

theorem refreshes_act_advance (c : Course π) (i : Nat) :
    (c.act (.advance i)).refreshes = c.refreshes.advance i := by
  unfold Refreshes.advance
  cases h : c.refreshes.step? i with
  | none => rw [act_advance_of_none h]
  | some step => rw [act_advance_of_some h]

/-- An action is a step of a refresh, of which the log is kept, or it has no effect on the log nor
on what the directory knows. -/
theorem act_cases (c : Course π) (action : Action π) :
    (∃ i e next, action = .advance i ∧ c.refreshes.step? i = some (e, next) ∧
      c.act action = ⟨next, c.log ++ [(i, e)]⟩) ∨
    ((c.act action).log = c.log ∧
      (c.act action).refreshes.directory.index = c.refreshes.directory.index ∧
      (c.act action).refreshes.directory.generation = c.refreshes.directory.generation) := by
  cases action with
  | add => exact .inr ⟨rfl, rfl, rfl⟩
  | advance i =>
    cases hstep : c.refreshes.step? i with
    | none => exact .inr (by rw [act_advance_of_none hstep]; exact ⟨rfl, rfl, rfl⟩)
    | some step => exact .inl ⟨i, step.1, step.2, rfl, hstep, act_advance_of_some hstep⟩
  | change plane => exact .inr ⟨rfl, rfl, rfl⟩

/-- The index changes only by being replaced. -/
theorem log_of_index_ne (action : Action π)
    (hne : (c.act action).refreshes.directory.index ≠ c.refreshes.directory.index) :
    ∃ i documents, (c.act action).log = c.log ++ [(i, .replaced documents)] := by
  rcases c.act_cases action with ⟨i, e, next, -, hstep, hact⟩ | ⟨-, hindex, -⟩
  · have hindex := (Refreshes.move_of_step? hstep).index
    rw [hact] at hne ⊢
    cases he : e.replacement? with
    | none => exact absurd (by rw [hindex, he]; rfl) hne
    | some documents => exact ⟨i, documents, by rw [Event.replacement?_eq_some_iff.1 he]⟩
  · exact absurd hindex hne

/-- The generation changes only by being counted up. -/
theorem log_of_generation_ne (action : Action π)
    (hne : (c.act action).refreshes.directory.generation ≠ c.refreshes.directory.generation) :
    ∃ i, (c.act action).log = c.log ++ [(i, .bumped)] := by
  rcases c.act_cases action with ⟨i, e, next, -, hstep, hact⟩ | ⟨-, -, hgeneration⟩
  · have hgeneration := (Refreshes.move_of_step? hstep).generation
    rw [hact] at hne ⊢
    by_cases he : e.isBump = true
    · exact ⟨i, by rw [Event.isBump_iff.1 he]⟩
    · exact absurd (by rw [hgeneration, if_neg he, Nat.add_zero]) hne
  · exact absurd hgeneration hne

/-- A refresh that knows its result is over by its next step. -/
theorem result?_act_advance {result : Except DirectoryError Unit}
    (h : c.refreshes.stage i = .leaving result ∨ c.refreshes.stage i = .finished result) :
    (c.act (.advance i)).refreshes.result? i = some result := by
  rw [Refreshes.result?_eq_some_iff]
  rcases h with h | h
  · have hs := Refreshes.stage?_of_stage h nofun
    rw [act_advance_of_some (Refreshes.step?_of_leaving hs)]
    exact List.getElem?_set_self (List.getElem?_eq_some_iff.1 hs).1
  · have hs := Refreshes.stage?_of_stage h nofun
    rwa [act_advance_of_none (Refreshes.step?_of_finished hs)]

end Course

/-- The course of some actions on a new directory. -/
def course [ControlPlane π] (plane : π) (authority namespaceName : String)
    (actions : List (Action π)) : Course π :=
  actions.foldl Course.act { refreshes := { directory := { plane, authority, namespaceName } } }

/-- The log of a course tells the state of its directory and of its refreshes. -/
structure Course.Sound (name : String) (c : Course π) : Prop where
  past : ∀ i, Past (c.refreshes.stage i) (c.log.past i)
  holder : ∀ i, c.refreshes.holder = some i ↔ (c.refreshes.stage i).inside = true
  authority : c.refreshes.directory.authority = name
  index : c.refreshes.directory.index = c.log.index name
  generation : c.refreshes.directory.generation = c.log.bumps
  replacements : c.log.replacements.length =
    c.refreshes.directory.generation + c.refreshes.stages.countP Stage.isReplaced
  shown : c.log.Shown

section

variable [ControlPlane π] {r next : Refreshes π} {i : Nat} {e : Event}

open Refreshes

theorem Refreshes.Move.past (h : Move r i e next) {log : Log}
    (hlog : ∀ j, Past (r.stage j) (log.past j)) (j : Nat) :
    Past (next.stage j) (Log.past (log ++ [(i, e)]) j) := by
  obtain ⟨s', hnext, hstage⟩ := h.stage
  rw [hstage, Log.past_concat]
  split
  · rename_i hj
    subst hj
    exact (hlog j).next hnext
  · exact hlog j

theorem Refreshes.Move.holder_iff (h : Move r i e next)
    (hlock : ∀ j, r.holder = some j ↔ (r.stage j).inside = true) (j : Nat) :
    next.holder = some j ↔ (next.stage j).inside = true := by
  obtain ⟨s', hnext, hstage⟩ := h.stage
  have hi := hlock i
  rw [hstage, h.holder]
  split
  · rename_i hj
    subst hj
    exact hnext.holder_self hi
  · rename_i hj
    exact (hnext.holder_other hi h.free (Ne.symm hj)).trans (hlock j)

/-- If the lock is with the one that is inside, then while a refresh is not over, it can go on, or
else the one that has the lock. -/
theorem Refreshes.exists_step_of_lock
    (hlock : ∀ j, r.holder = some j ↔ (r.stage j).inside = true) {s : Stage}
    (hs : r.stage? i = some s) (hover : r.result? i = none) :
    ∃ j, (r.step? j).isSome = true := by
  cases s with
  | pending => exact ⟨i, isSome_step? hs (.inr (.inl rfl))⟩
  | waiting g =>
    cases hholder : r.holder with
    | none => exact ⟨i, isSome_step? hs (.inr (.inr ⟨hholder, g, rfl⟩))⟩
    | some j =>
      have hinside := (hlock j).1 hholder
      refine ⟨j, isSome_step? (stage?_of_stage rfl fun hpending => ?_) (.inl hinside)⟩
      rw [hpending] at hinside
      cases hinside
  | finished result =>
    rw [result?_eq_some_iff.2 hs] at hover
    cases hover
  | _ => exact ⟨i, isSome_step? hs (.inl rfl)⟩

/-- A replacement is counted either in the generation or as one that is not counted yet. -/
theorem Refreshes.Move.replacements (h : Move r i e next) {log : Log}
    (hlog : log.replacements.length = r.directory.generation + r.stages.countP Stage.isReplaced) :
    (Log.replacements (log ++ [(i, e)])).length =
      next.directory.generation + next.stages.countP Stage.isReplaced := by
  obtain ⟨s, s', hs, hnext, hset⟩ := h.stages
  obtain ⟨hi, rfl⟩ := List.getElem?_eq_some_iff.1 hs
  have hle : (if r.stages[i].isReplaced then 1 else 0) ≤ r.stages.countP Stage.isReplaced := by
    split
    · rename_i hrep
      exact List.countP_pos_iff.2 ⟨_, List.getElem_mem hi, hrep⟩
    · exact Nat.zero_le _
  have hcount := hnext.isReplaced
  rw [Log.replacements_concat, List.length_append, hlog, hset, List.countP_set hi, h.generation]
  omega

end

namespace Course.Sound

variable {name : String} {c : Course π} {i : Nat}

theorem past_of_stage? (h : c.Sound name) {s : Stage} (hs : c.refreshes.stage? i = some s) :
    Past s (c.log.past i) :=
  Refreshes.stage_of_stage? hs ▸ h.past i

theorem holder_of_stage? (h : c.Sound name) {s : Stage} (hs : c.refreshes.stage? i = some s)
    (hinside : s.inside = true) : c.refreshes.holder = some i :=
  (h.holder i).2 ((Refreshes.stage_of_stage? hs).symm ▸ hinside)

variable [ControlPlane π]

/-- While a refresh is not over, it can go on, or else the one that has the lock. -/
theorem exists_step (h : c.Sound name) {s : Stage} (hs : c.refreshes.stage? i = some s)
    (hover : c.refreshes.result? i = none) : ∃ j, (c.refreshes.step? j).isSome = true :=
  Refreshes.exists_step_of_lock h.holder hs hover

theorem move (h : c.Sound name) {e : Event} {next : Refreshes π}
    (hmove : c.refreshes.Move i e next) : Course.Sound name ⟨next, c.log ++ [(i, e)]⟩ where
  past := hmove.past h.past
  holder := hmove.holder_iff h.holder
  authority := hmove.authority.trans h.authority
  index := by rw [hmove.index, Log.index_concat, h.authority, h.index]
  generation := by rw [hmove.generation, h.generation, Log.bumps_concat]
  replacements := hmove.replacements h.replacements
  shown := h.shown.concat i (h.generation ▸ hmove.shows)

theorem act (h : c.Sound name) (action : Action π) : (c.act action).Sound name := by
  cases action with
  | add =>
    refine ⟨fun i => ?_, fun i => ?_, h.authority, h.index, h.generation, ?_, h.shown⟩
    · exact (Refreshes.stage_add c.refreshes i).symm ▸ h.past i
    · exact (Refreshes.stage_add c.refreshes i).symm ▸ h.holder i
    · simpa [Course.act, Refreshes.add, Stage.isReplaced] using h.replacements
  | advance i =>
    cases hstep : c.refreshes.step? i with
    | none => rwa [act_advance_of_none hstep]
    | some step =>
      rw [act_advance_of_some hstep]
      exact h.move (Refreshes.move_of_step? hstep)
  | change plane =>
    exact ⟨h.past, h.holder, h.authority, h.index, h.generation, h.replacements, h.shown⟩

end Course.Sound

section

variable [ControlPlane π] (plane : π) (authority namespaceName : String)
  (actions : List (Action π))

theorem course_concat (action : Action π) :
    course plane authority namespaceName (actions ++ [action]) =
      (course plane authority namespaceName actions).act action := by
  simp [course]

theorem sound_course : (course plane authority namespaceName actions).Sound authority := by
  induction actions using List.reverseRecOn with
  | nil =>
    refine ⟨fun i => .pending, fun i => ?_, rfl, rfl, rfl, rfl, fun before i e h => ?_⟩
    · exact ⟨nofun, nofun⟩
    · exact absurd (List.prefix_nil.1 h) (List.append_ne_nil_of_right_ne_nil _ nofun)
  | append_singleton actions action ih =>
    rw [course_concat]
    exact ih.act action

end

end ResourceNames
