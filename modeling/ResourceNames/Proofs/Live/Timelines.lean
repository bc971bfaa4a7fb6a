import ResourceNames.Live.Timeline
import ResourceNames.Proofs.Live.Answers
import ResourceNames.Proofs.Live.Course

/-!
# Refreshes on timelines

Whatever a caller does on a timeline, and whatever happens in the background, refreshes only take the
steps of courses.

* `Refreshes.Closed`: a property that the actions of a course keep.
* `Timeline.Reached`: the timelines of a new directory.
* `exists_course_of_reached`: their refreshes are those of courses.
-/

namespace ResourceNames

variable {π : Type}

/-! ## Properties that actions keep -/

/-- A property of refreshes that everything that can happen keeps. -/
structure Refreshes.Closed [ControlPlane π] (P : Refreshes π → Prop) : Prop where
  add : ∀ r, P r → P r.add
  advance : ∀ r i, P r → P (r.advance i)
  change : ∀ r plane, P r → P { r with directory := { r.directory with plane } }

namespace Timeline

open Lookup

theorem refreshes_awaitTick (t : Timeline π) (j : Nat) :
    (t.awaitTick j).refreshes = t.refreshes := by
  unfold awaitTick
  split
  · rfl
  · split <;> rfl

theorem refreshes_afterFinish (t : Timeline π) (i : Nat) :
    (t.afterFinish i).refreshes = t.refreshes := by
  simp only [afterFinish]
  split
  · exact refreshes_awaitTick _ _
  · rfl

variable [ControlPlane π] {P : Refreshes π → Prop} (hP : Refreshes.Closed P)

include hP

theorem closed_answer {t : Timeline π} (h : P t.refreshes) (i : Nat) :
    P (t.answer i).refreshes := by
  unfold answer Refreshes.answer
  rw [refreshes_afterFinish]
  exact hP.advance _ i (hP.advance _ i (hP.advance _ i (hP.advance _ i h)))

theorem closed_enter {t : Timeline π} (h : P t.refreshes) (i : Nat) : P (t.enter i).refreshes := by
  have hentered : P (t.refreshes.enter i) :=
    hP.advance _ i (hP.advance _ i (hP.advance _ i h))
  simp only [enter]
  split
  · rwa [refreshes_afterFinish]
  · split
    · exact closed_answer hP hentered i
    · exact hentered

theorem closed_start {t : Timeline π} (h : P t.refreshes) (i : Nat) : P (t.start i).refreshes := by
  have hadvanced : P (t.refreshes.advance i) := hP.advance _ i h
  simp only [start]
  split
  · exact closed_enter hP hadvanced i
  · exact hadvanced

theorem closed_perform {t : Timeline π} (h : P t.refreshes) (happening : Happening) :
    P (t.perform happening).refreshes := by
  cases happening with
  | start i => exact closed_start hP h i
  | enter i => exact closed_enter hP h i
  | answer i => exact closed_answer hP h i
  | launch j =>
    simp only [perform]
    split
    · split
      · exact h
      · rwa [refreshes_awaitTick]
    · exact h
  | tick j => exact closed_start hP (hP.add _ h) _

theorem closed_foldl_perform (happenings : List Happening) {t : Timeline π} (h : P t.refreshes) :
    P (happenings.foldl perform t).refreshes := by
  induction happenings generalizing t with
  | nil => exact h
  | cons happening rest ih => exact ih (closed_perform hP h happening)

theorem closed_drain (fuel : Nat) {t : Timeline π} (h : P t.refreshes) :
    P (drain fuel t).refreshes := by
  induction fuel generalizing t with
  | zero => exact h
  | succ fuel ih =>
    rw [drain]
    split
    · exact h
    · rename_i happening rest hready
      exact ih (closed_perform hP (t := { t with ready := rest }) h happening)

theorem closed_wait (done : Timeline π → Bool) (wake : Option Nat) (fuel : Nat) {t : Timeline π}
    (h : P t.refreshes) : P (wait done wake fuel t).refreshes := by
  induction fuel generalizing t with
  | zero => exact h
  | succ fuel ih =>
    have hmine := closed_foldl_perform hP (t.ready.filter t.isOwn)
      (t := { t with ready := t.ready.filter fun h => !t.isOwn h }) h
    simp only [wait]
    generalize List.foldl (perform (π := π)) _ _ = u at hmine ⊢
    split
    · exact hmine
    · have hdrained := closed_drain hP u.pace hmine
      split
      · exact ih hdrained
      · split
        · rename_i due _
          exact ih (t := (drain u.pace u).advance due) hdrained
        · exact hdrained

theorem closed_waitFor {t : Timeline π} (h : P t.refreshes) (ids : List Nat) :
    P (t.waitFor ids).refreshes :=
  closed_wait hP _ _ _ h

theorem closed_sleep {t : Timeline π} (h : P t.refreshes) (time : Nat) :
    P (t.sleep time).refreshes :=
  closed_wait hP _ _ _ h

theorem closed_refreshTogether {t : Timeline π} (h : P t.refreshes) (n : Nat) :
    P ((refreshTogether n).run t).2.refreshes := by
  have hadded : ∀ (ids : List Nat) (r : Refreshes π), P r → P (ids.foldl (fun r _ => r.add) r) := by
    intro ids
    induction ids with
    | nil => exact fun r hr => hr
    | cons i ids ih => exact fun r hr => ih r.add (hP.add r hr)
  exact closed_waitFor hP (hadded _ _ h) _

/-- What holds once the caller's refresh is about to begin still holds when it is over. -/
theorem closed_refresh {t : Timeline π} (h : P t.refreshes.add) :
    P (refresh.run.run t).2.refreshes := by
  have hstarted := closed_start hP
    (t := { t with refreshes := t.refreshes.add, own := some t.nextId }) h t.nextId
  have hover := closed_waitFor hP hstarted [t.nextId]
  unfold refresh
  rw [run_bind, run_get]
  exact keeps_liftExcept (P := fun t : Timeline π => P t.refreshes) _ _ hover

theorem keeps_refresh : Keeps (fun t : Timeline π => P t.refreshes) refresh :=
  fun _ h => closed_refresh hP (hP.add _ h)

/-- The timelines of a new directory, after anything that a caller does, while the control plane
changes. -/
inductive Reached (plane : π) (authority namespaceName : String) : Timeline π → Prop
  | new : Reached plane authority namespaceName (ofDirectory { plane, authority, namespaceName })
  | refresh {t : Timeline π} : Reached plane authority namespaceName t →
    Reached plane authority namespaceName (refresh.run.run t).2
  | refreshTogether {t : Timeline π} (n : Nat) : Reached plane authority namespaceName t →
    Reached plane authority namespaceName ((refreshTogether n).run t).2
  | sleep {t : Timeline π} (time : Nat) : Reached plane authority namespaceName t →
    Reached plane authority namespaceName (t.sleep time)
  | launchLoop {t : Timeline π} (interval : Nat) : Reached plane authority namespaceName t →
    Reached plane authority namespaceName (t.launchLoop interval)
  | getType {t : Timeline π} (key : String) : Reached plane authority namespaceName t →
    Reached plane authority namespaceName
      ((TypeDirectory.getType key : Lookup (Timeline π) _).run.run t).2
  | validateValue {t : Timeline π} (key : String) (value : Resource) :
    Reached plane authority namespaceName t →
    Reached plane authority namespaceName
      ((TypeDirectory.validateValue key value : Lookup (Timeline π) _).run.run t).2
  | getUrnTemplate {t : Timeline π} (name version : String) :
    Reached plane authority namespaceName t →
    Reached plane authority namespaceName
      ((TypeDirectory.getUrnTemplate name version : Lookup (Timeline π) _).run.run t).2
  | change {t : Timeline π} (other : π) : Reached plane authority namespaceName t →
    Reached plane authority namespaceName
      (LiveHolder.setDirectory t { t.refreshes.directory with plane := other })

/-- What the actions of courses keep holds on all timelines if it holds at first. -/
theorem of_reached {plane : π} {authority namespaceName : String} {t : Timeline π}
    (h : Reached plane authority namespaceName t)
    (hnew : P { directory := { plane, authority, namespaceName } }) : P t.refreshes := by
  have hrefresh : Keeps (fun t : Timeline π => P t.refreshes) LiveHolder.refresh :=
    keeps_refresh hP
  induction h with
  | new => exact hnew
  | refresh _ ih => exact keeps_refresh hP _ ih
  | refreshTogether n _ ih => exact closed_refreshTogether hP ih n
  | sleep time _ ih => exact closed_sleep hP ih time
  | launchLoop interval _ ih => exact ih
  | getType key _ ih => exact Live.keeps_resolve hrefresh key _ ih
  | validateValue key value _ ih =>
    exact Live.keeps_validateValue hrefresh
      (fun _ _ _ _ => Live.keeps_ask fun t => hP.change t.refreshes _) key value _ ih
  | getUrnTemplate name version _ ih =>
    exact Live.keeps_getUrnTemplate hrefresh name version _ ih
  | change other _ ih => exact hP.change _ other ih

end Timeline

/-- Where the actions of a course lead from some point on is closed under them. -/
theorem Course.closed_foldl_act [ControlPlane π] (c : Course π) :
    Refreshes.Closed fun r => ∃ actions : List (Action π), (actions.foldl act c).refreshes = r where
  add := by
    rintro _ ⟨actions, rfl⟩
    exact ⟨actions ++ [.add], by rw [List.foldl_append]; rfl⟩
  advance := by
    rintro _ i ⟨actions, rfl⟩
    exact ⟨actions ++ [.advance i], by rw [List.foldl_append]; exact refreshes_act_advance _ i⟩
  change := by
    rintro _ other ⟨actions, rfl⟩
    exact ⟨actions ++ [.change other], by rw [List.foldl_append]; rfl⟩

/-- **Timelines are courses.** The refreshes of a caller, of look-ups that miss and of periodic loops
are refreshes of one course, whatever time and order they come in. -/
theorem exists_course_of_reached [ControlPlane π] {plane : π} {authority namespaceName : String}
    {t : Timeline π} (h : t.Reached plane authority namespaceName) :
    ∃ actions, (course plane authority namespaceName actions).refreshes = t.refreshes :=
  Timeline.of_reached (Course.closed_foldl_act _) h ⟨[], rfl⟩

end ResourceNames
