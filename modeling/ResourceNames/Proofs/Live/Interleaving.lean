import ResourceNames.Proofs.Directory.ListedTypes
import ResourceNames.Proofs.Live.Timelines

/-!
# Look-ups while other things come to pass

A look-up that misses refreshes the directory. While it waits for that, other refreshes take their
steps, and the control plane changes.

* `Interleaved`: a directory together with what comes to pass in the meantime.
* `exists_run_resolve_timeline`: look-ups on timelines are such look-ups.
-/

namespace ResourceNames

variable {π : Type}

/-- A directory whose next refresh takes its time. -/
structure Interleaved (π : Type) where
  course : Course π
  /-- What comes to pass while that refresh is awaited, its own steps among it. -/
  meanwhile : List (Action π)

namespace Interleaved

variable [ControlPlane π]

/-- The position of the next refresh. -/
def next (t : Interleaved π) : Nat := t.course.refreshes.stages.length

/-- The course once the next refresh is no longer awaited. -/
def after (t : Interleaved π) : Course π := t.meanwhile.foldl Course.act (t.course.act .add)

/-- The next refresh begins and is awaited. -/
def refresh : Lookup (Interleaved π) Unit := do
  let t ← get
  set (⟨t.after, []⟩ : Interleaved π)
  liftExcept ((t.after.refreshes.result? t.next).getD (.ok ()))

instance : LiveHolder (Interleaved π) π where
  directory t := t.course.refreshes.directory
  setDirectory t directory :=
    { t with course := { t.course with refreshes := { t.course.refreshes with directory } } }
  refresh := refresh

theorem run_refresh (t : Interleaved π) :
    (LiveHolder.refresh : Lookup (Interleaved π) Unit).run.run t =
      ((t.after.refreshes.result? t.next).getD (.ok ()), ⟨t.after, []⟩) := by
  have hrun : (LiveHolder.refresh : Lookup (Interleaved π) Unit).run.run t =
      (liftExcept ((t.after.refreshes.result? t.next).getD (.ok ())) :
        Lookup (Interleaved π) Unit).run.run ⟨t.after, []⟩ := rfl
  rw [hrun, Lookup.run_liftExcept]

/-- A look-up that misses, and whose refresh succeeds, answers from the index at its end. -/
theorem run_resolve_of_miss {t : Interleaved π} {key : String}
    (hmiss : t.course.refreshes.directory.index.find? key = none)
    (hresult : t.after.refreshes.result? t.next = some (.ok ())) :
    ((Live.resolve key : Lookup (Interleaved π) _).run.run t).1 =
      match t.after.refreshes.directory.index.find? key with
      | some d => .ok d
      | none => .error (.notFound key) := by
  have hrefresh : (LiveHolder.refresh : Lookup (Interleaved π) Unit).run.run t =
      (.ok (), ⟨t.after, []⟩) := by
    rw [run_refresh, hresult, Option.getD_some]
  rw [Live.run_resolve_of_refresh hmiss hrefresh]
  have hindex : (LiveHolder.directory (⟨t.after, []⟩ : Interleaved π)).index =
      t.after.refreshes.directory.index := rfl
  rw [hindex]
  cases t.after.refreshes.directory.index.find? key <;> rfl

end Interleaved

/-! ## Timelines -/

/-- A look-up depends on the index and on what a refresh makes of it. -/
theorem Live.run_resolve_congr {τ τ' : Type} [LiveHolder τ π] {π' : Type} [LiveHolder τ' π']
    {t : τ} {t' : τ'}
    (hindex : (LiveHolder.directory t).index = (LiveHolder.directory t').index)
    (hresult : ((LiveHolder.refresh : Lookup τ Unit).run.run t).1 =
      ((LiveHolder.refresh : Lookup τ' Unit).run.run t').1)
    (hafter : (LiveHolder.directory ((LiveHolder.refresh : Lookup τ Unit).run.run t).2).index =
      (LiveHolder.directory ((LiveHolder.refresh : Lookup τ' Unit).run.run t').2).index)
    (key : String) :
    ((resolve key : Lookup τ _).run.run t).1 = ((resolve key : Lookup τ' _).run.run t').1 := by
  rw [run_resolve, run_resolve, hindex]
  cases (LiveHolder.directory t').index.find? key with
  | some d => rfl
  | none =>
    simp only
    generalize (LiveHolder.refresh : Lookup τ Unit).run.run t = x at hresult hafter
    generalize (LiveHolder.refresh : Lookup τ' Unit).run.run t' = x' at hresult hafter
    obtain ⟨result, s⟩ := x
    obtain ⟨result', s'⟩ := x'
    obtain rfl : result = result' := hresult
    have hsame : (LiveHolder.directory s).index = (LiveHolder.directory s').index := hafter
    cases result with
    | error e => rfl
    | ok u =>
      simp only [hsame]
      cases (LiveHolder.directory s').index.find? key <;> rfl

namespace Timeline

variable [ControlPlane π]

theorem result_refresh (t : Timeline π) :
    ((refresh : Lookup (Timeline π) Unit).run.run t).1 =
      (((refresh : Lookup (Timeline π) Unit).run.run t).2.refreshes.result? t.nextId).getD
        (.ok ()) := by
  let started := { t with refreshes := t.refreshes.add, own := some t.nextId }.start t.nextId
  let waited := started.waitFor [t.nextId]
  have hrun : (refresh : Lookup (Timeline π) Unit).run.run t =
      ((waited.refreshes.result? t.nextId).getD (.ok ()), { waited with own := none }) := by
    unfold refresh
    rw [Lookup.run_bind, Lookup.run_get]
    exact Lookup.run_liftExcept _ _
  rw [hrun]

/-- **Look-ups on timelines are interleaved.** -/
theorem exists_run_resolve_timeline {plane : π} {authority namespaceName : String}
    {t : Timeline π} (h : t.Reached plane authority namespaceName) (key : String) :
    ∃ actions meanwhile,
      (course plane authority namespaceName actions).refreshes = t.refreshes ∧
      ((Live.resolve key : Lookup (Timeline π) _).run.run t).1 =
        ((Live.resolve key : Lookup (Interleaved π) _).run.run
          ⟨course plane authority namespaceName actions, meanwhile⟩).1 := by
  obtain ⟨actions, hactions⟩ := exists_course_of_reached h
  let c := course plane authority namespaceName actions
  have hadded : (c.act .add).refreshes = t.refreshes.add := by
    rw [← hactions]
    rfl
  -- The caller's refresh on the timeline takes steps of a course, too.
  obtain ⟨meanwhile, hmeanwhile⟩ :=
    closed_refresh (Course.closed_foldl_act (c.act .add)) (t := t) ⟨[], hadded⟩
  have hafter : (⟨c, meanwhile⟩ : Interleaved π).after.refreshes =
      ((refresh : Lookup (Timeline π) Unit).run.run t).2.refreshes := hmeanwhile
  have hnext : (⟨c, meanwhile⟩ : Interleaved π).next = t.nextId :=
    congrArg (fun r => r.stages.length) hactions
  refine ⟨actions, meanwhile, hactions, Live.run_resolve_congr ?_ ?_ ?_ key⟩
  · exact congrArg (fun r => r.directory.index) hactions.symm
  · rw [Interleaved.run_refresh, hafter, hnext]
    exact t.result_refresh
  · rw [Interleaved.run_refresh]
    exact congrArg (fun r => r.directory.index) hafter.symm

end Timeline

end ResourceNames
