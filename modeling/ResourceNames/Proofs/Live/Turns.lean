import ResourceNames.Proofs.Live.SingleFlight

/-!
# Turns of refreshes

Refreshes of one directory take turns: between the request of a refresh and its end, no other one
does more than note the generation.

* `Past.append_eq_nil`: a refresh that is over does nothing more.
* `exists_moment_of_log`: each event of a log happened at a moment of the course.
* `eq_of_between`: what happens between two events of a refresh that lists is its own doing.
-/

namespace ResourceNames

open scoped List

variable {π : Type}

/-! ## Ends of refreshes -/

theorem Past.released_not_mem {s : Stage} {es : List Event} (h : Past s es)
    (hs : ∀ result, s ≠ .finished result) (result : Except DirectoryError Unit) :
    .released result ∉ es := by
  cases h with
  | finished => exact absurd rfl (hs _)
  | _ => simp [request]

/-- A refresh that is over does nothing more. -/
theorem Past.append_eq_nil {s : Stage} {result : Except DirectoryError Unit}
    {es es' : List Event} (h : Past (.finished result) es) (h' : Past s (es ++ es')) : es' = [] := by
  have hmem : .released result ∈ es := by
    cases h with
    | finished h => exact List.mem_concat_self
  rcases List.eq_nil_or_concat es' with hnil | ⟨rest, e, rfl⟩
  · exact hnil
  · have hs : ∃ result, s = .finished result := by
      by_contra hs
      exact h'.released_not_mem (not_exists.1 hs) result (List.mem_append_left _ hmem)
    obtain ⟨result', rfl⟩ := hs
    generalize hall : es ++ rest.concat e = all at h'
    cases h' with
    | @finished _ earlier hleaving =>
      rw [List.concat_eq_append, ← List.append_assoc] at hall
      obtain ⟨rfl, -⟩ := List.append_inj' hall rfl
      exact absurd (List.mem_append_left _ hmem) (hleaving.released_not_mem nofun result)

/-- A refresh that requested a listing and does not have the lock is over. -/
theorem Past.finished_of_requested {s : Stage} {es : List Event} (h : Past s es)
    (hmem : .requested ∈ es) (hs : s.inside = false) : ∃ result, s = .finished result := by
  cases h with
  | @finished result => exact ⟨result, rfl⟩
  | pending | waiting g => simp at hmem
  | _ => cases hs

/-! ## Moments of a course -/

section

variable [ControlPlane π] {plane : π} {authority namespaceName : String}
  {actions : List (Action π)}

/-- Logs only grow. -/
theorem log_prefix_act (c : Course π) (action : Action π) : c.log <+: (c.act action).log := by
  rcases c.act_cases action with ⟨i, e, next, -, -, hact⟩ | ⟨hlog, -⟩
  · rw [hact]
    exact List.prefix_append _ _
  · simp only [hlog, List.prefix_rfl]

theorem log_prefix_course {before : List (Action π)} (h : before <+: actions) :
    (course plane authority namespaceName before).log <+:
      (course plane authority namespaceName actions).log := by
  obtain ⟨after, rfl⟩ := h
  induction after using List.reverseRecOn with
  | nil => simp only [List.append_nil, List.prefix_rfl]
  | append_singleton after action ih =>
    rw [← List.append_assoc, course_concat]
    exact ih.trans (log_prefix_act _ action)

/-- What a log goes on with was done at a moment at which the log was what it goes on from. -/
theorem exists_moment_of_log {before : Log} {i : Nat} {e : Event}
    (h : before ++ [(i, e)] <+: (course plane authority namespaceName actions).log) :
    ∃ part next, (course plane authority namespaceName part).log = before ∧
      (course plane authority namespaceName part).refreshes.step? i = some (e, next) := by
  induction actions using List.reverseRecOn with
  | nil => exact absurd (List.prefix_nil.1 h) (List.append_ne_nil_of_right_ne_nil _ nofun)
  | append_singleton actions action ih =>
    rw [course_concat] at h
    rcases (course plane authority namespaceName actions).act_cases action with
      ⟨j, e', next, rfl, hstep, hact⟩ | ⟨hlog, -⟩
    · rw [hact] at h
      rcases List.prefix_concat_iff.1 h with heq | h
      · obtain ⟨hbefore, hevent⟩ := List.append_inj' heq rfl
        cases hevent
        exact ⟨actions, next, hbefore.symm, hstep⟩
      · exact ih h
    · rw [hlog] at h
      exact ih h

/-! ## Turns -/

/-- While a refresh does more than note the generation, no other one has the lock. -/
theorem Course.Sound.inside_eq_false {c : Course π} (h : c.Sound authority) {i j : Nat} {e : Event}
    {next : Refreshes π} (hstep : c.refreshes.step? i = some (e, next)) (he : ∀ g, e ≠ .read g)
    (hij : i ≠ j) : (c.refreshes.stage j).inside = false := by
  have hmove := Refreshes.move_of_step? hstep
  obtain ⟨s', hnext, -⟩ := hmove.stage
  rw [← Bool.not_eq_true, ← h.holder j]
  intro hholder
  have hself : (c.refreshes.stage i).inside = true → False := fun hinside =>
    hij (Option.some.inj (((h.holder i).2 hinside).symm.trans hholder))
  generalize c.refreshes.stage i = s at hnext hself
  cases hnext with
  | read g => exact he g rfl
  | acquired g => cases (hmove.free rfl).symm.trans hholder
  | _ => exact hself rfl

/-- **Refreshes take turns.** Between the request of a refresh and a later event of it, no other
refresh does more than note the generation. -/
theorem eq_of_between {i j : Nat} {e e' : Event}
    (h : [(j, .requested), (i, e), (j, e')] <+ (course plane authority namespaceName actions).log)
    (he : ∀ g, e ≠ .read g) : i = j := by
  obtain ⟨first, rest, hlog, hrequested, hrest⟩ := List.cons_sublist_iff.1 h
  obtain ⟨second, third, rfl, hevent, hlast⟩ := List.cons_sublist_iff.1 hrest
  obtain ⟨between, after, rfl⟩ := List.append_of_mem hevent
  have hprefix : (first ++ between) ++ [(i, e)] <+:
      (course plane authority namespaceName actions).log := ⟨after ++ third, by simp [hlog]⟩
  obtain ⟨part, next, hpart, hstep⟩ := exists_moment_of_log hprefix
  have hsound := sound_course plane authority namespaceName part
  by_contra hij
  -- The other refresh is over by then, and so has no event left.
  have hmem : .requested ∈ (course plane authority namespaceName part).log.past j := by
    rw [hpart]
    exact Log.mem_past.2 (List.mem_append_left _ hrequested)
  obtain ⟨result, hfinished⟩ :=
    (hsound.past j).finished_of_requested hmem (hsound.inside_eq_false hstep he hij)
  have hover := hsound.past j
  have hwhole := (sound_course plane authority namespaceName actions).past j
  have hsplit : (course plane authority namespaceName actions).log.past j =
      (course plane authority namespaceName part).log.past j ++
        Log.past ((i, e) :: after ++ third) j := by
    rw [hlog, hpart]
    simp [Log.past]
  rw [hfinished] at hover
  rw [hsplit] at hwhole
  have hnil := hover.append_eq_nil hwhole
  have hleft : e' ∈ Log.past ((i, e) :: after ++ third) j :=
    Log.mem_past.2 (List.mem_append_right _ (List.singleton_sublist.1 hlast))
  rw [hnil] at hleft
  cases hleft

end

end ResourceNames
