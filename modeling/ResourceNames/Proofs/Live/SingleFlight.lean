import ResourceNames.ControlPlane.Memory
import ResourceNames.Proofs.Live.Course

/-!
# Single flight

Refreshes that go on at once list one at a time, publish whole listings, and spare those that waited
for them a listing of their own.

* `SingleFlight`: what is meant by that.
* `singleFlight_course`: it holds at every moment of every course.
-/

namespace ResourceNames

open scoped List

variable {π : Type}

/-! ## Logs and pasts -/

namespace Log

/-- What a refresh did before and after one of its events, it did before and after it in the log. -/
theorem past_eq_append_iff {log : Log} {i : Nat} (es : List Event) {e : Event}
    {es' : List Event} :
    log.past i = es ++ e :: es' ↔
      ∃ before after : Log,
        log = before ++ (i, e) :: after ∧ before.past i = es ∧ after.past i = es' := by
  constructor
  · intro h
    obtain ⟨l₁, l₂, rfl, h₁, h₂⟩ := List.filterMap_eq_append_iff.1 h
    obtain ⟨l₃, ⟨j, e'⟩, l₄, rfl, hnone, he, h₄⟩ := List.filterMap_eq_cons_iff.1 h₂
    obtain ⟨rfl, rfl⟩ : j = i ∧ e' = e := by simpa using he
    refine ⟨l₁ ++ l₃, l₄, by simp, ?_, h₄⟩
    rw [past, List.filterMap_append, List.filterMap_eq_nil_iff.2 hnone, List.append_nil]
    exact h₁
  · rintro ⟨before, after, rfl, rfl, rfl⟩
    simp [past]

theorem mem_past {log : Log} {i : Nat} {e : Event} : e ∈ log.past i ↔ (i, e) ∈ log := by
  simp [past]

theorem map_past (log : Log) (i : Nat) :
    (log.past i).map (Prod.mk i) = log.filter fun x => x.1 = i := by
  induction log with
  | nil => rfl
  | cons x log ih =>
    obtain ⟨j, e⟩ := x
    by_cases h : j = i
    · simpa [past, h] using ih
    · simpa [past, h] using ih

theorem sublist_of_past {log : Log} {i : Nat} {es : List Event} (h : es <+ log.past i) :
    es.map (Prod.mk i) <+ log := by
  have := h.map (Prod.mk i)
  rw [map_past] at this
  exact this.trans List.filter_sublist

theorem sublist_past {log : Log} {i : Nat} {es : List Event} (h : es.map (Prod.mk i) <+ log) :
    es <+ log.past i := by
  have := h.filterMap fun x => if x.1 = i then some x.2 else none
  rw [past]
  simpa [List.filterMap_map, Function.comp_def] using this

/-- A refresh that saw the generation change while it waited did so since another one completed. -/
theorem exists_bump {log : Log} (hlog : log.Shown) {i o g : Nat} {es : List Event}
    (hpast : log.past i = .read o :: .acquired :: .checked g :: es) (hne : g ≠ o) :
    ∃ j ≠ i, [(i, .read o), (j, .bumped), (i, .checked g)] <+ log := by
  obtain ⟨before, rest, rfl, -, hrest⟩ := (past_eq_append_iff []).1 hpast
  obtain ⟨between, after, rfl, hbetween, -⟩ := (past_eq_append_iff [.acquired]).1 hrest
  have ho : o = before.bumps :=
    hlog before i (.read o) ⟨between ++ (i, .checked g) :: after, by simp⟩
  have hg : g = bumps (before ++ (i, .read o) :: between) :=
    hlog (before ++ (i, .read o) :: between) i (.checked g) ⟨after, by simp⟩
  have hpos : 0 < between.bumps := by
    have hsum : g = before.bumps + between.bumps := by
      rw [hg]
      simp [bumps, Event.isBump]
    omega
  obtain ⟨⟨j, e⟩, hmem, hbump⟩ := List.countP_pos_iff.1 hpos
  obtain rfl : e = .bumped := Event.isBump_iff.1 hbump
  refine ⟨j, ?_, ?_⟩
  · rintro rfl
    have : Event.bumped ∈ between.past j := mem_past.2 hmem
    simp [hbetween] at this
  · have hbump : [(j, .bumped)] <+ between := List.singleton_sublist.2 hmem
    have hchecked : [(i, .checked g)] <+ (i, .checked g) :: after :=
      List.singleton_sublist.2 List.mem_cons_self
    exact List.Sublist.append (List.nil_sublist before)
      ((hbump.append hchecked).cons_cons (i, Event.read o))

end Log

theorem Past.nodup {s : Stage} {es : List Event} (h : Past s es) : es.Nodup := by
  cases h with
  | finished h => cases h <;> simp [request]
  | _ => simp [request]

theorem Past.sublist_of_replaced {s : Stage} {es : List Event} (h : Past s es)
    {documents : List Json} (hmem : .replaced documents ∈ es) :
    [.requested, .answered (.ok documents), .replaced documents] <+ es := by
  induction h with
  | replaced g documents' =>
    obtain rfl : documents = documents' := by simpa [request] using hmem
    exact (((List.Sublist.refl _).cons _).cons _).cons _
  | bumped g documents' =>
    obtain rfl : documents = documents' := by simpa [request] using hmem
    exact ((((List.sublist_append_left [_, _, _] [Event.bumped]).cons _).cons _).cons _)
  | finished h ih => exact (ih (by simpa using hmem)).trans (List.sublist_append_left _ _)
  | _ => simp [request] at hmem

theorem Past.listed_of_replaced {s : Stage} {es : List Event} (h : Past s es)
    {documents : List Json} (hmem : .replaced documents ∈ es) :
    [.answered (.ok documents), .replaced documents] <+ es :=
  (List.sublist_cons_self _ _).trans (h.sublist_of_replaced hmem)

/-- A refresh whose listing fails does nothing more but return the error. -/
theorem Past.of_failed {s : Stage} {es : List Event} (h : Past s es) {e : DirectoryError}
    (hmem : .answered (.error e) ∈ es) :
    (s = .leaving (.error e) ∨ s = .finished (.error e)) ∧ .bumped ∉ es ∧
      ∀ documents, .replaced documents ∉ es := by
  induction h with
  | failed g e' =>
    obtain rfl : e = e' := by simpa [request] using hmem
    exact ⟨.inl rfl, by simp [request], by simp [request]⟩
  | finished h ih =>
    obtain ⟨hs, hbump, hreplaced⟩ := ih (by simpa using hmem)
    exact ⟨by simpa using hs, by simpa using hbump, by simpa using hreplaced⟩
  | _ => simp [request] at hmem

/-- A refresh that is over without a listing saw the generation change while it waited. -/
theorem Past.of_skipped {es : List Event} (h : Past (.finished (.ok ())) es)
    (hmem : .requested ∉ es) :
    ∃ o g, g ≠ o ∧ es = [.read o, .acquired, .checked g, .released (.ok ())] := by
  cases h with
  | finished h =>
    cases h with
    | passed hne => exact ⟨_, _, hne, rfl⟩
    | bumped g documents => simp [request] at hmem

/-! ## Single flight -/

/-- What holds of refreshes that go on at once after some actions, if `run` is what comes of
actions. -/
structure SingleFlight [ControlPlane π] (authority : String) (run : List (Action π) → Course π)
    (actions : List (Action π)) : Prop where
  /-- At most one listing is under way. -/
  one_listing : ∀ i j, (run actions).refreshes.stage? i = some .listing →
    (run actions).refreshes.stage? j = some .listing → i = j
  /-- No refresh lists twice. -/
  lists_once : ∀ i, ¬ [(i, .requested), (i, .requested)] <+ (run actions).log
  /-- The generation counts the replacements of the index, while none of them is yet to be
  counted. -/
  generation_eq : (∀ i, (run actions).refreshes.stage? i ≠ some .replaced) →
    (run actions).refreshes.directory.generation = (run actions).log.replacements.length
  /-- The index is that of the latest listing by which it was replaced, or else empty. -/
  index_eq : (run actions).refreshes.directory.index = (run actions).log.index authority
  /-- A listing that replaces the index was the answer to the same refresh. -/
  listed : ∀ i documents, (i, .replaced documents) ∈ (run actions).log →
    [(i, .answered (.ok documents)), (i, .replaced documents)] <+ (run actions).log
  /-- An answer is what the control plane gave when it was received. -/
  answered : ∀ i result, (i, .answered result) ∈ (run actions).log →
    ∃ before after, actions = before ++ .advance i :: after ∧
      (ControlPlane.listing.run.run (run before).refreshes.directory.plane).1 = result
  /-- The index changes only when a refresh replaces it, and the generation only when one counts
  itself as completed. -/
  index_act : ∀ action, ((run actions).act action).refreshes.directory.index ≠
      (run actions).refreshes.directory.index →
    ∃ i documents, ((run actions).act action).log =
      (run actions).log ++ [(i, .replaced documents)]
  generation_act : ∀ action, ((run actions).act action).refreshes.directory.generation ≠
      (run actions).refreshes.directory.generation →
    ∃ i, ((run actions).act action).log = (run actions).log ++ [(i, .bumped)]
  /-- A refresh whose listing fails does neither, and is over with the error by its next step. -/
  failed : ∀ i e, (i, .answered (.error e)) ∈ (run actions).log →
    (i, .bumped) ∉ (run actions).log ∧
      (∀ documents, (i, .replaced documents) ∉ (run actions).log) ∧
      ((run actions).act (.advance i)).refreshes.result? i = some (.error e)
  /-- A refresh that succeeds without a listing does so because another one completed between its
  two looks at the generation. -/
  skipped : ∀ i, (run actions).refreshes.result? i = some (.ok ()) →
    (i, .requested) ∉ (run actions).log →
    ∃ j ≠ i, ∃ o g, [(i, .read o), (j, .bumped), (i, .checked g)] <+ (run actions).log
  /-- While a refresh is not over, one of them can go on. -/
  progress : ∀ i s, (run actions).refreshes.stage? i = some s →
    (run actions).refreshes.result? i = none →
    ∃ j, ((run actions).refreshes.step? j).isSome = true

theorem countP_isReplaced_eq_zero {r : Refreshes π}
    (h : ∀ i, r.stage? i ≠ some .replaced) : r.stages.countP Stage.isReplaced = 0 := by
  rw [List.countP_eq_zero]
  intro s hs hreplaced
  obtain ⟨i, hi⟩ := List.mem_iff_getElem?.1 hs
  cases s with
  | replaced => exact h i hi
  | _ => cases hreplaced

section

variable [ControlPlane π] {plane : π} {authority namespaceName : String}
  {actions : List (Action π)}

/-- The log of a course has what its refreshes did at some moment of it. -/
theorem exists_step_of_mem_log {i : Nat} {e : Event}
    (h : (i, e) ∈ (course plane authority namespaceName actions).log) :
    ∃ before after next, actions = before ++ .advance i :: after ∧
      (course plane authority namespaceName before).refreshes.step? i = some (e, next) := by
  induction actions using List.reverseRecOn with
  | nil => cases h
  | append_singleton actions action ih =>
    have hold : (i, e) ∈ (course plane authority namespaceName actions).log →
        ∃ before after next, actions ++ [action] = before ++ .advance i :: after ∧
          (course plane authority namespaceName before).refreshes.step? i = some (e, next) := by
      intro h
      obtain ⟨before, after, next, rfl, hstep⟩ := ih h
      exact ⟨before, after ++ [action], next, by simp, hstep⟩
    rw [course_concat] at h
    rcases (course plane authority namespaceName actions).act_cases action with
      ⟨j, e', next, rfl, hstep, hact⟩ | ⟨hlog, -⟩
    · rw [hact] at h
      rcases List.mem_append.1 h with h | h
      · exact hold h
      · cases List.mem_singleton.1 h
        exact ⟨actions, [], next, rfl, hstep⟩
    · exact hold (hlog ▸ h)

end

/-- **Refreshes are single-flight.** Whatever the number of refreshes, the order of their steps and
the changes of the control plane, one listing is under way at a time, the index is that of one
listing as a whole, and the generation counts the listings that took effect. -/
theorem singleFlight_course [ControlPlane π] (plane : π) (authority namespaceName : String)
    (actions : List (Action π)) :
    SingleFlight authority (course plane authority namespaceName) actions := by
  have h := sound_course plane authority namespaceName actions
  constructor
  case one_listing =>
    intro i j hi hj
    have := (h.holder_of_stage? hi rfl).symm.trans (h.holder_of_stage? hj rfl)
    exact Option.some.inj this
  case lists_once =>
    intro i hi
    have hsub : [.requested, .requested] <+ Log.past _ i := Log.sublist_past hi
    exact absurd ((h.past i).nodup.sublist hsub) (by simp)
  case generation_eq =>
    intro hnone
    rw [h.replacements, countP_isReplaced_eq_zero hnone, Nat.add_zero]
  case index_eq => exact h.index
  case listed =>
    intro i documents hmem
    exact Log.sublist_of_past ((h.past i).listed_of_replaced (Log.mem_past.2 hmem))
  case answered =>
    intro i result hmem
    obtain ⟨before, after, next, hactions, hstep⟩ := exists_step_of_mem_log hmem
    exact ⟨before, after, hactions, (Refreshes.move_of_step? hstep).answer result rfl⟩
  case index_act => exact fun action hne => Course.log_of_index_ne action hne
  case generation_act => exact fun action hne => Course.log_of_generation_ne action hne
  case failed =>
    intro i e hmem
    obtain ⟨hstage, hbump, hreplaced⟩ := (h.past i).of_failed (Log.mem_past.2 hmem)
    exact ⟨fun hmem => hbump (Log.mem_past.2 hmem),
      fun documents hmem => hreplaced documents (Log.mem_past.2 hmem),
      Course.result?_act_advance hstage⟩
  case skipped =>
    intro i hresult hmem
    have hpast := h.past_of_stage? (Refreshes.result?_eq_some_iff.1 hresult)
    obtain ⟨o, g, hne, hes⟩ := hpast.of_skipped fun h => hmem (Log.mem_past.1 h)
    obtain ⟨j, hj, hsub⟩ := Log.exists_bump h.shown hes hne
    exact ⟨j, hj, o, g, hsub⟩
  case progress => exact fun i s hs hover => h.exists_step hs hover

/-- The second of two refreshes waits for the first one and does not list. -/
example :
    let c := course ({} : MemoryPlane) "g" "n"
      ([.add, .add, .advance 0, .advance 1] ++ List.replicate 8 (.advance 0) ++
        List.replicate 3 (.advance 1))
    c.log.past 1 = [.read 0, .acquired, .checked 1, .released (.ok ())] ∧
      c.refreshes.result? 1 = some (.ok ()) :=
  ⟨rfl, rfl⟩

end ResourceNames
