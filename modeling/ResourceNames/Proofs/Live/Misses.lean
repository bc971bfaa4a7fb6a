import Mathlib.Data.List.Infix
import Mathlib.Data.List.Nodup
import ResourceNames.Proofs.ControlPlane.Memory
import ResourceNames.Proofs.Live.Interleaving
import ResourceNames.Proofs.Live.Listings
import ResourceNames.Proofs.Live.Turns

/-!
# Misses of types that are served

A look-up that misses refreshes the directory once. If it has to wait for a refresh that is under
way, it does not list again, and that refresh may have requested its listing before the look-up
began.

* `serves_of_answered`: a listing that is requested during a look-up has the types that are served
  all the while.
* `Joins`: a look-up takes over an older listing.
* `resolve_of_served`: only then does it miss such a type.
-/

namespace ResourceNames

open LiveDirectory
open scoped List

variable {π : Type}

/-! ## What refreshes did before they completed -/

theorem Past.sublist_of_bumped {s : Stage} {es : List Event} (h : Past s es)
    (hmem : .bumped ∈ es) :
    ∃ documents, [.requested, .replaced documents, .bumped] <+ es := by
  induction h with
  | bumped g documents =>
    refine ⟨documents, ?_⟩
    exact (((((List.Sublist.refl _).cons _).cons_cons Event.requested).cons _).cons _).cons _
  | finished h ih =>
    obtain ⟨documents, hsub⟩ := ih (by simpa using hmem)
    exact ⟨documents, hsub.trans (List.sublist_append_left _ _)⟩
  | _ => simp [request] at hmem

/-- A refresh that is over without a failure waited for another one or replaced the index. -/
theorem Past.of_finished {result : Except DirectoryError Unit} {es : List Event}
    (h : Past (.finished result) es) (hfail : ∀ e, .answered (.error e) ∉ es) :
    result = .ok () ∧
      ((∃ o g, g ≠ o ∧ es = [.read o, .acquired, .checked g, .released (.ok ())]) ∨
        ∃ documents, .replaced documents ∈ es) := by
  cases h with
  | finished h =>
    cases h with
    | passed hne => exact ⟨rfl, .inl ⟨_, _, hne, rfl⟩⟩
    | failed g e => exact absurd (by simp) (hfail e)
    | bumped g documents => exact ⟨rfl, .inr ⟨documents, by simp⟩⟩

section

variable [ControlPlane π] {plane : π} {authority namespaceName : String}
  {actions meanwhile : List (Action π)}

theorem course_append (actions more : List (Action π)) :
    course plane authority namespaceName (actions ++ more) =
      more.foldl Course.act (course plane authority namespaceName actions) :=
  List.foldl_append

/-- No event is in a log twice. -/
theorem nodup_log : (course plane authority namespaceName actions).log.Nodup := by
  refine List.nodup_iff_sublist.2 fun ⟨i, e⟩ h => ?_
  have hpast := ((sound_course plane authority namespaceName actions).past i).nodup
  exact List.nodup_iff_sublist.1 hpast e (Log.sublist_past h)

/-! ## Listings that reflect what is served -/

/-- The answers to listings reflect what is served: the documents were served at some moment since
they were requested. -/
def Reflects (run : List (Action π) → Course π) (served : π → List Json)
    (actions : List (Action π)) : Prop :=
  ∀ (j : Nat) (before between after : List (Action π)) (documents : List Json)
    (asked answered : Refreshes π),
    actions = before ++ .advance j :: (between ++ .advance j :: after) →
    (run before).refreshes.step? j = some (.requested, asked) →
    (run (before ++ .advance j :: between)).refreshes.step? j =
      some (.answered (.ok documents), answered) →
    ∃ part, part <+: between ∧
      served (run (before ++ .advance j :: part)).refreshes.directory.plane = documents

/-- An answer was requested before. -/
theorem exists_request_of_answered {j : Nat} {documents : List Json}
    (h : (j, .answered (.ok documents)) ∈
      (course plane authority namespaceName actions).log) :
    ∃ before between after asked answered,
      actions = before ++ .advance j :: (between ++ .advance j :: after) ∧
      (course plane authority namespaceName before).refreshes.step? j =
        some (.requested, asked) ∧
      (course plane authority namespaceName (before ++ .advance j :: between)).refreshes.step? j =
        some (.answered (.ok documents), answered) := by
  obtain ⟨earlier, after, answered, rfl, hanswered⟩ := exists_step_of_mem_log h
  have hrequested : (j, .requested) ∈ (course plane authority namespaceName earlier).log := by
    have hpast := (sound_course plane authority namespaceName earlier).past j
    obtain ⟨s', hnext, -⟩ := (Refreshes.move_of_step? hanswered).stage
    generalize (course plane authority namespaceName earlier).refreshes.stage j = s at hpast hnext
    refine Log.mem_past.1 ?_
    cases hnext
    generalize Log.past _ j = es at hpast ⊢
    cases hpast
    simp [request]
  obtain ⟨before, between, asked, rfl, hasked⟩ := exists_step_of_mem_log hrequested
  exact ⟨before, between, after, asked, answered, by simp, hasked, hanswered⟩

/-- A listing that is requested during a look-up has the types that are served all the while. -/
theorem serves_of_answered {key : String} {served : π → List Json}
    (hreflects : Reflects (course plane authority namespaceName) served
      (actions ++ .add :: meanwhile))
    (hserves : ∀ part, part <+: meanwhile → Serves authority key
      (served (course plane authority namespaceName
        (actions ++ .add :: part)).refreshes.directory.plane))
    {j : Nat} {documents : List Json}
    (hanswered : (j, .answered (.ok documents)) ∈
      (course plane authority namespaceName (actions ++ .add :: meanwhile)).log)
    (hrequested : (j, .requested) ∉ (course plane authority namespaceName actions).log) :
    Serves authority key documents := by
  obtain ⟨before, between, after, asked, answered, hall, hasked, hstep⟩ :=
    exists_request_of_answered hanswered
  obtain ⟨part, hpart, rfl⟩ := hreflects j before between after documents asked answered hall
    hasked hstep
  rcases List.append_eq_append_iff.1 hall with ⟨rest, rfl, hmeanwhile⟩ | ⟨rest, rfl, hrest⟩
  · -- The request comes after the beginning of the look-up.
    cases rest with
    | nil => cases hmeanwhile
    | cons action rest =>
      obtain ⟨rfl, rfl⟩ := List.cons_eq_cons.1 hmeanwhile
      have hprefix : rest ++ .advance j :: part <+:
          rest ++ .advance j :: (between ++ .advance j :: after) :=
        (List.prefix_append_right_inj rest).2
          (List.cons_prefix_cons.2 ⟨rfl, hpart.trans (List.prefix_append _ _)⟩)
      have hserved := hserves _ hprefix
      rwa [← List.cons_append, ← List.append_assoc] at hserved
  · -- The request comes before the look-up, and so is in the log.
    cases rest with
    | nil => cases hrest
    | cons action rest =>
      obtain ⟨rfl, -⟩ := List.cons_eq_cons.1 hrest
      refine absurd ?_ hrequested
      have hmem : (j, .requested) ∈
          (course plane authority namespaceName (before ++ [.advance j])).log := by
        rw [course_concat, Course.act_advance_of_some hasked]
        exact List.mem_concat_self
      exact (log_prefix_course ⟨rest, by simp⟩).subset hmem

/-! ## The latest listing -/

theorem Log.mem_replacements {log : Log} {documents : List Json} :
    documents ∈ log.replacements ↔ ∃ j, (j, .replaced documents) ∈ log := by
  unfold replacements
  simp only [List.mem_filterMap, Event.replacement?_eq_some_iff]
  constructor
  · rintro ⟨⟨j, e⟩, hmem, rfl⟩
    exact ⟨j, hmem⟩
  · rintro ⟨j, hmem⟩
    exact ⟨(j, .replaced documents), hmem, rfl⟩

/-- The last replacement in a log. -/
theorem Log.exists_latest {log : Log} {documents : List Json}
    (h : log.replacements.getLast? = some documents) :
    ∃ (j : Nat) (before after : Log), log = before ++ (j, .replaced documents) :: after ∧
      after.replacements = [] := by
  induction log using List.reverseRecOn with
  | nil => cases h
  | append_singleton log x ih =>
    obtain ⟨i, e⟩ := x
    rw [replacements_concat] at h
    cases he : e.replacement? with
    | none =>
      rw [he, Option.toList_none, List.append_nil] at h
      obtain ⟨j, before, after, rfl, hafter⟩ := ih h
      refine ⟨j, before, after ++ [(i, e)], by simp, ?_⟩
      rw [replacements_concat, hafter, he]
      rfl
    | some documents' =>
      rw [he, Option.toList_some, List.getLast?_concat] at h
      cases h
      exact ⟨i, log, [], by rw [Event.replacement?_eq_some_iff.1 he], rfl⟩

/-- All other replacements stand before the last one. -/
theorem Log.mem_of_latest {before after : Log} {j k : Nat} {documents others : List Json}
    (hafter : after.replacements = []) (hk : k ≠ j)
    (h : (k, .replaced others) ∈ before ++ (j, .replaced documents) :: after) :
    (k, .replaced others) ∈ before := by
  rcases List.mem_append.1 h with hmem | hmem
  · exact hmem
  · rcases List.mem_cons.1 hmem with hmem | hmem
    · cases hmem
      exact absurd rfl hk
    · have hin := mem_replacements.2 ⟨k, hmem⟩
      rw [hafter] at hin
      cases hin

/-- What happens between the beginning of a look-up and an event of a refresh that was under way
then is its own doing. -/
theorem eq_of_under_way {i j : Nat} {e e' : Event} {before after : Log}
    (hlog : (course plane authority namespaceName (actions ++ meanwhile)).log =
      before ++ (j, e') :: after)
    (hrequested : (j, .requested) ∈ (course plane authority namespaceName actions).log)
    (hmem : (i, e) ∈ before)
    (hnew : (i, e) ∉ (course plane authority namespaceName actions).log)
    (he : ∀ g, e ≠ .read g) : i = j := by
  have hgrown : (course plane authority namespaceName actions).log <+:
      (course plane authority namespaceName (actions ++ meanwhile)).log :=
    log_prefix_course (List.prefix_append _ _)
  rw [hlog] at hgrown
  have hbefore : (course plane authority namespaceName actions).log <+: before := by
    rcases List.prefix_or_prefix_of_prefix hgrown (List.prefix_append _ _) with h | h
    · exact h
    · exact absurd (h.subset hmem) hnew
  obtain ⟨between, rfl⟩ := hbefore
  have hbetween : (i, e) ∈ between := (List.mem_append.1 hmem).resolve_left hnew
  have hsub : [(j, .requested), (i, e), (j, e')] <+
      (course plane authority namespaceName (actions ++ meanwhile)).log := by
    rw [hlog, List.append_assoc]
    have hfirst := List.singleton_sublist.2 hrequested
    have hsecond := List.singleton_sublist.2 hbetween
    exact hfirst.append (hsecond.append (List.singleton_sublist.2 List.mem_cons_self))
  exact eq_of_between hsub he

/-- In a log without repeats, what comes before an event of its first part is in that part, too. -/
theorem Log.mem_of_sublist {first rest : Log} (hnodup : (first ++ rest).Nodup)
    {x y : Nat × Event} (h : [x, y] <+ first ++ rest) (hy : y ∈ first) : x ∈ first := by
  obtain ⟨l₁, l₂, hsplit, h₁, h₂⟩ := List.sublist_append_iff.1 h
  cases l₁ with
  | nil =>
    rw [List.nil_append] at hsplit
    have hrest : y ∈ rest := h₂.subset (hsplit ▸ by simp)
    exact absurd rfl ((List.nodup_append.1 hnodup).2.2 y hy y hrest)
  | cons z l₁ =>
    obtain ⟨rfl, -⟩ := List.cons_eq_cons.1 hsplit
    exact h₁.subset List.mem_cons_self

/-- A refresh that has not begun has done nothing. -/
theorem not_mem_log_next (e : Event) :
    ((course plane authority namespaceName actions).refreshes.stages.length, e) ∉
      (course plane authority namespaceName actions).log := by
  have hpast := (sound_course plane authority namespaceName actions).past
    (course plane authority namespaceName actions).refreshes.stages.length
  rw [← Log.mem_past]
  generalize Log.past _ _ = es at hpast ⊢
  rw [Refreshes.stage, Refreshes.stage?, List.getElem?_eq_none (Nat.le_refl _),
    Option.getD_none] at hpast
  cases hpast
  exact List.not_mem_nil

/-- If the refresh that made the latest listing was under way at some time, no other one completes
after that. -/
theorem eq_of_completed {j k : Nat} {documents : List Json} {before after : Log}
    (hlog : (course plane authority namespaceName (actions ++ meanwhile)).log =
      before ++ (j, .replaced documents) :: after)
    (hafter : after.replacements = [])
    (hrequested : (j, .requested) ∈ (course plane authority namespaceName actions).log)
    (hbumped : (k, .bumped) ∈ (course plane authority namespaceName (actions ++ meanwhile)).log)
    (hnew : (k, .bumped) ∉ (course plane authority namespaceName actions).log) : k = j := by
  by_contra hkj
  obtain ⟨others, hpast⟩ := ((sound_course plane authority namespaceName
    (actions ++ meanwhile)).past k).sublist_of_bumped (Log.mem_past.2 hbumped)
  have hevents := Log.sublist_of_past hpast
  have hnodup : (course plane authority namespaceName (actions ++ meanwhile)).log.Nodup := nodup_log
  rw [hlog] at hbumped hevents hnodup
  rcases List.mem_append.1 hbumped with hmem | hmem
  · exact hkj (eq_of_under_way hlog hrequested hmem hnew nofun)
  · -- The other one takes its turn around the replacement by this one.
    have hlater : (k, .bumped) ∈ after := (List.mem_cons.1 hmem).resolve_left (by simp)
    have hreplaced : (k, .replaced others) ∈ before :=
      Log.mem_of_latest hafter hkj (hevents.subset (by simp))
    have hpair := (List.sublist_append_left [_, _] [_]).trans hevents
    have hfirst := Log.mem_of_sublist hnodup hpair hreplaced
    have hbetween : [(k, .requested), (j, .replaced documents), (k, .bumped)] <+
        (course plane authority namespaceName (actions ++ meanwhile)).log := by
      rw [hlog]
      exact (List.singleton_sublist.2 hfirst).append
        ((List.singleton_sublist.2 hlater).cons_cons _)
    exact hkj (eq_of_between hbetween nofun).symm

/-- A refresh that the next one has to wait for is not completed before. -/
theorem not_mem_log_of_waited {k o g : Nat}
    (h : [((course plane authority namespaceName actions).refreshes.stages.length, .read o),
      (k, .bumped), ((course plane authority namespaceName actions).refreshes.stages.length,
        .checked g)] <+ (course plane authority namespaceName (actions ++ meanwhile)).log) :
    (k, .bumped) ∉ (course plane authority namespaceName actions).log := by
  intro hmem
  obtain ⟨rest, hrest⟩ : (course plane authority namespaceName actions).log <+:
      (course plane authority namespaceName (actions ++ meanwhile)).log :=
    log_prefix_course (List.prefix_append _ _)
  have hnodup : (course plane authority namespaceName (actions ++ meanwhile)).log.Nodup := nodup_log
  have hpair := (List.sublist_append_left [_, _] [_]).trans h
  rw [← hrest] at hnodup hpair
  exact not_mem_log_next _ (Log.mem_of_sublist hnodup hpair hmem)

/-! ## Look-ups -/

/-- A look-up during which the type of a key is served all the while, and no listing fails. -/
structure ServedThroughout (authority key : String) (run : List (Action π) → Course π)
    (served : π → List Json) (actions meanwhile : List (Action π)) : Prop where
  /-- The look-up comes to its end. -/
  ends : ∃ result, (run (actions ++ .add :: meanwhile)).refreshes.result?
    (run actions).refreshes.stages.length = some result
  reflects : Reflects run served (actions ++ .add :: meanwhile)
  unfailing : ∀ j e, (j, .answered (.error e)) ∉ (run (actions ++ .add :: meanwhile)).log
  serves : ∀ part, part <+: meanwhile →
    Serves authority key (served (run (actions ++ .add :: part)).refreshes.directory.plane)

/-- Refresh `i` of a look-up takes over a listing that was requested before the look-up began: it
waits until refresh `j`, which made it, is completed. -/
structure Joins (before after : Log) (i j : Nat) (documents : List Json) : Prop where
  requested : (j, .requested) ∈ before
  uncompleted : (j, .bumped) ∉ before
  waited : ∃ o g, [(i, .read o), (j, .bumped), (i, .checked g)] <+ after
  unlisted : (i, .requested) ∉ after
  replaced : (j, .replaced documents) ∈ after
  latest : after.replacements.getLast? = some documents

section

variable {key : String} {served : π → List Json}

/-- Either way the refresh of a look-up ends well, and a listing takes effect by its end. -/
theorem ServedThroughout.result (h : ServedThroughout authority key
    (course plane authority namespaceName) served actions meanwhile) :
    let i := (course plane authority namespaceName actions).refreshes.stages.length
    let after := course plane authority namespaceName (actions ++ .add :: meanwhile)
    after.refreshes.result? i = some (.ok ()) ∧
      ((∃ j ≠ i, (∃ o g, [(i, .read o), (j, .bumped), (i, .checked g)] <+ after.log) ∧
          (i, .requested) ∉ after.log) ∨
        ∃ documents, (i, .replaced documents) ∈ after.log) := by
  intro i after
  have hsound := sound_course plane authority namespaceName (actions ++ .add :: meanwhile)
  obtain ⟨result, hresult⟩ := h.ends
  have hpast := hsound.past_of_stage? (Refreshes.result?_eq_some_iff.1 hresult)
  obtain ⟨rfl, ⟨o, g, hne, hes⟩ | ⟨documents, hreplaced⟩⟩ :=
    hpast.of_finished fun e hmem => h.unfailing _ e (Log.mem_past.1 hmem)
  · obtain ⟨j, hj, hsub⟩ := Log.exists_bump hsound.shown hes hne
    refine ⟨hresult, .inl ⟨j, hj, ⟨o, g, hsub⟩, fun hmem => ?_⟩⟩
    have hin := Log.mem_past.2 hmem
    rw [hes] at hin
    simp at hin
  · exact ⟨hresult, .inr ⟨documents, Log.mem_past.1 hreplaced⟩⟩

/-- At the end of a look-up that has to refresh, some listing has taken effect. -/
theorem ServedThroughout.exists_latest (h : ServedThroughout authority key
    (course plane authority namespaceName) served actions meanwhile) :
    ∃ documents, (course plane authority namespaceName
      (actions ++ .add :: meanwhile)).log.replacements.getLast? = some documents := by
  have hreplaced : ∃ j documents, (j, .replaced documents) ∈
      (course plane authority namespaceName (actions ++ .add :: meanwhile)).log := by
    obtain ⟨-, ⟨j, -, ⟨o, g, hsub⟩, -⟩ | hreplaced⟩ := h.result
    · have hbumped : (j, .bumped) ∈
          (course plane authority namespaceName (actions ++ .add :: meanwhile)).log :=
        hsub.subset (by simp)
      obtain ⟨documents, hpast⟩ := ((sound_course plane authority namespaceName
        (actions ++ .add :: meanwhile)).past j).sublist_of_bumped (Log.mem_past.2 hbumped)
      exact ⟨j, documents, Log.mem_past.1 (hpast.subset (by simp))⟩
    · exact ⟨_, hreplaced⟩
  obtain ⟨j, documents, hmem⟩ := hreplaced
  have hne := List.ne_nil_of_mem (Log.mem_replacements.2 ⟨j, hmem⟩)
  exact ⟨_, List.getLast?_eq_some_getLast hne⟩

/-- If the latest listing lacks a type that was served throughout a look-up, the look-up joined the
refresh that made it. -/
theorem ServedThroughout.joins (h : ServedThroughout authority key
    (course plane authority namespaceName) served actions meanwhile) {documents : List Json}
    (hlatest : (course plane authority namespaceName
      (actions ++ .add :: meanwhile)).log.replacements.getLast? = some documents)
    (hlacks : ¬ Serves authority key documents) :
    ∃ j, Joins (course plane authority namespaceName actions).log
      (course plane authority namespaceName (actions ++ .add :: meanwhile)).log
      (course plane authority namespaceName actions).refreshes.stages.length j documents := by
  obtain ⟨j, before, after, hlog, hafter⟩ := Log.exists_latest hlatest
  have hsound := sound_course plane authority namespaceName (actions ++ .add :: meanwhile)
  have hreplaced : (j, .replaced documents) ∈
      (course plane authority namespaceName (actions ++ .add :: meanwhile)).log := by
    rw [hlog]
    exact List.mem_append_right _ List.mem_cons_self
  -- Its listing was requested before the look-up, as it would have the type otherwise.
  have hrequested : (j, .requested) ∈ (course plane authority namespaceName actions).log := by
    by_contra hrequested
    have hpast := (hsound.past j).sublist_of_replaced (Log.mem_past.2 hreplaced)
    exact hlacks (serves_of_answered h.reflects h.serves
      (Log.mem_past.1 (hpast.subset (by simp))) hrequested)
  obtain ⟨-, ⟨k, -, ⟨o, g, hsub⟩, hunlisted⟩ | ⟨own, hown⟩⟩ := h.result
  · -- The refresh that was waited for is the one that made the latest listing.
    have hnew := not_mem_log_of_waited hsub
    obtain rfl : k = j := eq_of_completed hlog hafter hrequested (hsub.subset (by simp)) hnew
    exact ⟨k, hrequested, hnew, ⟨o, g, hsub⟩, hunlisted, hreplaced, hlatest⟩
  · -- A refresh that lists would have taken its turn in the middle of that of the other one.
    have hne : (course plane authority namespaceName actions).refreshes.stages.length ≠ j := by
      rintro rfl
      exact not_mem_log_next _ hrequested
    rw [hlog] at hown
    exact absurd (eq_of_under_way hlog hrequested (Log.mem_of_latest hafter hne hown)
      (not_mem_log_next _) nofun) hne

end

/-- **Types that are served are missed for an older listing only.** A look-up during which a type is
served gives the type or does not find it. It does not find it exactly if the type is not known at
first and the look-up joins a refresh under way whose listing, requested before, lacks the type. -/
theorem resolve_of_served {key : String} {served : π → List Json}
    (h : ServedThroughout authority (normalizeTypeKey key) (course plane authority namespaceName)
      served actions meanwhile) :
    let before := course plane authority namespaceName actions
    let after := course plane authority namespaceName (actions ++ .add :: meanwhile)
    let result := ((Live.resolve key : Lookup (Interleaved π) _).run.run ⟨before, meanwhile⟩).1
    ((∃ t, result = .ok t ∧ t.typeKey = normalizeTypeKey key) ∨ result = .error (.notFound key)) ∧
      (result = .error (.notFound key) ↔
        before.refreshes.directory.index.find? key = none ∧
          ∃ j documents,
            Joins before.log after.log before.refreshes.stages.length j documents ∧
              ¬ Serves authority (normalizeTypeKey key) documents) := by
  intro before after result
  have hkeyed := keyed_course plane authority namespaceName
  cases hfirst : before.refreshes.directory.index.find? key with
  | some t =>
    -- The type is known already.
    have hresult : result = .ok t := congrArg Prod.fst
      (Live.run_resolve_of_find? (t := (⟨before, meanwhile⟩ : Interleaved π)) hfirst)
    rw [hresult]
    exact ⟨.inl ⟨t, rfl, hkeyed actions _ t hfirst⟩, nofun, nofun⟩
  | none =>
    have hafter : (⟨before, meanwhile⟩ : Interleaved π).after = after :=
      (course_append actions (.add :: meanwhile)).symm
    have hover : (⟨before, meanwhile⟩ : Interleaved π).after.refreshes.result?
        (⟨before, meanwhile⟩ : Interleaved π).next = some (.ok ()) := by
      rw [hafter]
      exact h.result.1
    have hresult := Interleaved.run_resolve_of_miss hfirst hover
    rw [hafter] at hresult
    obtain ⟨documents, hlatest⟩ := h.exists_latest
    have hindex : after.refreshes.directory.index = indexOf authority documents := by
      rw [(sound_course plane authority namespaceName _).index, Log.index, hlatest]
      rfl
    cases hsecond : after.refreshes.directory.index.find? key with
    | some t =>
      rw [hsecond] at hresult
      rw [show result = .ok t from hresult]
      refine ⟨.inl ⟨t, rfl, hkeyed _ _ t hsecond⟩, nofun, ?_⟩
      rintro ⟨-, j, documents', hjoins, hlacks⟩
      cases hlatest.symm.trans hjoins.latest
      rw [hindex] at hsecond
      exact absurd (serves_iff.2 ⟨t, hsecond⟩) hlacks
    | none =>
      rw [hsecond] at hresult
      rw [show result = .error (.notFound key) from hresult]
      have hlacks : ¬ Serves authority (normalizeTypeKey key) documents := by
        intro hserves
        obtain ⟨t, ht⟩ := serves_iff.1 hserves
        rw [hindex] at hsecond
        cases ht.symm.trans hsecond
      obtain ⟨j, hjoins⟩ := h.joins hlatest hlacks
      exact ⟨.inr rfl, fun _ => ⟨rfl, j, documents, hjoins, hlacks⟩, fun _ => rfl⟩

end

/-! ## A control plane in memory -/

theorem MemoryPlane.definitions_of_listing {plane : MemoryPlane} {documents : List Json}
    (h : (ControlPlane.listing.run.run plane).1 = .ok documents) :
    plane.definitions = documents := by
  have hrun := plane.run_listing
  have hlisting : listing.run.run plane = ControlPlane.listing.run.run plane := rfl
  rw [← hlisting, hrun] at h
  split at h
  · cases h
  · cases h
    rfl

/-- A control plane in memory answers with what it serves at that moment. -/
theorem reflects_memory (plane : MemoryPlane) (authority namespaceName : String)
    (actions : List (Action MemoryPlane)) :
    Reflects (course plane authority namespaceName) MemoryPlane.definitions actions := by
  intro j before between after documents asked answered _ _ hanswered
  refine ⟨between, List.prefix_rfl, ?_⟩
  exact MemoryPlane.definitions_of_listing
    ((Refreshes.move_of_step? hanswered).answer (.ok documents) rfl)

/-! ## A look-up that joins -/

/-- A refresh whose listing was answered before a type is served. -/
def staleActions : List (Action MemoryPlane) :=
  .add :: List.replicate 5 (.advance 0) ++ [.change { definitions := [sampleDefinition] }]

/-- A look-up that notes the generation before that refresh is completed. -/
def staleMeanwhile : List (Action MemoryPlane) :=
  .advance 1 :: (List.replicate 3 (.advance 0) ++ List.replicate 3 (.advance 1))

theorem extract_sampleDefinition : Definition.extract sampleDefinition "g" =
    .ok (.types [StaticDirectory.sampleType "v" (.obj []) ""]) :=
  eq_ok_of_toOption (by decide +kernel)

theorem serves_sample : Serves "g" "t.g/v" [sampleDefinition] :=
  ⟨_, List.mem_singleton_self _, _, extract_sampleDefinition, _, List.mem_singleton_self _,
    by decide +kernel⟩

theorem log_stale :
    (course ({} : MemoryPlane) "g" "n" (staleActions ++ .add :: staleMeanwhile)).log =
      [(0, .read 0), (0, .acquired), (0, .checked 0), (0, .requested), (0, .answered (.ok [])),
        (1, .read 0), (0, .replaced []), (0, .bumped), (0, .released (.ok ())),
        (1, .acquired), (1, .checked 1), (1, .released (.ok ()))] := rfl

theorem servedThroughout_stale :
    ServedThroughout "g" (normalizeTypeKey "t.g/v") (course ({} : MemoryPlane) "g" "n")
      MemoryPlane.definitions staleActions staleMeanwhile where
  ends := ⟨.ok (), rfl⟩
  reflects := reflects_memory _ _ _ _
  unfailing := by
    intro j e hmem
    rw [log_stale] at hmem
    simp at hmem
  serves := by
    rw [StaticDirectory.normalizeTypeKey_sample]
    intro part hpart
    have hmem := (List.mem_inits part staleMeanwhile).2 hpart
    simp only [staleMeanwhile, List.replicate, List.cons_append, List.nil_append, List.inits,
      List.map_cons, List.map_nil, List.mem_cons, List.not_mem_nil, or_false] at hmem
    rcases hmem with rfl | rfl | rfl | rfl | rfl | rfl | rfl | rfl <;> exact serves_sample

theorem run_resolve_stale :
    ((Live.resolve "t.g/v" : Lookup (Interleaved MemoryPlane) _).run.run
      ⟨course {} "g" "n" staleActions, staleMeanwhile⟩).1 = .error (.notFound "t.g/v") := rfl

/-- The look-up takes over the older listing. -/
theorem resolve_of_served_stale :
    ServedThroughout "g" (normalizeTypeKey "t.g/v") (course ({} : MemoryPlane) "g" "n")
        MemoryPlane.definitions staleActions staleMeanwhile ∧
      ((Live.resolve "t.g/v" : Lookup (Interleaved MemoryPlane) _).run.run
        ⟨course {} "g" "n" staleActions, staleMeanwhile⟩).1 = .error (.notFound "t.g/v") ∧
      ∃ j documents,
        Joins (course ({} : MemoryPlane) "g" "n" staleActions).log
            (course ({} : MemoryPlane) "g" "n" (staleActions ++ .add :: staleMeanwhile)).log 1 j
            documents ∧
          ¬ Serves "g" (normalizeTypeKey "t.g/v") documents :=
  ⟨servedThroughout_stale, run_resolve_stale,
    ((resolve_of_served servedThroughout_stale).2.1 run_resolve_stale).2⟩

/-! ## A version whose name ends in a blank -/

/-- A definition with a blank behind a version's name. -/
def spacedDefinition : Json :=
  .obj [("kind", .str definitionKind), ("metadata", .obj []),
    ("spec", .obj [("group", .str "g"), ("names", .obj [("kind", .str "t")]),
      ("versions", .arr [.obj [("name", .str "v"),
          ("schema", .obj [("openAPIV3Schema", .obj [])]), ("served", .bool true)],
        .obj [("name", .str "w "), ("served", .bool true)]])])]

def spacedTypes : List TypeDescriptor :=
  [StaticDirectory.sampleType "v" (.obj []) "", StaticDirectory.sampleType "w " .null ""]

def spacedPlane : MemoryPlane := { definitions := [spacedDefinition] }

/-- A look-up that refreshes alone. -/
def loneMeanwhile : List (Action MemoryPlane) := List.replicate 8 (.advance 0)

theorem extract_spacedDefinition : Definition.extract spacedDefinition "g" =
    .ok (.types spacedTypes) :=
  eq_ok_of_toOption (by decide +kernel)

theorem serves_spaced : Serves "g" "t.g/w " [spacedDefinition] :=
  ⟨_, List.mem_singleton_self _, _, extract_spacedDefinition, _,
    List.mem_cons_of_mem _ (List.mem_singleton_self _), by decide +kernel⟩

theorem servedThroughout_spaced :
    ServedThroughout "g" "t.g/w " (course spacedPlane "g" "n") MemoryPlane.definitions []
      loneMeanwhile where
  ends := ⟨.ok (), rfl⟩
  reflects := reflects_memory _ _ _ _
  unfailing := by
    intro j e hmem
    have hlog : (course spacedPlane "g" "n" ([] ++ .add :: loneMeanwhile)).log =
        [(0, .read 0), (0, .acquired), (0, .checked 0), (0, .requested),
          (0, .answered (.ok [spacedDefinition])), (0, .replaced [spacedDefinition]), (0, .bumped),
          (0, .released (.ok ()))] := rfl
    rw [hlog] at hmem
    simp at hmem
  serves := by
    intro part hpart
    have hmem := (List.mem_inits part loneMeanwhile).2 hpart
    simp only [loneMeanwhile, List.replicate, List.inits, List.map_cons, List.map_nil,
      List.mem_cons, List.not_mem_nil, or_false] at hmem
    rcases hmem with rfl | rfl | rfl | rfl | rfl | rfl | rfl | rfl | rfl <;> exact serves_spaced

theorem run_resolve_spaced :
    ((Live.resolve "t.g/w " : Lookup (Interleaved MemoryPlane) _).run.run
      ⟨course spacedPlane "g" "n" [], loneMeanwhile⟩).1 = .error (.notFound "t.g/w ") := by
  have hnormal : normalizeTypeKey "t.g/w " = "t.g/w" := by decide +kernel
  have hnone : (indexOf "g" [spacedDefinition]).find? "t.g/w " = none := by
    have htypes : typesIn "g" spacedDefinition = spacedTypes := by
      unfold typesIn
      rw [extract_spacedDefinition]
    rw [TypeIndex.find?, hnormal, find?_indexOf, List.flatMap_singleton, htypes]
    decide +kernel
  have hindex : (⟨course spacedPlane "g" "n" [], loneMeanwhile⟩ :
      Interleaved MemoryPlane).after.refreshes.directory.index = indexOf "g" [spacedDefinition] :=
    rfl
  rw [Interleaved.run_resolve_of_miss rfl rfl, hindex, hnone]

/-- A look-up can miss a type that is served throughout, by an older listing or by a blank at the
end of its key. -/
theorem notFound_while_served :
    (ServedThroughout "g" "t.g/v" (course ({} : MemoryPlane) "g" "n") MemoryPlane.definitions
        staleActions staleMeanwhile ∧
      ((Live.resolve "t.g/v" : Lookup (Interleaved MemoryPlane) _).run.run
        ⟨course {} "g" "n" staleActions, staleMeanwhile⟩).1 = .error (.notFound "t.g/v")) ∧
    ServedThroughout "g" "t.g/w " (course spacedPlane "g" "n") MemoryPlane.definitions []
        loneMeanwhile ∧
      ((Live.resolve "t.g/w " : Lookup (Interleaved MemoryPlane) _).run.run
        ⟨course spacedPlane "g" "n" [], loneMeanwhile⟩).1 = .error (.notFound "t.g/w ") := by
  have hstale := servedThroughout_stale
  rw [StaticDirectory.normalizeTypeKey_sample] at hstale
  exact ⟨⟨hstale, run_resolve_stale⟩, servedThroughout_spaced, run_resolve_spaced⟩

end ResourceNames
