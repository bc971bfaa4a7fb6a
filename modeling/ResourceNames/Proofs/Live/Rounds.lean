import ResourceNames.ControlPlane.Memory
import ResourceNames.Proofs.Live.LockOrder

/-!
# Rounds of refreshes

In a round, all refreshes note the generation before one of them is counted. They then list as often
as it takes for one listing to succeed.

* `Turn`: what a refresh does with the lock, and what it returns.
* `turn_of_lockOrder`: the generation that a refresh sees counts the turns before its own.
* `round_of_complete`: who lists, who fails and who is spared a listing.
-/

namespace ResourceNames

variable {π : Type}

/-! ## Turns -/

/-- What a refresh does with the lock if another one completed since it noted the generation. -/
def passing (g : Nat) : List Event := [.acquired, .checked g, .released (.ok ())]

/-- What a refresh does with the lock if it lists in vain. -/
def failing (noted : Nat) (e : DirectoryError) : List Event :=
  [.acquired, .checked noted, .requested, .answered (.error e), .released (.error e)]

/-- What a refresh does with the lock if its listing succeeds. -/
def succeeding (noted : Nat) (documents : List Json) : List Event :=
  [.acquired, .checked noted, .requested, .answered (.ok documents), .replaced documents, .bumped,
    .released (.ok ())]

/-- What a refresh that noted a generation does with the lock when it sees a generation, and what it
returns. -/
inductive Turn (noted : Nat) : Nat → List Event → Except DirectoryError Unit → Prop
  | passing {g : Nat} : g ≠ noted → Turn noted g (passing g) (.ok ())
  | failing (e : DirectoryError) : Turn noted noted (failing noted e) (.error e)
  | succeeding (documents : List Json) : Turn noted noted (succeeding noted documents) (.ok ())

/-- A refresh that is over had its turn. -/
theorem Past.exists_turn {result : Except DirectoryError Unit} {es : List Event} {noted : Nat}
    (h : Past (.finished result) es) (hnoted : ∀ g, .read g ∈ es → g = noted) :
    ∃ g, Turn noted g (es.filter fun e => !e.isRead) result := by
  cases h with
  | finished h =>
    cases h with
    | passed hne =>
      obtain rfl := hnoted _ List.mem_cons_self
      exact ⟨_, .passing hne⟩
    | failed g e =>
      obtain rfl := hnoted g List.mem_cons_self
      exact ⟨_, .failing e⟩
    | bumped g documents =>
      obtain rfl := hnoted g List.mem_cons_self
      exact ⟨_, .succeeding documents⟩

/-- A turn begins with a look at the generation. -/
theorem Turn.eq_cons {noted g : Nat} {es : List Event} {result : Except DirectoryError Unit}
    (h : Turn noted g es result) : ∃ rest, es = .acquired :: .checked g :: rest := by
  cases h <;> exact ⟨_, rfl⟩

namespace Log

/-- All refreshes note the generation before one of them is counted. -/
def NotedFirst (log : Log) : Prop :=
  log.Pairwise fun x y => x.2.isBump = true → y.2.isRead = false

theorem NotedFirst.bumps_eq_zero {log before : Log} {i g : Nat} (h : log.NotedFirst)
    (hp : before ++ [(i, .read g)] <+: log) : before.bumps = 0 := by
  have hpairs := (List.pairwise_append.1 (h.sublist hp.sublist)).2.2
  refine List.countP_eq_zero.2 fun x hx hbump => ?_
  cases hpairs x hx _ (List.mem_singleton_self _) hbump

/-- What is done without the lock gives no part of what is collected from a log. -/
theorem filterMap_locked {α : Type} {f : Nat × Event → Option α}
    (hf : ∀ i g, f (i, .read g) = none) (log : Log) : log.locked.filterMap f = log.filterMap f := by
  unfold locked
  rw [List.filterMap_filter]
  refine List.filterMap_congr fun x _ => ?_
  obtain ⟨i, e⟩ := x
  cases e with
  | read g => exact (hf i g).symm
  | _ => rfl

theorem bumps_locked (log : Log) : log.locked.bumps = log.bumps := by
  unfold locked bumps
  rw [List.countP_filter]
  refine List.countP_congr fun x _ => ?_
  obtain ⟨i, e⟩ := x
  cases e <;> simp [Event.isBump, Event.isRead]

theorem exists_prefix_of_locked {log l tail : Log} {x : Nat × Event}
    (h : log.locked = l ++ x :: tail) : ∃ before : Log, before ++ [x] <+: log ∧ before.locked = l := by
  unfold locked at h
  obtain ⟨l₁, l₂, rfl, rfl, h₂⟩ := List.filter_eq_append_iff.1 h
  obtain ⟨l₃, l₄, rfl, hnone, -, -⟩ := List.filter_eq_cons_iff.1 h₂
  refine ⟨l₁ ++ l₃, ⟨l₄, by simp⟩, ?_⟩
  have hreads : l₃.filter (fun x => !x.2.isRead) = [] := List.filter_eq_nil_iff.2 hnone
  rw [locked, List.filter_append, hreads, List.append_nil]

/-- What a part of a log comes to: the answers to listings, who listed, the listings that took
effect, and how many refreshes completed. -/
def tally (log : Log) :
    List (Except DirectoryError (List Json)) × List Nat × List (List Json) × Nat :=
  (log.answers, log.listers, log.replacements, log.bumps)

theorem tally_append {log other : Log} {answered answered' : List (Except DirectoryError (List Json))}
    {listed listed' : List Nat} {replaced replaced' : List (List Json)} {bumped bumped' : Nat}
    (h : log.tally = (answered, listed, replaced, bumped))
    (h' : other.tally = (answered', listed', replaced', bumped')) :
    tally (log ++ other) =
      (answered ++ answered', listed ++ listed', replaced ++ replaced', bumped + bumped') := by
  cases h
  cases h'
  unfold tally answers listers replacements bumps
  simp only [List.filterMap_append, List.countP_append]

theorem tally_locked (log : Log) : log.locked.tally = log.tally := by
  unfold tally
  rw [bumps_locked]
  unfold answers listers replacements
  rw [filterMap_locked fun _ _ => rfl, filterMap_locked fun _ _ => rfl,
    filterMap_locked fun _ _ => rfl]

/-- Whether a refresh completed. -/
def completed (log : Log) (i : Nat) : Bool := (log.deeds i).any Event.isBump

theorem bumps_turns_eq_zero {log : Log} {is : List Nat} (h : ∀ i ∈ is, log.completed i = false) :
    bumps (is.flatMap log.turn) = 0 := by
  refine List.countP_eq_zero.2 fun x hx hbump => ?_
  obtain ⟨i, hi, hturn⟩ := List.mem_flatMap.1 hx
  obtain ⟨e, he, rfl⟩ := List.mem_map.1 hturn
  have hcompleted : log.completed i = true := List.any_eq_true.2 ⟨e, he, hbump⟩
  cases hcompleted.symm.trans (h i hi)

theorem bumps_turns_pos {log : Log} {is : List Nat} {i : Nat} (hi : i ∈ is)
    (h : log.completed i = true) : 0 < bumps (is.flatMap log.turn) := by
  obtain ⟨e, he, hbump⟩ := List.any_eq_true.1 h
  exact List.countP_pos_iff.2
    ⟨(i, e), List.mem_flatMap.2 ⟨i, hi, List.mem_map.2 ⟨e, he, rfl⟩⟩, hbump⟩

end Log

/-! ## Generations -/

namespace Course.From

variable {d : LiveDirectory π} {c : Course π} (h : c.From d) {i : Nat}

include h

/-- A refresh of a round that is over had its turn. -/
theorem exists_turn (hnoted : c.log.NotedFirst) {result : Except DirectoryError Unit}
    (hover : c.refreshes.result? i = some result) :
    ∃ g, Turn d.generation g (c.log.deeds i) result := by
  have hstage := Refreshes.stage_of_stage? (Refreshes.result?_eq_some_iff.1 hover)
  -- Nothing is counted before a generation is noted, so it is that of the start.
  refine Past.exists_turn (hstage ▸ h.past i) fun g hread => ?_
  obtain ⟨before, after, hlog⟩ := List.append_of_mem (Log.mem_past.1 hread)
  have hprefix : before ++ [(i, .read g)] <+: c.log := ⟨after, by simp [hlog]⟩
  have hshown : d.generation + Log.bumps before = g := (h.shown before i (.read g) hprefix).symm
  rw [← hshown, hnoted.bumps_eq_zero hprefix, Nat.add_zero]

/-- What a log comes to is what the turns in it come to. -/
theorem tally_eq : c.log.tally = Log.tally (c.log.lockOrder.flatMap c.log.turn) := by
  rw [← h.turns.locked, Log.tally_locked]

/-- The generation that a refresh sees counts the turns before its own. -/
theorem generation_of_lockOrder {before after : List Nat} {g : Nat}
    {result : Except DirectoryError Unit} (horder : c.log.lockOrder = before ++ i :: after)
    (hturn : Turn d.generation g (c.log.deeds i) result) :
    g = d.generation + Log.bumps (before.flatMap c.log.turn) := by
  -- The look at the generation is the second event of the turn: the log is cut before it.
  obtain ⟨rest, hdeeds⟩ := hturn.eq_cons
  have hlocked : c.log.locked = (before.flatMap c.log.turn ++ [(i, .acquired)]) ++
      (i, .checked g) :: (rest.map (Prod.mk i) ++ after.flatMap c.log.turn) := by
    rw [h.turns.locked, horder, List.flatMap_append, List.flatMap_cons, Log.turn, hdeeds]
    simp
  obtain ⟨earlier, hprefix, hearlier⟩ := Log.exists_prefix_of_locked hlocked
  have hshown : g = d.generation + Log.bumps earlier := h.shown earlier i (.checked g) hprefix
  rw [hshown, ← Log.bumps_locked, hearlier, Log.bumps_concat]
  rfl

end Course.From

/-! ## Who lists -/

/-- A refresh failed with an error of its own listing. -/
def Fails (noted : Nat) (c : Course π) (i : Nat) (e : DirectoryError) : Prop :=
  c.log.deeds i = failing noted e ∧ c.refreshes.result? i = some (.error e)

/-- A refresh was spared a listing. -/
def Spared (c : Course π) (i : Nat) : Prop :=
  (∃ g, c.log.deeds i = passing g) ∧ c.refreshes.result? i = some (.ok ())

/-- A refresh listed with success. -/
def Succeeds (noted : Nat) (c : Course π) (i : Nat) (documents : List Json) : Prop :=
  c.log.deeds i = succeeding noted documents ∧ c.refreshes.result? i = some (.ok ())

namespace Course.From

variable {d : LiveDirectory π} {c : Course π} (h : c.From d) (hnoted : c.log.NotedFirst) {i : Nat}
  {before after : List Nat} (horder : c.log.lockOrder = before ++ i :: after)
  {result : Except DirectoryError Unit} (hover : c.refreshes.result? i = some result)

include h hnoted horder hover

/-- Before one of them completes, refreshes list. -/
theorem lists_of_none_completed (hbefore : ∀ j ∈ before, c.log.completed j = false) :
    (∃ e, Fails d.generation c i e) ∨ ∃ documents, Succeeds d.generation c i documents := by
  obtain ⟨g, hturn⟩ := h.exists_turn hnoted hover
  have hg := h.generation_of_lockOrder horder hturn
  rw [Log.bumps_turns_eq_zero hbefore, Nat.add_zero] at hg
  generalize hdeeds : c.log.deeds i = es at hturn
  cases hturn with
  | passing hne => exact absurd hg hne
  | failing e => exact .inl ⟨e, hdeeds, hover⟩
  | succeeding documents => exact .inr ⟨documents, hdeeds, hover⟩

/-- After one of them completes, refreshes are spared. -/
theorem spared_of_completed {j : Nat} (hj : j ∈ before) (hcompleted : c.log.completed j = true) :
    Spared c i := by
  obtain ⟨g, hturn⟩ := h.exists_turn hnoted hover
  have hg := h.generation_of_lockOrder horder hturn
  have hpos := Log.bumps_turns_pos hj hcompleted
  generalize hdeeds : c.log.deeds i = es at hturn
  cases hturn with
  | passing hne => exact ⟨⟨g, hdeeds⟩, hover⟩
  | failing e => omega
  | succeeding documents => omega

end Course.From

theorem Fails.not_completed {noted i : Nat} {c : Course π} {e : DirectoryError}
    (h : Fails noted c i e) : c.log.completed i = false := by
  rw [Log.completed, h.1]
  rfl

theorem Succeeds.completed {noted i : Nat} {c : Course π} {documents : List Json}
    (h : Succeeds noted c i documents) : c.log.completed i = true := by
  rw [Log.completed, h.1]
  rfl

/-! ## What it comes to -/

theorem exists_forall₂ {α β : Type} {R : α → β → Prop} {xs : List α}
    (h : ∀ x ∈ xs, ∃ y, R x y) : ∃ ys, List.Forall₂ R xs ys := by
  induction xs with
  | nil => exact ⟨[], .nil⟩
  | cons x xs ih =>
    obtain ⟨y, hy⟩ := h x List.mem_cons_self
    obtain ⟨ys, hys⟩ := ih fun x' hx' => h x' (List.mem_cons_of_mem x hx')
    exact ⟨y :: ys, .cons hy hys⟩

/-- Refreshes that fail list once each. -/
theorem tally_of_fails {noted : Nat} {c : Course π} {is : List Nat} {failures : List DirectoryError}
    (h : List.Forall₂ (Fails noted c) is failures) :
    Log.tally (is.flatMap c.log.turn) = (failures.map .error, is, [], 0) ∧
      is.map c.refreshes.result? = failures.map fun e => some (.error e) := by
  induction h with
  | nil => exact ⟨rfl, rfl⟩
  | @cons i e is failures hi _ ih =>
    constructor
    · rw [List.flatMap_cons, Log.turn, hi.1]
      exact Log.tally_append rfl ih.1
    · rw [List.map_cons, List.map_cons, hi.2, ih.2]

/-- Refreshes that are spared do nothing that counts. -/
theorem tally_of_spared {c : Course π} {is : List Nat} (h : ∀ i ∈ is, Spared c i) :
    Log.tally (is.flatMap c.log.turn) = ([], [], [], 0) ∧
      is.map c.refreshes.result? = List.replicate is.length (some (.ok ())) := by
  induction is with
  | nil => exact ⟨rfl, rfl⟩
  | cons i is ih =>
    obtain ⟨⟨g, hdeeds⟩, hresult⟩ := h i List.mem_cons_self
    have hrest := ih fun j hj => h j (List.mem_cons_of_mem i hj)
    constructor
    · rw [List.flatMap_cons, Log.turn, hdeeds]
      exact Log.tally_append rfl hrest.1
    · rw [List.map_cons, hresult, hrest.2]
      rfl

/-- Refreshes that fail, one that succeeds, and those that are spared after it. -/
theorem tally_of_success {noted k : Nat} {c : Course π} {before after : List Nat}
    {failures : List DirectoryError} {documents : List Json}
    (hfails : List.Forall₂ (Fails noted c) before failures) (hk : Succeeds noted c k documents)
    (hspared : ∀ i ∈ after, Spared c i) :
    Log.tally ((before ++ k :: after).flatMap c.log.turn) =
        (failures.map .error ++ [.ok documents], before ++ [k], [documents], 1) ∧
      (before ++ k :: after).map c.refreshes.result? =
        (failures.map fun e => some (.error e)) ++
          List.replicate (1 + after.length) (some (.ok ())) := by
  obtain ⟨hfailing, hfailed⟩ := tally_of_fails hfails
  obtain ⟨hpassing, hpassed⟩ := tally_of_spared hspared
  have hlast : Log.tally (c.log.turn k) = ([.ok documents], [k], [documents], 1) := by
    rw [Log.turn, hk.1]
    rfl
  constructor
  · rw [List.flatMap_append, List.flatMap_cons]
    exact Log.tally_append hfailing (Log.tally_append hlast hpassing)
  · rw [List.map_append, hfailed, List.map_cons, hk.2, hpassed, Nat.add_comm]
    rfl

/-- What comes of a round of refreshes: the answers to their listings, and what they return, in the
order in which they got the lock, and what the directory holds in the end. -/
inductive Round (d : LiveDirectory π) (c : Course π) : Prop
  /-- They list up to the first success, and the others are spared. -/
  | succeeded (failures : List DirectoryError) (documents : List Json) (spared : Nat) :
    c.log.answers = failures.map .error ++ [.ok documents] →
    c.refreshes.stages.length = failures.length + 1 + spared →
    c.log.lockOrder.map c.refreshes.result? =
      (failures.map fun e => some (.error e)) ++ List.replicate (1 + spared) (some (.ok ())) →
    c.refreshes.directory.generation = d.generation + 1 →
    c.refreshes.directory.index = LiveDirectory.indexOf d.authority documents → Round d c
  /-- They all list in vain. -/
  | failed (failures : List DirectoryError) :
    c.log.answers = failures.map .error →
    c.refreshes.stages.length = failures.length →
    (c.log.lockOrder.map c.refreshes.result? = failures.map fun e => some (.error e)) →
    c.refreshes.directory.generation = d.generation →
    c.refreshes.directory.index = d.index → Round d c

namespace Course.From

variable [ControlPlane π] {d : LiveDirectory π} {c : Course π} (h : c.From d)
  (hnoted : c.log.NotedFirst) (hcomplete : ∀ i, c.refreshes.step? i = none)

include h hcomplete

/-- If none can go on, all are over. -/
theorem exists_result {i : Nat} (hi : i < c.refreshes.stages.length) :
    ∃ result, c.refreshes.result? i = some result := by
  have hstage : c.refreshes.stage? i = some c.refreshes.stages[i] := List.getElem?_eq_getElem hi
  refine Option.ne_none_iff_exists'.1 fun hover => ?_
  obtain ⟨j, hj⟩ := Refreshes.exists_step_of_lock h.holder hstage hover
  rw [hcomplete j] at hj
  cases hj

include hnoted

/-- Each refresh had the lock once. -/
theorem lockOrder_perm : c.log.lockOrder.Perm (List.range c.refreshes.stages.length) := by
  refine (List.perm_ext_iff_of_nodup h.turns.nodup List.nodup_range).2 fun i => ?_
  rw [List.mem_range]
  constructor
  · intro hmem
    by_contra hlt
    have hpast := h.past i
    have hstage : c.refreshes.stage i = .pending := by
      rw [Refreshes.stage, Refreshes.stage?, List.getElem?_eq_none (Nat.le_of_not_lt hlt)]
      rfl
    rw [Log.mem_lockOrder_iff] at hmem
    rw [hstage] at hpast
    generalize c.log.past i = es at hpast hmem
    cases hpast
    cases hmem
  · intro hi
    obtain ⟨result, hover⟩ := h.exists_result hcomplete hi
    obtain ⟨g, hturn⟩ := h.exists_turn hnoted hover
    obtain ⟨rest, hdeeds⟩ := hturn.eq_cons
    have hmem : Event.acquired ∈ c.log.deeds i := by
      rw [hdeeds]
      exact List.mem_cons_self
    exact Log.mem_lockOrder_iff.2 (List.mem_filter.1 hmem).1

theorem exists_result_of_mem {i : Nat} (hi : i ∈ c.log.lockOrder) :
    ∃ result, c.refreshes.result? i = some result :=
  h.exists_result hcomplete
    (List.mem_range.1 ((h.lockOrder_perm hnoted hcomplete).mem_iff.1 hi))

/-- As long as no refresh completed, all failed. -/
theorem exists_failures {is rest : List Nat} (horder : c.log.lockOrder = is ++ rest)
    (hnone : ∀ i ∈ is, c.log.completed i = false) :
    ∃ failures, List.Forall₂ (Fails d.generation c) is failures := by
  refine exists_forall₂ fun i hi => ?_
  obtain ⟨before, after, rfl⟩ := List.append_of_mem hi
  have hsplit : c.log.lockOrder = before ++ i :: (after ++ rest) := by simp [horder]
  obtain ⟨result, hover⟩ := h.exists_result_of_mem hnoted hcomplete
    (horder ▸ List.mem_append_left rest hi)
  rcases h.lists_of_none_completed hnoted hsplit hover
    fun j hj => hnone j (List.mem_append_left _ hj) with hfails | ⟨documents, hsucceeds⟩
  · exact hfails
  · cases hsucceeds.completed.symm.trans (hnone i hi)

theorem length_lockOrder : c.log.lockOrder.length = c.refreshes.stages.length :=
  (h.lockOrder_perm hnoted hcomplete).length_eq.trans List.length_range

/-- A round in which no refresh completes. -/
theorem round_of_none_completed (hnone : ∀ i ∈ c.log.lockOrder, c.log.completed i = false) :
    c.log.listers = c.log.lockOrder.take c.log.answers.length ∧ Round d c := by
  obtain ⟨failures, hfailures⟩ :=
    h.exists_failures hnoted hcomplete (List.append_nil _).symm hnone
  obtain ⟨hsum, hresults⟩ := tally_of_fails hfailures
  have htally := h.tally_eq.trans hsum
  simp only [Log.tally, Prod.mk.injEq] at htally
  obtain ⟨hanswers, hlisters, hreplacements, hbumps⟩ := htally
  have hlength := hfailures.length_eq
  refine ⟨?_, .failed failures hanswers ?_ hresults ?_ ?_⟩
  · rw [hlisters, hanswers, List.length_map, ← hlength, List.take_length]
  · exact (h.length_lockOrder hnoted hcomplete).symm.trans hlength
  · rw [h.generation, hbumps, Nat.add_zero]
  · rw [h.index, hreplacements]
    rfl

/-- A round in which a refresh completes, the first of them being `k`. -/
theorem round_of_completed {before after : List Nat} {k : Nat}
    (horder : c.log.lockOrder = before ++ k :: after)
    (hnone : ∀ i ∈ before, c.log.completed i = false) (hk : c.log.completed k = true) :
    c.log.listers = c.log.lockOrder.take c.log.answers.length ∧ Round d c := by
  obtain ⟨failures, hfailures⟩ := h.exists_failures hnoted hcomplete horder hnone
  obtain ⟨documents, hsucceeds⟩ : ∃ documents, Succeeds d.generation c k documents := by
    obtain ⟨result, hover⟩ := h.exists_result_of_mem hnoted hcomplete
      (horder ▸ List.mem_append_right before List.mem_cons_self)
    rcases h.lists_of_none_completed hnoted horder hover hnone with ⟨e, hfails⟩ | hsucceeds
    · cases hfails.not_completed.symm.trans hk
    · exact hsucceeds
  -- Behind `k`, the generation counts `k`, which no refresh of the round noted.
  have hspared : ∀ i ∈ after, Spared c i := by
    intro i hi
    obtain ⟨between, rest, rfl⟩ := List.append_of_mem hi
    have hsplit : c.log.lockOrder = (before ++ k :: between) ++ i :: rest := by simp [horder]
    obtain ⟨result, hover⟩ := h.exists_result_of_mem hnoted hcomplete
      (hsplit ▸ List.mem_append_right _ List.mem_cons_self)
    exact h.spared_of_completed hnoted hsplit hover
      (List.mem_append_right before List.mem_cons_self) hk
  obtain ⟨hsum, hresults⟩ := tally_of_success hfailures hsucceeds hspared
  have htally := h.tally_eq.trans (horder ▸ hsum)
  simp only [Log.tally, Prod.mk.injEq] at htally
  obtain ⟨hanswers, hlisters, hreplacements, hbumps⟩ := htally
  have hlength := hfailures.length_eq
  refine ⟨?_, .succeeded failures documents after.length hanswers ?_ (horder ▸ hresults) ?_ ?_⟩
  · have hcount : (before ++ [k]).length = c.log.answers.length := by
      rw [hanswers]
      simp [hlength]
    rw [hlisters, horder, List.append_cons before k after, List.take_left' hcount]
  · rw [← h.length_lockOrder hnoted hcomplete, horder, ← hlength]
    simp only [List.length_append, List.length_cons]
    omega
  · rw [h.generation, hbumps]
  · rw [h.index, hreplacements]
    rfl

end Course.From

/-- **A round of refreshes lists as often as needed.** Refreshes of a directory without other ones
go on in any order until none can go on, and all note the generation before one of them is counted.
Then each has the lock once. In the order of the lock, the first ones list until one listing
succeeds. Those whose listing fails return its error, and all others succeed. The directory counts
one more refresh and has the types of that listing. If no listing succeeds, all list and fail, and
the directory keeps its generation and its index. -/
theorem round_of_complete [ControlPlane π] (d : LiveDirectory π) (actions : List (Action π)) :
    let c := courseFrom d actions
    c.log.NotedFirst → (∀ i, c.refreshes.step? i = none) →
      c.log.lockOrder.Perm (List.range c.refreshes.stages.length) ∧
      c.log.listers = c.log.lockOrder.take c.log.answers.length ∧ Round d c := by
  intro c hnoted hcomplete
  have h : c.From d := from_courseFrom d actions
  refine ⟨h.lockOrder_perm hnoted hcomplete, ?_⟩
  cases hfind : c.log.lockOrder.find? c.log.completed with
  | none =>
    exact h.round_of_none_completed hnoted hcomplete fun i hi =>
      Bool.eq_false_iff.2 (List.find?_eq_none.1 hfind i hi)
  | some k =>
    obtain ⟨hk, before, after, horder, hbefore⟩ := List.find?_eq_some_iff_append.1 hfind
    exact h.round_of_completed hnoted hcomplete horder (fun i hi => by simpa using hbefore i hi) hk

/-- Three refreshes from a control plane that is unavailable until the first of them has failed. -/
def roundActions : List (Action MemoryPlane) :=
  [.add, .add, .add, .advance 0, .advance 1, .advance 2] ++ List.replicate 5 (.advance 1) ++
    [.change { definitions := [.null] }] ++ List.replicate 7 (.advance 0) ++
    List.replicate 3 (.advance 2)

def roundStart : LiveDirectory MemoryPlane where
  plane := { unavailable := true }
  authority := "g"
  namespaceName := "n"
  generation := 4

/-- Of three refreshes, one fails, the next one lists, and the last one is spared. -/
theorem round_of_complete_sample :
    let c := courseFrom roundStart roundActions
    c.log.NotedFirst ∧ (∀ i, c.refreshes.step? i = none) ∧ c.log.lockOrder = [1, 0, 2] ∧
      c.log.listers = [1, 0] ∧ Round roundStart c ∧ c.refreshes.directory.generation = 5 ∧
      c.refreshes.result? 2 = some (.ok ()) := by
  intro c
  have hnoted : c.log.NotedFirst := by
    unfold Log.NotedFirst
    decide +kernel
  have hcomplete : ∀ i, c.refreshes.step? i = none
    | 0 | 1 | 2 | _ + 3 => rfl
  obtain ⟨-, hlisters, hround⟩ := round_of_complete roundStart roundActions hnoted hcomplete
  exact ⟨hnoted, hcomplete, rfl, hlisters, hround, rfl, rfl⟩

end ResourceNames
