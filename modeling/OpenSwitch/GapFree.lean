import OpenSwitch.Registration
/-!
# GapFree — what a subscriber gets of a tier

A worker offers each entry it dispatches to the roster snapshot it took, in order.  `served` are the matching entries
whose dispatch is past a subscriber, `offered` those whose dispatch has begun.  The live entries in a subscriber's queue
are all of `served` until the subscriber is closed, and from then on stay a prefix of it: a worker pushes only after it
saw the subscriber open, and an entry it could not push it answers with a kick before it turns to the next one.
-/
namespace Osw
namespace Events

/-- The subscribers of its snapshot a worker has still to serve with the entry it dispatches. -/
def Worker.rest : Worker → List Nat
  | .dispatching _ _ _ rest _ => rest
  | _ => []

def RegPhase.joined : RegPhase → Bool
  | .streaming | .leaving | .gone => true
  | _ => false

/-- The entries of a history of dispatches that were offered to subscriber `i` and pass its filter. -/
def offers (f : SubscriberFilter) (t : Tier) (i : Nat) (D : List (RingEntry × List Nat)) : List RingEntry :=
  (D.filter (fun d => decide (i ∈ d.2) && f.wants t d.1)).map Prod.fst

theorem offers_append (f : SubscriberFilter) (t : Tier) (i : Nat) (D : List (RingEntry × List Nat)) (e : RingEntry)
    (roster : List Nat) :
    offers f t i (D ++ [(e, roster)]) = offers f t i D ++ (if i ∈ roster ∧ f.wants t e = true then [e] else []) := by
  by_cases h : i ∈ roster ∧ f.wants t e = true
  · simp [offers, h]
  · rw [if_neg h, List.append_nil, offers, offers, List.filter_append, List.filter_cons_of_neg, List.filter_nil,
      List.append_nil]
    simpa only [Bool.and_eq_true, decide_eq_true_eq] using h

namespace Plane

variable {s s' : Plane} {i : Nat} {a : PlaneAct}

def offered (s : Plane) (t : Tier) (i : Nat) : List RingEntry :=
  offers (s.feeds i).sub.filter t i (s.dispatched t)

/-- While the worker has still to serve `i` with its current entry, that entry does not count. -/
def served (s : Plane) (t : Tier) (i : Nat) : List RingEntry :=
  offers (s.feeds i).sub.filter t i (if i ∈ (s.worker t).rest then (s.dispatched t).dropLast else s.dispatched t)

/-! ## Workers and their snapshots -/

/-- Every snapshot the worker of a tier used holds joined calls only; the entry it is at is the last it began; the
subscribers it has still to serve are the end of its snapshot; it pushes only what the subscriber wants, and counts a
kick only of a closed subscriber. -/
structure Serving (s : Plane) (t : Tier) : Prop where
  joined : ∀ d ∈ s.dispatched t, ∀ i ∈ d.2, (s.phase i).joined = true
  last   : ∀ roster e es rest stage, s.worker t = .dispatching roster e es rest stage →
    (∃ D, s.dispatched t = D ++ [(e, roster)]) ∧ rest <:+ roster ∧ roster.Nodup
  count  : ∀ roster e es i rest, s.worker t = .dispatching roster e es (i :: rest) .count → s.closed i
  push   : ∀ roster e es i rest, s.worker t = .dispatching roster e es (i :: rest) .push →
    (s.feeds i).sub.filter.wants t e = true

theorem step_joined (h : s.step a = some s') (hj : (s.phase i).joined = true) : (s'.phase i).joined = true := by
  obtain ⟨j, hmove, hne⟩ := step_reg h
  by_cases hij : i = j
  · subst hij
    cases hmove with
    | stay hp => rwa [hp]
    | reject hp => rw [hp] at hj; cases hj
    | lock hp => rw [hp] at hj; cases hj
    | refuse hp => rw [hp] at hj; cases hj
    | add hp => rw [hp] at hj; cases hj
    | enter sinceSeq tiers hh => rw [phase, hh] at hj; cases hj
    | withdraw hp => rw [hp] at hj; cases hj
    | leave _ hp' => rw [hp']; rfl
    | remove _ hp' => rw [hp']; rfl
  · rwa [phase, hne i hij]

theorem ne_absent_of_joined (hj : (s.phase i).joined = true) : s.handler i ≠ .absent :=
  fun ha => by rw [phase, ha] at hj; cases hj

theorem Registered.joined_of_mem (hs : Registered s) (hi : i ∈ s.roster) : (s.phase i).joined = true := by
  rcases (hs.member i).1 hi with h | h <;> rw [h] <;> rfl

theorem serving_init (m c : Nat) (capacity : Tier → Nat) (t : Tier) : Serving (init m c capacity) t := by
  have hw : ∀ roster e es rest stage, (init m c capacity).worker t ≠ .dispatching roster e es rest stage := by
    cases t <;> nofun
  exact ⟨nofun, fun _ _ _ _ _ h => absurd h (hw _ _ _ _ _), fun _ _ _ _ _ h => absurd h (hw _ _ _ _ _),
    fun _ _ _ _ _ h => absurd h (hw _ _ _ _ _)⟩

section
variable {t : Tier} {roster rest : List Nat} {e : RingEntry} {es : List RingEntry} {i : Nat} {stage : Stage}
  {a : PlaneAct}

theorem Serving.joined_of_rest (hs : Serving s t) (hw : s.worker t = .dispatching roster e es rest stage)
    (hi : i ∈ rest) : (s.phase i).joined = true := by
  obtain ⟨⟨D, hD⟩, hsuf, _⟩ := hs.last roster e es rest stage hw
  exact hs.joined (e, roster) (by rw [hD]; simp) i (hsuf.subset hi)

theorem Serving.of_same (hs : Serving s t) (h : s.step a = some s') (hw : s'.worker t = s.worker t)
    (hd : s'.dispatched t = s.dispatched t) : Serving s' t := by
  refine ⟨fun d hm i hi => ?_, fun roster e es rest stage hw' => ?_, fun roster e es i rest hw' => ?_,
    fun roster e es i rest hw' => ?_⟩
  · exact step_joined h (hs.joined d (hd ▸ hm) i hi)
  · rw [hw] at hw'
    rw [hd]
    exact hs.last roster e es rest stage hw'
  · rw [hw] at hw'
    have hj := hs.joined_of_rest hw' List.mem_cons_self
    exact (step_feed_keeps h (fun ha => absurd ha (ne_absent_of_joined hj))).2 (hs.count roster e es i rest hw')
  · rw [hw] at hw'
    have hj := hs.joined_of_rest hw' List.mem_cons_self
    rw [(step_feed_keeps h (fun ha => absurd ha (ne_absent_of_joined hj))).1]
    exact hs.push roster e es i rest hw'

theorem Serving.of_idle (hs : Serving s t) (h : s.step (.worker t) = some s') (hd : s'.dispatched t = s.dispatched t)
    (hw : ∀ roster e es rest stage, s'.worker t ≠ .dispatching roster e es rest stage) : Serving s' t :=
  ⟨fun d hm i hi => step_joined h (hs.joined d (hd ▸ hm) i hi), fun _ _ _ _ _ h => absurd h (hw _ _ _ _ _),
    fun _ _ _ _ _ h => absurd h (hw _ _ _ _ _), fun _ _ _ _ _ h => absurd h (hw _ _ _ _ _)⟩

theorem Serving.next (hs : Serving s t) (hr : ∀ i ∈ roster, (s.phase i).joined = true) (hnd : roster.Nodup)
    (h : s.step (.worker t) = some (s.next t roster es)) : Serving (s.next t roster es) t := by
  cases es with
  | nil =>
    refine hs.of_idle h rfl fun roster e es rest stage hw => ?_
    simp only [Plane.next, Function.update_self] at hw
    cases hw
  | cons e es =>
    have hd : (s.next t roster (e :: es)).dispatched t = s.dispatched t ++ [(e, roster)] := by
      simp only [Plane.next, Function.update_self]
    have hw : (s.next t roster (e :: es)).worker t
        = .dispatching roster e es (if e.envelopeBytes = none then [] else roster) .check := by
      simp only [Plane.next, Function.update_self]
    refine ⟨fun d hm i hi => ?_, fun roster' e' es' rest stage hw' => ?_, fun roster' e' es' i rest hw' => ?_,
      fun roster' e' es' i rest hw' => ?_⟩
    · rw [hd] at hm
      rcases List.mem_append.1 hm with hm | hm
      · exact step_joined h (hs.joined d hm i hi)
      · cases List.mem_singleton.1 hm
        exact step_joined h (hr i hi)
    · rw [hw] at hw'
      cases hw'
      refine ⟨⟨_, hd⟩, ?_, hnd⟩
      split
      · exact List.nil_suffix
      · exact List.suffix_rfl
    · rw [hw] at hw'
      injection hw' with _ _ _ _ hst
      cases hst
    · rw [hw] at hw'
      injection hw' with _ _ _ _ hst
      cases hst

theorem Serving.dispatchTo (hs : Serving s t) (hw : s.worker t = .dispatching roster e es (i :: rest) stage)
    (h : s.step (.worker t) = some (s.dispatchTo t roster e es i rest stage)) :
    Serving (s.dispatchTo t roster e es i rest stage) t := by
  obtain ⟨_, _, hd, rest', stage', hw'⟩ := s.dispatchTo_sameBut t roster e es i rest stage
  obtain ⟨hlast, hsuf, hnd⟩ := hs.last roster e es (i :: rest) stage hw
  have hsuf' : rest <:+ roster := (List.suffix_cons i rest).trans hsuf
  refine ⟨fun d hm j hj => ?_, fun roster₁ e₁ es₁ rest₁ stage₁ hw₁ => ?_, fun roster₁ e₁ es₁ j rest₁ hw₁ => ?_,
    fun roster₁ e₁ es₁ j rest₁ hw₁ => ?_⟩
  · rw [hd] at hm
    exact step_joined h (hs.joined d hm j hj)
  · rcases s.dispatchTo_cases t roster e es i rest stage with ⟨_, _, hs'⟩ | ⟨_, _, _, hs'⟩ | ⟨_, f, _, hs'⟩ |
      ⟨_, _, hs'⟩ | ⟨st, _, hs'⟩ | ⟨_, hs'⟩ <;> rw [hs'] at hw₁ ⊢ <;>
      simp only [Function.update_self, Worker.dispatching.injEq] at hw₁ <;>
      obtain ⟨rfl, rfl, rfl, rfl, rfl⟩ := hw₁
    · exact ⟨hlast, hsuf', hnd⟩
    · exact ⟨hlast, hsuf, hnd⟩
    · exact ⟨hlast, hsuf', hnd⟩
    · exact ⟨hlast, hsuf, hnd⟩
    · exact ⟨hlast, hsuf, hnd⟩
    · exact ⟨hlast, hsuf', hnd⟩
  · rcases s.dispatchTo_cases t roster e es i rest stage with ⟨_, _, hs'⟩ | ⟨_, _, _, hs'⟩ | ⟨_, f, _, hs'⟩ |
      ⟨_, _, hs'⟩ | ⟨st, _, hs'⟩ | ⟨_, hs'⟩ <;> rw [hs'] at hw₁ ⊢ <;>
      simp only [Function.update_self, Worker.dispatching.injEq, reduceCtorEq, and_false] at hw₁
    -- the last store of a kick closes the queue
    obtain ⟨_, _, _, hi, hst⟩ := hw₁
    cases hi
    cases st with
    | reason r => cases hst
    | flag => cases hst
    | queue =>
      simp only [closed, Function.update_self]
      exact Feed.closeStep_queue_closed _
  · rcases s.dispatchTo_cases t roster e es i rest stage with ⟨_, _, hs'⟩ | ⟨_, _, hwants, hs'⟩ | ⟨_, f, _, hs'⟩ |
      ⟨_, _, hs'⟩ | ⟨st, _, hs'⟩ | ⟨_, hs'⟩ <;> rw [hs'] at hw₁ ⊢ <;>
      simp only [Function.update_self, Worker.dispatching.injEq, reduceCtorEq, and_false] at hw₁
    · obtain ⟨_, rfl, _, hi, _⟩ := hw₁
      cases hi
      exact hwants
    · obtain ⟨_, _, _, _, hst⟩ := hw₁
      cases st <;> cases hst

theorem Serving.step (hs : Serving s t) (hreg : Registered s) (h : s.step a = some s') : Serving s' t := by
  by_cases ha : a = .worker t
  · subst ha
    rcases workerStep_cases h with ⟨_, rfl⟩ | ⟨_, rfl⟩ | ⟨_, rfl⟩ | ⟨e, es, _, _, rfl⟩ |
      ⟨roster, e, es, stage, hw, rfl⟩ | ⟨roster, e, es, i, rest, stage, hw, rfl⟩
    · refine hs.of_idle h rfl fun roster e es rest stage hw => ?_
      simp only [Function.update_self] at hw
      split at hw <;> cases hw
    · refine hs.of_idle h rfl fun roster e es rest stage hw => ?_
      simp only [Function.update_self, reduceCtorEq] at hw
    · refine hs.of_idle h rfl fun roster e es rest stage hw => ?_
      simp only [Function.update_self] at hw
      split at hw <;> cases hw
    · exact hs.next (fun i hi => hreg.joined_of_mem hi) hreg.nodup h
    · obtain ⟨⟨D, hD⟩, _, hnd⟩ := hs.last roster e es [] stage hw
      exact hs.next (hs.joined (e, roster) (by rw [hD]; simp)) hnd h
    · exact hs.dispatchTo hw h
  · obtain ⟨hw, hd⟩ := step_worker_ne h ha
    exact hs.of_same h hw hd

/-! ## A prefix of what was served -/

theorem live_of_log_eq {f f' : Feed} (h : f'.log = f.log) (t : Tier) : f'.live t = f.live t := by
  rw [Feed.live, Feed.live, h]

theorem live_replayTier (r : Ring) (t' : Tier) (sinceSeq : Nat) (f : Feed) (t : Tier) :
    (replayTier r t' sinceSeq f).2.live t = f.live t := by
  obtain ⟨_, ⟨ds, hl, hds⟩, _⟩ := replayTier_spec r t' sinceSeq f
  rw [Feed.live_append f _ ds hl, List.filter_eq_nil_iff.2, List.map_nil, List.append_nil]
  intro d hd
  simp [hds d hd]

/-- Only the worker of a tier, at its push, adds to the live entries of a subscriber. -/
theorem step_live (h : s.step a = some s') (hi : s.handler i = .absent → ∃ t, a = .worker t) :
    (s'.feeds i).live t = (s.feeds i).live t ∨
    ∃ roster e es rest, a = .worker t ∧ s.worker t = .dispatching roster e es (i :: rest) .push ∧
      (s'.feeds i).live t = (s.feeds i).live t ++ [e] := by
  rcases step_feed h i with hc | ⟨habs, hne, _⟩ | ⟨sinceSeq, _, t', _, r, _, _, hf⟩ |
    ⟨t', roster, e, es, rest, rfl, hw, hp⟩
  · exact .inl (live_of_log_eq hc.log t)
  · obtain ⟨t', ha⟩ := hi habs
    exact absurd ha (hne t')
  · rw [hf]
    exact .inl (live_replayTier r t' sinceSeq _ t)
  · rw [Feed.live_tryPush hp]
    by_cases ht : t = t'
    · subst ht
      rw [if_pos rfl]
      exact .inr ⟨roster, e, es, rest, rfl, hw, rfl⟩
    · rw [if_neg ht]
      exact .inl rfl

/-- The live entries of a subscriber are what the tier's worker served it with, up to its closing; a worker at its push
has served it with everything before. -/
structure Prefixed (s : Plane) (t : Tier) (i : Nat) : Prop where
  live : (s.feeds i).live t = s.served t i ∨ s.closed i ∧ (s.feeds i).live t <+: s.served t i
  push : ∀ roster e es rest, s.worker t = .dispatching roster e es (i :: rest) .push →
    (s.feeds i).live t = s.served t i

theorem Serving.offers_eq_nil (hs : Serving s t) (hi : (s.phase i).joined = false) (f : SubscriberFilter)
    (l : List Nat) : offers f t i (if i ∈ l then (s.dispatched t).dropLast else s.dispatched t) = [] := by
  rw [offers, List.filter_eq_nil_iff.2, List.map_nil]
  intro d hd
  have hmem : d ∈ s.dispatched t := by
    split at hd
    · exact List.dropLast_subset _ hd
    · exact hd
  have hni : i ∉ d.2 := fun hm => by
    have := hs.joined d hmem i hm
    rw [hi] at this
    cases this
  simp [hni]

theorem Prefixed.of_same (hp : Prefixed s t i) (hlive : (s'.feeds i).live t = (s.feeds i).live t)
    (hserved : s'.served t i = s.served t i) (hclosed : s.closed i → s'.closed i)
    (hpush : ∀ roster e es rest, s'.worker t = .dispatching roster e es (i :: rest) .push →
      (s.feeds i).live t = s.served t i) : Prefixed s' t i := by
  refine ⟨?_, fun roster e es rest hw => ?_⟩
  · rw [hlive, hserved]
    rcases hp.live with hl | ⟨hc, hl⟩
    · exact .inl hl
    · exact .inr ⟨hclosed hc, hl⟩
  · rw [hlive, hserved]
    exact hpush roster e es rest hw

theorem served_of_same (hw : s'.worker t = s.worker t) (hd : s'.dispatched t = s.dispatched t)
    (hf : (s'.feeds i).sub.filter = (s.feeds i).sub.filter) : s'.served t i = s.served t i := by
  rw [served, served, hw, hd, hf]

theorem Prefixed.other (hp : Prefixed s t i) (hs : Serving s t) (h : s.step a = some s') (ha : a ≠ .worker t) :
    Prefixed s' t i := by
  obtain ⟨hw, hd⟩ := step_worker_ne h ha
  by_cases hi : s.handler i = .absent → ∃ t, a = .worker t
  · have hkeep := step_feed_keeps h hi
    have hlive : (s'.feeds i).live t = (s.feeds i).live t := by
      rcases step_live h hi with hl | ⟨_, _, _, _, hwt, _⟩
      · exact hl
      · exact absurd hwt ha
    exact hp.of_same hlive (served_of_same hw hd hkeep.1) hkeep.2 (fun roster e es rest hw' => hp.push roster e es rest (hw ▸ hw'))
  · -- the call of `i` makes its subscriber: nothing was offered to it yet
    have habs : s.handler i = .absent := Classical.byContradiction (fun hne => hi (fun h => absurd h hne))
    have hj : (s.phase i).joined = false := by rw [phase, habs]; rfl
    have hserved' : s'.served t i = [] := by
      rw [served, hw, hd]
      exact hs.offers_eq_nil hj _ _
    have hnil : (s.feeds i).live t = [] := by
      have hserved : s.served t i = [] := hs.offers_eq_nil hj _ _
      rcases hp.live with hl | ⟨_, hl⟩
      · rw [hl, hserved]
      · rw [hserved] at hl
        exact List.prefix_nil.1 hl
    have hlive' : (s'.feeds i).live t = [] := by
      rcases step_feed h i with hc | ⟨_, _, filter, c, hf⟩ | ⟨_, _, _, _, _, hh, _, _⟩ | ⟨t', _, _, _, _, hwt, _⟩
      · rw [live_of_log_eq hc.log, hnil]
      · rw [hf]
        rfl
      · rw [habs] at hh
        cases hh
      · exact absurd (fun _ => ⟨t', hwt⟩) hi
    exact ⟨.inl (by rw [hlive', hserved']), fun _ _ _ _ _ => by rw [hlive', hserved']⟩

theorem next_served (hrest : (s.worker t).rest = []) : (s.next t roster es).served t i = s.served t i := by
  rw [show s.served t i = offers (s.feeds i).sub.filter t i (s.dispatched t) by
    rw [served, hrest, if_neg List.not_mem_nil]]
  cases es with
  | nil => simp [Plane.next, served, Worker.rest]
  | cons e es =>
    simp only [Plane.next, served, Worker.rest, Function.update_self]
    by_cases hb : e.envelopeBytes = none
    · -- an entry without bytes is offered to nobody
      have hw : (s.feeds i).sub.filter.wants t e = false := by rw [SubscriberFilter.wants, hb]
      rw [if_pos hb, if_neg List.not_mem_nil, offers_append, hw]
      simp
    · rw [if_neg hb]
      by_cases hi : i ∈ roster
      · rw [if_pos hi, List.dropLast_concat]
      · rw [if_neg hi, offers_append, if_neg (fun h => hi h.1), List.append_nil]

theorem Prefixed.next (hp : Prefixed s t i) (hrest : (s.worker t).rest = []) : Prefixed (s.next t roster es) t i := by
  have hf : (s.next t roster es).feeds = s.feeds := by cases es <;> rfl
  refine hp.of_same (by rw [hf]) (next_served hrest) (fun hc => by rw [closed, hf]; exact hc) fun _ _ _ _ hw' => ?_
  cases es <;> simp only [Plane.next, Function.update_self, Worker.dispatching.injEq, reduceCtorEq, and_false] at hw'

/-- The worker serves a subscriber other than `i`. -/
theorem Prefixed.dispatchTo_ne {j : Nat} (hp : Prefixed s t i) (hij : i ≠ j)
    (hw : s.worker t = .dispatching roster e es (j :: rest) stage) :
    Prefixed (s.dispatchTo t roster e es j rest stage) t i := by
  have hmem : (i ∈ j :: rest) = (i ∈ rest) := by simp [hij]
  have hsame : (s.dispatchTo t roster e es j rest stage).feeds i = s.feeds i ∧
      (s.dispatchTo t roster e es j rest stage).served t i = s.served t i ∧
      ∀ roster' e' es' rest', (s.dispatchTo t roster e es j rest stage).worker t
        ≠ .dispatching roster' e' es' (i :: rest') .push := by
    rcases s.dispatchTo_cases t roster e es j rest stage with ⟨_, _, hs'⟩ | ⟨_, _, _, hs'⟩ | ⟨_, f, _, hs'⟩ |
      ⟨_, _, hs'⟩ | ⟨st, _, hs'⟩ | ⟨_, hs'⟩ <;> rw [hs'] <;>
      simp only [served, hw, Worker.rest, Function.update_self, Function.update_of_ne hij, hmem, true_and] <;>
      intro roster' e' es' rest' hw' <;> injection hw' with _ _ _ hr hst
    · cases hst
    · injection hr with hji
      exact hij hji.symm
    · cases hst
    · cases hst
    · cases st <;> cases hst
    · cases hst
  obtain ⟨hf, hserved, hnp⟩ := hsame
  exact hp.of_same (by rw [hf]) hserved (fun hc => by rw [closed, hf]; exact hc) (fun _ _ _ _ hw' => absurd hw' (hnp _ _ _ _))

/-- The worker serves `i`. -/
theorem Prefixed.dispatchTo_self (hp : Prefixed s t i) (hs : Serving s t)
    (hw : s.worker t = .dispatching roster e es (i :: rest) stage) :
    Prefixed (s.dispatchTo t roster e es i rest stage) t i := by
  obtain ⟨⟨D, hD⟩, hsuf, hnd⟩ := hs.last roster e es (i :: rest) stage hw
  have hroster : i ∈ roster := hsuf.subset List.mem_cons_self
  have hrest : i ∉ rest := (List.nodup_cons.1 (hnd.sublist hsuf.sublist)).1
  have hserved : s.served t i = offers (s.feeds i).sub.filter t i D := by
    simp only [served, hw, Worker.rest, if_pos List.mem_cons_self, hD, List.dropLast_concat]
  have hbefore : (s.feeds i).live t <+: s.served t i := by
    rcases hp.live with hl | ⟨_, hl⟩
    · exact hl ▸ List.prefix_rfl
    · exact hl
  -- past `i`, the entry counts as served if `i` wants it
  have hpast : offers (s.feeds i).sub.filter t i (s.dispatched t)
      = s.served t i ++ if (s.feeds i).sub.filter.wants t e = true then [e] else [] := by
    rw [hD, offers_append, hserved]
    simp only [hroster, true_and]
  have hat : offers (s.feeds i).sub.filter t i (s.dispatched t).dropLast = s.served t i := by
    rw [hserved, hD, List.dropLast_concat]
  rcases s.dispatchTo_cases t roster e es i rest stage with ⟨_, hskip, hs'⟩ | ⟨_, hopen, _, hs'⟩ | ⟨rfl, f, hf, hs'⟩ |
    ⟨_, _, hs'⟩ | ⟨st, _, hs'⟩ | ⟨rfl, hs'⟩ <;> rw [hs']
  · refine ⟨?_, fun _ _ _ _ hw' => ?_⟩
    · simp only [served, Worker.rest, Function.update_self, if_neg hrest]
      rw [hpast]
      rcases hskip with hc | hnw
      · exact .inr ⟨hc, hbefore.trans (List.prefix_append _ _)⟩
      · rw [hnw, if_neg Bool.false_ne_true, List.append_nil]
        exact hp.live
    · simp only [Function.update_self, Worker.dispatching.injEq, reduceCtorEq, and_false] at hw'
  · have hlive : (s.feeds i).live t = s.served t i := by
      rcases hp.live with hl | ⟨hc, _⟩
      · exact hl
      · rw [closed, hopen] at hc
        cases hc
    refine ⟨.inl ?_, fun _ _ _ _ _ => ?_⟩ <;>
      simp only [served, Worker.rest, Function.update_self, if_pos List.mem_cons_self, hat, hlive]
  · refine ⟨.inl ?_, fun _ _ _ _ hw' => ?_⟩
    · have hwants := hs.push roster e es i rest hw
      have hlive := hp.push roster e es rest hw
      simp only [served, Worker.rest, Function.update_self, if_neg hrest, (Feed.tryPush_some hf).1]
      rw [hpast, if_pos hwants, Feed.live_tryPush hf, if_pos rfl, hlive]
    · simp only [Function.update_self, Worker.dispatching.injEq, reduceCtorEq, and_false] at hw'
  · refine hp.of_same rfl ?_ id fun _ _ _ _ hw' => ?_
    · simp only [served, hw, Worker.rest, Function.update_self]
    · simp only [Function.update_self, Worker.dispatching.injEq, reduceCtorEq, and_false] at hw'
  · have hcalm := (s.feeds i).closeStep_calm st
    refine hp.of_same ?_ ?_ ?_ fun _ _ _ _ hw' => ?_
    · simp only [Function.update_self]
      exact live_of_log_eq hcalm.log t
    · simp only [served, hw, Worker.rest, Function.update_self, hcalm.filter]
    · intro hc
      simp only [closed, Function.update_self]
      exact hcalm.closed hc
    · simp only [Function.update_self, Worker.dispatching.injEq] at hw'
      obtain ⟨_, _, _, _, hst⟩ := hw'
      cases st <;> cases hst
  · have hc := hs.count roster e es i rest hw
    refine ⟨.inr ⟨hc, ?_⟩, fun _ _ _ _ hw' => ?_⟩
    · simp only [served, Worker.rest, Function.update_self, if_neg hrest]
      rw [hpast]
      exact hbefore.trans (List.prefix_append _ _)
    · simp only [Function.update_self, Worker.dispatching.injEq, reduceCtorEq, and_false] at hw'

theorem Prefixed.idle (hp : Prefixed s t i) (hrest : (s.worker t).rest = []) (hrest' : (s'.worker t).rest = [])
    (hd : s'.dispatched t = s.dispatched t) (hf : s'.feeds i = s.feeds i) : Prefixed s' t i := by
  refine hp.of_same (by rw [hf]) ?_ (fun hc => by rw [closed, hf]; exact hc) fun _ _ _ _ hw' => ?_
  · rw [served, served, hrest, hrest', hd, hf]
  · rw [hw'] at hrest'
    cases hrest'

theorem Prefixed.step (hp : Prefixed s t i) (hs : Serving s t) (h : s.step a = some s') : Prefixed s' t i := by
  by_cases ha : a = .worker t
  · subst ha
    rcases workerStep_cases h with ⟨hw, rfl⟩ | ⟨hw, rfl⟩ | ⟨hw, rfl⟩ | ⟨e, es, hw, _, rfl⟩ |
      ⟨roster, e, es, stage, hw, rfl⟩ | ⟨roster, e, es, j, rest, stage, hw, rfl⟩
    · refine hp.idle (by rw [hw]; rfl) ?_ rfl rfl
      simp only [Function.update_self]
      split <;> rfl
    · exact hp.idle (by rw [hw]; rfl) (by simp only [Function.update_self]; rfl) rfl rfl
    · refine hp.idle (by rw [hw]; rfl) ?_ rfl rfl
      simp only [Function.update_self]
      split <;> rfl
    · exact hp.next (by rw [hw]; rfl)
    · exact hp.next (by rw [hw]; rfl)
    · by_cases hij : i = j
      · subst hij
        exact hp.dispatchTo_self hs hw
      · exact hp.dispatchTo_ne hij hw
  · exact hp.other hs h ha

end

/-! ## Whole runs -/

/-- The roster and the workers, over any run. -/
structure Sound (s : Plane) : Prop where
  reg     : Registered s
  serving : ∀ t, Serving s t

theorem sound_init (m c : Nat) (capacity : Tier → Nat) : Sound (init m c capacity) :=
  ⟨registered_init m c capacity, serving_init m c capacity⟩

theorem Sound.step (hs : Sound s) (h : s.step a = some s') : Sound s' :=
  ⟨hs.reg.step h, fun t => (hs.serving t).step hs.reg h⟩

theorem prefixed_init (m c : Nat) (capacity : Tier → Nat) (t : Tier) (i : Nat) :
    Prefixed (init m c capacity) t i := by
  refine ⟨.inl ?_, fun _ _ _ _ hw => ?_⟩
  · simp only [served, init, List.dropLast_nil, ite_self]
    rfl
  · cases t <;> cases hw

theorem served_prefix_offered (s : Plane) (t : Tier) (i : Nat) : s.served t i <+: s.offered t i := by
  rw [served, offered]
  split
  · exact ((List.dropLast_prefix _).filter _).map _
  · exact List.prefix_rfl

/-- A closed subscriber that its worker is not about to push to. -/
structure Shut (s : Plane) (t : Tier) (i : Nat) : Prop where
  joined : (s.phase i).joined = true
  closed : s.closed i
  noPush : ∀ roster e es rest, s.worker t ≠ .dispatching roster e es (i :: rest) .push

/-- A shut subscriber stays shut and gets nothing more: a worker goes on to push only to a subscriber it saw open. -/
theorem Shut.step {t : Tier} (hs : Shut s t i) (h : s.step a = some s') :
    Shut s' t i ∧ (s'.feeds i).live t = (s.feeds i).live t := by
  have hi : s.handler i = .absent → ∃ t, a = .worker t := fun ha => absurd ha (ne_absent_of_joined hs.joined)
  refine ⟨⟨step_joined h hs.joined, (step_feed_keeps h hi).2 hs.closed, fun roster e es rest hw => ?_⟩, ?_⟩
  · by_cases ha : a = .worker t
    · subst ha
      rcases workerStep_cases h with ⟨_, rfl⟩ | ⟨_, rfl⟩ | ⟨_, rfl⟩ | ⟨e', es', _, _, rfl⟩ |
        ⟨roster', e', es', stage, _, rfl⟩ | ⟨roster', e', es', j, rest', stage, hw₀, rfl⟩
      · simp only [Function.update_self] at hw
        split at hw <;> cases hw
      · simp only [Function.update_self, reduceCtorEq] at hw
      · simp only [Function.update_self] at hw
        split at hw <;> cases hw
      · simp only [next, Function.update_self, Worker.dispatching.injEq, reduceCtorEq, and_false] at hw
      · cases es' <;> simp only [next, Function.update_self, Worker.dispatching.injEq, reduceCtorEq, and_false] at hw
      · rcases s.dispatchTo_cases t roster' e' es' j rest' stage with ⟨_, _, hs'⟩ | ⟨_, hopen, _, hs'⟩ | ⟨_, f, _, hs'⟩ |
          ⟨_, _, hs'⟩ | ⟨st, _, hs'⟩ | ⟨_, hs'⟩ <;> rw [hs'] at hw <;>
          simp only [Function.update_self, Worker.dispatching.injEq, reduceCtorEq, and_false] at hw
        · obtain ⟨_, _, _, hij, _⟩ := hw
          cases hij
          have hc := hs.closed
          rw [Plane.closed, hopen] at hc
          cases hc
        · obtain ⟨_, _, _, _, hst⟩ := hw
          cases st <;> cases hst
    · rw [(step_worker_ne h ha).1] at hw
      exact hs.noPush roster e es rest hw
  · rcases step_live h hi with hl | ⟨roster, e, es, rest, _, hw, _⟩
    · exact hl
    · exact absurd hw (hs.noPush roster e es rest)

/-- A served entry that is missing means a shut subscriber. -/
theorem Prefixed.shut {t : Tier} (hp : Prefixed s t i) (hs : Serving s t) (hmiss : (s.feeds i).live t ≠ s.served t i) :
    Shut s t i := by
  refine ⟨?_, ?_, fun roster e es rest hw => hmiss (hp.push roster e es rest hw)⟩
  · cases hj : (s.phase i).joined with
    | true => rfl
    | false =>
      have hnil : s.served t i = [] := hs.offers_eq_nil hj _ _
      rcases hp.live with hl | ⟨_, hl⟩
      · exact absurd hl hmiss
      · rw [hnil] at hl hmiss
        exact absurd (List.prefix_nil.1 hl) hmiss
  · rcases hp.live with hl | ⟨hc, _⟩
    · exact absurd hl hmiss
    · exact hc

/-- **The live entries of a tier in a subscriber's queue are a prefix of the matching entries dispatched with a
snapshot that holds it**, at every point of every run; and once the worker is past an entry it did not enqueue, it
never enqueues another. -/
theorem live_prefix_of_offered (m c : Nat) (capacity : Tier → Nat) (as bs : List PlaneAct) (s s' : Plane)
    (hrun : Run.exec step as (init m c capacity) = some s) (hrest : Run.exec step bs s = some s') (t : Tier) (i : Nat) :
    (s.feeds i).live t <+: s.offered t i ∧
    ((s.feeds i).live t ≠ s.served t i → (s'.feeds i).live t = (s.feeds i).live t) := by
  have hinv : Sound s ∧ Prefixed s t i :=
    Run.exec_inv (I := fun x => Sound x ∧ Prefixed x t i)
      (fun _ _ _ hs h => ⟨hs.1.step h, hs.2.step (hs.1.serving t) h⟩) as _ s
      ⟨sound_init m c capacity, prefixed_init m c capacity t i⟩ hrun
  obtain ⟨hs, hp⟩ := hinv
  refine ⟨?_, fun hmiss => ?_⟩
  · rcases hp.live with hl | ⟨_, hl⟩
    · rw [hl]
      exact served_prefix_offered s t i
    · exact hl.trans (served_prefix_offered s t i)
  · have hshut : Shut s' t i ∧ (s'.feeds i).live t = (s.feeds i).live t :=
      Run.exec_inv (I := fun x => Shut x t i ∧ (x.feeds i).live t = (s.feeds i).live t)
        (fun _ _ _ hx h => ⟨(hx.1.step h).1, (hx.1.step h).2.trans hx.2⟩) bs s s'
        ⟨hp.shut (hs.serving t) hmiss, rfl⟩ hrest
    exact hshut.2

/-- A subscriber with room for one entry, three entries of tier 1, and the worker of the tier. -/
def fullQueueRun : List PlaneAct :=
  [.addSubscriber 7 ⟨[], [], [], []⟩ 1, .alloc 0 .critical, .build 0 (some [1]), .push 0, .alloc 1 .critical,
    .build 1 (some [2]), .push 1, .alloc 2 .critical, .build 2 (some [3]), .push 2] ++
  List.replicate 13 (.worker .critical)

theorem live_prefix_of_offered_fullQueueRun :
    (Run.exec step fullQueueRun (init 0 0 (fun _ => 4))).map (fun s =>
        (((s.feeds 7).live .critical).map (·.seq), (s.offered .critical 7).map (·.seq))) = some ([1], [1, 2, 3]) ∧
    ∀ s s' bs, Run.exec step fullQueueRun (init 0 0 (fun _ => 4)) = some s → Run.exec step bs s = some s' →
      (s.feeds 7).live .critical <+: s.offered .critical 7 ∧
      ((s.feeds 7).live .critical ≠ s.served .critical 7 →
        (s'.feeds 7).live .critical = (s.feeds 7).live .critical) :=
  ⟨by decide +kernel, fun s s' bs h h' =>
    live_prefix_of_offered 0 0 (fun _ => 4) fullQueueRun bs s s' h h' .critical 7⟩

end Plane
end Events
end Osw
