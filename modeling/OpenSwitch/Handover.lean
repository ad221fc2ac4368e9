import OpenSwitch.GapFree
import OpenSwitch.SeqOrder
/-!
# Handover — from the replay to the live tail

A registration that was accepted found, in the ring of each tier it asked for, nothing after its resume point gone.
`AddSubscriberAtomic` holds `roster_mu_` from before that look into the ring until the subscriber is in the roster, and
a worker needs the mutex to take the snapshot of a batch: so an entry after the resume point is in the queue, in the
ring, in a batch without a snapshot, or in a batch whose snapshot holds the subscriber (`OnItsWay`), unless an
overflowing push evicted it or the subscriber was closed.
-/
namespace Osw
namespace Events

/-- A worker has the entry in its hands and will offer it to `i`, as far as its snapshot is taken. -/
def Worker.owes (i : Nat) (e : RingEntry) : Worker → Prop
  | .popped batch => e ∈ batch
  | .dispatching roster c es rest _ => i ∈ roster ∧ (e ∈ es ∨ e = c ∧ i ∈ rest)
  | _ => False

/-- The entries a worker has in its hands: popped and not yet fully dispatched. -/
def Worker.held : Worker → List RingEntry
  | .popped batch => batch
  | .dispatching _ c es _ _ => c :: es
  | _ => []

theorem Worker.mem_held_of_owes {w : Worker} {i : Nat} {e : RingEntry} (h : w.owes i e) : e ∈ w.held := by
  cases w with
  | popped batch => exact h
  | dispatching roster c es rest stage =>
    rcases h.2 with he | ⟨rfl, _⟩
    · exact List.mem_cons_of_mem _ he
    · exact List.mem_cons_self
  | _ => cases h

namespace Plane

variable {s s' : Plane} {a : PlaneAct} {t : Tier} {i j sinceSeq : Nat} {e : RingEntry}

/-! ## The lanes of a run -/

/-- The entries of each tier enter their ring in increasing contiguous seq order. -/
def inOrder (s : Plane) : PlaneAct → Bool
  | .push n =>
    match s.calls.lookup n with
    | some (.built t e) =>
      match (s.lanes t).pushed.getLast? with
      | some last => decide (e.seq = last.seq + 1)
      | none => true
    | _ => true
  | _ => true

/-- What an in-order run keeps of a lane. -/
structure LaneOk (s : Plane) (t : Tier) : Prop where
  kept    : (s.lanes t).Kept
  inOrder : (s.lanes t).InOrder
  spaced  : (s.lanes t).Spaced

theorem laneOk_init (m c : Nat) (capacity : Tier → Nat) (t : Tier) : LaneOk (init m c capacity) t :=
  ⟨Lane.kept_make _, List.isChain_nil, Lane.spaced_make _⟩

theorem LaneOk.step (hl : LaneOk s t) (hg : s.inOrder a = true) (h : s.step a = some s') : LaneOk s' t := by
  rcases step_lanes h t with he | ⟨n, e, rfl, hc, he⟩ | ⟨_, _, he⟩ | ⟨_, he⟩
  · exact ⟨he ▸ hl.kept, he ▸ hl.inOrder, he ▸ hl.spaced⟩
  · refine ⟨he ▸ hl.kept.push e, he ▸ hl.inOrder.push (fun last hlast => ?_), he ▸ hl.spaced.push e⟩
    simp only [Plane.inOrder, hc, Option.mem_def.1 hlast, decide_eq_true_eq] at hg
    exact hg
  · exact ⟨he ▸ hl.kept.popBatch 64, he ▸ hl.inOrder, he ▸ hl.spaced.popBatch 64⟩
  · exact ⟨he ▸ hl.kept.close, he ▸ hl.inOrder, he ▸ hl.spaced⟩

/-- There is no ring, and so no event, without a tier. -/
structure Untiered (s : Plane) : Prop where
  holds  : ∀ n, s.holds .unspecified n = none
  pushed : (s.lanes .unspecified).pushed = []

theorem untiered_init (m c : Nat) (capacity : Tier → Nat) : Untiered (init m c capacity) := ⟨fun _ => rfl, rfl⟩

theorem Untiered.step (hu : Untiered s) (h : s.step a = some s') : Untiered s' := by
  refine ⟨fun n => ?_, ?_⟩
  · cases hq : s'.holds .unspecified n with
    | none => rfl
    | some q =>
      rcases step_holds h hq with ⟨hq, _⟩ | ⟨rfl, _⟩
      · rw [hu.holds] at hq
        cases hq
      · simp [Plane.step, alloc] at h
  · rcases step_lanes h .unspecified with he | ⟨n, e, rfl, hc, _⟩ | ⟨_, _, he⟩ | ⟨_, he⟩
    · rw [he, hu.pushed]
    · have := hu.holds n
      rw [holds_of_built hc] at this
      cases this
    · rw [he]
      exact hu.pushed
    · rw [he]
      exact hu.pushed

/-! ## An entry after the resume point -/

/-- The entry is in the queue of `i` or still on its way there, unless `i` is closed or the ring lost it. -/
def OnItsWay (s : Plane) (t : Tier) (i : Nat) (e : RingEntry) : Prop :=
  (s.feeds i).got t e ∨ s.closed i ∨ e ∈ (s.lanes t).evicted ∨ e ∈ (s.lanes t).ring.q ∨ (s.worker t).owes i e

theorem step_got (h : s.step a = some s') (hi : s.handler i ≠ .absent) (hg : (s.feeds i).got t e) :
    (s'.feeds i).got t e := by
  obtain ⟨o, ho⟩ := hg
  rcases step_feed h i with hc | ⟨habs, _⟩ | ⟨sinceSeq, _, t', _, r, _, _, hf⟩ | ⟨t', _, e', _, _, _, _, hp⟩
  · exact ⟨o, by rw [hc.log]; exact ho⟩
  · exact absurd habs hi
  · obtain ⟨_, ⟨ds, hl, _⟩, _⟩ := replayTier_spec r t' sinceSeq (s.feeds i)
    exact ⟨o, by rw [hf, hl]; exact List.mem_append_left _ ho⟩
  · exact ⟨o, by rw [(Feed.tryPush_some hp).2.2.2]; exact List.mem_append_left _ ho⟩

theorem step_evicted (h : s.step a = some s') (he : e ∈ (s.lanes t).evicted) : e ∈ (s'.lanes t).evicted := by
  rcases step_lanes h t with hl | ⟨n, x, _, _, hl⟩ | ⟨_, _, hl⟩ | ⟨_, hl⟩ <;> rw [hl]
  · exact he
  · rw [Lane.evicted_push]
    exact List.mem_append_left _ he
  · rw [Lane.evicted_popBatch]
    exact he
  · exact he

theorem step_held (h : s.step a = some s') (he : e ∈ (s.lanes t).ring.q) :
    e ∈ (s'.lanes t).evicted ∨ e ∈ (s'.lanes t).ring.q ∨ (s'.worker t).owes i e := by
  rcases step_lanes h t with hl | ⟨n, x, _, _, hl⟩ | ⟨rfl, hw, hl⟩ | ⟨_, hl⟩
  · exact .inr (.inl (hl ▸ he))
  · have hmem : e ∈ (s.lanes t).ring.evictee.toList ++ ((s.lanes t).push x).ring.q := by
      rw [show ((s.lanes t).push x).ring = (s.lanes t).ring.push x from rfl, Lane.evictee_append_push]
      exact List.mem_append_left _ he
    rw [hl, Lane.evicted_push]
    rcases List.mem_append.1 hmem with hm | hm
    · exact .inl (List.mem_append_right _ hm)
    · exact .inr (.inl hm)
  · rcases workerStep_cases h with ⟨hw', _⟩ | ⟨_, rfl⟩ | ⟨hw', _⟩ | ⟨_, _, hw', _⟩ | ⟨_, _, _, _, hw', _⟩ |
      ⟨_, _, _, _, _, _, hw', _⟩
    · rw [hw] at hw'; cases hw'
    · rw [← List.take_append_drop 64 (s.lanes t).ring.q] at he
      rcases List.mem_append.1 he with he | he
      · refine .inr (.inr ?_)
        simp only [Function.update_self]
        exact he
      · refine .inr (.inl ?_)
        simp only [Function.update_self]
        exact he
    · rw [hw] at hw'; cases hw'
    · rw [hw] at hw'; cases hw'
    · rw [hw] at hw'; cases hw'
    · rw [hw] at hw'; cases hw'
  · exact .inr (.inl (hl ▸ he))

/-- A worker that turns to the next entry with a snapshot that holds `i` still owes `i` what is in its batch. -/
theorem next_owes {roster : List Nat} {es : List RingEntry} (hw : (s.feeds i).sub.filter.wants t e = true)
    (hi : i ∈ roster) (he : e ∈ es) : ((s.next t roster es).worker t).owes i e := by
  cases es with
  | nil => cases he
  | cons c es =>
    simp only [next, Function.update_self]
    refine ⟨hi, ?_⟩
    rcases List.mem_cons.1 he with rfl | he
    · have hb : e.envelopeBytes ≠ none := fun hb => by
        rw [SubscriberFilter.wants, hb] at hw
        cases hw
      rw [if_neg hb]
      exact .inr ⟨rfl, hi⟩
    · exact .inl he

/-- What a worker owes a subscriber that is in the roster, or closed, it delivers or still owes. -/
theorem workerStep_owes (hs : Serving s t) (h : s.step (.worker t) = some s')
    (hw : (s.feeds i).sub.filter.wants t e = true) (hi : s.rosterMu = none → i ∈ s.roster ∨ s.closed i)
    (ho : (s.worker t).owes i e) : (s'.feeds i).got t e ∨ s'.closed i ∨ (s'.worker t).owes i e := by
  rcases workerStep_cases h with ⟨hw', _⟩ | ⟨hw', _⟩ | ⟨hw', _⟩ | ⟨c, es, hw', hmu, rfl⟩ | ⟨roster, c, es, stage, hw', rfl⟩ |
    ⟨roster, c, es, j, rest, stage, hw', rfl⟩ <;> rw [hw'] at ho
  · cases ho
  · cases ho
  · cases ho
  · rcases hi hmu with hi | hc
    · exact .inr (.inr (next_owes hw hi ho))
    · exact .inr (.inl hc)
  · rcases ho.2 with he | ⟨_, hnil⟩
    · exact .inr (.inr (next_owes hw ho.1 he))
    · cases hnil
  · obtain ⟨hroster, ho⟩ := ho
    have later : ∀ {x : Plane} {rest' : List Nat} {stage' : Stage},
        x.worker t = .dispatching roster c es rest' stage' → e ∈ es ∨ e = c ∧ i ∈ rest' → (x.worker t).owes i e :=
      fun hx hm => by rw [hx]; exact ⟨hroster, hm⟩
    by_cases hij : i = j
    · subst hij
      -- the subscriber is `i`: an entry of `es` stays owed, and `c` itself is pushed, or `i` ends up closed
      rcases ho with he | ⟨rfl, _⟩
      · obtain ⟨_, _, _, rest', stage', hx⟩ := s.dispatchTo_sameBut t roster c es i rest stage
        exact .inr (.inr (later hx (.inl he)))
      · rcases s.dispatchTo_cases t roster e es i rest stage with ⟨_, hskip, hs'⟩ | ⟨_, _, _, hs'⟩ | ⟨_, f, hf, hs'⟩ |
          ⟨_, _, hs'⟩ | ⟨st, _, hs'⟩ | ⟨rfl, hs'⟩ <;> rw [hs']
        · rcases hskip with hc | hnw
          · exact .inr (.inl hc)
          · rw [hw] at hnw
            cases hnw
        · exact .inr (.inr (later (Function.update_self ..) (.inr ⟨rfl, List.mem_cons_self⟩)))
        · refine .inl ⟨.live, ?_⟩
          simp only [Function.update_self, (Feed.tryPush_some hf).2.2.2]
          exact List.mem_append_right _ (List.mem_singleton.2 rfl)
        · exact .inr (.inr (later (Function.update_self ..) (.inr ⟨rfl, List.mem_cons_self⟩)))
        · exact .inr (.inr (later (Function.update_self ..) (.inr ⟨rfl, List.mem_cons_self⟩)))
        · exact .inr (.inl (hs.count roster e es i rest hw'))
    · -- the subscriber is another: `i` keeps its place
      have hrest : e ∈ es ∨ e = c ∧ i ∈ rest := by
        rcases ho with he | ⟨rfl, hm⟩
        · exact .inl he
        · exact .inr ⟨rfl, (List.mem_cons.1 hm).resolve_left hij⟩
      have hrest' : e ∈ es ∨ e = c ∧ i ∈ j :: rest := ho
      rcases s.dispatchTo_cases t roster c es j rest stage with ⟨_, _, hs'⟩ | ⟨_, _, _, hs'⟩ | ⟨_, f, _, hs'⟩ |
        ⟨_, _, hs'⟩ | ⟨st, _, hs'⟩ | ⟨_, hs'⟩ <;> rw [hs']
      · exact .inr (.inr (later (Function.update_self ..) hrest))
      · exact .inr (.inr (later (Function.update_self ..) hrest'))
      · exact .inr (.inr (later (Function.update_self ..) hrest))
      · exact .inr (.inr (later (Function.update_self ..) hrest'))
      · exact .inr (.inr (later (Function.update_self ..) hrest'))
      · exact .inr (.inr (later (Function.update_self ..) hrest))

/-- **An entry on its way stays on its way**, for a subscriber that exists and that a worker finds in the roster, or
closed, whenever the mutex is free. -/
theorem OnItsWay.step (ho : OnItsWay s t i e) (hs : Serving s t) (h : s.step a = some s')
    (hw : (s.feeds i).sub.filter.wants t e = true) (hi : s.handler i ≠ .absent)
    (hmem : s.rosterMu = none → i ∈ s.roster ∨ s.closed i) : OnItsWay s' t i e := by
  rcases ho with hg | hc | hv | hq | ho
  · exact .inl (step_got h hi hg)
  · exact .inr (.inl ((step_feed_keeps h (fun ha => absurd ha hi)).2 hc))
  · exact .inr (.inr (.inl (step_evicted h hv)))
  · exact .inr (.inr (step_held h hq))
  · by_cases ha : a = .worker t
    · subst ha
      rcases workerStep_owes hs h hw hmem ho with hg | hc | ho
      · exact .inl hg
      · exact .inr (.inl hc)
      · exact .inr (.inr (.inr (.inr ho)))
    · rw [← (step_worker_ne h ha).1] at ho
      exact .inr (.inr (.inr (.inr ho)))

/-! ## Registrations that have replayed a tier -/

/-- The registration of `i`, with a resume point, has replayed tier `t` and was not refused. -/
def Resumed (s : Plane) (i sinceSeq : Nat) (t : Tier) : Prop :=
  0 < sinceSeq ∧
  ((∃ tiers todo, s.handler i = .replaying sinceSeq tiers todo ∧ t ∈ tiers ∧ t ∉ todo) ∨
   (∃ tiers, s.handler i = .joining sinceSeq tiers true ∧ t ∈ tiers) ∨
   (∃ tiers, s.accepted i = some (sinceSeq, tiers) ∧ t ∈ tiers))

theorem Resumed.of_same (hr : Resumed s' i sinceSeq t) (hh : s'.handler i = s.handler i)
    (ha : s'.accepted i = s.accepted i) : Resumed s i sinceSeq t := by
  rw [Resumed, hh, ha] at hr
  exact hr

/-- A call that neither replays nor joins resumes nothing but what it was accepted with. -/
theorem Resumed.of_accepted (hr : Resumed s' i sinceSeq t) (hp : s'.phase i ≠ .holding)
    (ha : s'.accepted i = s.accepted i) : Resumed s i sinceSeq t := by
  obtain ⟨hpos, ⟨tiers, todo, hh, _⟩ | ⟨tiers, hh, _⟩ | hacc⟩ := hr
  · exact absurd (by rw [phase, hh]; rfl) hp
  · exact absurd (by rw [phase, hh]; rfl) hp
  · rw [ha] at hacc
    exact ⟨hpos, .inr (.inr hacc)⟩

theorem Resumed.of_start {hd : Handler} (hr : Resumed s' i sinceSeq t)
    (hh : s'.handler = Function.update s.handler j hd) (hp : hd.phase ≠ .holding) (ha : s'.accepted = s.accepted) :
    Resumed s i sinceSeq t := by
  by_cases hij : i = j
  · subst hij
    exact hr.of_accepted (by rw [phase_update s i hd hh]; exact hp) (by rw [ha])
  · exact hr.of_same (by rw [hh, Function.update_of_ne hij]) (by rw [ha])

theorem Resumed.joined (hreg : Registered s) (hr : Resumed s i sinceSeq t) :
    s.handler i ≠ .absent ∧ (s.rosterMu = none → i ∈ s.roster ∨ s.closed i) := by
  obtain ⟨_, ⟨tiers, todo, hh, _⟩ | ⟨tiers, hh, _⟩ | ⟨tiers, hacc, _⟩⟩ := hr
  · refine ⟨by simp [hh], fun hmu => ?_⟩
    rw [(hreg.mu i).2 (.inl (by rw [phase, hh]; rfl))] at hmu
    cases hmu
  · refine ⟨by simp [hh], fun hmu => ?_⟩
    rw [(hreg.mu i).2 (.inl (by rw [phase, hh]; rfl))] at hmu
    cases hmu
  · rcases hreg.accepted i _ hacc with hp | ⟨hp, hc⟩
    · exact ⟨ne_absent_of_phase (by simp [hp]), fun _ => .inl ((hreg.member i).2 (.inl hp))⟩
    · refine ⟨ne_absent_of_phase ?_, fun _ => .inr hc⟩
      rcases hp with hp | hp <;> simp [hp]

/-- The tier at hand of a replay in progress, and what its look into the ring found. -/
def Replays (s : Plane) (i sinceSeq : Nat) (t : Tier) : Prop :=
  (∃ tiers todo, s.handler i = .replaying sinceSeq tiers (t :: todo)) ∧
  ∀ r, s.ringOf t = some r → (r.snapshotFromSeq sinceSeq).foundInWindow = true

theorem RegMove.accepted_ne (hmove : RegMove s s' j) (hij : i ≠ j) : s'.accepted i = s.accepted i := by
  cases hmove with
  | enter sinceSeq tiers _ _ _ _ ha => rw [ha, Function.update_of_ne hij]
  | _ => simp only [*]

theorem Resumed.of_later (hr : Resumed s' i sinceSeq t) (hmove : RegMove s s' i)
    (hp : s.phase i = .streaming ∨ s.phase i = .leaving) : Resumed s i sinceSeq t := by
  have hne : ∀ p, s.phase i = p → p = .streaming ∨ p = .leaving := fun p h => h ▸ hp
  cases hmove with
  | stay hp' _ _ ha =>
    refine hr.of_accepted ?_ (by rw [ha])
    rcases hp with hp | hp <;> simp [hp', hp]
  | reject h => rcases hne _ h with h | h <;> cases h
  | lock h => rcases hne _ h with h | h <;> cases h
  | refuse h => rcases hne _ h with h | h <;> cases h
  | add h => rcases hne _ h with h | h <;> cases h
  | enter sinceSeq tiers hh => rcases hne .holding (by rw [phase, hh]; rfl) with h | h <;> cases h
  | withdraw h => rcases hne _ h with h | h <;> cases h
  | leave _ hp' _ _ _ ha => exact hr.of_accepted (by simp [hp']) (by rw [ha])
  | remove _ hp' _ _ _ ha => exact hr.of_accepted (by simp [hp']) (by rw [ha])

/-- One tier further, a replay has replayed what it had before, or the tier at hand. -/
theorem resumed_further {since : Nat} {tiers todo : List Tier} {t' : Tier}
    (hh : s.handler j = .replaying since tiers (t' :: todo))
    (hfound : ∀ r, s.ringOf t' = some r → (r.snapshotFromSeq since).foundInWindow = true) {tiers₁ todo₁ : List Tier}
    (hsame : Handler.replaying since tiers todo = .replaying sinceSeq tiers₁ todo₁) (ht : t ∈ tiers₁) (hnt : t ∉ todo₁)
    (hpos : 0 < sinceSeq) : Resumed s j sinceSeq t ∨ Replays s j sinceSeq t := by
  cases hsame
  by_cases htt : t = t'
  · subst htt
    exact .inr ⟨⟨tiers, todo, hh⟩, hfound⟩
  · exact .inl ⟨hpos, .inl ⟨tiers, t' :: todo, hh, ht, by simp [htt, hnt]⟩⟩

theorem handlerStep_resumed {c : Client} (h : s.handlerStep j c = some s') (hr : Resumed s' j sinceSeq t) :
    Resumed s j sinceSeq t ∨ Replays s j sinceSeq t := by
  have hmove := handlerStep_reg h
  cases turn_of_handlerStep h with
  | lock since tiers hh =>
    obtain ⟨hpos, ⟨tiers', todo, hh', ht, hnt⟩ | ⟨tiers', hh', _⟩ | hacc⟩ := hr
    · simp only [Function.update_self] at hh'
      split at hh' <;> cases hh'
      exact absurd ht hnt
    · simp only [Function.update_self] at hh'
      split at hh'
      · cases hh'
      · rename_i hz
        cases hh'
        exact absurd hpos hz
    · exact .inl ⟨hpos, .inr (.inr hacc)⟩
  | replayed since tiers hh =>
    obtain ⟨hpos, ⟨tiers', todo, hh', _⟩ | ⟨tiers', hh', ht⟩ | hacc⟩ := hr
    · simp only [Function.update_self, reduceCtorEq] at hh'
    · simp only [Function.update_self, Handler.joining.injEq, and_true] at hh'
      obtain ⟨rfl, rfl⟩ := hh'
      exact .inl ⟨hpos, .inl ⟨tiers, [], hh, ht, List.not_mem_nil⟩⟩
    · exact .inl ⟨hpos, .inr (.inr hacc)⟩
  | skip since tiers t' todo hh hnone =>
    obtain ⟨hpos, ⟨tiers', todo', hh', ht, hnt⟩ | ⟨tiers', hh', _⟩ | hacc⟩ := hr
    · simp only [Function.update_self] at hh'
      exact resumed_further hh (by simp [hnone]) hh' ht hnt hpos
    · simp only [Function.update_self, reduceCtorEq] at hh'
    · exact .inl ⟨hpos, .inr (.inr hacc)⟩
  | replay since tiers t' todo r hh hring =>
    obtain ⟨hpos, ⟨tiers', todo', hh', ht, hnt⟩ | ⟨tiers', hh', _⟩ | hacc⟩ := hr
    · simp only [Function.update_self] at hh'
      split at hh'
      · rename_i hok
        refine resumed_further hh (fun r' hr' => ?_) hh' ht hnt hpos
        rw [hring] at hr'
        cases hr'
        exact replayTier_found hok
      · cases hh'
    · simp only [Function.update_self] at hh'
      split at hh' <;> cases hh'
    · exact .inl ⟨hpos, .inr (.inr hacc)⟩
  | join since tiers replayOk hh =>
    have hp : (s.join j since tiers replayOk).phase j ≠ .holding := by
      rw [phase_update s j _ rfl]
      cases replayOk <;> simp [Handler.phase]
    cases replayOk with
    | false => exact .inl (hr.of_accepted hp rfl)
    | true =>
      obtain ⟨hpos, ⟨tiers', todo, hh', _⟩ | ⟨tiers', hh', _⟩ | ⟨tiers', hacc, ht⟩⟩ := hr
      · exact absurd (by rw [phase, hh']; rfl) hp
      · exact absurd (by rw [phase, hh']; rfl) hp
      · simp only [Plane.join, if_true, Function.update_self, Option.some.injEq, Prod.mk.injEq] at hacc
        obtain ⟨rfl, rfl⟩ := hacc
        exact .inl ⟨hpos, .inr (.inl ⟨tiers, hh, ht⟩)⟩
  | poll hh | idle hh | take _ _ hh | leave hh | again hh | wrote _ hh | unparsed _ hh | lost _ hh | cancel _ _ hh
  | cancelled _ hh => exact .inl (hr.of_later hmove (.inl (by rw [phase, hh]; rfl)))
  | remove _ _ hh => exact .inl (hr.of_later hmove (.inr (by rw [phase, hh]; rfl)))

theorem step_resumed (h : s.step a = some s') (hr : Resumed s' i sinceSeq t) :
    Resumed s i sinceSeq t ∨ s'.lanes = s.lanes ∧ Replays s i sinceSeq t := by
  cases a with
  | subscribe j req =>
    obtain ⟨-, ⟨st, rfl⟩ | ⟨filter, c, tiers, rfl⟩⟩ := subscribe_cases h
    · exact .inl (hr.of_start rfl nofun rfl)
    · exact .inl (hr.of_start rfl nofun rfl)
  | addSubscriber j filter c =>
    obtain ⟨-, -, rfl⟩ := addSubscriber_cases h
    exact .inl (hr.of_start rfl nofun rfl)
  | handler j c =>
    by_cases hij : i = j
    · subst hij
      rcases handlerStep_resumed h hr with hr | hr
      · exact .inl hr
      · exact .inr ⟨(handlerStep_events h).lanes, hr⟩
    · refine .inl (hr.of_same (handlerStep_ne h hij).1 ?_)
      exact (handlerStep_reg h).accepted_ne hij
  | _ =>
    have hs := step_sameRegistrations h rfl
    exact .inl (hr.of_same (by rw [hs.handler]) (by rw [hs.accepted]))

/-- Every entry after the resume point of every registration that replayed its tier is on its way. -/
def HandedOver (s : Plane) : Prop :=
  ∀ i sinceSeq t, Resumed s i sinceSeq t → ∀ e ∈ (s.lanes t).pushed, sinceSeq < e.seq →
    (s.feeds i).sub.filter.wants t e = true → OnItsWay s t i e

theorem HandedOver.step (ho : HandedOver s) (hs : Sound s) (hu : Untiered s) (hl : ∀ t, LaneOk s t)
    (h : s.step a = some s') : HandedOver s' := by
  intro i sinceSeq t hr e he hseq hw
  rcases step_resumed h hr with hr₀ | ⟨hlanes, ⟨tiers, todo, hh⟩, hfound⟩
  · obtain ⟨hi, hmem⟩ := hr₀.joined hs.reg
    rw [(step_feed_keeps h (fun ha => absurd ha hi)).1] at hw
    -- an entry of the lane was pushed before, or is the one this step pushes
    have hpushed : e ∈ (s.lanes t).pushed ∨ e ∈ (s'.lanes t).ring.q := by
      rcases step_lanes h t with hle | ⟨n, x, _, _, hle⟩ | ⟨_, _, hle⟩ | ⟨_, hle⟩ <;> rw [hle] at he ⊢
      · exact .inl he
      · rcases List.mem_append.1 he with he | he
        · exact .inl he
        · cases List.mem_singleton.1 he
          exact .inr (List.mem_append_right _ (List.mem_singleton.2 rfl))
      · exact .inl he
      · exact .inl he
    rcases hpushed with he | hq
    · exact (ho i sinceSeq t hr₀ e he hseq hw).step (hs.serving t) h hw hi hmem
    · exact .inr (.inr (.inr (.inl hq)))
  · rw [hlanes] at he
    by_cases ht : t = .unspecified
    · rw [ht, hu.pushed] at he
      cases he
    · -- nothing after the resume point had left the ring when the replay looked into it
      have hf := hfound _ (if_neg ht)
      refine .inr (.inr (.inr (.inl ?_)))
      rw [hlanes]
      rw [(hl t).kept.conserved] at he
      rcases List.mem_append.1 he with hg | hq
      · obtain ⟨d, hd, rfl⟩ := List.mem_map.1 hg
        have := (hl t).kept.gone_le_of_found (hl t).inOrder hr.1 hf hd
        omega
      · exact hq

/-- The invariants of an in-order run. -/
structure InOrderSound (s : Plane) : Prop where
  sound    : Sound s
  untiered : Untiered s
  lanes    : ∀ t, LaneOk s t

theorem inOrderSound_init (m c : Nat) (capacity : Tier → Nat) : InOrderSound (init m c capacity) :=
  ⟨sound_init m c capacity, untiered_init m c capacity, laneOk_init m c capacity⟩

theorem InOrderSound.step (hs : InOrderSound s) (hg : s.inOrder a = true) (h : s.step a = some s') : InOrderSound s' :=
  ⟨hs.sound.step h, hs.untiered.step h, fun t => (hs.lanes t).step hg h⟩

theorem handedOver_init (m c : Nat) (capacity : Tier → Nat) : HandedOver (init m c capacity) := by
  rintro i sinceSeq t ⟨_, ⟨_, _, hh, _⟩ | ⟨_, hh, _⟩ | ⟨_, hh, _⟩⟩ <;> cases hh

/-- **The hand-over has no gap**: in every run whose entries enter their rings in contiguous seq order, for every
registration accepted with a resume point and every tier it asked for, each matching entry pushed after that point that
no overflowing push evicted, and that is neither in the ring nor in the worker's hands any more, was put into the
subscriber's queue, or the subscriber is closed. -/
theorem handover_no_gap (m c : Nat) (capacity : Tier → Nat) (as : List PlaneAct) (s : Plane)
    (hrun : Run.exec step as (init m c capacity) = some s)
    (horder : Run.along step inOrder as (init m c capacity) = true)
    (i sinceSeq : Nat) (tiers : List Tier) (hacc : s.accepted i = some (sinceSeq, tiers)) (hpos : 0 < sinceSeq)
    (t : Tier) (ht : t ∈ tiers) (e : RingEntry) (he : e ∈ (s.lanes t).pushed) (hseq : sinceSeq < e.seq)
    (hwants : (s.feeds i).sub.filter.wants t e = true) (hevicted : e ∉ (s.lanes t).evicted)
    (hring : e ∉ (s.lanes t).ring.q) (hhand : e ∉ (s.worker t).held) :
    (s.feeds i).got t e ∨ s.closed i := by
  have hinv : InOrderSound s ∧ HandedOver s :=
    Run.exec_inv_along (I := fun x => InOrderSound x ∧ HandedOver x)
      (fun _ _ _ hx hg h => ⟨hx.1.step hg h, hx.2.step hx.1.sound hx.1.untiered hx.1.lanes h⟩) as _ s
      ⟨inOrderSound_init m c capacity, handedOver_init m c capacity⟩ horder hrun
  rcases hinv.2 i sinceSeq t ⟨hpos, .inr (.inr ⟨tiers, hacc, ht⟩)⟩ e he hseq hwants with hg | hc | hv | hq | ho
  · exact .inl hg
  · exact .inr hc
  · exact absurd hv hevicted
  · exact absurd hq hring
  · exact absurd (Worker.mem_held_of_owes ho) hhand

/-- Two entries of tier 1, a client that resumes after the first, a third entry, and the worker of the tier. -/
def resumeRun : List PlaneAct :=
  [.alloc 0 .critical, .build 0 (some [1]), .push 0, .alloc 1 .critical, .build 1 (some [2]), .push 1,
    .subscribe 3 ⟨[str "tier1"], [], [], [], 1⟩, .handler 3 .ok, .handler 3 .ok, .handler 3 .ok, .handler 3 .ok,
    .alloc 2 .critical, .build 2 (some [3]), .push 2] ++ List.replicate 12 (.worker .critical)

theorem handover_no_gap_resumeRun :
    (Run.exec step resumeRun (init 0 0 (fun _ => 4))).map (fun s => (s.feeds 3).log.map (fun d => (d.origin, d.entry.seq)))
      = some [(.replay, 2), (.live, 1), (.live, 2), (.live, 3)] ∧
    ∀ s, Run.exec step resumeRun (init 0 0 (fun _ => 4)) = some s →
      (s.feeds 3).got .critical ⟨3, some [3]⟩ ∨ s.closed 3 := by
  refine ⟨by decide +kernel, fun s hs => ?_⟩
  have hm : (Run.exec step resumeRun (init 0 0 (fun _ => 4))).map (fun s =>
      decide (s.accepted 3 = some (1, [.critical]) ∧ ⟨3, some [3]⟩ ∈ (s.lanes .critical).pushed ∧
        (s.feeds 3).sub.filter.wants .critical ⟨3, some [3]⟩ = true ∧ ⟨3, some [3]⟩ ∉ (s.lanes .critical).evicted ∧
        ⟨3, some [3]⟩ ∉ (s.lanes .critical).ring.q ∧ ⟨3, some [3]⟩ ∉ (s.worker .critical).held)) = some true := by
    decide +kernel
  rw [hs, Option.map_some, Option.some.injEq, decide_eq_true_eq] at hm
  obtain ⟨hacc, hpushed, hwants, hevicted, hring, hhand⟩ := hm
  exact handover_no_gap 0 0 (fun _ => 4) resumeRun s hs (by decide +kernel) 3 1 [.critical] hacc (by decide) .critical
    (by decide) ⟨3, some [3]⟩ hpushed (by decide) hwants hevicted hring hhand

end Plane
end Events
end Osw
