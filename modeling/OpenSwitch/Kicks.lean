import OpenSwitch.GapFree
/-!
# Kicks — what the kick counter counts (`broadcaster.cc`)

`Dispatch` adds one to the queue-full counter after each kick it makes.  A kick that finds another reason recorded is
counted all the same, and a replay that overflows, or any other thread that closes with queue full, records the reason
without counting.  In runs without these the counter is the number of subscribers kicked for a full queue, once no
worker is between its kick and its count (`kicks_exact`).
-/
namespace Osw
namespace Events

/-- How many more entries a queue takes. -/
def SendQueue.room (q : SendQueue) : Nat := if q.closed then 0 else q.capacity - q.q.length

/-- A kick whose reason is recorded and that is not counted yet. -/
def Worker.uncounted : Worker → Nat
  | .dispatching _ _ _ (_ :: _) (.kick .flag)  => 1
  | .dispatching _ _ _ (_ :: _) (.kick .queue) => 1
  | .dispatching _ _ _ (_ :: _) .count         => 1
  | _ => 0

namespace Feed

theorem tryPush_kickReason {f f' : Feed} {o : Origin} {t : Tier} {e : RingEntry} (h : f.tryPush o t e = some f') :
    f'.sub.kickReason = f.sub.kickReason := by
  unfold tryPush at h
  split at h
  · cases h
  · obtain ⟨q, _, rfl⟩ := Option.map_eq_some_iff.1 h
    rfl

theorem tryPush_of_room {f : Feed} {t : Tier} {e : RingEntry} (o : Origin) (hw : f.sub.filter.wants t e = true)
    (hroom : 0 < f.sub.queue.room) :
    ∃ f', f.tryPush o t e = some f' ∧ f'.sub.filter = f.sub.filter ∧ f'.sub.queue.room = f.sub.queue.room - 1 := by
  obtain ⟨b, hb⟩ : ∃ b, e.envelopeBytes = some b := by
    cases hb : e.envelopeBytes with
    | none => rw [SubscriberFilter.wants, hb] at hw; cases hw
    | some b => exact ⟨b, rfl⟩
  have hopen : f.sub.queue.closed = false := by
    cases hc : f.sub.queue.closed with
    | false => rfl
    | true => simp [SendQueue.room, hc] at hroom
  have hlt : f.sub.queue.q.length < f.sub.queue.capacity := by
    simp only [SendQueue.room, hopen, Bool.false_eq_true, if_false] at hroom
    omega
  have hpush : f.sub.queue.tryPush b = some { f.sub.queue with q := f.sub.queue.q ++ [b] } := by
    simp [SendQueue.tryPush, hopen, Nat.not_le.2 hlt]
  have hsome : f.tryPush o t e = some { f with
      sub := { f.sub with queue := { f.sub.queue with q := f.sub.queue.q ++ [b] } }
      log := f.log ++ [⟨o, t, e⟩] } := by
    rw [tryPush, hb]
    simp only [hpush, Option.map_some]
  refine ⟨_, hsome, rfl, ?_⟩
  simp only [SendQueue.room, hopen, List.length_append, List.length_singleton, Bool.false_eq_true, if_false]
  omega

end Feed

/-- **A replay that fits the queue records no reason.** -/
theorem replayEntries_kickReason (t : Tier) : ∀ (es : List RingEntry) (f : Feed),
    (es.filter (f.sub.filter.wants t)).length ≤ f.sub.queue.room →
    (replayEntries t es f).2.sub.kickReason = f.sub.kickReason
  | [], _, _ => rfl
  | e :: es, f, h => by
    unfold replayEntries
    split
    · rename_i hw
      rw [List.filter_cons_of_pos hw, List.length_cons] at h
      obtain ⟨f', hf', hfilter, hroom⟩ := Feed.tryPush_of_room .replay hw (by omega)
      rw [hf']
      simp only
      rw [replayEntries_kickReason t es f' (by rw [hfilter]; omega), Feed.tryPush_kickReason hf']
    · rename_i hw
      rw [List.filter_cons_of_neg hw] at h
      exact replayEntries_kickReason t es f h

namespace Plane

variable {s s' : Plane}

/-- The reason recorded for subscriber `i`. -/
def reason (s : Plane) (i : Nat) : KickReason := (s.feeds i).sub.kickReason

/-- The reason a step is about to store, and for whom. -/
def storing (s : Plane) : PlaneAct → Option (Nat × KickReason)
  | .worker t =>
    match s.worker t with
    | .dispatching _ _ _ (i :: _) (.kick (.reason r)) => some (i, r)
    | _ => none
  | .handler i _ =>
    match s.handler i with
    | .cancelling (.reason r) => some (i, r)
    | _ => none
  | .closer n =>
    match s.closer n with
    | some (i, .reason r) => some (i, r)
    | _ => none
  | .stop =>
    match s.stopper with
    | .kicking (i :: _) (.reason r) => some (i, r)
    | _ => none
  | _ => none

/-- A worker kicks only a subscriber for which no reason is recorded, and nobody else records queue full as the first
reason. -/
def storesOnce (s : Plane) (a : PlaneAct) : Bool :=
  match s.storing a with
  | none => true
  | some (i, r) =>
    match a with
    | .worker _ => decide (s.reason i = .none)
    | _         => decide (r ≠ .queueFull) || decide (s.reason i ≠ .none)

/-- What a replay has to push fits the subscriber's queue. -/
def replayFits (s : Plane) : PlaneAct → Bool
  | .handler i _ =>
    match s.handler i with
    | .replaying sinceSeq _ (t :: _) =>
      match s.ringOf t with
      | none   => true
      | some r => decide (((r.snapshotFromSeq sinceSeq).entries.filter ((s.feeds i).sub.filter.wants t)).length
          ≤ (s.feeds i).sub.queue.room)
    | _ => true
  | _ => true

/-- Each subscriber is recorded as full by one worker's kick, if at all. -/
def kicksOnce (s : Plane) (a : PlaneAct) : Bool := s.storesOnce a && s.replayFits a

/-! ## What a step does to a reason -/

inductive ReasonMove (s s' : Plane) (a : PlaneAct) (i : Nat) : Prop
  | same (h : s'.reason i = s.reason i)
  | stored (r : KickReason) (ha : s.storing a = some (i, r))
      (h : s'.reason i = if s.reason i = .none then r else s.reason i)
  | made (hp : s.phase i = .outside) (h : s'.reason i = .none)
  | replayed (c : Client) (sinceSeq : Nat) (tiers : List Tier) (t : Tier) (todo : List Tier) (r : Ring)
      (ha : a = .handler i c) (hh : s.handler i = .replaying sinceSeq tiers (t :: todo)) (hr : s.ringOf t = some r)
      (h : s'.reason i = (replayTier r t sinceSeq (s.feeds i)).2.sub.kickReason)

variable {a : PlaneAct} {i j : Nat}

theorem ReasonMove.of_feeds (h : s'.feeds = s.feeds) : ReasonMove s s' a i := .same (by rw [reason, reason, h])

theorem ReasonMove.of_update {f : Feed} (h : s'.feeds = Function.update s.feeds j f)
    (hf : f.sub.kickReason = s.reason j) : ReasonMove s s' a i := by
  refine .same ?_
  rw [reason, h]
  by_cases hij : i = j
  · subst hij
    rw [Function.update_self, hf]
  · rw [Function.update_of_ne hij]
    rfl

/-- One store of `RequestClose`. -/
theorem ReasonMove.of_close {st : CloseStage} (h : s'.feeds = Function.update s.feeds j ((s.feeds j).closeStep st))
    (ha : ∀ r, st = .reason r → s.storing a = some (j, r)) : ReasonMove s s' a i := by
  cases st with
  | reason r =>
    by_cases hij : i = j
    · subst hij
      refine .stored r (ha r rfl) ?_
      rw [reason, h, Function.update_self]
      rfl
    · refine .same ?_
      rw [reason, h, Function.update_of_ne hij]
      rfl
  | flag => exact .of_update h rfl
  | queue => exact .of_update h rfl

theorem handlerStep_reason {c : Client} (h : s.handlerStep j c = some s') (i : Nat) :
    ReasonMove s s' (.handler j c) i := by
  have hst : ∀ st r, s.handler j = .cancelling st → st = .reason r → s.storing (.handler j c) = some (j, r) := by
    rintro st r hh rfl
    simp only [storing, hh]
  cases turn_of_handlerStep h with
  | replay sinceSeq tiers t todo r hh hr =>
    by_cases hij : i = j
    · subst hij
      exact .replayed c sinceSeq tiers t todo r rfl hh hr (by simp only [reason, Function.update_self])
    · exact .same (by simp only [reason, Function.update_of_ne hij])
  | take | wrote => exact .of_update rfl rfl
  | cancel st _ hh => exact .of_close rfl (fun r => hst st r hh)
  | cancelled st hh => exact .of_close rfl (fun r => hst st r hh)
  | _ => exact .of_feeds rfl

theorem workerStep_reason {t : Tier} (h : s.workerStep t = some s') (i : Nat) : ReasonMove s s' (.worker t) i := by
  rcases workerStep_cases h with ⟨_, rfl⟩ | ⟨_, rfl⟩ | ⟨_, rfl⟩ | ⟨e, es, _, _, rfl⟩ | ⟨roster, e, es, stage, _, rfl⟩ |
    ⟨roster, e, es, j, rest, stage, hw, rfl⟩
  · exact .of_feeds rfl
  · exact .of_feeds rfl
  · exact .of_feeds rfl
  · exact .of_feeds rfl
  · cases es <;> exact .of_feeds rfl
  · rcases s.dispatchTo_cases t roster e es j rest stage with ⟨_, _, hd⟩ | ⟨_, _, _, hd⟩ | ⟨_, f, hp, hd⟩ | ⟨_, _, hd⟩ |
      ⟨st, hst, hd⟩ | ⟨_, hd⟩ <;> rw [hd]
    · exact .of_feeds rfl
    · exact .of_feeds rfl
    · exact .of_update rfl (Feed.tryPush_kickReason hp)
    · exact .of_feeds rfl
    · refine .of_close rfl fun r hr => ?_
      subst hst hr
      simp only [storing, hw]
    · exact .of_feeds rfl

theorem stopStep_reason (h : s.stopStep = some s') (i : Nat) : ReasonMove s s' .stop i := by
  cases stopStep_move h with
  | kicks hst =>
    refine .of_close rfl ?_
    rintro r rfl
    simp only [storing, hst]
  | asks | closes | joins | snapshots | ends => exact .of_feeds rfl

theorem step_reason (h : s.step a = some s') (i : Nat) : ReasonMove s s' a i := by
  cases a with
  | alloc n t => exact .of_feeds (alloc_subscribers h).1.feeds
  | build n bytes => exact .of_feeds (build_subscribers h).1.feeds
  | push n =>
    obtain ⟨_, _, _, hs, _⟩ := push_cases h
    exact .of_feeds hs.feeds
  | count n => exact .of_feeds (count_subscribers h).1.feeds
  | worker t => exact workerStep_reason h i
  | subscribe j req =>
    obtain ⟨habs, ⟨st, rfl⟩ | ⟨filter, c, tiers, rfl⟩⟩ := subscribe_cases h
    · exact .of_feeds rfl
    · by_cases hij : i = j
      · subst hij
        exact .made (by rw [phase, habs]; rfl) (by simp only [reason, Function.update_self]; rfl)
      · exact .same (by simp only [reason, Function.update_of_ne hij])
  | addSubscriber j filter c =>
    obtain ⟨habs, -, rfl⟩ := addSubscriber_cases h
    by_cases hij : i = j
    · subst hij
      exact .made (by rw [phase, habs]; rfl) (by simp only [reason, Function.update_self]; rfl)
    · exact .same (by simp only [reason, Function.update_of_ne hij])
  | handler j c => exact handlerStep_reason h i
  | requestClose n j r =>
    simp only [step, requestClose] at h
    split at h <;> cases h
    exact .of_feeds rfl
  | closer n =>
    simp only [step, closerStep] at h
    split at h
    · cases h
    · rename_i j st hc
      cases h
      refine .of_close rfl ?_
      rintro r rfl
      simp only [storing, hc]
  | stop => exact stopStep_reason h i

theorem step_outside (h : s.step a = some s') (hp : s'.phase i = .outside) : s.phase i = .outside := by
  obtain ⟨j, hmove, hne⟩ := step_reg h
  by_cases hij : i = j
  · subst hij
    cases hmove with
    | stay hp' => rwa [hp'] at hp
    | _ => simp_all
  · rwa [phase, hne i hij] at hp

/-! ## Kicks and counts -/

/-- Kicks that are recorded and not counted. -/
def uncounted (s : Plane) : Nat :=
  (s.worker .unspecified).uncounted + (s.worker .critical).uncounted + (s.worker .state).uncounted +
    (s.worker .ephemeral).uncounted

theorem uncounted_update {t : Tier} {w : Worker} (h : s'.worker = Function.update s.worker t w) :
    s'.uncounted + (s.worker t).uncounted = s.uncounted + w.uncounted := by
  unfold uncounted
  rw [h]
  cases t <;> simp [Function.update] <;> omega

theorem next_worker (s : Plane) (t : Tier) (roster : List Nat) (es : List RingEntry) :
    ∃ w, (s.next t roster es).worker = Function.update s.worker t w ∧ w.uncounted = 0 := by
  cases es with
  | nil => exact ⟨_, rfl, rfl⟩
  | cons e es => exact ⟨_, rfl, by cases (if e.envelopeBytes = none then [] else roster) <;> rfl⟩

/-- A worker's step keeps the sum of what is counted and what is to be counted, but for the store of a reason. -/
theorem workerStep_account {t : Tier} (h : s.workerStep t = some s') :
    s'.kicks + s'.uncounted = s.kicks + s.uncounted + (if (s.storing (.worker t)).isSome then 1 else 0) := by
  -- the worker moves from one stage to another without counting
  have move : ∀ w, s'.worker = Function.update s.worker t w → s'.kicks = s.kicks →
      w.uncounted = (s.worker t).uncounted + (if (s.storing (.worker t)).isSome then 1 else 0) →
      s'.kicks + s'.uncounted = s.kicks + s.uncounted + (if (s.storing (.worker t)).isSome then 1 else 0) := by
    intro w hw hk hu
    have := uncounted_update hw
    omega
  rcases workerStep_cases h with ⟨hw, rfl⟩ | ⟨hw, rfl⟩ | ⟨hw, rfl⟩ | ⟨e, es, hw, _, rfl⟩ | ⟨roster, e, es, stage, hw, rfl⟩ |
    ⟨roster, e, es, i, rest, stage, hw, rfl⟩
  · exact move _ rfl rfl (by simp only [storing, hw]; split <;> rfl)
  · exact move _ rfl rfl (by simp only [storing, hw]; rfl)
  · exact move _ rfl rfl (by simp only [storing, hw]; split <;> rfl)
  · obtain ⟨w, hw', hu⟩ := s.next_worker t s.roster (e :: es)
    exact move w hw' rfl (by simp only [storing, hw, hu]; rfl)
  · obtain ⟨w, hw', hu⟩ := s.next_worker t roster es
    exact move w hw' (by cases es <;> rfl) (by simp only [storing, hw, hu]; rfl)
  · rcases s.dispatchTo_cases t roster e es i rest stage with ⟨rfl, _, hd⟩ | ⟨rfl, _, _, hd⟩ | ⟨rfl, f, _, hd⟩ |
      ⟨rfl, _, hd⟩ | ⟨st, rfl, hd⟩ | ⟨rfl, hd⟩ <;> rw [hd] at move ⊢
    · exact move _ rfl rfl (by simp only [storing, hw]; cases rest <;> rfl)
    · exact move _ rfl rfl (by simp only [storing, hw]; rfl)
    · exact move _ rfl rfl (by simp only [storing, hw]; cases rest <;> rfl)
    · exact move _ rfl rfl (by simp only [storing, hw]; rfl)
    · exact move _ rfl rfl (by cases st <;> simp only [storing, hw, CloseStage.next] <;> rfl)
    · -- the count itself
      have hsum := @uncounted_update s
        { s with kicks := s.kicks + 1, worker := Function.update s.worker t (.dispatching roster e es rest .check) } t _ rfl
      have hbefore : (s.worker t).uncounted = 1 := by rw [hw]; rfl
      have hafter : (Worker.dispatching roster e es rest .check).uncounted = 0 := by cases rest <;> rfl
      have hnone : s.storing (.worker t) = none := by simp only [storing, hw]
      rw [hbefore, hafter] at hsum
      simp only [hnone, Option.isSome_none, Bool.false_eq_true, if_false] at hsum ⊢
      omega

theorem step_kicks (h : s.step a = some s') (ha : ∀ t, a ≠ .worker t) : s'.kicks = s.kicks := by
  cases a with
  | alloc n t =>
    simp only [step, alloc] at h
    split at h <;> cases h
    rfl
  | build n bytes =>
    simp only [step, build] at h
    split at h
    · split at h <;> cases h <;> rfl
    · cases h
  | push n =>
    simp only [step, push] at h
    split at h <;> cases h
    rfl
  | count n =>
    simp only [step, count] at h
    split at h <;> cases h <;> rfl
  | worker t => exact absurd rfl (ha t)
  | subscribe j req => obtain ⟨-, ⟨st, rfl⟩ | ⟨filter, c, tiers, rfl⟩⟩ := subscribe_cases h <;> rfl
  | addSubscriber j filter c => obtain ⟨-, -, rfl⟩ := addSubscriber_cases h; rfl
  | handler j c => obtain ⟨_, _, _, _, _, rfl⟩ := handlerStep_onlyCall h; rfl
  | requestClose n j r =>
    simp only [step, requestClose] at h
    split at h <;> cases h
    rfl
  | closer n =>
    simp only [step, closerStep] at h
    split at h <;> cases h
    rfl
  | stop => obtain ⟨_, _, _, _, rfl, _, _⟩ := stopStep_frame h; rfl

/-- A worker kicks with queue full only. -/
def KicksQueueFull (s : Plane) : Prop :=
  ∀ t roster e es rest r, s.worker t = .dispatching roster e es rest (.kick (.reason r)) → r = .queueFull

theorem KicksQueueFull.step (hs : KicksQueueFull s) (h : s.step a = some s') : KicksQueueFull s' := by
  intro t roster e es rest r hw
  by_cases ha : a = .worker t
  · subst ha
    rcases workerStep_cases h with ⟨_, rfl⟩ | ⟨_, rfl⟩ | ⟨_, rfl⟩ | ⟨e', es', _, _, rfl⟩ |
      ⟨roster', e', es', stage, _, rfl⟩ | ⟨roster', e', es', i, rest', stage, _, rfl⟩
    · simp only [Function.update_self] at hw
      split at hw <;> cases hw
    · simp only [Function.update_self] at hw
      cases hw
    · simp only [Function.update_self] at hw
      split at hw <;> cases hw
    · simp only [next, Function.update_self] at hw
      cases hw
    · cases es' <;> simp only [next, Function.update_self] at hw <;> cases hw
    · rcases s.dispatchTo_cases t roster' e' es' i rest' stage with ⟨_, _, hd⟩ | ⟨_, _, _, hd⟩ | ⟨_, f, _, hd⟩ |
        ⟨_, _, hd⟩ | ⟨st, _, hd⟩ | ⟨_, hd⟩ <;> rw [hd] at hw <;> simp only [Function.update_self] at hw
      · cases hw
      · cases hw
      · cases hw
      · cases hw
        rfl
      · cases st <;> cases hw
      · cases hw
  · rw [(step_worker_ne h ha).1] at hw
    exact hs t roster e es rest r hw

/-- The counter is the number of the subscribers whose recorded reason is queue full. -/
def KicksExact (s : Plane) : Prop :=
  ∃ ks : List Nat, ks.Nodup ∧ (∀ i, i ∈ ks ↔ s.reason i = .queueFull) ∧ s.kicks = ks.length

structure KicksAccounted (s : Plane) : Prop where
  queueFull : KicksQueueFull s
  unmade    : ∀ i, s.phase i = .outside → s.reason i ≠ .queueFull
  listed    : ∃ ks : List Nat, ks.Nodup ∧ (∀ i, i ∈ ks ↔ s.reason i = .queueFull) ∧ ks.length = s.kicks + s.uncounted

theorem kicksAccounted_init (m c : Nat) (capacity : Tier → Nat) : KicksAccounted (init m c capacity) := by
  refine ⟨fun t _ _ _ _ _ hw => ?_, fun _ _ => nofun, [], .nil, fun i => ⟨nofun, nofun⟩, rfl⟩
  cases t <;> cases hw

/-- A guarded step that is no kick of a worker leaves alone who is recorded as full. -/
theorem reason_iff_of_guard (h : s.step a = some s') (hg : s.kicksOnce a = true) (hu : s.phase i = .outside →
    s.reason i ≠ .queueFull) (hnot : ∀ t r, a = .worker t → s.storing a ≠ some (i, r)) :
    s'.reason i = .queueFull ↔ s.reason i = .queueFull := by
  rw [kicksOnce, Bool.and_eq_true] at hg
  cases step_reason h i with
  | same h' => rw [h']
  | stored r ha h' =>
    have hguard := hg.1
    rw [storesOnce, ha] at hguard
    have hother : r ≠ .queueFull ∨ s.reason i ≠ .none := by
      cases a with
      | worker t => exact absurd ha (hnot t r rfl)
      | _ => simpa only [Bool.or_eq_true, decide_eq_true_eq] using hguard
    rw [h']
    split
    · rename_i hnone
      rw [hnone]
      exact ⟨fun hr => absurd hnone (hother.resolve_left (fun hne => hne hr)), fun hr => by cases hr⟩
    · exact Iff.rfl
  | made hp h' =>
    rw [h']
    exact ⟨fun hr => (by cases hr), fun hr => absurd hr (hu hp)⟩
  | replayed c sinceSeq tiers t todo r ha hh hr h' =>
    subst ha
    have hfit := hg.2
    simp only [replayFits, hh, hr, decide_eq_true_eq] at hfit
    rw [h', replayTier]
    split
    · rw [replayEntries_kickReason t _ _ hfit]
      rfl
    · -- a resume point out of the window is recorded as such
      simp only [Feed.requestClose, Subscriber.requestClose, Subscriber.closeStep]
      split
      · rename_i hnone
        rw [reason, hnone]
        simp
      · exact Iff.rfl

/-- A worker that stores queue full kicks a subscriber that is not listed yet. -/
theorem KicksAccounted.kick {t : Tier} {r : KickReason} (hs : KicksAccounted s) (hsound : Sound s)
    (hg : s.kicksOnce (.worker t) = true) (h : s.step (.worker t) = some s')
    (hst : s.storing (.worker t) = some (i, r)) : KicksAccounted s' := by
  obtain ⟨ks, hnd, hks, hlen⟩ := hs.listed
  have hnone : s.reason i = .none := by
    have hguard := hg
    rw [kicksOnce, Bool.and_eq_true, storesOnce, hst] at hguard
    exact of_decide_eq_true hguard.1
  obtain ⟨roster, e, es, rest, hw⟩ : ∃ roster e es rest,
      s.worker t = .dispatching roster e es (i :: rest) (.kick (.reason r)) := by
    simp only [storing] at hst
    split at hst <;> cases hst
    exact ⟨_, _, _, _, ‹_›⟩
  obtain rfl := hs.queueFull t _ _ _ _ r hw
  have hjoined := (hsound.serving t).joined_of_rest hw List.mem_cons_self
  have hfull : s'.reason i = .queueFull := by
    cases step_reason h i with
    | same h' =>
      -- the store goes to `i`
      simp only [step, workerStep, hw, dispatchTo] at h
      cases h
      simp only [reason, Function.update_self, Feed.closeStep, Subscriber.closeStep]
      exact if_pos hnone
    | stored r' ha h' =>
      rw [hst] at ha
      cases ha
      rw [h', if_pos hnone]
    | made hp _ => rw [hp] at hjoined; cases hjoined
    | replayed _ _ _ _ _ _ ha => cases ha
  have hother : ∀ j, j ≠ i → (s'.reason j = .queueFull ↔ s.reason j = .queueFull) := fun j hj =>
    reason_iff_of_guard h hg (hs.unmade j) (fun t' r' _ hst' => by rw [hst] at hst'; cases hst'; exact hj rfl)
  have hacc := workerStep_account h
  rw [hst, Option.isSome_some, if_pos rfl] at hacc
  refine ⟨hs.queueFull.step h, fun j hp hr => ?_, i :: ks, ?_, fun j => ?_, by rw [List.length_cons]; omega⟩
  · by_cases hj : j = i
    · subst hj
      rw [step_outside h hp] at hjoined
      cases hjoined
    · exact hs.unmade j (step_outside h hp) ((hother j hj).1 hr)
  · refine List.nodup_cons.2 ⟨fun hi => ?_, hnd⟩
    rw [(hks i).1 hi] at hnone
    cases hnone
  · by_cases hj : j = i
    · subst hj
      exact ⟨fun _ => hfull, fun _ => List.mem_cons_self⟩
    · rw [List.mem_cons, hother j hj, ← hks j]
      exact ⟨fun hm => hm.resolve_left hj, .inr⟩

theorem KicksAccounted.noKick (hs : KicksAccounted s) (hg : s.kicksOnce a = true) (h : s.step a = some s')
    (hno : ∀ t i r, a = .worker t → s.storing a ≠ some (i, r)) : KicksAccounted s' := by
  obtain ⟨ks, hnd, hks, hlen⟩ := hs.listed
  have hsame : ∀ j, s'.reason j = .queueFull ↔ s.reason j = .queueFull := fun j =>
    reason_iff_of_guard h hg (hs.unmade j) (fun t r => hno t j r)
  have hacc : s'.kicks + s'.uncounted = s.kicks + s.uncounted := by
    by_cases ha : ∃ t, a = .worker t
    · obtain ⟨t, rfl⟩ := ha
      have hacc := workerStep_account h
      have hstn : s.storing (.worker t) = none := by
        cases hst : s.storing (.worker t) with
        | none => rfl
        | some x => exact absurd hst (hno t x.1 x.2 rfl)
      rwa [hstn] at hacc
    · have hw : ∀ t, a ≠ .worker t := fun t hat => ha ⟨t, hat⟩
      rw [step_kicks h hw]
      simp only [uncounted, (step_worker_ne h (hw _)).1]
  refine ⟨hs.queueFull.step h, fun j hp hr => hs.unmade j (step_outside h hp) ((hsame j).1 hr), ks, hnd,
    fun j => ?_, by omega⟩
  rw [hks j, hsame j]

theorem KicksAccounted.step (hs : KicksAccounted s) (hsound : Sound s) (hg : s.kicksOnce a = true) (h : s.step a = some s') :
    KicksAccounted s' := by
  by_cases hkick : ∃ t i r, a = .worker t ∧ s.storing a = some (i, r)
  · obtain ⟨t, i, r, rfl, hst⟩ := hkick
    exact hs.kick hsound hg h hst
  · exact hs.noKick hg h (fun t i r ha hst => hkick ⟨t, i, r, ha, hst⟩)

/-- **The kick counter is exact**: in every run in which a worker kicks only subscribers without a recorded reason,
nobody else records queue full, and every replay fits its queue, the counter is the number of subscribers whose
recorded reason is queue full, once no worker is between its kick and its count. -/
theorem kicks_exact (m c : Nat) (capacity : Tier → Nat) (as : List PlaneAct) (s : Plane)
    (hrun : Run.exec step as (init m c capacity) = some s)
    (honce : Run.along step kicksOnce as (init m c capacity) = true)
    (hrest : ∀ t, (s.worker t).uncounted = 0) : KicksExact s := by
  have hinv : Sound s ∧ KicksAccounted s :=
    Run.exec_inv_along (I := fun x => Sound x ∧ KicksAccounted x)
      (fun _ _ _ hx hg h => ⟨hx.1.step h, hx.2.step hx.1 hg h⟩) as _ s
      ⟨sound_init m c capacity, kicksAccounted_init m c capacity⟩ honce hrun
  obtain ⟨ks, hnd, hks, hlen⟩ := hinv.2.listed
  refine ⟨ks, hnd, hks, ?_⟩
  simpa only [uncounted, hrest, Nat.add_zero] using hlen.symm

theorem kicks_exact_fullQueueRun :
    (Run.exec step fullQueueRun (init 0 0 (fun _ => 4))).map (fun s => (s.kicks, s.reason 7)) = some (1, .queueFull) ∧
    ∀ s, Run.exec step fullQueueRun (init 0 0 (fun _ => 4)) = some s → KicksExact s := by
  refine ⟨by decide +kernel, fun s hs => ?_⟩
  have hm : (Run.exec step fullQueueRun (init 0 0 (fun _ => 4))).map (fun s =>
      decide ((s.worker .unspecified).uncounted = 0 ∧ (s.worker .critical).uncounted = 0 ∧
        (s.worker .state).uncounted = 0 ∧ (s.worker .ephemeral).uncounted = 0)) = some true := by
    decide +kernel
  rw [hs, Option.map_some, Option.some.injEq, decide_eq_true_eq] at hm
  exact kicks_exact 0 0 (fun _ => 4) fullQueueRun s hs (by decide +kernel)
    (fun t => by cases t <;> simp only [hm])

/-- A subscriber with room for one entry, one entry of tier 1 that fills it, and one each of tier 1 and tier 2 that do
not fit: both workers pass the check before either kicks. -/
def twoKicksRun : List PlaneAct :=
  [.addSubscriber 7 ⟨[], [], [], []⟩ 1, .alloc 0 .critical, .build 0 (some [1]), .push 0, .alloc 1 .critical,
    .build 1 (some [2]), .push 1, .alloc 2 .state, .build 2 (some [3]), .push 2] ++
  List.replicate 7 (.worker .critical) ++ List.replicate 5 (.worker .state) ++
  List.replicate 6 (.worker .critical) ++ List.replicate 5 (.worker .state)

/-- Two entries of tier 1 and a client that resumes after an earlier one with a queue for one. -/
def overflowRun : List PlaneAct :=
  [.alloc 0 .critical, .build 0 (some [1]), .push 0, .alloc 1 .critical, .build 1 (some [2]), .push 1,
    .alloc 2 .critical, .build 2 (some [3]), .push 2, .subscribe 7 ⟨[], [], [], [], 1⟩] ++
  List.replicate 4 (.handler 7 .ok)

/-- One subscriber counted twice, and one not counted. -/
theorem kicks_miscounted :
    (Run.exec step twoKicksRun (init 0 0 (fun _ => 4))).map (fun s =>
        (s.kicks, s.reason 7, s.roster, (s.worker .critical).uncounted, (s.worker .state).uncounted))
      = some (2, .queueFull, [7], 0, 0) ∧
    (Run.exec step overflowRun (init 0 1 (fun _ => 4))).map (fun s => (s.kicks, s.reason 7, s.roster))
      = some (0, .queueFull, []) ∧
    ∀ s, Run.exec step overflowRun (init 0 1 (fun _ => 4)) = some s → ¬ KicksExact s := by
  have hmap : (Run.exec step overflowRun (init 0 1 (fun _ => 4))).map (fun s => (s.kicks, s.reason 7, s.roster))
      = some (0, .queueFull, []) := by decide +kernel
  refine ⟨by decide +kernel, hmap, fun s hs => ?_⟩
  rw [hs, Option.map_some, Option.some.injEq, Prod.mk.injEq, Prod.mk.injEq] at hmap
  rintro ⟨ks, -, hks, hlen⟩
  have hmem := (hks 7).2 hmap.2.1
  rw [hmap.1] at hlen
  rw [List.length_eq_zero_iff.1 hlen.symm] at hmem
  cases hmem

end Plane
end Events
end Osw
