import OpenSwitch.Plane
/-!
# PlaneSteps — what a step of the event plane can touch

Inversion of `Plane.step`, once: which steps leave the producers, rings and workers alone (`SameEvents`), which leave
the subscribers alone (`SameSubscribers`), and what the others do to a lane, to a worker, to a feed and to the roster.
The laws of the plane are read off these.
-/
namespace Osw
namespace Events

/-- A step of a subscription or of a close request. -/
def PlaneAct.ofSubscriber : PlaneAct → Bool
  | .subscribe _ _ | .addSubscriber _ _ _ | .handler _ _ | .requestClose _ _ _ | .closer _ => true
  | _ => false

/-- A step that may move a registration. -/
def PlaneAct.registers : PlaneAct → Bool
  | .subscribe _ _ | .addSubscriber _ _ _ | .handler _ _ => true
  | _ => false

namespace Plane

variable {s s' : Plane} {c : Client} {i j n capacity : Nat} {a : PlaneAct} {t : Tier} {req : SubscribeEventsRequest}
  {filter : SubscriberFilter} {r : KickReason}

/-- Producers, rings and workers are as they were. -/
structure SameEvents (s s' : Plane) : Prop where
  lanes      : s'.lanes = s.lanes
  nextSeq    : s'.nextSeq = s.nextSeq
  calls      : s'.calls = s.calls
  worker     : s'.worker = s.worker
  dispatched : s'.dispatched = s.dispatched

/-- Roster, subscribers and registrations are as they were. -/
structure SameSubscribers (s s' : Plane) : Prop where
  roster   : s'.roster = s.roster
  rosterMu : s'.rosterMu = s.rosterMu
  feeds    : s'.feeds = s.feeds
  handler  : s'.handler = s.handler
  accepted : s'.accepted = s.accepted

/-! ## The turns of a call -/

/-- What one step of a `SubscribeEvents` call does, by where the call is. -/
inductive HandlerTurn (s : Plane) (i : Nat) (c : Client) : Plane → Prop
  | lock (sinceSeq : Nat) (tiers : List Tier) (created : s.handler i = .created sinceSeq tiers)
      (free : s.rosterMu = none) :
    HandlerTurn s i c { s with
      rosterMu := some i
      handler := Function.update s.handler i
        (if 0 < sinceSeq then .replaying sinceSeq tiers tiers else .joining sinceSeq tiers true) }
  | replayed (sinceSeq : Nat) (tiers : List Tier) (done : s.handler i = .replaying sinceSeq tiers []) :
    HandlerTurn s i c { s with handler := Function.update s.handler i (.joining sinceSeq tiers true) }
  | skip (sinceSeq : Nat) (tiers : List Tier) (t : Tier) (todo : List Tier)
      (replaying : s.handler i = .replaying sinceSeq tiers (t :: todo)) (noRing : s.ringOf t = none) :
    HandlerTurn s i c { s with handler := Function.update s.handler i (.replaying sinceSeq tiers todo) }
  | replay (sinceSeq : Nat) (tiers : List Tier) (t : Tier) (todo : List Tier) (r : Ring)
      (replaying : s.handler i = .replaying sinceSeq tiers (t :: todo)) (ring : s.ringOf t = some r) :
    HandlerTurn s i c { s with
      feeds := Function.update s.feeds i (replayTier r t sinceSeq (s.feeds i)).2
      handler := Function.update s.handler i
        (if (replayTier r t sinceSeq (s.feeds i)).1 then .replaying sinceSeq tiers todo
         else .joining sinceSeq tiers false) }
  | join (sinceSeq : Nat) (tiers : List Tier) (replayOk : Bool)
      (joining : s.handler i = .joining sinceSeq tiers replayOk) :
    HandlerTurn s i c (s.join i sinceSeq tiers replayOk)
  | poll (top : s.handler i = .top) :
    HandlerTurn s i c { s with
      handler := Function.update s.handler i
        (if c = .gone then .cancelling (.reason .clientCancelled) else .waiting) }
  | idle (waiting : s.handler i = .waiting) (empty : (s.feeds i).sub.queue.q = []) :
    HandlerTurn s i c { s with handler := Function.update s.handler i .gotNothing }
  | take (b : Bytes) (q : List Bytes) (waiting : s.handler i = .waiting) (queued : (s.feeds i).sub.queue.q = b :: q) :
    HandlerTurn s i c { s with
      feeds := Function.update s.feeds i { s.feeds i with
        sub := { (s.feeds i).sub with queue := { (s.feeds i).sub.queue with q := q } } }
      handler := Function.update s.handler i (.writing b) }
  | leave (gotNothing : s.handler i = .gotNothing) (closed : (s.feeds i).sub.isClosed = true) :
    HandlerTurn s i c (s.leave i)
  | again (gotNothing : s.handler i = .gotNothing) :
    HandlerTurn s i c { s with handler := Function.update s.handler i .top }
  | wrote (b : Bytes) (writing : s.handler i = .writing b) :
    HandlerTurn s i c { s with
      feeds := Function.update s.feeds i { s.feeds i with written := (s.feeds i).written ++ [b] }
      handler := Function.update s.handler i .top }
  | unparsed (b : Bytes) (writing : s.handler i = .writing b) (bad : c = .badBytes) :
    HandlerTurn s i c { s with handler := Function.update s.handler i .top }
  | lost (b : Bytes) (writing : s.handler i = .writing b) (gone : c = .gone) :
    HandlerTurn s i c { s with handler := Function.update s.handler i (.cancelling (.reason .clientCancelled)) }
  | cancel (st st2 : CloseStage) (cancelling : s.handler i = .cancelling st) (next : st.next = some st2) :
    HandlerTurn s i c { s with
      feeds := Function.update s.feeds i ((s.feeds i).closeStep st)
      handler := Function.update s.handler i (.cancelling st2) }
  | cancelled (st : CloseStage) (cancelling : s.handler i = .cancelling st) (last : st.next = none) :
    HandlerTurn s i c ({ s with feeds := Function.update s.feeds i ((s.feeds i).closeStep st) }.leave i)
  | remove (reason : KickReason) (detail : Bytes) (removing : s.handler i = .removing reason detail)
      (free : s.rosterMu = none) :
    HandlerTurn s i c { s with
      roster := s.roster.filter (fun j => decide (j ≠ i))
      handler := Function.update s.handler i (.returned (kickReasonToStatus reason detail)) }

/-- **Inversion of `handlerStep`.** -/
theorem turn_of_handlerStep (h : s.handlerStep i c = some s') : HandlerTurn s i c s' := by
  unfold handlerStep at h
  split at h
  · cases h
  · rename_i sinceSeq tiers hh
    split at h <;> cases h
    rename_i hm
    exact .lock sinceSeq tiers hh hm
  · rename_i sinceSeq tiers hh
    cases h
    exact .replayed sinceSeq tiers hh
  · rename_i sinceSeq tiers t todo hh
    cases h
    unfold replayStep
    split
    · rename_i hr
      exact .skip sinceSeq tiers t todo hh hr
    · rename_i r hr
      exact .replay sinceSeq tiers t todo r hh hr
  · rename_i sinceSeq tiers replayOk hh
    cases h
    exact .join sinceSeq tiers replayOk hh
  · rename_i hh
    cases h
    exact .poll hh
  · rename_i hh
    cases h
    unfold writerPop
    split
    · rename_i hq
      exact .idle hh hq
    · rename_i b q hq
      exact .take b q hh hq
  · rename_i hh
    split at h <;> cases h
    · rename_i hc
      exact .leave hh hc
    · exact .again hh
  · rename_i b hh
    split at h <;> cases h
    · exact .wrote b hh
    · exact .unparsed b hh rfl
    · exact .lost b hh rfl
  · rename_i st hh
    split at h <;> cases h
    · rename_i st2 hn
      exact .cancel st st2 hh hn
    · rename_i hn
      exact .cancelled st hh hn
  · rename_i reason detail hh
    split at h <;> cases h
    rename_i hm
    exact .remove reason detail hh hm
  · cases h

/-! ## Subscriptions and close requests leave the events alone -/

/-- Only the subscriber and the progress of call `i`, and the registrations, are not as they were. -/
def OnlyCall (i : Nat) (s s' : Plane) : Prop :=
  ∃ roster rosterMu f hd accepted, s' = { s with
    roster := roster
    rosterMu := rosterMu
    feeds := Function.update s.feeds i f
    handler := Function.update s.handler i hd
    accepted := accepted }

theorem OnlyCall.quiet (s : Plane) (i : Nat) (roster : List Nat) (rosterMu : Option Nat) (hd : Handler)
    (accepted : Nat → Option (Nat × List Tier)) :
    OnlyCall i s { s with
      roster := roster
      rosterMu := rosterMu
      handler := Function.update s.handler i hd
      accepted := accepted } :=
  ⟨roster, rosterMu, s.feeds i, hd, accepted, by rw [Function.update_eq_self]⟩

theorem handlerStep_onlyCall (h : s.handlerStep i c = some s') : OnlyCall i s s' := by
  cases turn_of_handlerStep h with
  | replay | take | wrote | cancel | cancelled => exact ⟨_, _, _, _, _, rfl⟩
  | _ => exact .quiet ..

theorem handlerStep_events (h : s.handlerStep i c = some s') : SameEvents s s' := by
  obtain ⟨_, _, _, _, _, rfl⟩ := handlerStep_onlyCall h
  exact ⟨rfl, rfl, rfl, rfl, rfl⟩

theorem handlerStep_ne (h : s.handlerStep i c = some s') (hj : j ≠ i) :
    s'.handler j = s.handler j ∧ s'.feeds j = s.feeds j := by
  obtain ⟨_, _, _, _, _, rfl⟩ := handlerStep_onlyCall h
  exact ⟨Function.update_of_ne hj .., Function.update_of_ne hj ..⟩

/-- A `SubscribeEvents` call starts: it is refused at once, or makes its subscriber. -/
theorem subscribe_cases (h : s.subscribe i req = some s') :
    s.handler i = .absent ∧
    ((∃ st, s' = { s with handler := Function.update s.handler i (.returned st) }) ∨
     (∃ filter c tiers, s' = { s with
        feeds := Function.update s.feeds i (.make filter c)
        handler := Function.update s.handler i (.created req.sinceSeq tiers) })) := by
  unfold subscribe at h
  split at h
  · cases h
  · rename_i hn
    refine ⟨Classical.byContradiction (fun hne => hn (.inl hne)), ?_⟩
    split at h
    · cases h
      exact .inl ⟨_, rfl⟩
    · split at h <;> cases h
      · exact .inl ⟨_, rfl⟩
      · exact .inr ⟨_, _, _, rfl⟩

theorem subscribe_events (h : s.subscribe i req = some s') : SameEvents s s' := by
  obtain ⟨-, ⟨st, rfl⟩ | ⟨filter, c, tiers, rfl⟩⟩ := subscribe_cases h <;> exact ⟨rfl, rfl, rfl, rfl, rfl⟩

theorem addSubscriber_cases (h : s.addSubscriber i filter capacity = some s') :
    s.handler i = .absent ∧ s.rosterMu = none ∧
    s' = { s with
      feeds := Function.update s.feeds i (.make filter capacity)
      roster := s.roster ++ [i]
      handler := Function.update s.handler i .top } := by
  unfold addSubscriber at h
  split at h <;> cases h
  rename_i hn
  exact ⟨Classical.byContradiction (fun hne => hn (.inl hne)), Classical.byContradiction (fun hne => hn (.inr hne)), rfl⟩

theorem addSubscriber_events (h : s.addSubscriber i filter capacity = some s') : SameEvents s s' := by
  obtain ⟨-, -, rfl⟩ := addSubscriber_cases h
  exact ⟨rfl, rfl, rfl, rfl, rfl⟩

theorem requestClose_events (h : s.requestClose n i r = some s') : SameEvents s s' := by
  unfold requestClose at h
  split at h <;> cases h
  exact ⟨rfl, rfl, rfl, rfl, rfl⟩

theorem closerStep_events (h : s.closerStep n = some s') : SameEvents s s' := by
  unfold closerStep at h
  split at h <;> cases h
  exact ⟨rfl, rfl, rfl, rfl, rfl⟩

theorem step_sameEvents (h : s.step a = some s') (ha : a.ofSubscriber = true) : SameEvents s s' := by
  cases a with
  | subscribe i req => exact subscribe_events h
  | addSubscriber i filter c => exact addSubscriber_events h
  | handler i c => exact handlerStep_events h
  | requestClose n i r => exact requestClose_events h
  | closer n => exact closerStep_events h
  | _ => cases ha

/-- The steps of `Stop`. -/
inductive StopMove (s : Plane) : Plane → Prop
  | asks (hst : s.stopper = .idle) :
      StopMove s { s with stopRequested := true, stopper := .closing [.critical, .state, .ephemeral] }
  | closes {t : Tier} {todo : List Tier} (hst : s.stopper = .closing (t :: todo)) :
      StopMove s { s with lanes := Function.update s.lanes t (s.lanes t).close, stopper := .closing todo }
  | joins (hst : s.stopper = .closing []) : StopMove s { s with stopper := .joining }
  | snapshots (hst : s.stopper = .joining)
      (hleft : s.worker .critical = .exited ∧ s.worker .state = .exited ∧ s.worker .ephemeral = .exited) :
      StopMove s { s with stopper := .kicking s.roster (.reason .shutdown) }
  | kicks {i : Nat} {todo : List Nat} {st : CloseStage} (hst : s.stopper = .kicking (i :: todo) st) :
      StopMove s { s with
        feeds := Function.update s.feeds i ((s.feeds i).closeStep st)
        stopper := match st.next with
          | some st' => .kicking (i :: todo) st'
          | none     => .kicking todo (.reason .shutdown) }
  | ends {st : CloseStage} (hst : s.stopper = .kicking [] st) : StopMove s { s with stopper := .done }

theorem stopStep_move (h : s.stopStep = some s') : StopMove s s' := by
  unfold stopStep at h
  split at h
  · rename_i hst
    cases h
    exact .asks hst
  · rename_i hst
    cases h
    exact .joins hst
  · rename_i hst
    cases h
    exact .closes hst
  · rename_i hst
    split at h <;> cases h
    rename_i hleft
    exact .snapshots hst ⟨hleft.1, hleft.2.1, hleft.2.2.1⟩
  · rename_i hst
    cases h
    exact .ends hst
  · rename_i hst
    cases h
    exact .kicks hst
  · cases h

/-- `Stop` closes rings and subscribers, and touches nothing else but its own progress. -/
theorem stopStep_frame (h : s.stopStep = some s') :
    ∃ lanes feeds req st, s' = { s with lanes := lanes, feeds := feeds, stopRequested := req, stopper := st } ∧
      (∀ t, lanes t = s.lanes t ∨ lanes t = (s.lanes t).close) ∧
      (feeds = s.feeds ∨ ∃ i stage, feeds = Function.update s.feeds i ((s.feeds i).closeStep stage)) := by
  cases stopStep_move h with
  | closes hst =>
    rename_i t todo
    refine ⟨_, _, _, _, rfl, fun t' => ?_, .inl rfl⟩
    by_cases ht : t' = t
    · subst ht
      exact .inr (Function.update_self ..)
    · exact .inl (Function.update_of_ne ht ..)
  | kicks hst => exact ⟨_, _, _, _, rfl, fun _ => .inl rfl, .inr ⟨_, _, rfl⟩⟩
  | asks | joins | snapshots | ends => exact ⟨_, _, _, _, rfl, fun _ => .inl rfl, .inl rfl⟩

theorem stopStep_events (h : s.stopStep = some s') :
    SameEvents { s with lanes := s'.lanes } s' ∧ ∀ t, s'.lanes t = s.lanes t ∨ s'.lanes t = (s.lanes t).close := by
  obtain ⟨_, _, _, _, rfl, hl, _⟩ := stopStep_frame h
  exact ⟨⟨rfl, rfl, rfl, rfl, rfl⟩, hl⟩

/-! ## Producers leave the subscribers and the workers alone -/

theorem alloc_subscribers (h : s.alloc n t = some s') :
    SameSubscribers s s' ∧ s'.lanes = s.lanes ∧ s'.worker = s.worker ∧ s'.dispatched = s.dispatched := by
  unfold alloc at h
  split at h <;> cases h
  exact ⟨⟨rfl, rfl, rfl, rfl, rfl⟩, rfl, rfl, rfl⟩

theorem build_subscribers {bytes : Option Bytes} (h : s.build n bytes = some s') :
    SameSubscribers s s' ∧ s'.lanes = s.lanes ∧ s'.worker = s.worker ∧ s'.dispatched = s.dispatched := by
  unfold build at h
  split at h
  · split at h <;> cases h <;> exact ⟨⟨rfl, rfl, rfl, rfl, rfl⟩, rfl, rfl, rfl⟩
  · cases h

theorem count_subscribers (h : s.count n = some s') :
    SameSubscribers s s' ∧ s'.lanes = s.lanes ∧ s'.worker = s.worker ∧ s'.dispatched = s.dispatched := by
  unfold count at h
  split at h <;> cases h <;> exact ⟨⟨rfl, rfl, rfl, rfl, rfl⟩, rfl, rfl, rfl⟩

theorem push_cases (h : s.push n = some s') :
    ∃ t e, s.calls.lookup n = some (.built t e) ∧ SameSubscribers s s' ∧ s'.worker = s.worker ∧
      s'.dispatched = s.dispatched ∧ s'.nextSeq = s.nextSeq ∧
      s'.lanes = Function.update s.lanes t ((s.lanes t).push e) ∧
      s'.calls = s.calls.insert n (.pushed t (if (s.lanes t).ring.evictee.isSome then 1 else 0)) := by
  unfold push at h
  split at h
  · rename_i t e hc
    cases h
    exact ⟨t, e, hc, ⟨rfl, rfl, rfl, rfl, rfl⟩, rfl, rfl, rfl, rfl, rfl⟩
  · cases h

/-! ## Workers -/

/-- What a worker can do: leave its loop or wait, pop a batch, give an empty one up, take the roster snapshot of a
batch, turn to the next entry, or serve a subscriber. -/
theorem workerStep_cases (h : s.workerStep t = some s') :
    (s.worker t = .top ∧
      s' = { s with worker := Function.update s.worker t (if s.stopRequested then .exited else .popping) }) ∨
    (s.worker t = .popping ∧
      s' = { s with
        lanes := Function.update s.lanes t ((s.lanes t).popBatch 64)
        worker := Function.update s.worker t (.popped ((s.lanes t).ring.q.take 64)) }) ∨
    (s.worker t = .popped [] ∧
      s' = { s with worker := Function.update s.worker t (if (s.lanes t).ring.closed then .exited else .top) }) ∨
    (∃ e es, s.worker t = .popped (e :: es) ∧ s.rosterMu = none ∧ s' = s.next t s.roster (e :: es)) ∨
    (∃ roster e es stage, s.worker t = .dispatching roster e es [] stage ∧ s' = s.next t roster es) ∨
    (∃ roster e es i rest stage, s.worker t = .dispatching roster e es (i :: rest) stage ∧
      s' = s.dispatchTo t roster e es i rest stage) := by
  unfold workerStep at h
  split at h
  · rename_i hw
    cases h
    exact .inl ⟨hw, rfl⟩
  · rename_i hw
    cases h
    exact .inr (.inl ⟨hw, rfl⟩)
  · rename_i hw
    cases h
    exact .inr (.inr (.inl ⟨hw, rfl⟩))
  · rename_i e es hw
    split at h <;> cases h
    rename_i hmu
    exact .inr (.inr (.inr (.inl ⟨e, es, hw, hmu, rfl⟩)))
  · rename_i roster e es stage hw
    cases h
    exact .inr (.inr (.inr (.inr (.inl ⟨roster, e, es, stage, hw, rfl⟩))))
  · rename_i roster e es i rest stage hw
    cases h
    exact .inr (.inr (.inr (.inr (.inr ⟨roster, e, es, i, rest, stage, hw, rfl⟩))))
  · cases h

/-- The registrations and the producers, and all of the other tiers, are as they were. -/
structure SameBut (t : Tier) (s s' : Plane) : Prop where
  roster     : s'.roster = s.roster
  rosterMu   : s'.rosterMu = s.rosterMu
  handler    : s'.handler = s.handler
  accepted   : s'.accepted = s.accepted
  calls      : s'.calls = s.calls
  nextSeq    : s'.nextSeq = s.nextSeq
  lanes      : ∀ t', t' ≠ t → s'.lanes t' = s.lanes t'
  worker     : ∀ t', t' ≠ t → s'.worker t' = s.worker t'
  dispatched : ∀ t', t' ≠ t → s'.dispatched t' = s.dispatched t'

theorem next_sameBut (s : Plane) (t : Tier) (roster : List Nat) (es : List RingEntry) :
    SameBut t s (s.next t roster es) := by
  cases es with
  | nil => exact ⟨rfl, rfl, rfl, rfl, rfl, rfl, fun _ _ => rfl, fun t' ht => by simp [next, ht], fun _ _ => rfl⟩
  | cons e es =>
    exact ⟨rfl, rfl, rfl, rfl, rfl, rfl, fun _ _ => rfl, fun t' ht => by simp [next, ht], fun t' ht => by simp [next, ht]⟩

/-- What serving a subscriber can do: pass it over, go on to push, push, find the queue full, take one store of the
kick, and count it. -/
theorem dispatchTo_cases (s : Plane) (t : Tier) (roster : List Nat) (e : RingEntry) (es : List RingEntry) (i : Nat)
    (rest : List Nat) (stage : Stage) :
    (stage = .check ∧ ((s.feeds i).sub.isClosed = true ∨ (s.feeds i).sub.filter.wants t e = false) ∧
      s.dispatchTo t roster e es i rest stage
        = { s with worker := Function.update s.worker t (.dispatching roster e es rest .check) }) ∨
    (stage = .check ∧ (s.feeds i).sub.isClosed = false ∧ (s.feeds i).sub.filter.wants t e = true ∧
      s.dispatchTo t roster e es i rest stage
        = { s with worker := Function.update s.worker t (.dispatching roster e es (i :: rest) .push) }) ∨
    (stage = .push ∧ ∃ f, (s.feeds i).tryPush .live t e = some f ∧
      s.dispatchTo t roster e es i rest stage
        = { s with
            feeds := Function.update s.feeds i f
            worker := Function.update s.worker t (.dispatching roster e es rest .check) }) ∨
    (stage = .push ∧ (s.feeds i).tryPush .live t e = none ∧
      s.dispatchTo t roster e es i rest stage
        = { s with
            worker := Function.update s.worker t
              (.dispatching roster e es (i :: rest) (.kick (.reason .queueFull))) }) ∨
    (∃ st, stage = .kick st ∧
      s.dispatchTo t roster e es i rest stage
        = { s with
            feeds := Function.update s.feeds i ((s.feeds i).closeStep st)
            worker := Function.update s.worker t
              (.dispatching roster e es (i :: rest) (match st.next with | some st' => .kick st' | none => .count)) }) ∨
    (stage = .count ∧
      s.dispatchTo t roster e es i rest stage
        = { s with
            kicks := s.kicks + 1
            worker := Function.update s.worker t (.dispatching roster e es rest .check) }) := by
  cases stage with
  | check =>
    by_cases hc : ((s.feeds i).sub.isClosed || !(s.feeds i).sub.filter.wants t e) = true
    · refine .inl ⟨rfl, ?_, by simp only [dispatchTo, if_pos hc]⟩
      simpa using hc
    · refine .inr (.inl ?_)
      have hb : (s.feeds i).sub.isClosed = false ∧ (s.feeds i).sub.filter.wants t e = true := by simpa using hc
      exact ⟨rfl, hb.1, hb.2, by simp only [dispatchTo, if_neg hc]⟩
  | push =>
    cases hp : (s.feeds i).tryPush .live t e with
    | none => exact .inr (.inr (.inr (.inl ⟨rfl, rfl, by simp only [dispatchTo, hp]⟩)))
    | some f => exact .inr (.inr (.inl ⟨rfl, f, rfl, by simp only [dispatchTo, hp]⟩))
  | kick st => exact .inr (.inr (.inr (.inr (.inl ⟨st, rfl, rfl⟩))))
  | count => exact .inr (.inr (.inr (.inr (.inr ⟨rfl, rfl⟩))))

theorem dispatchTo_sameBut (s : Plane) (t : Tier) (roster : List Nat) (e : RingEntry) (es : List RingEntry) (i : Nat)
    (rest : List Nat) (stage : Stage) :
    SameBut t s (s.dispatchTo t roster e es i rest stage) ∧
      (s.dispatchTo t roster e es i rest stage).lanes = s.lanes ∧
      (s.dispatchTo t roster e es i rest stage).dispatched = s.dispatched ∧
      ∃ rest' stage', (s.dispatchTo t roster e es i rest stage).worker t = .dispatching roster e es rest' stage' := by
  rcases s.dispatchTo_cases t roster e es i rest stage with ⟨_, _, hd⟩ | ⟨_, _, _, hd⟩ | ⟨_, f, _, hd⟩ | ⟨_, _, hd⟩ |
    ⟨st, _, hd⟩ | ⟨_, hd⟩ <;> rw [hd] <;>
    exact ⟨⟨rfl, rfl, rfl, rfl, rfl, rfl, fun _ _ => rfl, fun t' ht => by simp [ht], fun _ _ => rfl⟩, rfl, rfl,
      _, _, Function.update_self ..⟩

theorem workerStep_sameBut (h : s.workerStep t = some s') : SameBut t s s' := by
  rcases workerStep_cases h with ⟨_, rfl⟩ | ⟨_, rfl⟩ | ⟨_, rfl⟩ | ⟨e, es, _, _, rfl⟩ | ⟨roster, e, es, stage, _, rfl⟩ |
    ⟨roster, e, es, i, rest, stage, _, rfl⟩
  · exact ⟨rfl, rfl, rfl, rfl, rfl, rfl, fun _ _ => rfl, fun t' ht => by simp [ht], fun _ _ => rfl⟩
  · exact ⟨rfl, rfl, rfl, rfl, rfl, rfl, fun t' ht => by simp [ht], fun t' ht => by simp [ht], fun _ _ => rfl⟩
  · exact ⟨rfl, rfl, rfl, rfl, rfl, rfl, fun _ _ => rfl, fun t' ht => by simp [ht], fun _ _ => rfl⟩
  · exact next_sameBut ..
  · exact next_sameBut ..
  · exact (dispatchTo_sameBut ..).1

/-! ## Lanes -/

@[simp] theorem next_lanes (s : Plane) (t : Tier) (roster : List Nat) (es : List RingEntry) :
    (s.next t roster es).lanes = s.lanes := by
  cases es <;> rfl

theorem step_lanes (h : s.step a = some s') (t : Tier) :
    s'.lanes t = s.lanes t ∨
    (∃ n e, a = .push n ∧ s.calls.lookup n = some (.built t e) ∧ s'.lanes t = (s.lanes t).push e) ∨
    (a = .worker t ∧ s.worker t = .popping ∧ s'.lanes t = (s.lanes t).popBatch 64) ∨
    (a = .stop ∧ s'.lanes t = (s.lanes t).close) := by
  cases a with
  | alloc n t' => exact .inl (by rw [(alloc_subscribers h).2.1])
  | build n bytes => exact .inl (by rw [(build_subscribers h).2.1])
  | push n =>
    obtain ⟨t', e, hc, _, _, _, _, hl, _⟩ := push_cases h
    by_cases ht : t = t'
    · subst ht
      exact .inr (.inl ⟨n, e, rfl, hc, by rw [hl, Function.update_self]⟩)
    · exact .inl (by rw [hl, Function.update_of_ne ht])
  | count n => exact .inl (by rw [(count_subscribers h).2.1])
  | worker t' =>
    by_cases ht : t = t'
    · subst ht
      rcases workerStep_cases h with ⟨_, rfl⟩ | ⟨hw, rfl⟩ | ⟨_, rfl⟩ | ⟨e, es, _, _, rfl⟩ |
        ⟨roster, e, es, stage, _, rfl⟩ | ⟨roster, e, es, i, rest, stage, _, rfl⟩
      · exact .inl rfl
      · exact .inr (.inr (.inl ⟨rfl, hw, by simp only [Function.update_self]⟩))
      · exact .inl rfl
      · exact .inl (by rw [next_lanes])
      · exact .inl (by rw [next_lanes])
      · exact .inl (by rw [(dispatchTo_sameBut ..).2.1])
    · exact .inl ((workerStep_sameBut h).lanes t ht)
  | stop =>
    rcases (stopStep_events h).2 t with hl | hl
    · exact .inl hl
    · exact .inr (.inr (.inr ⟨rfl, hl⟩))
  | _ => exact .inl (by rw [(step_sameEvents h rfl).lanes])

theorem step_worker_ne (h : s.step a = some s') (ha : a ≠ .worker t) :
    s'.worker t = s.worker t ∧ s'.dispatched t = s.dispatched t := by
  cases a with
  | alloc n t' => exact ⟨by rw [(alloc_subscribers h).2.2.1], by rw [(alloc_subscribers h).2.2.2]⟩
  | build n bytes => exact ⟨by rw [(build_subscribers h).2.2.1], by rw [(build_subscribers h).2.2.2]⟩
  | push n =>
    obtain ⟨_, _, _, _, hw, hd, _⟩ := push_cases h
    exact ⟨by rw [hw], by rw [hd]⟩
  | count n => exact ⟨by rw [(count_subscribers h).2.2.1], by rw [(count_subscribers h).2.2.2]⟩
  | worker t' =>
    have ht : t ≠ t' := fun he => ha (he ▸ rfl)
    exact ⟨(workerStep_sameBut h).worker t ht, (workerStep_sameBut h).dispatched t ht⟩
  | stop => exact ⟨by rw [(stopStep_events h).1.worker], by rw [(stopStep_events h).1.dispatched]⟩
  | _ => exact ⟨by rw [(step_sameEvents h rfl).worker], by rw [(step_sameEvents h rfl).dispatched]⟩

/-! ## The progress of `Stop`, and the drop counters -/

/-- `Stop` is where it was, and nothing was counted. -/
structure SameStop (s s' : Plane) : Prop where
  stopper       : s'.stopper = s.stopper
  stopRequested : s'.stopRequested = s.stopRequested
  dropped       : s'.dropped = s.dropped

theorem workerStep_sameStop (h : s.workerStep t = some s') : SameStop s s' := by
  rcases workerStep_cases h with ⟨_, rfl⟩ | ⟨_, rfl⟩ | ⟨_, rfl⟩ | ⟨e, es, _, _, rfl⟩ | ⟨roster, e, es, stage, _, rfl⟩ |
    ⟨roster, e, es, i, rest, stage, _, rfl⟩
  · exact ⟨rfl, rfl, rfl⟩
  · exact ⟨rfl, rfl, rfl⟩
  · exact ⟨rfl, rfl, rfl⟩
  · exact ⟨rfl, rfl, rfl⟩
  · cases es <;> exact ⟨rfl, rfl, rfl⟩
  · rcases s.dispatchTo_cases t roster e es i rest stage with ⟨_, _, hd⟩ | ⟨_, _, _, hd⟩ | ⟨_, f, _, hd⟩ | ⟨_, _, hd⟩ |
      ⟨st, _, hd⟩ | ⟨_, hd⟩ <;> rw [hd] <;> exact ⟨rfl, rfl, rfl⟩

theorem handlerStep_sameStop (h : s.handlerStep i c = some s') : SameStop s s' := by
  obtain ⟨_, _, _, _, _, rfl⟩ := handlerStep_onlyCall h
  exact ⟨rfl, rfl, rfl⟩

theorem step_sameStop (h : s.step a = some s') (hstop : a ≠ .stop) (hcount : ∀ n, a ≠ .count n) : SameStop s s' := by
  cases a with
  | alloc n t =>
    simp only [step, alloc] at h
    split at h <;> cases h
    exact ⟨rfl, rfl, rfl⟩
  | build n bytes =>
    simp only [step, build] at h
    split at h
    · split at h <;> cases h <;> exact ⟨rfl, rfl, rfl⟩
    · cases h
  | push n =>
    simp only [step, push] at h
    split at h <;> cases h
    exact ⟨rfl, rfl, rfl⟩
  | count n => exact absurd rfl (hcount n)
  | worker t => exact workerStep_sameStop h
  | subscribe i req =>
    obtain ⟨-, ⟨st, rfl⟩ | ⟨filter, c, tiers, rfl⟩⟩ := subscribe_cases h <;> exact ⟨rfl, rfl, rfl⟩
  | addSubscriber i filter c =>
    obtain ⟨-, -, rfl⟩ := addSubscriber_cases h
    exact ⟨rfl, rfl, rfl⟩
  | handler i c => exact handlerStep_sameStop h
  | requestClose n i r =>
    simp only [step, requestClose] at h
    split at h <;> cases h
    exact ⟨rfl, rfl, rfl⟩
  | closer n =>
    simp only [step, closerStep] at h
    split at h <;> cases h
    exact ⟨rfl, rfl, rfl⟩
  | stop => exact absurd rfl hstop

theorem stopStep_dropped (h : s.stopStep = some s') : s'.dropped = s.dropped := by
  obtain ⟨_, _, _, _, rfl, _, _⟩ := stopStep_frame h
  rfl

/-- Only `Stop` moves `Stop`. -/
theorem step_stopper (h : s.step a = some s') (hstop : a ≠ .stop) :
    s'.stopper = s.stopper ∧ s'.stopRequested = s.stopRequested := by
  by_cases hcount : ∃ n, a = .count n
  · obtain ⟨n, rfl⟩ := hcount
    simp only [step, count] at h
    split at h <;> cases h <;> exact ⟨rfl, rfl⟩
  · have hs := step_sameStop h hstop (fun n hn => hcount ⟨n, hn⟩)
    exact ⟨hs.stopper, hs.stopRequested⟩

/-! ## Feeds -/

theorem calm_update {F : Nat → Feed} {f : Feed} (hf : (F j).Calm f) (i : Nat) :
    (F i).Calm (Function.update F j f i) := by
  by_cases hij : i = j
  · subst hij
    rwa [Function.update_self]
  · rw [Function.update_of_ne hij]
    exact Feed.Calm.refl _

/-- A registration touches its own feed only, and adds to it only while it replays. -/
theorem handlerStep_feed (h : s.handlerStep j c = some s') (i : Nat) :
    (s.feeds i).Calm (s'.feeds i) ∨
    ∃ sinceSeq tiers t todo r, s.handler i = .replaying sinceSeq tiers (t :: todo) ∧ s.ringOf t = some r ∧
      s'.feeds i = (replayTier r t sinceSeq (s.feeds i)).2 := by
  cases turn_of_handlerStep h with
  | replay sinceSeq tiers t todo r hh hr =>
    by_cases hij : i = j
    · subst hij
      exact .inr ⟨sinceSeq, tiers, t, todo, r, hh, hr, by simp only [Function.update_self]⟩
    · exact .inl (by simp only [Function.update_of_ne hij]; exact .refl _)
  | take | wrote =>
    refine .inl (calm_update ?_ i)
    exact .of_sub_eq rfl rfl rfl rfl
  | cancel | cancelled => exact .inl (calm_update (Feed.closeStep_calm _ _) i)
  | _ => exact .inl (.refl _)

/-- The registrations are as they were, and nothing entered a queue. -/
structure SameCalls (s s' : Plane) : Prop where
  roster   : s'.roster = s.roster
  rosterMu : s'.rosterMu = s.rosterMu
  handler  : s'.handler = s.handler
  accepted : s'.accepted = s.accepted
  feeds    : ∀ i, (s.feeds i).Calm (s'.feeds i)

theorem requestClose_calls (h : s.requestClose n i r = some s') : SameCalls s s' := by
  unfold requestClose at h
  split at h <;> cases h
  exact ⟨rfl, rfl, rfl, rfl, fun _ => .refl _⟩

theorem closerStep_calls (h : s.closerStep n = some s') : SameCalls s s' := by
  unfold closerStep at h
  split at h <;> cases h
  exact ⟨rfl, rfl, rfl, rfl, calm_update (Feed.closeStep_calm _ _)⟩

theorem stopStep_calls (h : s.stopStep = some s') : SameCalls s s' := by
  obtain ⟨_, _, _, _, rfl, _, rfl | ⟨j, st, rfl⟩⟩ := stopStep_frame h
  · exact ⟨rfl, rfl, rfl, rfl, fun _ => .refl _⟩
  · exact ⟨rfl, rfl, rfl, rfl, calm_update (Feed.closeStep_calm _ _)⟩

/-- The registrations are as they were. -/
structure SameRegistrations (s s' : Plane) : Prop where
  roster   : s'.roster = s.roster
  rosterMu : s'.rosterMu = s.rosterMu
  handler  : s'.handler = s.handler
  accepted : s'.accepted = s.accepted

theorem step_sameRegistrations (h : s.step a = some s') (ha : a.registers = false) : SameRegistrations s s' := by
  have sub : SameSubscribers s s' → SameRegistrations s s' := fun hs => ⟨hs.roster, hs.rosterMu, hs.handler, hs.accepted⟩
  have calls : SameCalls s s' → SameRegistrations s s' := fun hs => ⟨hs.roster, hs.rosterMu, hs.handler, hs.accepted⟩
  cases a with
  | alloc n t => exact sub (alloc_subscribers h).1
  | build n bytes => exact sub (build_subscribers h).1
  | push n =>
    obtain ⟨_, _, _, hs, _⟩ := push_cases h
    exact sub hs
  | count n => exact sub (count_subscribers h).1
  | worker t =>
    have hs := workerStep_sameBut h
    exact ⟨hs.roster, hs.rosterMu, hs.handler, hs.accepted⟩
  | requestClose n i r => exact calls (requestClose_calls h)
  | closer n => exact calls (closerStep_calls h)
  | stop => exact calls (stopStep_calls h)
  | _ => cases ha

/-- **What a step does to a feed**: nothing enters its queue, or its call makes it, or its call replays into it, or a
worker that passed the check pushes. -/
theorem step_feed (h : s.step a = some s') (i : Nat) :
    (s.feeds i).Calm (s'.feeds i) ∨
    (s.handler i = .absent ∧ (∀ t, a ≠ .worker t) ∧ ∃ filter c, s'.feeds i = .make filter c) ∨
    (∃ sinceSeq tiers t todo r, s.handler i = .replaying sinceSeq tiers (t :: todo) ∧ s.ringOf t = some r ∧
      s'.feeds i = (replayTier r t sinceSeq (s.feeds i)).2) ∨
    ∃ t roster e es rest, a = .worker t ∧ s.worker t = .dispatching roster e es (i :: rest) .push ∧
      (s.feeds i).tryPush .live t e = some (s'.feeds i) := by
  have keep : s'.feeds = s.feeds → (s.feeds i).Calm (s'.feeds i) := fun hf => by rw [hf]; exact .refl _
  cases a with
  | alloc n t => exact .inl (keep (alloc_subscribers h).1.feeds)
  | build n bytes => exact .inl (keep (build_subscribers h).1.feeds)
  | push n =>
    obtain ⟨_, _, _, hs, _⟩ := push_cases h
    exact .inl (keep hs.feeds)
  | count n => exact .inl (keep (count_subscribers h).1.feeds)
  | worker t =>
    rcases workerStep_cases h with ⟨_, rfl⟩ | ⟨_, rfl⟩ | ⟨_, rfl⟩ | ⟨e, es, _, _, rfl⟩ | ⟨roster, e, es, stage, _, rfl⟩ |
      ⟨roster, e, es, j, rest, stage, hw, rfl⟩
    · exact .inl (.refl _)
    · exact .inl (.refl _)
    · exact .inl (.refl _)
    · exact .inl (.refl _)
    · cases es <;> exact .inl (.refl _)
    · rcases s.dispatchTo_cases t roster e es j rest stage with ⟨_, _, hd⟩ | ⟨_, _, _, hd⟩ | ⟨rfl, f, hp, hd⟩ |
        ⟨_, _, hd⟩ | ⟨st, _, hd⟩ | ⟨_, hd⟩ <;> rw [hd]
      · exact .inl (.refl _)
      · exact .inl (.refl _)
      · by_cases hij : i = j
        · subst hij
          refine .inr (.inr (.inr ⟨t, roster, e, es, rest, rfl, hw, ?_⟩))
          simp only [Function.update_self, hp]
        · exact .inl (by simp only [Function.update_of_ne hij]; exact .refl _)
      · exact .inl (.refl _)
      · exact .inl (calm_update (Feed.closeStep_calm _ _) i)
      · exact .inl (.refl _)
  | subscribe j req =>
    obtain ⟨habs, ⟨st, rfl⟩ | ⟨filter, c, tiers, rfl⟩⟩ := subscribe_cases h
    · exact .inl (.refl _)
    · by_cases hij : i = j
      · subst hij
        exact .inr (.inl ⟨habs, nofun, filter, c, Function.update_self ..⟩)
      · exact .inl (by simp only [Function.update_of_ne hij]; exact .refl _)
  | addSubscriber j filter c =>
    obtain ⟨habs, -, rfl⟩ := addSubscriber_cases h
    by_cases hij : i = j
    · subst hij
      exact .inr (.inl ⟨habs, nofun, filter, c, Function.update_self ..⟩)
    · exact .inl (by simp only [Function.update_of_ne hij]; exact .refl _)
  | handler j c =>
    rcases handlerStep_feed h i with hc | hr
    · exact .inl hc
    · exact .inr (.inr (.inl hr))
  | requestClose n j r => exact .inl ((requestClose_calls h).feeds i)
  | closer n => exact .inl ((closerStep_calls h).feeds i)
  | stop => exact .inl ((stopStep_calls h).feeds i)

/-- A subscriber keeps its filter and, once closed, stays closed, in every step that does not make it. -/
theorem step_feed_keeps (h : s.step a = some s') (hi : s.handler i = .absent → ∃ t, a = .worker t) :
    (s'.feeds i).sub.filter = (s.feeds i).sub.filter ∧
    ((s.feeds i).sub.isClosed = true → (s'.feeds i).sub.isClosed = true) := by
  rcases step_feed h i with hc | ⟨habs, hne, _⟩ | ⟨sinceSeq, _, t, _, r, _, _, hf⟩ | ⟨t, _, e, _, _, _, _, hp⟩
  · exact ⟨hc.filter, hc.closed⟩
  · obtain ⟨t, ha⟩ := hi habs
    exact absurd ha (hne t)
  · have hspec := replayTier_spec r t sinceSeq (s.feeds i)
    rw [hf]
    exact ⟨hspec.1, hspec.2.2.1⟩
  · exact ⟨(Feed.tryPush_some hp).1, fun hcl => by rw [Feed.tryPush_isClosed hp]; exact hcl⟩

end Plane
end Events
end Osw
