import Mathlib.Data.List.Perm.Basic
import OpenSwitch.CallTable
import OpenSwitch.SeqOrder
/-!
# ShutdownAccounts — what `Broadcaster::Stop` leaves behind

An entry pushed to a ring is evicted, and counted by the call that pushed over it, or is popped and dispatched, or is
still held.  A worker looks at the stop flag before it looks at its ring, so it may leave with entries held, and nobody
counts those: `Stop` loses nothing unnoticed as long as every worker finds its ring empty when it leaves
(`stop_accounts`).
-/
namespace Osw
namespace Events

/-- What a call has still to add to the drop counter of a tier. -/
def Call.drops (t : Tier) : Call → Nat
  | .pushed t' d => if t' = t then d else 0
  | _ => 0

/-- `Stop` has joined the workers. -/
def Stopper.joined : Stopper → Bool
  | .kicking _ _ | .done => true
  | _ => false

namespace Plane

variable {s s' : Plane} {n : Nat} {a : PlaneAct} {t : Tier}

/-- The evictions of a tier that their calls have not counted yet. -/
def pendingDrops (s : Plane) (t : Tier) : Nat := CallTable.total (Call.drops t) s.calls

theorem alloc_drops {t' : Tier} (h : s.alloc n t' = some s') (t : Tier) : s'.pendingDrops t = s.pendingDrops t := by
  unfold alloc at h
  split at h <;> cases h
  rename_i hn
  have hnone : s.calls.lookup n = none := AList.lookup_eq_none.2 (fun hmem => hn (.inr hmem))
  have hsum := CallTable.total_insert (Call.drops t) s.calls n (.allocated t' ((s.nextSeq t' + 1) % 2 ^ 64))
  rw [hnone] at hsum
  exact hsum

theorem build_drops {bytes : Option Bytes} (h : s.build n bytes = some s') (t : Tier) :
    s'.pendingDrops t = s.pendingDrops t := by
  unfold build at h
  split at h
  · rename_i t' seq hc
    split at h <;> cases h
    · have hsum := CallTable.total_erase (Call.drops t) s.calls n
      rw [hc] at hsum
      exact hsum.symm
    · rename_i b
      have hsum := CallTable.total_insert (Call.drops t) s.calls n (.built t' ⟨seq, some b⟩)
      rw [hc] at hsum
      exact hsum
  · cases h

theorem push_drops (h : s.push n = some s') (t : Tier) :
    (s'.lanes t).evicted.length + s.pendingDrops t = (s.lanes t).evicted.length + s'.pendingDrops t := by
  obtain ⟨t', e, hc, _, _, _, _, hl, hcalls⟩ := push_cases h
  have hsum := CallTable.total_insert (Call.drops t) s.calls n
    (.pushed t' (if (s.lanes t').ring.evictee.isSome then 1 else 0))
  rw [hc, ← hcalls] at hsum
  simp only [Option.map_some, Option.getD_some, Call.drops] at hsum
  rw [pendingDrops, pendingDrops, hl]
  by_cases ht : t = t'
  · subst ht
    have hone : (s.lanes t).ring.evictee.toList.length = if (s.lanes t).ring.evictee.isSome then 1 else 0 := by
      cases (s.lanes t).ring.evictee <;> rfl
    rw [Function.update_self, Lane.evicted_push, List.length_append]
    rw [if_pos rfl] at hsum
    omega
  · rw [Function.update_of_ne ht]
    rw [if_neg (Ne.symm ht)] at hsum
    omega

theorem count_drops (h : s.count n = some s') (t : Tier) :
    s'.dropped t + s'.pendingDrops t = s.dropped t + s.pendingDrops t := by
  unfold count at h
  split at h
  · rename_i t' d hc
    cases h
    have hsum := CallTable.total_insert (Call.drops t) s.calls n .counted
    rw [hc] at hsum
    simp only [pendingDrops, Option.map_some, Option.getD_some, Call.drops] at hsum ⊢
    by_cases ht : t = t'
    · subst ht
      rw [Function.update_self]
      rw [if_pos rfl] at hsum
      omega
    · rw [Function.update_of_ne ht]
      rw [if_neg (Ne.symm ht)] at hsum
      omega
  · rename_i hc
    cases h
    have hsum := CallTable.total_erase (Call.drops t) s.calls n
    rw [hc] at hsum
    exact congrArg (s.dropped t + ·) hsum.symm
  · cases h

/-- Every eviction is counted once: what a step evicts it adds to the calls or to the counter. -/
theorem step_drops (h : s.step a = some s') (t : Tier) :
    (s'.lanes t).evicted.length + (s.dropped t + s.pendingDrops t)
      = (s.lanes t).evicted.length + (s'.dropped t + s'.pendingDrops t) := by
  -- a step that does not push
  have other : (∀ n, a ≠ .push n) → s'.dropped t + s'.pendingDrops t = s.dropped t + s.pendingDrops t →
      (s'.lanes t).evicted.length + (s.dropped t + s.pendingDrops t)
        = (s.lanes t).evicted.length + (s'.dropped t + s'.pendingDrops t) := fun hp hd => by
    rw [hd]
    rcases step_lanes h t with hl | ⟨n, e, ha, _⟩ | ⟨_, _, hl⟩ | ⟨_, hl⟩
    · rw [hl]
    · exact absurd ha (hp n)
    · rw [hl, Lane.evicted_popBatch]
    · rw [hl]
      rfl
  have quiet : s'.dropped = s.dropped → s'.calls = s.calls →
      s'.dropped t + s'.pendingDrops t = s.dropped t + s.pendingDrops t := fun hd hc => by
    rw [pendingDrops, pendingDrops, hd, hc]
  cases a with
  | alloc n t' => exact other nofun (by rw [(step_sameStop h nofun nofun).dropped, alloc_drops h])
  | build n bytes => exact other nofun (by rw [(step_sameStop h nofun nofun).dropped, build_drops h])
  | push n =>
    have hsum := push_drops h t
    rw [(step_sameStop h nofun nofun).dropped]
    omega
  | count n => exact other nofun (count_drops h t)
  | worker t' => exact other nofun (quiet (workerStep_sameStop h).dropped (workerStep_sameBut h).calls)
  | stop => exact other nofun (quiet (stopStep_dropped h) (stopStep_events h).1.calls)
  | _ => exact other nofun (quiet (step_sameStop h nofun nofun).dropped (step_sameEvents h rfl).calls)

theorem next_hand (s : Plane) (t : Tier) (roster : List Nat) (es : List RingEntry) :
    ((s.next t roster es).dispatched t).map Prod.fst ++ ((s.next t roster es).worker t).inHand
      = (s.dispatched t).map Prod.fst ++ es := by
  cases es <;> simp [next, Worker.inHand]

theorem workerStep_hand (h : s.workerStep t = some s')
    (hp : (s.lanes t).popped = (s.dispatched t).map Prod.fst ++ (s.worker t).inHand) :
    (s'.lanes t).popped = (s'.dispatched t).map Prod.fst ++ (s'.worker t).inHand := by
  rcases workerStep_cases h with ⟨hw, rfl⟩ | ⟨hw, rfl⟩ | ⟨hw, rfl⟩ | ⟨e, es, hw, _, rfl⟩ | ⟨roster, e, es, stage, hw, rfl⟩ |
    ⟨roster, e, es, i, rest, stage, hw, rfl⟩
  · simp only [Function.update_self]
    rw [hp, hw]
    split <;> rfl
  · simp only [Function.update_self, Lane.popped_popBatch]
    rw [hp, hw]
    simp [Worker.inHand]
  · simp only [Function.update_self]
    rw [hp, hw]
    split <;> rfl
  · rw [next_hand, next_lanes, hp, hw]
    rfl
  · rw [next_hand, next_lanes, hp, hw]
    rfl
  · obtain ⟨_, hl, hd, rest', stage', hw'⟩ := s.dispatchTo_sameBut t roster e es i rest stage
    rw [hl, hd, hw', hp, hw]
    rfl

/-! ## Stopping -/

/-- `Stop` starts when no producer is in a call, and no producer starts one after it. -/
def producersStopped (s : Plane) : PlaneAct → Bool
  | .stop      => decide (s.stopper = .idle → s.calls.entries.isEmpty = true)
  | .alloc _ _ => decide (s.stopper = .idle)
  | _ => true

/-- A worker that leaves its loop finds its ring empty. -/
def leavesDrained (s : Plane) : PlaneAct → Bool
  | .worker t =>
    match s.worker t with
    | .top       => decide (s.stopRequested = true → (s.lanes t).ring.q = [])
    | .popped [] => decide ((s.lanes t).ring.closed = true → (s.lanes t).ring.q = [])
    | _ => true
  | _ => true

/-- The worker of every tier has left. -/
def workersLeft (s : Plane) : Prop := ∀ t, t ≠ .unspecified → s.worker t = .exited

/-- What `Stop` does, seen from the workers: it asks them to leave, and waits until they have. -/
theorem stopStep_workers (h : s.stopStep = some s') :
    s'.stopper ≠ .idle ∧ s'.worker = s.worker ∧ (s'.stopper.joined = true → s.stopper.joined = true ∨ s.workersLeft) := by
  cases stopStep_move h with
  | asks | closes | joins => exact ⟨by simp, rfl, fun hj => by cases hj⟩
  | snapshots hst hleft =>
    refine ⟨by simp, rfl, fun _ => .inr (fun t ht => ?_)⟩
    cases t with
    | unspecified => exact absurd rfl ht
    | critical => exact hleft.1
    | state => exact hleft.2.1
    | ephemeral => exact hleft.2.2
  | kicks hst =>
    rename_i i todo st
    refine ⟨?_, rfl, fun _ => .inl (by rw [hst]; rfl)⟩
    cases st <;> exact fun hidle => by cases hidle
  | ends hst => exact ⟨by simp, rfl, fun _ => .inl (by rw [hst]; rfl)⟩

theorem workerStep_exited (h : s.workerStep t = some s') (hw' : s'.worker t = .exited) :
    s'.lanes = s.lanes ∧
    ((s.worker t = .top ∧ s.stopRequested = true) ∨ (s.worker t = .popped [] ∧ (s.lanes t).ring.closed = true)) := by
  rcases workerStep_cases h with ⟨hw, rfl⟩ | ⟨hw, rfl⟩ | ⟨hw, rfl⟩ | ⟨e, es, hw, _, rfl⟩ | ⟨roster, e, es, stage, hw, rfl⟩ |
    ⟨roster, e, es, i, rest, stage, hw, rfl⟩
  · simp only [Function.update_self] at hw'
    split at hw'
    · exact ⟨rfl, .inl ⟨hw, ‹_›⟩⟩
    · cases hw'
  · simp only [Function.update_self] at hw'
    cases hw'
  · simp only [Function.update_self] at hw'
    split at hw'
    · exact ⟨rfl, .inr ⟨hw, ‹_›⟩⟩
    · cases hw'
  · simp only [next, Function.update_self] at hw'
    cases hw'
  · cases es <;> simp only [next, Function.update_self] at hw' <;> cases hw'
  · obtain ⟨_, _, _, rest', stage', hd⟩ := s.dispatchTo_sameBut t roster e es i rest stage
    rw [hd] at hw'
    cases hw'

/-- The books of the event plane over a run with a clean stop. -/
structure Accounts (s : Plane) : Prop where
  kept     : ∀ t, (s.lanes t).Kept
  hand     : ∀ t, (s.lanes t).popped = (s.dispatched t).map Prod.fst ++ (s.worker t).inHand
  drops    : ∀ t, (s.lanes t).evicted.length = s.dropped t + s.pendingDrops t
  asked    : s.stopRequested = true → s.stopper ≠ .idle
  closed   : ∀ t, (s.lanes t).ring.closed = true → s.stopper ≠ .idle
  quiet    : s.stopper ≠ .idle → s.calls = ∅
  drained  : ∀ t, t ≠ .unspecified → s.worker t = .exited → s.stopper ≠ .idle ∧ (s.lanes t).ring.q = []
  joined   : s.stopper.joined = true → s.workersLeft

theorem accounts_init (m c : Nat) (capacity : Tier → Nat) : Accounts (init m c capacity) where
  kept := fun _ => Lane.kept_make _
  hand := fun t => by cases t <;> rfl
  drops := fun _ => rfl
  asked := nofun
  closed := fun _ => nofun
  quiet := fun h => absurd rfl h
  drained := fun t ht hw => by cases t <;> first | exact absurd rfl ht | cases hw
  joined := nofun

theorem kept_step (hk : (s.lanes t).Kept) (h : s.step a = some s') : (s'.lanes t).Kept := by
  rcases step_lanes h t with hl | ⟨n, e, _, _, hl⟩ | ⟨_, _, hl⟩ | ⟨_, hl⟩ <;> rw [hl]
  · exact hk
  · exact hk.push e
  · exact hk.popBatch 64
  · exact hk.close

theorem hand_step (hp : (s.lanes t).popped = (s.dispatched t).map Prod.fst ++ (s.worker t).inHand)
    (h : s.step a = some s') : (s'.lanes t).popped = (s'.dispatched t).map Prod.fst ++ (s'.worker t).inHand := by
  by_cases ha : a = .worker t
  · subst ha
    exact workerStep_hand h hp
  · obtain ⟨hw, hd⟩ := step_worker_ne h ha
    rw [hw, hd, ← hp]
    rcases step_lanes h t with hl | ⟨n, e, _, _, hl⟩ | ⟨hat, _, _⟩ | ⟨_, hl⟩
    · rw [hl]
    · rw [hl, Lane.popped_push]
    · exact absurd hat ha
    · rw [hl]
      rfl

theorem stopper_step (h : s.step a = some s') (hs : s.stopper ≠ .idle) : s'.stopper ≠ .idle := by
  by_cases ha : a = .stop
  · subst ha
    exact (stopStep_workers h).1
  · rw [(step_stopper h ha).1]
    exact hs

/-- After `Stop` has begun there is no call to make a step, and none starts. -/
theorem Accounts.quiet_step (hs : Accounts s) (hg : s.producersStopped a = true) (h : s.step a = some s')
    (hst : s'.stopper ≠ .idle) : s'.calls = ∅ := by
  have hbegun : a ≠ .stop → s.calls = ∅ := fun ha => hs.quiet ((step_stopper h ha).1 ▸ hst)
  have hnone : a ≠ .stop → ∀ n, s.calls.lookup n = none := fun ha n => by rw [hbegun ha]; rfl
  cases a with
  | alloc n t => exact absurd (of_decide_eq_true hg) ((step_stopper h (by simp)).1 ▸ hst)
  | build n bytes =>
    simp only [step, build, hnone (by simp) n] at h
    cases h
  | push n =>
    simp only [step, push, hnone (by simp) n] at h
    cases h
  | count n =>
    simp only [step, count, hnone (by simp) n] at h
    cases h
  | worker t => exact (workerStep_sameBut h).calls.trans (hbegun (by simp))
  | stop =>
    refine (stopStep_events h).1.calls.trans ?_
    by_cases hidle : s.stopper = .idle
    · exact AList.ext (List.isEmpty_iff.1 (of_decide_eq_true hg hidle))
    · exact hs.quiet hidle
  | _ => exact (step_sameEvents h rfl).calls.trans (hbegun (by simp))

theorem Accounts.drained_step (hs : Accounts s) (hg : s.leavesDrained a = true) (h : s.step a = some s')
    (ht : t ≠ .unspecified) (hw' : s'.worker t = .exited) : s'.stopper ≠ .idle ∧ (s'.lanes t).ring.q = [] := by
  by_cases ha : a = .worker t
  · subst ha
    obtain ⟨hl, ⟨hw, hreq⟩ | ⟨hw, hcl⟩⟩ := workerStep_exited h hw'
    · simp only [leavesDrained, hw, decide_eq_true_eq] at hg
      rw [hl]
      exact ⟨stopper_step h (hs.asked hreq), hg hreq⟩
    · simp only [leavesDrained, hw, decide_eq_true_eq] at hg
      rw [hl]
      exact ⟨stopper_step h (hs.closed t hcl), hg hcl⟩
  · rw [(step_worker_ne h ha).1] at hw'
    obtain ⟨hst, hq⟩ := hs.drained t ht hw'
    refine ⟨stopper_step h hst, ?_⟩
    rcases step_lanes h t with hl | ⟨n, e, _, hc, _⟩ | ⟨hat, _⟩ | ⟨_, hl⟩
    · rw [hl, hq]
    · rw [hs.quiet hst] at hc
      cases hc
    · exact absurd hat ha
    · rw [hl]
      exact hq

theorem Accounts.closed_step (hs : Accounts s) (h : s.step a = some s') (hcl : (s'.lanes t).ring.closed = true) :
    s'.stopper ≠ .idle := by
  rcases step_lanes h t with hl | ⟨n, e, _, _, hl⟩ | ⟨_, _, hl⟩ | ⟨rfl, _⟩
  · exact stopper_step h (hs.closed t (hl ▸ hcl))
  · rw [hl] at hcl
    exact stopper_step h (hs.closed t hcl)
  · rw [hl] at hcl
    exact stopper_step h (hs.closed t hcl)
  · exact (stopStep_workers h).1

theorem workersLeft_step (hl : s.workersLeft) (h : s.step a = some s') : s'.workersLeft := by
  intro t ht
  by_cases ha : a = .worker t
  · subst ha
    simp only [step, workerStep, hl t ht] at h
    cases h
  · rw [(step_worker_ne h ha).1]
    exact hl t ht

theorem Accounts.step (hs : Accounts s) (hp : s.producersStopped a = true) (hd : s.leavesDrained a = true)
    (h : s.step a = some s') : Accounts s' where
  kept := fun t => kept_step (hs.kept t) h
  hand := fun t => hand_step (hs.hand t) h
  drops := fun t => by
    have := step_drops h t
    have := hs.drops t
    omega
  asked := fun hreq => by
    by_cases ha : a = .stop
    · subst ha
      exact (stopStep_workers h).1
    · rw [(step_stopper h ha).2] at hreq
      exact stopper_step h (hs.asked hreq)
  closed := fun t hcl => hs.closed_step h hcl
  quiet := fun hst => hs.quiet_step hp h hst
  drained := fun t ht hw => hs.drained_step hd h ht hw
  joined := fun hj => by
    by_cases ha : a = .stop
    · subst ha
      rcases (stopStep_workers h).2.2 hj with hj | hl
      · exact workersLeft_step (hs.joined hj) h
      · exact workersLeft_step hl h
    · rw [(step_stopper h ha).1] at hj
      exact workersLeft_step (hs.joined hj) h

/-- Every entry pushed to the ring of a tier was dispatched, or is one of those the drop counter counts. -/
def Accounted (s : Plane) (t : Tier) : Prop :=
  ∃ counted : List RingEntry, (s.lanes t).pushed.Perm ((s.dispatched t).map Prod.fst ++ counted) ∧
    counted.length = s.dropped t

/-- **Shutdown loses no event unnoticed**: in every run in which the producers have stopped before `Stop` begins and
every worker finds its ring empty when it leaves, every entry ever pushed is dispatched or counted when `Stop` returns. -/
theorem stop_accounts (m c : Nat) (capacity : Tier → Nat) (as : List PlaneAct) (s : Plane)
    (hrun : Run.exec step as (init m c capacity) = some s)
    (hproducers : Run.along step producersStopped as (init m c capacity) = true)
    (hdrained : Run.along step leavesDrained as (init m c capacity) = true) (hdone : s.stopper = .done)
    (t : Tier) (ht : t ≠ .unspecified) : Accounted s t := by
  have ha := Run.exec_inv_along (I := Accounts)
    (fun _ _ _ hi hg hs => hi.step (Bool.and_eq_true_iff.1 hg).1 (Bool.and_eq_true_iff.1 hg).2 hs) as _ s
    (accounts_init m c capacity) (Run.along_and hproducers hdrained) hrun
  have hexited : s.worker t = .exited := ha.joined (by rw [hdone]; rfl) t ht
  obtain ⟨hst, hq⟩ := ha.drained t ht hexited
  have hpending : s.pendingDrops t = 0 := by
    rw [pendingDrops, ha.quiet hst]
    rfl
  have hpopped : (s.lanes t).popped = (s.dispatched t).map Prod.fst := by
    rw [ha.hand t, hexited]
    exact List.append_nil _
  refine ⟨(s.lanes t).evicted, ?_, by rw [ha.drops t, hpending, Nat.add_zero]⟩
  have hsplit := (List.filter_append_perm (fun d : Departure => !d.evicted) (s.lanes t).gone).map (·.entry)
  rw [List.map_append] at hsplit
  rw [(ha.kept t).conserved, hq, List.append_nil, ← hpopped]
  refine hsplit.symm.trans ?_
  simp only [Bool.not_not]
  exact .refl _

/-- One event of tier 1; `drain` steps of its worker, then `Stop` with all three workers. -/
def stopAfter (drain : Nat) : List PlaneAct :=
  [.alloc 0 .critical, .build 0 (some [1]), .push 0, .count 0, .count 0] ++ List.replicate drain (.worker .critical) ++
    [.stop, .worker .critical, .worker .state, .worker .ephemeral] ++ List.replicate 6 .stop

theorem stop_accounts_stopAfter :
    (Run.exec step (stopAfter 4) (init 0 0 (fun _ => 4))).map (fun s => (s.stopper, (s.dispatched .critical).map (·.1.seq)))
      = some (.done, [1]) ∧
    ∀ s, Run.exec step (stopAfter 4) (init 0 0 (fun _ => 4)) = some s → s.stopper = .done → Accounted s .critical :=
  ⟨by decide +kernel, fun s hs hd => stop_accounts 0 0 (fun _ => 4) (stopAfter 4) s hs (by decide +kernel) (by decide +kernel)
    hd .critical (by decide)⟩

/-- `Stop` before the worker has popped: the event is neither dispatched nor counted. -/
theorem stopAfter_loses :
    (Run.exec step (stopAfter 0) (init 0 0 (fun _ => 4))).map (fun s =>
        (s.stopper, (s.lanes .critical).pushed.map (·.seq), (s.dispatched .critical).map (·.1.seq), s.dropped .critical))
      = some (.done, [1], [], 0) := by
  decide +kernel

end Plane
end Events
end Osw
