import OpenSwitch.Subscriber
/-!
# Subscribe — the request and the replay of `SubscribeEvents` (`subscribe_events_handler.cc`)

A `Feed` is a subscriber with the history of what entered its send queue, from a replay or from a tier worker, and of
what its writer took out and wrote.
-/
namespace Osw
namespace Events

/-- How an entry came to a subscriber's queue. -/
inductive Origin
  | replay
  | live
  deriving DecidableEq, Repr

structure Delivery where
  origin : Origin
  tier   : Tier
  entry  : RingEntry
  deriving DecidableEq, Repr

/-- A subscriber, the entries pushed to its queue and the bytes written to its client. -/
structure Feed where
  sub     : Subscriber
  log     : List Delivery
  written : List Bytes
  deriving DecidableEq, Repr

namespace Feed

def make (filter : SubscriberFilter) (capacity : Nat) : Feed := ⟨.make filter capacity, [], []⟩

/-- `Queue().TryPush(entry.envelope_bytes)`; a null pointer is never offered. -/
def tryPush (f : Feed) (o : Origin) (t : Tier) (e : RingEntry) : Option Feed :=
  match e.envelopeBytes with
  | none => none
  | some b =>
    (f.sub.queue.tryPush b).map (fun q =>
      { f with sub := { f.sub with queue := q }, log := f.log ++ [⟨o, t, e⟩] })

def closeStep (f : Feed) (st : CloseStage) : Feed := { f with sub := f.sub.closeStep st }

def requestClose (f : Feed) (r : KickReason) : Feed := { f with sub := f.sub.requestClose r }

/-- The entries of a tier pushed to the queue by the tier's worker. -/
def live (f : Feed) (t : Tier) : List RingEntry :=
  (f.log.filter (fun d => decide (d.origin = .live) && decide (d.tier = t))).map (·.entry)

/-- The entry was pushed to the queue, by the replay or by the worker. -/
def got (f : Feed) (t : Tier) (e : RingEntry) : Prop := ∃ o, ⟨o, t, e⟩ ∈ f.log

/-- Nothing entered the queue, the filter is the same, and a closed subscriber stays closed. -/
structure Calm (f f' : Feed) : Prop where
  filter : f'.sub.filter = f.sub.filter
  log    : f'.log = f.log
  closed : f.sub.isClosed = true → f'.sub.isClosed = true

variable {f f' : Feed} {e : RingEntry} {t : Tier}

theorem Calm.refl (f : Feed) : Calm f f := ⟨rfl, rfl, id⟩

theorem Calm.of_sub_eq (hf : f'.sub.filter = f.sub.filter) (hl : f'.log = f.log)
    (hflag : f'.sub.closeFlag = f.sub.closeFlag) (hq : f'.sub.queue.closed = f.sub.queue.closed) : Calm f f' :=
  ⟨hf, hl, fun h => by simpa only [Subscriber.isClosed, hflag, hq] using h⟩

theorem closeStep_calm (f : Feed) (st : CloseStage) : Calm f (f.closeStep st) := by
  cases st with
  | reason r => exact .of_sub_eq rfl rfl rfl rfl
  | flag => exact ⟨rfl, rfl, fun _ => rfl⟩
  | queue =>
    refine ⟨rfl, rfl, fun _ => ?_⟩
    simp only [closeStep, Subscriber.closeStep, Subscriber.isClosed, Bool.or_true]

theorem closeStep_queue_closed (f : Feed) : (f.closeStep .queue).sub.isClosed = true := by
  simp only [closeStep, Subscriber.closeStep, Subscriber.isClosed, Bool.or_true]

theorem requestClose_closed (f : Feed) (r : KickReason) : (f.requestClose r).sub.isClosed = true := rfl

theorem tryPush_some {o : Origin} (h : f.tryPush o t e = some f') :
    f'.sub.filter = f.sub.filter ∧ f'.sub.closeFlag = f.sub.closeFlag ∧
      f'.sub.queue.closed = f.sub.queue.closed ∧ f'.log = f.log ++ [⟨o, t, e⟩] := by
  unfold tryPush at h
  split at h
  · cases h
  · rename_i b _
    obtain ⟨q, hq, rfl⟩ := Option.map_eq_some_iff.1 h
    unfold SendQueue.tryPush at hq
    split at hq
    · cases hq
    · split at hq <;> cases hq
      exact ⟨rfl, rfl, rfl, rfl⟩

theorem tryPush_isClosed {o : Origin} (h : f.tryPush o t e = some f') : f'.sub.isClosed = f.sub.isClosed := by
  obtain ⟨_, hflag, hq, _⟩ := tryPush_some h
  simp only [Subscriber.isClosed, hflag, hq]

theorem live_append (f f' : Feed) (ds : List Delivery) (h : f'.log = f.log ++ ds) (t : Tier) :
    f'.live t = f.live t ++
      (ds.filter (fun d => decide (d.origin = .live) && decide (d.tier = t))).map (·.entry) := by
  simp only [live, h, List.filter_append, List.map_append]

theorem live_tryPush (h : f.tryPush .live t e = some f') (t' : Tier) :
    f'.live t' = if t' = t then f.live t' ++ [e] else f.live t' := by
  rw [live_append f f' _ (tryPush_some h).2.2.2 t']
  by_cases ht : t' = t
  · subst ht
    simp
  · have : t ≠ t' := fun h => ht h.symm
    simp [ht, this]

end Feed

/-! ## The request -/

structure SubscribeEventsRequest where
  tiers         : List Bytes
  eventNames    : List Bytes
  subclassGlobs : List Bytes
  nodeId        : Bytes
  sinceSeq      : Nat
  deriving DecidableEq, Repr

def parseTierString (s : Bytes) : Option Tier :=
  if s ∈ [str "1", str "tier1", str "TIER_1_CRITICAL", str "tier_1_critical"] then some .critical
  else if s ∈ [str "2", str "tier2", str "TIER_2_STATE", str "tier_2_state"] then some .state
  else if s ∈ [str "3", str "tier3", str "TIER_3_EPHEMERAL", str "tier_3_ephemeral"] then some .ephemeral
  else none

/-- The tiers of a request that parse. -/
def SubscribeEventsRequest.parsedTiers (req : SubscribeEventsRequest) : List Tier := req.tiers.filterMap parseTierString

/-- `BuildFilter`: the filter and the tiers to replay, or the message of an `INVALID_ARGUMENT`. -/
def buildFilter (req : SubscribeEventsRequest) : Except Bytes (SubscriberFilter × List Tier) :=
  let parsed := req.parsedTiers
  let filter : SubscriberFilter := ⟨parsed.dedup, req.nodeId, req.eventNames, req.subclassGlobs⟩
  if req.tiers ≠ [] ∧ parsed = [] then
    .error (str "no valid tier in `tiers`; allowed values: TIER_1_CRITICAL/TIER_2_STATE/TIER_3_EPHEMERAL " ++
      str "(also 1/2/3 or tier1/tier2/tier3)")
  else .ok (filter, if parsed = [] then [.critical, .state, .ephemeral] else parsed)

/-- `KickReasonToStatus`. -/
def kickReasonToStatus (r : KickReason) (detail : Bytes) : Status :=
  match r with
  | .queueFull     => ⟨.resourceExhausted, str "subscriber kicked: queue full (" ++ detail ++ str ")"⟩
  | .replayEvicted => ⟨.resourceExhausted, str "since_seq outside replay window"⟩
  | _              => Status.okay

/-! ## The replay -/

/-- The entries of one tier's snapshot, pushed in order: an entry that does not fit ends the replay. -/
def replayEntries (t : Tier) : List RingEntry → Feed → Bool × Feed
  | [], f => (true, f)
  | e :: es, f =>
    if f.sub.filter.wants t e then
      match f.tryPush .replay t e with
      | none    => (false, f.requestClose .queueFull)
      | some f' => replayEntries t es f'
    else replayEntries t es f

/-- One turn of `ReplaySinceSeq`, on the ring of tier `t`. -/
def replayTier (r : Ring) (t : Tier) (sinceSeq : Nat) (f : Feed) : Bool × Feed :=
  let snap := r.snapshotFromSeq sinceSeq
  if snap.foundInWindow then replayEntries t snap.entries f
  else (false, f.requestClose .replayEvicted)

/-- `ReplaySinceSeq`; `rings` is `RingSet::Get`. -/
def replaySinceSeq (rings : Tier → Option Ring) (sinceSeq : Nat) : List Tier → Feed → Bool × Feed
  | [], f => (true, f)
  | t :: ts, f =>
    match rings t with
    | none => replaySinceSeq rings sinceSeq ts f
    | some r =>
      match replayTier r t sinceSeq f with
      | (false, f') => (false, f')
      | (true, f')  => replaySinceSeq rings sinceSeq ts f'

theorem replayEntries_spec (t : Tier) : ∀ (es : List RingEntry) (f : Feed),
    (replayEntries t es f).2.sub.filter = f.sub.filter ∧
    (∃ ds, (replayEntries t es f).2.log = f.log ++ ds ∧ ∀ d ∈ ds, d.origin = .replay) ∧
    (f.sub.isClosed = true → (replayEntries t es f).2.sub.isClosed = true) ∧
    ((replayEntries t es f).1 = false → (replayEntries t es f).2.sub.isClosed = true)
  | [], f => ⟨rfl, ⟨[], by simp [replayEntries], nofun⟩, id, nofun⟩
  | e :: es, f => by
    unfold replayEntries
    split
    · cases hp : f.tryPush .replay t e with
      | none =>
        exact ⟨rfl, ⟨[], by simp [Feed.requestClose], nofun⟩, fun _ => f.requestClose_closed _,
          fun _ => f.requestClose_closed _⟩
      | some f' =>
        obtain ⟨hf, ⟨ds, hl, hd⟩, hc, hx⟩ := replayEntries_spec t es f'
        obtain ⟨hf', hflag, hq, hl'⟩ := Feed.tryPush_some hp
        refine ⟨hf.trans hf', ⟨⟨.replay, t, e⟩ :: ds, ?_, ?_⟩, fun h => hc ?_, hx⟩
        · simp only [hl, hl', List.append_assoc, List.cons_append, List.nil_append]
        · intro d hm
          rcases List.mem_cons.1 hm with rfl | hm
          · rfl
          · exact hd d hm
        · rw [Feed.tryPush_isClosed hp]
          exact h
    · exact replayEntries_spec t es f

theorem replayTier_spec (r : Ring) (t : Tier) (sinceSeq : Nat) (f : Feed) :
    (replayTier r t sinceSeq f).2.sub.filter = f.sub.filter ∧
    (∃ ds, (replayTier r t sinceSeq f).2.log = f.log ++ ds ∧ ∀ d ∈ ds, d.origin = .replay) ∧
    (f.sub.isClosed = true → (replayTier r t sinceSeq f).2.sub.isClosed = true) ∧
    ((replayTier r t sinceSeq f).1 = false → (replayTier r t sinceSeq f).2.sub.isClosed = true) := by
  unfold replayTier
  dsimp only
  split
  · exact replayEntries_spec t _ f
  · exact ⟨rfl, ⟨[], by simp [Feed.requestClose], nofun⟩, fun _ => f.requestClose_closed _,
      fun _ => f.requestClose_closed _⟩

theorem replayTier_found {r : Ring} {t : Tier} {sinceSeq : Nat} {f : Feed} (h : (replayTier r t sinceSeq f).1 = true) :
    (r.snapshotFromSeq sinceSeq).foundInWindow = true := by
  unfold replayTier at h
  dsimp only at h
  split at h
  · assumption
  · cases h

end Events
end Osw
