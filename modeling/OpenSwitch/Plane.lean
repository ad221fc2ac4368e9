import Mathlib.Data.List.AList
import OpenSwitch.Run
import OpenSwitch.Subscribe
/-!
# Plane — the event plane: producers, tier workers, subscriptions and shutdown

FreeSWITCH threads call `Binder::HandleEvent`; one broadcaster worker per tier drains the tier's ring and offers each
entry to the roster it snapshotted; each `SubscribeEvents` call registers a subscriber and is its writer; any thread
may close a subscriber; `Broadcaster::Stop` ends it all.  A step is one access to shared state: a counter, a ring under
its mutex, the roster under `roster_mu_`, a queue, or one store of `RequestClose`.  A subscriber is named by the number
of the call that made it.
-/
namespace Osw
namespace Events

/-- Where a `Binder::HandleEvent` call is, once it has its seq. -/
inductive Call
  | allocated (t : Tier) (seq : Nat)
  | built (t : Tier) (e : RingEntry)
  | pushed (t : Tier) (dropped : Nat)
  | counted
  deriving DecidableEq, Repr

/-- Where `Dispatch` is with the subscriber it is at. -/
inductive Stage
  | check
  | push
  | kick (st : CloseStage)
  | count
  deriving DecidableEq, Repr

/-- Where `WorkerLoop` is.  `dispatching roster e es rest stage` is in `Dispatch` of `e`, with `es` the rest of the
batch and `rest` the subscribers of the snapshot still to serve, the first of them at `stage`. -/
inductive Worker
  | top
  | popping
  | popped (batch : List RingEntry)
  | dispatching (roster : List Nat) (e : RingEntry) (es : List RingEntry) (rest : List Nat) (stage : Stage)
  | exited
  deriving DecidableEq, Repr

/-- Where a `SubscribeEvents` call is: before, inside and after `AddSubscriberAtomic`, then in `WriterLoop`. -/
inductive Handler
  | absent
  | created (sinceSeq : Nat) (tiers : List Tier)
  | replaying (sinceSeq : Nat) (tiers todo : List Tier)
  | joining (sinceSeq : Nat) (tiers : List Tier) (replayOk : Bool)
  | top
  | waiting
  | gotNothing
  | writing (b : Bytes)
  | cancelling (st : CloseStage)
  | removing (reason : KickReason) (detail : Bytes)
  | returned (status : Status)
  deriving DecidableEq, Repr

/-- Where `Broadcaster::Stop` is. -/
inductive Stopper
  | idle
  | closing (todo : List Tier)
  | joining
  | kicking (todo : List Nat) (st : CloseStage)
  | done
  deriving DecidableEq, Repr

/-- What the client's side of a stream does to the writer. -/
inductive Client
  | ok
  | badBytes
  | gone
  deriving DecidableEq, Repr

/-- The event plane.  `dispatched` and `accepted` are histories: the entries a worker started to dispatch, each with
the roster snapshot it used, and the resume point and tiers of each registration whose replay was accepted.  `dropped`,
`eventsEmitted` and `kicks` are exact below `2 ^ 64`. -/
structure Plane where
  maxSubscribers : Nat
  queueCapacity  : Nat
  lanes          : Tier → Lane
  nextSeq        : Tier → Nat
  calls          : AList (fun _ : Nat => Call)
  dropped        : Tier → Nat
  eventsEmitted  : Nat
  worker         : Tier → Worker
  dispatched     : Tier → List (RingEntry × List Nat)
  roster         : List Nat
  rosterMu       : Option Nat
  feeds          : Nat → Feed
  handler        : Nat → Handler
  accepted       : Nat → Option (Nat × List Tier)
  closer         : Nat → Option (Nat × CloseStage)
  kicks          : Nat
  stopRequested  : Bool
  stopper        : Stopper

inductive PlaneAct
  | alloc (n : Nat) (t : Tier)
  | build (n : Nat) (bytes : Option Bytes)
  | push (n : Nat)
  | count (n : Nat)
  | worker (t : Tier)
  | subscribe (i : Nat) (req : SubscribeEventsRequest)
  | addSubscriber (i : Nat) (filter : SubscriberFilter) (capacity : Nat)
  | handler (i : Nat) (c : Client)
  | requestClose (n i : Nat) (r : KickReason)
  | closer (n : Nat)
  | stop
  deriving DecidableEq, Repr

namespace Plane

/-- Three started workers and nothing else. -/
def init (maxSubscribers queueCapacity : Nat) (capacity : Tier → Nat) : Plane where
  maxSubscribers := maxSubscribers
  queueCapacity  := queueCapacity
  lanes          := fun t => .make (capacity t)
  nextSeq        := fun _ => 0
  calls          := ∅
  dropped        := fun _ => 0
  eventsEmitted  := 0
  worker         := fun t => if t = .unspecified then .exited else .top
  dispatched     := fun _ => []
  roster         := []
  rosterMu       := none
  feeds          := fun _ => .make ⟨[], [], [], []⟩ 0
  handler        := fun _ => .absent
  accepted       := fun _ => none
  closer         := fun _ => none
  kicks          := 0
  stopRequested  := false
  stopper        := .idle

/-- `RingSet::Get`. -/
def ringOf (s : Plane) (t : Tier) : Option Ring := if t = .unspecified then none else some (s.lanes t).ring

/-! ## `Binder::HandleEvent` -/

/-- `next_seq_[tier].fetch_add(1) + 1`, in 64 bits, for an event classified into `t`. -/
def alloc (s : Plane) (n : Nat) (t : Tier) : Option Plane :=
  if t = .unspecified ∨ n ∈ s.calls then none
  else some { s with
    nextSeq := Function.update s.nextSeq t ((s.nextSeq t + 1) % 2 ^ 64)
    calls := s.calls.insert n (.allocated t ((s.nextSeq t + 1) % 2 ^ 64)) }

/-- `BuildEnvelope` and `SerializeToString`; a call whose envelope fails ends here, and its seq is lost. -/
def build (s : Plane) (n : Nat) (bytes : Option Bytes) : Option Plane :=
  match s.calls.lookup n with
  | some (.allocated t seq) =>
    match bytes with
    | none   => some { s with calls := s.calls.erase n }
    | some b => some { s with calls := s.calls.insert n (.built t ⟨seq, some b⟩) }
  | _ => none

/-- `ring->Push`. -/
def push (s : Plane) (n : Nat) : Option Plane :=
  match s.calls.lookup n with
  | some (.built t e) =>
    some { s with
      lanes := Function.update s.lanes t ((s.lanes t).push e)
      calls := s.calls.insert n (.pushed t (if (s.lanes t).ring.evictee.isSome then 1 else 0)) }
  | _ => none

/-- The two counters after the push. -/
def count (s : Plane) (n : Nat) : Option Plane :=
  match s.calls.lookup n with
  | some (.pushed t d) =>
    some { s with dropped := Function.update s.dropped t (s.dropped t + d), calls := s.calls.insert n .counted }
  | some .counted => some { s with eventsEmitted := s.eventsEmitted + 1, calls := s.calls.erase n }
  | _ => none

/-! ## `Broadcaster::WorkerLoop` -/

/-- A worker turns to the next entry of its batch.  `Dispatch` returns at once from an entry without bytes. -/
def next (s : Plane) (t : Tier) (roster : List Nat) : List RingEntry → Plane
  | [] => { s with worker := Function.update s.worker t .top }
  | e :: es =>
    { s with
      worker := Function.update s.worker t
        (.dispatching roster e es (if e.envelopeBytes = none then [] else roster) .check)
      dispatched := Function.update s.dispatched t (s.dispatched t ++ [(e, roster)]) }

/-- One access of `Dispatch` to subscriber `i`, the first of `i :: rest`. -/
def dispatchTo (s : Plane) (t : Tier) (roster : List Nat) (e : RingEntry) (es : List RingEntry) (i : Nat)
    (rest : List Nat) : Stage → Plane
  | .check =>
    if (s.feeds i).sub.isClosed || !(s.feeds i).sub.filter.wants t e then
      { s with worker := Function.update s.worker t (.dispatching roster e es rest .check) }
    else { s with worker := Function.update s.worker t (.dispatching roster e es (i :: rest) .push) }
  | .push =>
    match (s.feeds i).tryPush .live t e with
    | some f =>
      { s with
        feeds := Function.update s.feeds i f
        worker := Function.update s.worker t (.dispatching roster e es rest .check) }
    | none =>
      { s with worker := Function.update s.worker t (.dispatching roster e es (i :: rest) (.kick (.reason .queueFull))) }
  | .kick st =>
    { s with
      feeds := Function.update s.feeds i ((s.feeds i).closeStep st)
      worker := Function.update s.worker t
        (.dispatching roster e es (i :: rest) (match st.next with | some st' => .kick st' | none => .count)) }
  | .count =>
    { s with
      kicks := s.kicks + 1
      worker := Function.update s.worker t (.dispatching roster e es rest .check) }

/-- One step of the worker of a tier.  `WaitAndPopBatch` gives at most 64 entries, and none after its timeout or when
the ring is closed; `RosterSnapshot` needs `roster_mu_`. -/
def workerStep (s : Plane) (t : Tier) : Option Plane :=
  match s.worker t with
  | .top => some { s with worker := Function.update s.worker t (if s.stopRequested then .exited else .popping) }
  | .popping =>
    some { s with
      lanes := Function.update s.lanes t ((s.lanes t).popBatch 64)
      worker := Function.update s.worker t (.popped ((s.lanes t).ring.q.take 64)) }
  | .popped [] =>
    some { s with worker := Function.update s.worker t (if (s.lanes t).ring.closed then .exited else .top) }
  | .popped (e :: es) => if s.rosterMu = none then some (s.next t s.roster (e :: es)) else none
  | .dispatching roster _ es [] _ => some (s.next t roster es)
  | .dispatching roster e es (i :: rest) stage => some (s.dispatchTo t roster e es i rest stage)
  | .exited => none

/-! ## `SubscribeEvents` -/

/-- The call up to `AddSubscriberAtomic`: the subscriber cap, the filter, the subscriber. -/
def subscribe (s : Plane) (i : Nat) (req : SubscribeEventsRequest) : Option Plane :=
  if s.handler i ≠ .absent ∨ s.rosterMu ≠ none then none
  else if 0 < s.maxSubscribers ∧ s.maxSubscribers ≤ s.roster.length then
    some { s with
      handler := Function.update s.handler i (.returned ⟨.resourceExhausted, str "at max_subscribers cap"⟩) }
  else
    match buildFilter req with
    | .error msg => some { s with handler := Function.update s.handler i (.returned ⟨.invalidArgument, msg⟩) }
    | .ok (filter, tiers) =>
      some { s with
        feeds := Function.update s.feeds i (.make filter (if s.queueCapacity = 0 then 4096 else s.queueCapacity))
        handler := Function.update s.handler i (.created req.sinceSeq tiers) }

/-- `AddSubscriber`: a subscriber that joins the roster without a replay. -/
def addSubscriber (s : Plane) (i : Nat) (filter : SubscriberFilter) (capacity : Nat) : Option Plane :=
  if s.handler i ≠ .absent ∨ s.rosterMu ≠ none then none
  else some { s with
    feeds := Function.update s.feeds i (.make filter capacity)
    roster := s.roster ++ [i]
    handler := Function.update s.handler i .top }

/-- `RemoveSubscriber`, from elsewhere than the handler of the subscriber. -/
def removeSubscriber (s : Plane) (i : Nat) : Option Plane :=
  if s.rosterMu = none then some { s with roster := s.roster.filter (fun j => decide (j ≠ i)) } else none

/-- One tier of `ReplaySinceSeq`, under `roster_mu_`: the snapshot is one access to the ring, and the queue it fills
belongs to a subscriber no other thread knows yet. -/
def replayStep (s : Plane) (i sinceSeq : Nat) (tiers : List Tier) (t : Tier) (todo : List Tier) : Plane :=
  match s.ringOf t with
  | none => { s with handler := Function.update s.handler i (.replaying sinceSeq tiers todo) }
  | some r =>
    { s with
      feeds := Function.update s.feeds i (replayTier r t sinceSeq (s.feeds i)).2
      handler := Function.update s.handler i
        (if (replayTier r t sinceSeq (s.feeds i)).1 then .replaying sinceSeq tiers todo
         else .joining sinceSeq tiers false) }

/-- `roster_.push_back` and the end of `AddSubscriberAtomic`; a call whose replay failed goes on to leave. -/
def join (s : Plane) (i sinceSeq : Nat) (tiers : List Tier) (replayOk : Bool) : Plane :=
  { s with
    roster := s.roster ++ [i]
    rosterMu := none
    accepted := if replayOk then Function.update s.accepted i (some (sinceSeq, tiers)) else s.accepted
    handler := Function.update s.handler i
      (if replayOk then .top else .removing (s.feeds i).sub.kickReason (str "during since_seq replay")) }

/-- The handler leaves `WriterLoop` and reads the kick reason. -/
def leave (s : Plane) (i : Nat) : Plane :=
  { s with handler := Function.update s.handler i (.removing (s.feeds i).sub.kickReason (str "writer-loop exit")) }

/-- `SendQueue::WaitAndPop` of the writer. -/
def writerPop (s : Plane) (i : Nat) : Plane :=
  match (s.feeds i).sub.queue.q with
  | [] => { s with handler := Function.update s.handler i .gotNothing }
  | b :: q =>
    { s with
      feeds := Function.update s.feeds i { s.feeds i with
        sub := { (s.feeds i).sub with queue := { (s.feeds i).sub.queue with q := q } } }
      handler := Function.update s.handler i (.writing b) }

/-- One step of a `SubscribeEvents` call from `AddSubscriberAtomic` on. -/
def handlerStep (s : Plane) (i : Nat) (c : Client) : Option Plane :=
  match s.handler i with
  | .absent => none
  | .created sinceSeq tiers =>
    if s.rosterMu = none then
      some { s with
        rosterMu := some i
        handler := Function.update s.handler i
          (if 0 < sinceSeq then .replaying sinceSeq tiers tiers else .joining sinceSeq tiers true) }
    else none
  | .replaying sinceSeq tiers [] =>
    some { s with handler := Function.update s.handler i (.joining sinceSeq tiers true) }
  | .replaying sinceSeq tiers (t :: todo) => some (s.replayStep i sinceSeq tiers t todo)
  | .joining sinceSeq tiers replayOk => some (s.join i sinceSeq tiers replayOk)
  | .top =>
    some { s with
      handler := Function.update s.handler i
        (if c = .gone then .cancelling (.reason .clientCancelled) else .waiting) }
  | .waiting => some (s.writerPop i)
  | .gotNothing =>
    if (s.feeds i).sub.isClosed then some (s.leave i)
    else some { s with handler := Function.update s.handler i .top }
  | .writing b =>
    match c with
    | .ok =>
      some { s with
        feeds := Function.update s.feeds i { s.feeds i with written := (s.feeds i).written ++ [b] }
        handler := Function.update s.handler i .top }
    | .badBytes => some { s with handler := Function.update s.handler i .top }
    | .gone => some { s with handler := Function.update s.handler i (.cancelling (.reason .clientCancelled)) }
  | .cancelling st =>
    match st.next with
    | some st' =>
      some { s with
        feeds := Function.update s.feeds i ((s.feeds i).closeStep st)
        handler := Function.update s.handler i (.cancelling st') }
    | none => some ({ s with feeds := Function.update s.feeds i ((s.feeds i).closeStep st) }.leave i)
  | .removing reason detail =>
    if s.rosterMu = none then
      some { s with
        roster := s.roster.filter (fun j => decide (j ≠ i))
        handler := Function.update s.handler i (.returned (kickReasonToStatus reason detail)) }
    else none
  | .returned _ => none

/-! ## Closing and stopping -/

/-- A thread that found subscriber `i` in the roster calls `RequestClose`. -/
def requestClose (s : Plane) (n i : Nat) (r : KickReason) : Option Plane :=
  if s.closer n ≠ none ∨ i ∉ s.roster then none
  else some { s with closer := Function.update s.closer n (some (i, .reason r)) }

def closerStep (s : Plane) (n : Nat) : Option Plane :=
  match s.closer n with
  | none => none
  | some (i, st) =>
    some { s with
      feeds := Function.update s.feeds i ((s.feeds i).closeStep st)
      closer := Function.update s.closer n (st.next.map (fun st' => (i, st'))) }

/-- `Broadcaster::Stop`: the flag, the three rings, the join, the roster snapshot, and a `kShutdown` for each of it. -/
def stopStep (s : Plane) : Option Plane :=
  match s.stopper with
  | .idle => some { s with stopRequested := true, stopper := .closing [.critical, .state, .ephemeral] }
  | .closing [] => some { s with stopper := .joining }
  | .closing (t :: todo) =>
    some { s with lanes := Function.update s.lanes t (s.lanes t).close, stopper := .closing todo }
  | .joining =>
    if s.worker .critical = .exited ∧ s.worker .state = .exited ∧ s.worker .ephemeral = .exited ∧
        s.rosterMu = none then
      some { s with stopper := .kicking s.roster (.reason .shutdown) }
    else none
  | .kicking [] _ => some { s with stopper := .done }
  | .kicking (i :: todo) st =>
    some { s with
      feeds := Function.update s.feeds i ((s.feeds i).closeStep st)
      stopper := match st.next with
        | some st' => .kicking (i :: todo) st'
        | none     => .kicking todo (.reason .shutdown) }
  | .done => none

def step (s : Plane) : PlaneAct → Option Plane
  | .alloc n t                => s.alloc n t
  | .build n bytes            => s.build n bytes
  | .push n                   => s.push n
  | .count n                  => s.count n
  | .worker t                 => s.workerStep t
  | .subscribe i req          => s.subscribe i req
  | .addSubscriber i filter c => s.addSubscriber i filter c
  | .handler i c              => s.handlerStep i c
  | .requestClose n i r       => s.requestClose n i r
  | .closer n                 => s.closerStep n
  | .stop                     => s.stopStep

end Plane
end Events
end Osw
