import OpenSwitch.Ring
import OpenSwitch.Routing
/-!
# Subscriber — a client's filter, send queue and close state (`subscriber.cc`, `send_queue.cc`)

`RequestClose` is three atomic stores, on the reason, on the flag and on the queue: a thread that closes a subscriber
goes through the three stages of `CloseStage`, and any other thread may step in between.
-/
namespace Osw
namespace Events

/-- `SubscriberFilter`; an empty member lets everything through. -/
structure SubscriberFilter where
  tiers          : List Tier
  nodeId         : Bytes
  eventNameGlobs : List Bytes
  subclassGlobs  : List Bytes
  deriving DecidableEq, Repr

/-- `MatchPrefixGlob`: a pattern that ends in an asterisk is a prefix, any other is the whole name. -/
def matchPrefixGlob (pat s : Bytes) : Bool :=
  match pat.getLast? with
  | some 42 => pat.dropLast.isPrefixOf s
  | _ => decide (s = pat)

def matchAnyPattern (patterns : List Bytes) (s : Bytes) : Bool := patterns.any (matchPrefixGlob · s)

def SubscriberFilter.matches (f : SubscriberFilter) (tier : Tier) (eventName subclassName nodeId : Bytes) : Bool :=
  (f.tiers.isEmpty || f.tiers.contains tier) &&
  (f.nodeId.isEmpty || decide (nodeId = f.nodeId)) &&
  (f.eventNameGlobs.isEmpty || matchAnyPattern f.eventNameGlobs eventName) &&
  (f.subclassGlobs.isEmpty || matchAnyPattern f.subclassGlobs subclassName)

/-- What `Dispatch` and `ReplaySinceSeq` ask of an entry of tier `t` before they push it: it has bytes, and their
routing fields pass the filter under the tier of the ring. -/
def SubscriberFilter.wants (f : SubscriberFilter) (t : Tier) (e : RingEntry) : Bool :=
  match e.envelopeBytes with
  | none => false
  | some b =>
    let rf := extractRoutingFields b
    f.matches (if t = .unspecified then rf.tier else t) rf.eventName rf.subclassName rf.nodeId

inductive KickReason
  | none
  | queueFull
  | replayEvicted
  | shutdown
  | clientCancelled
  deriving DecidableEq, Repr

/-- `SendQueue`. -/
structure SendQueue where
  capacity : Nat
  q        : List Bytes
  closed   : Bool
  deriving DecidableEq, Repr

namespace SendQueue

def make (capacity : Nat) : SendQueue := ⟨if capacity = 0 then 1 else capacity, [], false⟩

/-- `TryPush`; `none` when it answers `false`. -/
def tryPush (s : SendQueue) (b : Bytes) : Option SendQueue :=
  if s.closed then none
  else if s.capacity ≤ s.q.length then none
  else some { s with q := s.q ++ [b] }

end SendQueue

structure Subscriber where
  filter     : SubscriberFilter
  queue      : SendQueue
  closeFlag  : Bool
  kickReason : KickReason
  deriving DecidableEq, Repr

/-- Where a thread is inside `RequestClose`. -/
inductive CloseStage
  | reason (r : KickReason)
  | flag
  | queue
  deriving DecidableEq, Repr

def CloseStage.next : CloseStage → Option CloseStage
  | .reason _ => some .flag
  | .flag     => some .queue
  | .queue    => none

namespace Subscriber

def make (filter : SubscriberFilter) (capacity : Nat) : Subscriber := ⟨filter, .make capacity, false, .none⟩

def isClosed (s : Subscriber) : Bool := s.closeFlag || s.queue.closed

/-- One store of `RequestClose`. -/
def closeStep (s : Subscriber) : CloseStage → Subscriber
  | .reason r => { s with kickReason := if s.kickReason = .none then r else s.kickReason }
  | .flag     => { s with closeFlag := true }
  | .queue    => { s with queue := { s.queue with closed := true } }

/-- `RequestClose` on a subscriber no other thread knows yet. -/
def requestClose (s : Subscriber) (r : KickReason) : Subscriber :=
  ((s.closeStep (.reason r)).closeStep .flag).closeStep .queue

end Subscriber
end Events
end Osw
