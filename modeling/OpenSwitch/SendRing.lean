import OpenSwitch.Run
import OpenSwitch.StreamClient
/-!
# SendRing — the send ring of a stream is a drop-oldest queue (`stream_client.cc`)

The ring as the code keeps it: a push into a full ring moves the tail on and leaves the message in its slot, a pop moves
the message out and leaves whatever a moved-from message is.  `SendQueue` is what it is for, a bounded list; every
sequence of calls is answered alike by the two (`send_ring_is_drop_queue`).
-/
namespace Osw
namespace Media

/-- What producers, the writer and `Close` do to the ring, each under `ring_mu_`. -/
inductive SendCall
  | sendAudio (f : AudioFrame)
  | sendControl (msg : Bytes)
  | pop
  | close
  deriving DecidableEq, Repr

/-- What a call answers: `SendAudio` a flag, `RingPopLocked` a message or nothing. -/
inductive SendAnswer
  | sent (ok : Bool)
  | popped (m : Option UpstreamMsg)
  | done
  deriving DecidableEq, Repr

/-- The ring members of `StreamClient`, with `ring_.size()` slots; `framesDropped` is exact below `2 ^ 64`. -/
structure SendRing (size : Nat) where
  ring          : DropRing UpstreamMsg size
  ringClosed    : Bool
  framesDropped : Nat

namespace SendRing

variable {size : Nat}

def make (h : 0 < size) : SendRing size := ⟨.make h, false, 0⟩

def full (q : SendRing size) : Bool := decide (q.ring.count = size)

/-- The push that `SendAudio` and `SendControl` share: the oldest message of a full ring goes first. -/
def ringPush (q : SendRing size) (m : UpstreamMsg) : SendRing size :=
  { q with
    ring := (if q.full then q.ring.skip else q.ring).put m
    framesDropped := if q.full then q.framesDropped + 1 else q.framesDropped }

def sendAudio (q : SendRing size) (f : AudioFrame) : Bool × SendRing size :=
  if f.sampleCount = 0 then (false, q)
  else if q.ringClosed then (false, q)
  else (!q.full, q.ringPush (.audio f))

def sendControl (q : SendRing size) (msg : Bytes) : SendRing size :=
  if q.ringClosed then q else q.ringPush (.control msg)

/-- `RingPopLocked`; `moved m` is what is left of `m` in its slot when it is moved out. -/
def ringPop (moved : UpstreamMsg → UpstreamMsg) (q : SendRing size) : Option UpstreamMsg × SendRing size :=
  if q.ring.count = 0 then (none, q)
  else (some q.ring.front, { q with ring := q.ring.release (moved q.ring.front) })

def call (moved : UpstreamMsg → UpstreamMsg) (q : SendRing size) : SendCall → SendAnswer × SendRing size
  | .sendAudio f     => (.sent (q.sendAudio f).1, (q.sendAudio f).2)
  | .sendControl msg => (.done, q.sendControl msg)
  | .pop             => (.popped (q.ringPop moved).1, (q.ringPop moved).2)
  | .close           => (.done, { q with ringClosed := true })

end SendRing

/-! ## What it is for -/

/-- A queue of messages that drops its oldest one when full, until it is closed. -/
structure SendQueue (size : Nat) where
  queue  : DropQueue UpstreamMsg size
  closed : Bool

namespace SendQueue

variable {size : Nat}

def make (size : Nat) : SendQueue size := ⟨.make _ size, false⟩

def accept (q : SendQueue size) (m : UpstreamMsg) : SendQueue size := { q with queue := q.queue.offer m }

def call (q : SendQueue size) : SendCall → SendAnswer × SendQueue size
  | .sendAudio f =>
    if f.sampleCount = 0 ∨ q.closed then (.sent false, q)
    else (.sent (decide (q.queue.held.length < size)), q.accept (.audio f))
  | .sendControl msg => (.done, if q.closed then q else q.accept (.control msg))
  | .pop             => (.popped q.queue.held.head?, { q with queue := q.queue.take })
  | .close           => (.done, { q with closed := true })

end SendQueue

namespace SendRing

variable {size : Nat} {a : SendQueue size} {q : SendRing size}

/-- The ring holds what the queue holds. -/
structure Shows (q : SendRing size) (a : SendQueue size) : Prop where
  held    : q.ring.toList = a.queue.held
  closed  : q.ringClosed = a.closed
  dropped : q.framesDropped = a.queue.drops.length

theorem shows_make (h : 0 < size) : (make h).Shows (SendQueue.make size) := ⟨rfl, rfl, rfl⟩

theorem Shows.count (h : q.Shows a) : q.ring.count = a.queue.held.length := by
  rw [← h.held, DropRing.length_toList]

theorem ringPush_ring (q : SendRing size) (m : UpstreamMsg) :
    (q.ringPush m).ring = (if q.ring.count = size then q.ring.release q.ring.front else q.ring).put m := by
  simp only [ringPush, full, decide_eq_true_eq, DropRing.skip]

theorem ringPush_framesDropped (q : SendRing size) (m : UpstreamMsg) :
    (q.ringPush m).framesDropped = q.framesDropped + q.ring.dropped.toList.length := by
  simp only [ringPush, full, decide_eq_true_eq, DropRing.dropped]
  split <;> rfl

theorem Shows.ringPush (h : q.Shows a) (m : UpstreamMsg) : (q.ringPush m).Shows (a.accept m) := by
  have hlen : q.ring.dropped.toList.length = a.queue.excess := by
    rw [DropRing.length_dropped, DropQueue.excess_eq, h.held]
  have hsplit := q.ring.dropped_append_put q.ring.front m
  rw [← ringPush_ring, h.held] at hsplit
  obtain ⟨hheld, -, hdrops⟩ := DropQueue.offer_of_split hsplit hlen
  refine ⟨hheld.symm, h.closed, ?_⟩
  rw [ringPush_framesDropped, h.dropped, ← List.length_append, ← hdrops]
  rfl

theorem Shows.ringPop (h : q.Shows a) (moved : UpstreamMsg → UpstreamMsg) :
    (q.ringPop moved).1 = a.queue.held.head? ∧ (q.ringPop moved).2.Shows { a with queue := a.queue.take } := by
  have hdrops : q.framesDropped = a.queue.take.drops.length := by rw [DropQueue.drops_take, h.dropped]
  have hcount := h.count
  unfold SendRing.ringPop
  split
  · have hnil : a.queue.held = [] := List.eq_nil_of_length_eq_zero (by omega)
    refine ⟨by rw [hnil]; rfl, ?_, h.closed, hdrops⟩
    change q.ring.toList = a.queue.held.tail
    rw [h.held, hnil]
    rfl
  · rename_i hne
    have hheld : a.queue.held = q.ring.front :: (q.ring.release (moved q.ring.front)).toList := by
      rw [← h.held]
      exact DropRing.toList_release hne _
    refine ⟨by rw [hheld]; rfl, ?_, h.closed, hdrops⟩
    change (q.ring.release (moved q.ring.front)).toList = a.queue.held.tail
    rw [hheld]
    rfl

/-- **One call**: the ring and the queue answer alike, and the ring holds what the queue holds. -/
theorem Shows.call (h : q.Shows a) (moved : UpstreamMsg → UpstreamMsg) (x : SendCall) :
    (q.call moved x).1 = (a.call x).1 ∧ (q.call moved x).2.Shows (a.call x).2 := by
  cases x with
  | sendAudio f =>
    simp only [SendRing.call, SendQueue.call, SendRing.sendAudio, h.closed]
    by_cases hf : f.sampleCount = 0
    · rw [if_pos hf, if_pos (.inl hf)]
      exact ⟨rfl, h⟩
    · cases hc : a.closed with
      | true =>
        rw [if_neg hf, if_pos rfl, if_pos (.inr rfl)]
        exact ⟨rfl, h⟩
      | false =>
        rw [if_neg hf, if_neg (by decide), if_neg (by simp [hf])]
        refine ⟨?_, h.ringPush _⟩
        have hcount := h.count
        have hle := q.ring.count_le
        by_cases hfull : q.ring.count = size
        · simp [full, hfull, show ¬ a.queue.held.length < size by omega]
        · simp [full, hfull, show a.queue.held.length < size by omega]
  | sendControl msg =>
    simp only [SendRing.call, SendQueue.call, SendRing.sendControl, h.closed]
    refine ⟨trivial, ?_⟩
    split
    · exact h
    · exact h.ringPush _
  | pop =>
    obtain ⟨hout, hnext⟩ := h.ringPop moved
    exact ⟨congrArg SendAnswer.popped hout, hnext⟩
  | close => exact ⟨rfl, h.held, rfl, h.dropped⟩

end SendRing

/-! ## Whole sequences of calls -/

/-- The message a call brings: an empty frame is none. -/
def SendCall.msg? : SendCall → Option UpstreamMsg
  | .sendAudio f     => if f.sampleCount = 0 then none else some (.audio f)
  | .sendControl msg => some (.control msg)
  | .pop             => none
  | .close           => none

/-- What the ring takes in: every message up to the first `close`. -/
def accepted : List SendCall → List UpstreamMsg
  | [] => []
  | x :: xs => if x = .close then [] else x.msg?.toList ++ accepted xs

def handed (answers : List SendAnswer) : List UpstreamMsg :=
  answers.filterMap (fun
    | .popped m => m
    | _ => none)

namespace SendQueue

variable {size : Nat}

abbrev run (calls : List SendCall) (q : SendQueue size) : List SendAnswer × SendQueue size := Run.calls call calls q

theorem call_offered (q : SendQueue size) (x : SendCall) :
    (q.call x).2.queue.offered = q.queue.offered ++ (if q.closed then [] else x.msg?.toList) ∧
    (q.call x).2.closed = (q.closed || decide (x = .close)) := by
  cases x with
  | sendAudio f =>
    by_cases hf : f.sampleCount = 0 <;> cases hc : q.closed <;>
      simp [call, SendCall.msg?, hf, hc, accept, DropQueue.offer]
  | sendControl msg => cases hc : q.closed <;> simp [call, SendCall.msg?, hc, accept, DropQueue.offer]
  | pop => simp [call, SendCall.msg?, DropQueue.take]
  | close => simp [call, SendCall.msg?]

theorem run_offered : ∀ (calls : List SendCall) (q : SendQueue size),
    (q.run calls).2.queue.offered = q.queue.offered ++ (if q.closed then [] else accepted calls)
  | [], q => by simp [run, Run.calls, accepted]
  | x :: xs, q => by
    obtain ⟨ho, hc⟩ := q.call_offered x
    have ih := run_offered xs (q.call x).2
    rw [run, Run.calls]
    rw [run] at ih
    rw [ih, ho, hc, accepted]
    cases q.closed with
    | true => simp
    | false => by_cases hx : x = .close <;> simp [hx, SendCall.msg?]

theorem call_taken (q : SendQueue size) (x : SendCall) :
    (q.call x).2.queue.taken = q.queue.taken ++ handed [(q.call x).1] := by
  cases x with
  | sendAudio f =>
    simp only [call]
    split
    · simp [handed]
    · simp [handed, accept]
  | sendControl msg =>
    simp only [call]
    split <;> simp [handed, accept]
  | pop => cases hq : q.queue.held <;> simp [call, handed, hq]
  | close => simp [call, handed]

theorem run_taken : ∀ (calls : List SendCall) (q : SendQueue size),
    (q.run calls).2.queue.taken = q.queue.taken ++ handed (q.run calls).1
  | [], q => by simp [run, Run.calls, handed]
  | x :: xs, q => by
    have ih := run_taken xs (q.call x).2
    rw [run] at ih ⊢
    rw [Run.calls, ih, call_taken, List.append_assoc]
    simp only [handed, ← List.filterMap_append, List.singleton_append]

theorem handed_pops : ∀ (n : Nat) (q : SendQueue size),
    handed (q.run (List.replicate n .pop)).1 = q.queue.held.take n
  | 0, q => rfl
  | n + 1, q => by
    have ih := handed_pops n { q with queue := q.queue.take }
    rw [run] at ih ⊢
    rw [List.replicate_succ, Run.calls]
    cases hq : q.queue.held with
    | nil => simpa [handed, call, hq, DropQueue.take] using ih
    | cons m l => simpa [handed, call, hq, DropQueue.take] using ih

end SendQueue

namespace SendRing

variable {size : Nat}

abbrev run (moved : UpstreamMsg → UpstreamMsg) (h : 0 < size) (calls : List SendCall) : List SendAnswer × SendRing size :=
  Run.calls (call moved) calls (make h)

theorem run_shows (moved : UpstreamMsg → UpstreamMsg) (h : 0 < size) (calls : List SendCall) :
    (run moved h calls).1 = ((SendQueue.make size).run calls).1 ∧
    (run moved h calls).2.Shows ((SendQueue.make size).run calls).2 :=
  Run.calls_sim (fun _ _ x hs => hs.call moved x) calls _ _ (shows_make h)

/-- The answer of `SendAudio` says whether the frame went in and nothing went for it. -/
theorem sendAudio_eq_true_iff (q : SendRing size) (f : AudioFrame) (l : List UpstreamMsg) :
    (q.sendAudio f).1 = true ↔
      l ++ (if q.ringClosed then [] else (SendCall.sendAudio f).msg?.toList) = l ++ [.audio f] ∧
      (q.sendAudio f).2.framesDropped = q.framesDropped := by
  unfold sendAudio
  by_cases hf : f.sampleCount = 0
  · simp [hf, SendCall.msg?]
  · cases hc : q.ringClosed <;> cases hfull : q.full <;> simp [hf, hfull, ringPush, SendCall.msg?]

/-- **The send ring is a drop-oldest queue.**  Whatever a pop leaves in its slot, every sequence of calls is answered as
the bounded list answers it, and the ring holds what the list holds.  What was handed to the writer and then what is held
is what was accepted, in order, without the messages marked as dropped, which `frames_dropped` counts.  What is held is
handed out by the pops that follow, after `close` as before it.  `SendAudio` answers true exactly when the frame is
accepted and nothing is dropped. -/
theorem send_ring_is_drop_queue (h : 0 < size) (moved : UpstreamMsg → UpstreamMsg) (calls : List SendCall) :
    ((run moved h calls).1 = ((SendQueue.make size).run calls).1 ∧
      (run moved h calls).2.ring.toList = ((SendQueue.make size).run calls).2.queue.held) ∧
    (∃ marks : List (UpstreamMsg × Bool), marks.map Prod.fst = accepted calls ∧
      (marks.filter (fun d => !d.2)).map Prod.fst = handed (run moved h calls).1 ++ (run moved h calls).2.ring.toList ∧
      (marks.filter (·.2)).length = (run moved h calls).2.framesDropped) ∧
    (∀ n, handed (run moved h (calls ++ List.replicate n .pop)).1
      = handed (run moved h calls).1 ++ (run moved h calls).2.ring.toList.take n) ∧
    (∀ f, ((run moved h calls).2.sendAudio f).1 = true ↔
      accepted (calls ++ [.sendAudio f]) = accepted calls ++ [.audio f] ∧
      ((run moved h calls).2.sendAudio f).2.framesDropped = (run moved h calls).2.framesDropped) := by
  obtain ⟨hout, hs⟩ := run_shows moved h calls
  have hoffered : ∀ calls, ((SendQueue.make size).run calls).2.queue.offered = accepted calls := fun calls =>
    SendQueue.run_offered calls _
  have htaken : ((SendQueue.make size).run calls).2.queue.taken = handed (run moved h calls).1 := by
    rw [SendQueue.run_taken, hout]
    rfl
  refine ⟨⟨hout, hs.held⟩, ?_, fun n => ?_, fun f => ?_⟩
  · obtain ⟨marks, hm, hk, hd⟩ := ((SendQueue.make size).run calls).2.queue.marks
    refine ⟨marks, hm.trans (hoffered calls), by rw [hk, htaken, hs.held], ?_⟩
    rw [hs.dropped, ← hd, List.length_map]
  · rw [(run_shows moved h _).1, hout, SendQueue.run, Run.calls_append, hs.held]
    simp only [handed, List.filterMap_append]
    exact congrArg _ (SendQueue.handed_pops n _)
  · have hnext : accepted (calls ++ [.sendAudio f]) = accepted calls
        ++ (if ((SendQueue.make size).run calls).2.closed then [] else (SendCall.sendAudio f).msg?.toList) := by
      rw [← hoffered, ← hoffered, ← (SendQueue.call_offered _ _).1, SendQueue.run, Run.calls_append]
      rfl
    rw [hnext, ← hs.closed]
    exact sendAudio_eq_true_iff _ f _

/-- Three frames, a control message and a close, on a ring of two slots. -/
def busyRing : List SendCall :=
  [.sendAudio ⟨[1], 8000, 1, 0, 0, 0, []⟩, .sendAudio ⟨[2], 8000, 1, 1, 1, 0, []⟩, .sendControl [7],
    .sendAudio ⟨[3], 8000, 1, 2, 2, 0, []⟩, .close, .sendAudio ⟨[4], 8000, 1, 3, 3, 0, []⟩]

theorem send_ring_is_drop_queue_busyRing :
    handed (run id (by decide : 0 < 2) (busyRing ++ List.replicate 3 .pop)).1
      = [.control [7], .audio ⟨[3], 8000, 1, 2, 2, 0, []⟩] :=
  ((send_ring_is_drop_queue (by decide : 0 < 2) id busyRing).2.2.1 3).trans (by decide +kernel)

end SendRing
end Media
end Osw
