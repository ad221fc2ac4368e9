import OpenSwitch.AudioFrame
import OpenSwitch.DropRing
/-!
# StreamClient — the upstream side of a media stream (`stream_client.h`, `stream_client.cc`)

A stream has two atomic counters, `NextSeq` and `AdvanceTimestamp`, a bounded send ring that drops its oldest message
when full, and a writer thread that pops the ring and writes upstream.  The producers of the module call the three one
after the other, and nothing holds them together.
-/
namespace Osw
namespace Media

/-- `FromModule`, as far as the send ring carries it. -/
inductive UpstreamMsg
  | audio (f : AudioFrame)
  | control (msg : Bytes)
  deriving DecidableEq, Repr, Inhabited

def UpstreamMsg.frame? : UpstreamMsg → Option AudioFrame
  | .audio f   => some f
  | .control _ => none

/-- Where `WriterLoop` is. -/
inductive UpstreamWriter
  | waiting
  | writing (m : UpstreamMsg)
  | exited
  deriving DecidableEq, Repr

/-- The members of `StreamClient`, with a send ring of `c` slots; `written` is what `Write` accepted, in order.
`framesDropped` and `framesSent` are exact below `2 ^ 64`. -/
structure StreamClient (c : Nat) where
  ring          : Trail UpstreamMsg c
  ringClosed    : Bool
  seqCounter    : Nat
  tsCounter     : Nat
  framesDropped : Nat
  framesSent    : Nat
  writer        : UpstreamWriter
  written       : List UpstreamMsg

namespace StreamClient

variable {c : Nat} {ok : Bool} {k k' : StreamClient c}

/-- A stream just opened; its ring has at least one slot. -/
def make (h : 0 < c) : StreamClient c := ⟨.make h, false, 0, 0, 0, 0, .waiting, []⟩

/-- `NextSeq`, which returns the counter as it was. -/
def nextSeq (k : StreamClient c) : StreamClient c := { k with seqCounter := (k.seqCounter + 1) % 2 ^ 64 }

/-- `AdvanceTimestamp`, which returns the counter as it was. -/
def advanceTimestamp (k : StreamClient c) (samples : Nat) : StreamClient c :=
  { k with tsCounter := (k.tsCounter + samples) % 2 ^ 64 }

/-- A message put into an open ring, over the oldest one when it is full. -/
def enqueue (k : StreamClient c) (m : UpstreamMsg) : StreamClient c :=
  { k with
    ring := k.ring.push m
    framesDropped := k.framesDropped + k.ring.ring.dropped.toList.length }

/-- `SendAudio` takes the frame: the ring is open and the frame is not empty. -/
def takes (k : StreamClient c) (f : AudioFrame) : Bool := decide (f.sampleCount ≠ 0) && !k.ringClosed

def sendAudio (k : StreamClient c) (f : AudioFrame) : StreamClient c :=
  if k.takes f then k.enqueue (.audio f) else k

def sendControl (k : StreamClient c) (msg : Bytes) : StreamClient c :=
  if k.ringClosed then k else k.enqueue (.control msg)

/-- The part of `Close` that the producers and the writer see. -/
def close (k : StreamClient c) : StreamClient c := { k with ringClosed := true }

/-- One step of `WriterLoop`: a pop, under the ring's lock, or a `Write`, which succeeds or not.  The writer sleeps
while the ring is open and empty. -/
def writerStep (k : StreamClient c) (ok : Bool) : Option (StreamClient c) :=
  match k.writer with
  | .waiting =>
    if k.ring.ring.count ≠ 0 then some { k with ring := k.ring.pop, writer := .writing k.ring.ring.front }
    else if k.ringClosed then some { k with writer := .exited }
    else none
  | .writing m =>
    if ok then
      some { k with
        written := k.written ++ [m]
        framesSent := k.framesSent + m.frame?.toList.length
        writer := .waiting }
    else some { k with writer := .exited }
  | .exited => none

/-- The turns of the writer: it takes a message, leaves a closed and empty ring, or its `Write` succeeds or fails. -/
inductive WriterTurn (k : StreamClient c) : Bool → StreamClient c → Prop
  | takes (ok : Bool) (waiting : k.writer = .waiting) (nonempty : k.ring.ring.count ≠ 0) :
    WriterTurn k ok { k with ring := k.ring.pop, writer := .writing k.ring.ring.front }
  | leaves (ok : Bool) (waiting : k.writer = .waiting) (empty : k.ring.ring.count = 0) :
    WriterTurn k ok { k with writer := .exited }
  | wrote (m : UpstreamMsg) (writing : k.writer = .writing m) :
    WriterTurn k true { k with
      written := k.written ++ [m]
      framesSent := k.framesSent + m.frame?.toList.length
      writer := .waiting }
  | failed (m : UpstreamMsg) (writing : k.writer = .writing m) : WriterTurn k false { k with writer := .exited }

theorem turn_of_writerStep (h : k.writerStep ok = some k') : k.WriterTurn ok k' := by
  unfold writerStep at h
  split at h
  · rename_i hw
    split at h
    · rename_i hne
      cases h
      exact .takes ok hw hne
    · rename_i hzero
      split at h <;> cases h
      exact .leaves ok hw (not_not.1 hzero)
  · rename_i m hw
    cases ok with
    | true =>
      cases h
      exact .wrote m hw
    | false =>
      cases h
      exact .failed m hw
  · cases h

/-- The audio frames that entered the send ring, in order. -/
def queued (k : StreamClient c) : List AudioFrame := k.ring.pushed.filterMap UpstreamMsg.frame?

/-- The audio frames written upstream, in order. -/
def upstream (k : StreamClient c) : List AudioFrame := k.written.filterMap UpstreamMsg.frame?

/-! ## What a producer's step does to the queue -/

theorem queued_enqueue (k : StreamClient c) (m : UpstreamMsg) : (k.enqueue m).queued = k.queued ++ m.frame?.toList := by
  simp only [queued, enqueue, Trail.push, List.filterMap_append]
  cases m <;> rfl

theorem queued_sendAudio (k : StreamClient c) (f : AudioFrame) :
    (k.sendAudio f).queued = if k.takes f then k.queued ++ [f] else k.queued := by
  unfold sendAudio
  split
  · exact k.queued_enqueue _
  · rfl

theorem queued_sendControl (k : StreamClient c) (msg : Bytes) : (k.sendControl msg).queued = k.queued := by
  unfold sendControl
  split
  · rfl
  · rw [queued_enqueue]
    exact List.append_nil _

theorem queued_writerStep (h : k.writerStep ok = some k') :
    k'.queued = k.queued ∧ k'.seqCounter = k.seqCounter ∧ k'.tsCounter = k.tsCounter := by
  cases turn_of_writerStep h <;> exact ⟨rfl, rfl, rfl⟩

theorem sendAudio_counters (k : StreamClient c) (f : AudioFrame) :
    (k.sendAudio f).seqCounter = k.seqCounter ∧ (k.sendAudio f).tsCounter = k.tsCounter := by
  unfold sendAudio
  split <;> exact ⟨rfl, rfl⟩

theorem sendControl_counters (k : StreamClient c) (msg : Bytes) :
    (k.sendControl msg).seqCounter = k.seqCounter ∧ (k.sendControl msg).tsCounter = k.tsCounter := by
  unfold sendControl
  split <;> exact ⟨rfl, rfl⟩

/-! ## From the ring to the wire -/

/-- The message the writer has popped and not written. -/
def inHand (k : StreamClient c) : List UpstreamMsg :=
  match k.writer with
  | .writing m => [m]
  | _ => []

/-- The ring keeps its history, and the writer writes what it takes out, in order, until a write fails. -/
structure Sound (k : StreamClient c) : Prop where
  kept    : k.ring.Kept
  written : k.written ++ k.inHand <+: k.ring.taken
  running : k.writer ≠ .exited → k.written ++ k.inHand = k.ring.taken

theorem sound_make (h : 0 < c) : (make h).Sound := ⟨Trail.kept_make h, List.prefix_rfl, fun _ => rfl⟩

theorem Sound.enqueue (h : k.Sound) (m : UpstreamMsg) : (k.enqueue m).Sound := by
  have htaken : (k.enqueue m).ring.taken = k.ring.taken := Trail.taken_push _ _
  exact ⟨h.kept.push m, htaken ▸ h.written, fun hw => htaken ▸ h.running hw⟩

theorem Sound.sendAudio (h : k.Sound) (f : AudioFrame) : (k.sendAudio f).Sound := by
  unfold StreamClient.sendAudio
  split
  · exact h.enqueue _
  · exact h

theorem Sound.sendControl (h : k.Sound) (msg : Bytes) : (k.sendControl msg).Sound := by
  unfold StreamClient.sendControl
  split
  · exact h
  · exact h.enqueue _

theorem Sound.of_same (h : k.Sound) (hr : k'.ring = k.ring) (hw : k'.writer = k.writer) (hn : k'.written = k.written) :
    k'.Sound := by
  have hh : k'.inHand = k.inHand := by rw [inHand, inHand, hw]
  exact ⟨hr ▸ h.kept, by rw [hr, hn, hh]; exact h.written, fun hne => by rw [hr, hn, hh]; exact h.running (hw ▸ hne)⟩

theorem Sound.taken_of_waiting (h : k.Sound) (hw : k.writer = .waiting) : k.written = k.ring.taken := by
  have hrun := h.running (by simp [hw])
  rwa [inHand, hw, List.append_nil] at hrun

theorem Sound.taken_of_writing (h : k.Sound) {m : UpstreamMsg} (hw : k.writer = .writing m) :
    k.written ++ [m] = k.ring.taken := by
  have hrun := h.running (by simp [hw])
  rwa [inHand, hw] at hrun

theorem Sound.writerStep (h : k.Sound) (hs : k.writerStep ok = some k') : k'.Sound := by
  cases turn_of_writerStep hs with
  | takes _ hw hne =>
    have heq : k.written ++ [k.ring.ring.front] = k.ring.pop.taken := by rw [Trail.taken_pop, h.taken_of_waiting hw]
    exact ⟨h.kept.pop hne, heq ▸ List.prefix_rfl, fun _ => heq⟩
  | leaves _ hw =>
    have heq : k.written ++ [] = k.ring.taken := by rw [List.append_nil, h.taken_of_waiting hw]
    exact ⟨h.kept, heq ▸ List.prefix_rfl, fun hne => absurd rfl hne⟩
  | wrote m hw =>
    have heq : (k.written ++ [m]) ++ [] = k.ring.taken := by rw [List.append_nil, h.taken_of_writing hw]
    exact ⟨h.kept, heq ▸ List.prefix_rfl, fun _ => heq⟩
  | failed m hw =>
    refine ⟨h.kept, ?_, fun hne => absurd rfl hne⟩
    change k.written ++ [] <+: k.ring.taken
    rw [List.append_nil, ← h.taken_of_writing hw]
    exact List.prefix_append _ _

/-- **What goes upstream entered the ring, in the same order.** -/
theorem Sound.upstream_sublist (h : k.Sound) : k.upstream.Sublist k.queued := by
  have htaken : k.ring.taken.Sublist k.ring.pushed := by
    rw [h.kept]
    exact ((List.filter_sublist.map _).trans (List.sublist_append_left _ _))
  have hwritten : k.written.Sublist k.ring.taken := ((List.prefix_append _ _).trans h.written).sublist
  exact (hwritten.trans htaken).filterMap _

end StreamClient
end Media
end Osw
