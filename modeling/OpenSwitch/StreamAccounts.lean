import OpenSwitch.SendRing
/-!
# StreamAccounts — where the audio frames of a stream went

`frames_dropped` counts every message that a full ring drops, control messages too, and a frame whose `Write` fails is in
no counter.  So what `SendAudio` accepted is what was sent, dropped or is still in the ring up to these two
(`Counted.balance`), and exactly that in every run in which neither happens.  The ring such a run leaves behind is one
the send ring's own calls leave behind, with the same history (`ring_of_run`).
-/
namespace Osw
namespace Media

/-- What the producers, `Close` and the writer do to a stream. -/
inductive StreamAct
  | sendAudio (f : AudioFrame)
  | sendControl (msg : Bytes)
  | close
  | writer (ok : Bool)
  deriving DecidableEq, Repr

def audioCount (ms : List UpstreamMsg) : Nat := ms.countP (fun m => m.frame?.isSome)

def controlCount (ms : List UpstreamMsg) : Nat := ms.countP (fun m => !m.frame?.isSome)

theorem length_filterMap_frame? (ms : List UpstreamMsg) :
    (ms.filterMap UpstreamMsg.frame?).length = audioCount ms :=
  List.length_filterMap_eq_countP

theorem audioCount_append (ms ms' : List UpstreamMsg) : audioCount (ms ++ ms') = audioCount ms + audioCount ms' :=
  List.countP_append

theorem audioCount_singleton (m : UpstreamMsg) : audioCount [m] = m.frame?.toList.length := by cases m <;> rfl

theorem controlCount_append (ms ms' : List UpstreamMsg) :
    controlCount (ms ++ ms') = controlCount ms + controlCount ms' :=
  List.countP_append

theorem length_eq_counts (ms : List UpstreamMsg) : ms.length = audioCount ms + controlCount ms := by
  rw [List.length_eq_countP_add_countP (fun m : UpstreamMsg => m.frame?.isSome), audioCount, controlCount]
  congr 2
  funext m
  cases m <;> rfl

namespace StreamClient

variable {c : Nat} {k k' : StreamClient c} {a : StreamAct}

def step (k : StreamClient c) : StreamAct → Option (StreamClient c)
  | .sendAudio f     => some (k.sendAudio f)
  | .sendControl msg => some (k.sendControl msg)
  | .close           => some k.close
  | .writer ok       => k.writerStep ok

/-- What the writer took out and did not write. -/
def unwritten (k : StreamClient c) : List UpstreamMsg := k.ring.taken.drop k.written.length

/-- A stream whose counters count what its history says. -/
structure Counted (k : StreamClient c) : Prop where
  sound   : k.Sound
  dropped : k.framesDropped = k.ring.drops.length
  sent    : k.framesSent = audioCount k.written

theorem counted_make (h : 0 < c) : (make h).Counted := ⟨sound_make h, rfl, rfl⟩

theorem Counted.taken_eq (h : k.Counted) : k.ring.taken = k.written ++ k.unwritten := by
  obtain ⟨rest, hrest⟩ := (List.prefix_append k.written k.inHand).trans h.sound.written
  rw [unwritten, ← hrest, List.drop_left]

/-- **The audio account of a stream.**  What was accepted, and the control messages that were dropped, are what was
sent, dropped, is in the ring, or was taken out and not written. -/
theorem Counted.balance (h : k.Counted) :
    k.queued.length + controlCount k.ring.drops
      = k.framesSent + k.framesDropped + audioCount k.ring.ring.toList + audioCount k.unwritten := by
  have hkept : k.ring.pushed = k.ring.gone.map Prod.fst ++ k.ring.ring.toList := h.sound.kept
  have hgone := k.ring.countP_gone (fun m => m.frame?.isSome)
  have htaken := congrArg audioCount h.taken_eq
  rw [audioCount_append] at htaken
  rw [queued, length_filterMap_frame?, hkept, audioCount_append, h.dropped, h.sent, length_eq_counts k.ring.drops]
  unfold audioCount at *
  omega

theorem Counted.enqueue (h : k.Counted) (m : UpstreamMsg) : (k.enqueue m).Counted := by
  refine ⟨h.sound.enqueue m, ?_, h.sent⟩
  change k.framesDropped + _ = (k.ring.push m).drops.length
  rw [Trail.drops_push, List.length_append, h.dropped]

theorem Counted.writerStep {ok : Bool} (h : k.Counted) (hs : k.writerStep ok = some k') : k'.Counted := by
  have hsound := h.sound.writerStep hs
  cases turn_of_writerStep hs with
  | takes => exact ⟨hsound, h.dropped.trans (congrArg List.length (Trail.drops_pop _).symm), h.sent⟩
  | leaves => exact ⟨hsound, h.dropped, h.sent⟩
  | wrote m =>
    refine ⟨hsound, h.dropped, ?_⟩
    change k.framesSent + m.frame?.toList.length = audioCount (k.written ++ [m])
    rw [h.sent, audioCount_append, audioCount_singleton]
  | failed => exact ⟨hsound, h.dropped, h.sent⟩

theorem Counted.step (h : k.Counted) (hs : k.step a = some k') : k'.Counted := by
  cases a with
  | sendAudio f =>
    cases hs
    unfold sendAudio
    split
    · exact h.enqueue _
    · exact h
  | sendControl msg =>
    cases hs
    unfold sendControl
    split
    · exact h
    · exact h.enqueue _
  | close =>
    cases hs
    exact ⟨h.sound.of_same rfl rfl rfl, h.dropped, h.sent⟩
  | writer ok => exact h.writerStep hs

/-! ## The ring of a stream is the send ring -/

/-- The queue that the ring of a stream is. -/
def Sound.sendQueue {k : StreamClient c} (h : k.Sound) : SendQueue c := ⟨h.kept.toQueue, k.ringClosed⟩

theorem Sound.sendQueue_eq (h : k.Sound) (h' : k'.Sound) (hk : k' = k) : h'.sendQueue = h.sendQueue := by
  subst hk
  rfl

theorem Sound.sendQueue_enqueue (h : k.Sound) (h' : k'.Sound) {m : UpstreamMsg} (hk : k' = k.enqueue m) :
    h'.sendQueue = h.sendQueue.accept m := by
  subst hk
  exact congrArg (SendQueue.mk · k.ringClosed) (h.kept.toQueue_push m)

/-- **One step of a stream is at most one call on its ring.** -/
theorem Sound.step_calls (h : k.Sound) (h' : k'.Sound) (hs : k.step a = some k') :
    ∃ calls, h'.sendQueue = (h.sendQueue.run calls).2 := by
  have hclosed : h.sendQueue.closed = k.ringClosed := rfl
  cases a with
  | sendAudio f =>
    cases hs
    refine ⟨[.sendAudio f], ?_⟩
    have htakes : k.takes f = true ↔ ¬ (f.sampleCount = 0 ∨ h.sendQueue.closed = true) := by
      simp [takes, hclosed]
    simp only [Run.calls, SendQueue.call]
    split
    · rename_i hrefused
      exact h.sendQueue_eq h' (if_neg (fun ht => htakes.1 ht hrefused))
    · rename_i htaken
      exact h.sendQueue_enqueue h' (if_pos (htakes.2 htaken))
  | sendControl msg =>
    cases hs
    refine ⟨[.sendControl msg], ?_⟩
    simp only [Run.calls, SendQueue.call]
    split
    · rename_i hc
      exact h.sendQueue_eq h' (if_pos hc)
    · rename_i hopen
      exact h.sendQueue_enqueue h' (if_neg hopen)
  | close =>
    cases hs
    exact ⟨[.close], rfl⟩
  | writer ok =>
    cases turn_of_writerStep hs with
    | takes _ _ hne => exact ⟨[.pop], congrArg (SendQueue.mk · k.ringClosed) (h.kept.toQueue_pop hne)⟩
    | leaves => exact ⟨[], rfl⟩
    | wrote => exact ⟨[], rfl⟩
    | failed => exact ⟨[], rfl⟩

/-- **The ring that a run of a stream leaves is one that calls on the send ring leave**: it took in the same messages,
handed out the same, holds the same and has dropped as many. -/
theorem ring_of_run (h : 0 < c) (moved : UpstreamMsg → UpstreamMsg) {acts : List StreamAct} {t : StreamClient c}
    (ht : Run.exec step acts (make h) = some t) :
    ∃ calls, accepted calls = t.ring.pushed ∧ handed (SendRing.run moved h calls).1 = t.ring.taken ∧
      (SendRing.run moved h calls).2.ring.toList = t.ring.ring.toList ∧
      (SendRing.run moved h calls).2.ringClosed = t.ringClosed ∧
      (SendRing.run moved h calls).2.framesDropped = t.framesDropped := by
  have hrun : ∃ hc : t.Counted, ∃ calls, hc.sound.sendQueue = ((SendQueue.make c).run calls).2 := by
    refine Run.exec_inv (I := fun k => ∃ hc : k.Counted, ∃ calls, hc.sound.sendQueue = ((SendQueue.make c).run calls).2)
      (fun k a k' hk hs => ?_) acts _ t ⟨counted_make h, [], rfl⟩ ht
    obtain ⟨hc, calls, hq⟩ := hk
    obtain ⟨more, hnext⟩ := hc.sound.step_calls (hc.step hs).sound hs
    refine ⟨hc.step hs, calls ++ more, ?_⟩
    rw [hnext, hq, SendQueue.run, SendQueue.run, SendQueue.run, Run.calls_append]
  obtain ⟨hc, calls, hq⟩ := hrun
  obtain ⟨hout, hshows⟩ := SendRing.run_shows moved h calls
  rw [← hq] at hshows
  refine ⟨calls, ?_, ?_, hshows.held, hshows.closed, hshows.dropped.trans hc.dropped.symm⟩
  · have hoffered := SendQueue.run_offered calls (SendQueue.make c)
    rw [← hq] at hoffered
    exact hoffered.symm
  · have htaken := SendQueue.run_taken calls (SendQueue.make c)
    rw [← hq, ← hout] at htaken
    exact htaken.symm

/-- A step that the counters can follow: a full ring drops an audio frame, and the `Write` of an audio frame succeeds. -/
def followed (k : StreamClient c) : StreamAct → Bool
  | .sendAudio f   => !k.takes f || decide (k.ring.ring.count ≠ c) || k.ring.ring.front.frame?.isSome
  | .sendControl _ => k.ringClosed || decide (k.ring.ring.count ≠ c) || k.ring.ring.front.frame?.isSome
  | .close         => true
  | .writer ok     => ok || decide (audioCount k.inHand = 0)

/-- Nothing has gone past the counters: no control message was dropped, and no audio frame but the one in hand was taken
out and not written. -/
structure Clean (k : StreamClient c) : Prop where
  counted  : k.Counted
  controls : controlCount k.ring.drops = 0
  lost     : audioCount k.unwritten = audioCount k.inHand

theorem clean_make (h : 0 < c) : (make h).Clean := ⟨counted_make h, rfl, rfl⟩

theorem Clean.enqueue (h : k.Clean) (m : UpstreamMsg)
    (hdrop : k.ring.ring.count ≠ c ∨ k.ring.ring.front.frame?.isSome) : (k.enqueue m).Clean := by
  refine ⟨h.counted.enqueue m, ?_, ?_⟩
  · change controlCount (k.ring.push m).drops = 0
    rw [Trail.drops_push, controlCount_append, h.controls, Nat.zero_add]
    by_cases hfull : k.ring.ring.count = c
    · have hsome := hdrop.resolve_left (fun hne => hne hfull)
      rw [DropRing.dropped, if_pos hfull, Option.toList_some, controlCount, List.countP_singleton, hsome]
      rfl
    · rw [DropRing.dropped, if_neg hfull]
      rfl
  · change audioCount ((k.ring.push m).taken.drop k.written.length) = _
    rw [Trail.taken_push]
    exact h.lost

/-- While it runs, the writer has in hand what it took out and did not write. -/
theorem unwritten_eq_inHand (h : k.Sound) (hrun : k.writer ≠ .exited) : k.unwritten = k.inHand := by
  rw [unwritten, ← h.running hrun, List.drop_left]

theorem Clean.writerStep {ok : Bool} (h : k.Clean) (hg : k.followed (.writer ok) = true)
    (hs : k.writerStep ok = some k') : k'.Clean := by
  have hc := h.counted.writerStep hs
  have hlost : k'.writer ≠ .exited → audioCount k'.unwritten = audioCount k'.inHand := fun hrun => by
    rw [unwritten_eq_inHand hc.sound hrun]
  cases turn_of_writerStep hs with
  | takes => exact ⟨hc, by rw [Trail.drops_pop]; exact h.controls, hlost (by simp)⟩
  | wrote => exact ⟨hc, h.controls, hlost (by simp)⟩
  | leaves _ hw =>
    -- the writer leaves with nothing in hand
    refine ⟨hc, h.controls, h.lost.trans ?_⟩
    rw [inHand, hw]
    rfl
  | failed m hw =>
    -- what it leaves behind is no audio frame
    refine ⟨hc, h.controls, h.lost.trans ?_⟩
    simp only [followed, Bool.false_or, decide_eq_true_eq] at hg
    rw [hg]
    rfl

theorem Clean.step (h : k.Clean) (hg : k.followed a = true) (hs : k.step a = some k') : k'.Clean := by
  cases a with
  | sendAudio f =>
    cases hs
    simp only [followed, Bool.or_eq_true, Bool.not_eq_true', decide_eq_true_eq] at hg
    unfold sendAudio
    split
    · rename_i htakes
      refine h.enqueue _ ?_
      rcases hg with (hg | hg) | hg
      · rw [htakes] at hg
        cases hg
      · exact .inl hg
      · exact .inr hg
    · exact h
  | sendControl msg =>
    cases hs
    simp only [followed, Bool.or_eq_true, decide_eq_true_eq] at hg
    unfold sendControl
    split
    · exact h
    · rename_i hopen
      refine h.enqueue _ ?_
      rcases hg with (hg | hg) | hg
      · exact absurd hg hopen
      · exact .inl hg
      · exact .inr hg
  | close =>
    cases hs
    exact ⟨h.counted.step (a := .close) rfl, h.controls, h.lost⟩
  | writer ok => exact h.writerStep hg hs

/-- **Audio frame accounting.**  Take any run from an open stream to a state in which the writer waits or has left.  What
`SendAudio` accepted is what was sent, dropped or is in the ring if every step of the run is one the counters can follow;
and in every run, exactly when as many control messages were dropped as audio frames were taken out and not written. -/
theorem audio_accounting (h : 0 < c) (acts : List StreamAct) (t : StreamClient c)
    (ht : Run.exec step acts (make h) = some t) (hrest : t.writer = .waiting ∨ t.writer = .exited) :
    (Run.along step followed acts (make h) = true →
      t.queued.length = t.framesSent + t.framesDropped + audioCount t.ring.ring.toList) ∧
    (t.queued.length = t.framesSent + t.framesDropped + audioCount t.ring.ring.toList ↔
      controlCount t.ring.drops = audioCount t.unwritten) := by
  have hcounted : t.Counted := Run.exec_inv (fun _ _ _ hi hs => hi.step hs) acts _ t (counted_make h) ht
  have hbal := hcounted.balance
  have hhand : t.inHand = [] := by
    rcases hrest with hw | hw <;> rw [inHand, hw]
  have hiff : t.queued.length = t.framesSent + t.framesDropped + audioCount t.ring.ring.toList ↔
      controlCount t.ring.drops = audioCount t.unwritten := by omega
  refine ⟨fun hall => hiff.2 ?_, hiff⟩
  have hclean : t.Clean := Run.exec_inv_along (fun _ _ _ hi hg hs => hi.step hg hs) acts _ t (clean_make h) hall ht
  rw [hclean.controls, hclean.lost, hhand]
  rfl

/-- Two frames into a ring of one slot, one of them written. -/
def twoFrames : List StreamAct :=
  [.sendAudio ⟨[1], 8000, 1, 0, 0, 0, []⟩, .sendAudio ⟨[2], 8000, 1, 1, 1, 0, []⟩, .writer true, .writer true]

theorem audio_accounting_twoFrames :
    ∃ t, Run.exec step twoFrames (make (by decide : 0 < 1)) = some t ∧ t.writer = .waiting ∧
      t.queued.length = t.framesSent + t.framesDropped + audioCount t.ring.ring.toList := by
  have hend : (Run.exec step twoFrames (make (by decide : 0 < 1))).map (·.writer) = some .waiting := by decide +kernel
  obtain ⟨t, ht, hw⟩ := Option.map_eq_some_iff.1 hend
  exact ⟨t, ht, hw, (audio_accounting _ twoFrames t ht (.inl hw)).1 (by decide +kernel)⟩

theorem ring_of_run_twoFrames :
    (Run.exec step twoFrames (make (by decide : 0 < 1))).map (·.framesDropped) = some 1 ∧
    ∀ t, Run.exec step twoFrames (make (by decide : 0 < 1)) = some t →
      ∃ calls, accepted calls = t.ring.pushed ∧ handed (SendRing.run id (by decide : 0 < 1) calls).1 = t.ring.taken := by
  refine ⟨by decide +kernel, fun t ht => ?_⟩
  obtain ⟨calls, hin, hout, -⟩ := ring_of_run _ id ht
  exact ⟨calls, hin, hout⟩

/-- A control message is dropped for the one frame that is accepted, and counted as a frame; a frame that was accepted is
lost with its failed `Write`, and counted nowhere. -/
theorem audio_accounting_off :
    ((Run.exec step [.sendControl [7], .sendAudio ⟨[1], 8000, 1, 0, 0, 0, []⟩] (make (by decide : 0 < 1))).map
      (fun t => (t.writer, t.queued.length, t.framesSent, t.framesDropped, audioCount t.ring.ring.toList)))
      = some (.waiting, 1, 0, 1, 1) ∧
    ((Run.exec step [.sendAudio ⟨[1], 8000, 1, 0, 0, 0, []⟩, .writer true, .writer false] (make (by decide : 0 < 1))).map
      (fun t => (t.writer, t.queued.length, t.framesSent, t.framesDropped, audioCount t.ring.ring.toList)))
      = some (.exited, 1, 0, 0, 0) := by
  constructor <;> decide +kernel

end StreamClient
end Media
end Osw
