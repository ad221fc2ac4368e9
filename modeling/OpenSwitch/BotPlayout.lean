import Mathlib.Data.List.Nodup
import Mathlib.Data.List.Infix
import OpenSwitch.AudioFrame
import OpenSwitch.Run
/-!
# BotPlayout — what a bot says, played on its targets (`bug_fanout.cc`, `OswBotWriteReplace`)

The reader of the bot's stream pushes every frame into the queue of each write target, one target after another; the
write-replace callback of a target pops one frame and copies as much of it as the channel's frame has room for.  What a
callback does not copy is gone: the samples on a target are a prefix of those pushed as long as every popped frame fits
the callback it is popped in (`playout_lossless`).
-/
namespace Osw
namespace Media

inductive FanoutMode
  | broadcast
  | whisper
  deriving DecidableEq, Repr

/-- `BugFanout::Config`. -/
structure FanoutConfig where
  mode             : FanoutMode
  targetUuids      : List Bytes
  writeSubsetUuids : List Bytes
  capacityFrames   : Nat
  deriving DecidableEq, Repr

namespace FanoutConfig

/-- `FindQueue`: the place of the first queue of a uuid.  There is a queue for each entry of `target_uuids`. -/
def findQueue (cfg : FanoutConfig) (uuid : Bytes) : Option Nat := cfg.targetUuids.findIdx? (· == uuid)

/-- `write_queues_`. -/
def writeQueues (cfg : FanoutConfig) : List Nat :=
  match cfg.mode with
  | .broadcast => List.range cfg.targetUuids.length
  | .whisper   => cfg.writeSubsetUuids.filterMap cfg.findQueue

theorem findQueue_inj {cfg : FanoutConfig} {u v : Bytes} {i : Nat} (hu : cfg.findQueue u = some i)
    (hv : cfg.findQueue v = some i) : u = v := by
  obtain ⟨hi, hu, -⟩ := List.findIdx?_eq_some_iff_getElem.1 hu
  obtain ⟨_, hv, -⟩ := List.findIdx?_eq_some_iff_getElem.1 hv
  exact (beq_iff_eq.1 hu).symm.trans (beq_iff_eq.1 hv)

theorem nodup_writeQueues {cfg : FanoutConfig} (h : cfg.writeSubsetUuids.Nodup) : cfg.writeQueues.Nodup := by
  unfold writeQueues
  split
  · exact List.nodup_range
  · exact h.filterMap (fun u v i hu hv => findQueue_inj hu hv)

end FanoutConfig

/-- A target's queue; what `Push` dropped from it and what `Pop` handed out are histories. -/
structure TargetQueue where
  queue   : List AudioFrame
  dropped : List AudioFrame
  popped  : List AudioFrame
  deriving DecidableEq, Repr

namespace TargetQueue

def empty : TargetQueue := ⟨[], [], []⟩

def excess (capacity : Nat) (t : TargetQueue) : Nat := t.queue.length + 1 - capacity

/-- The body of the loop of `Push`: a frame at the end, and the oldest ones off until the queue is within bounds. -/
def pushBack (capacity : Nat) (f : AudioFrame) (t : TargetQueue) : TargetQueue :=
  { t with
    queue := (t.queue ++ [f]).drop (t.excess capacity)
    dropped := t.dropped ++ (t.queue ++ [f]).take (t.excess capacity) }

/-- The frame at the front is handed out. -/
def popFront (t : TargetQueue) : TargetQueue :=
  { t with queue := t.queue.tail, popped := t.popped ++ t.queue.head?.toList }

end TargetQueue

namespace WriteFrame

/-- `cap_samples`. -/
def capSamples (w : WriteFrame) : Nat := w.datalen.toNat / 2

/-- `fs_rate`. -/
def fsRate (w : WriteFrame) (fsRateHz : Nat) : Nat := if w.rate ≠ 0 then w.rate.toNat else fsRateHz

/-- The callback has to resample. -/
def resamples (w : WriteFrame) (fsRateHz : Nat) (f : AudioFrame) : Bool :=
  decide (w.fsRate fsRateHz ≠ 0 ∧ f.sampleRateHz ≠ 0 ∧ w.fsRate fsRateHz ≠ f.sampleRateHz)

end WriteFrame

/-- What `OswBotWriteReplace` writes to the channel of a frame it has popped.  `resampled` is what the resampler makes
of the frame, `none` when there is no resampler for the two rates. -/
def writeReplaced (fsRateHz : Nat) (w : Option WriteFrame) (resampled : Option (List Sample)) (f : AudioFrame) :
    List Sample :=
  match w with
  | none => []
  | some w =>
    if w.hasData = false ∨ w.datalen = 0 then []
    else if w.resamples fsRateHz f then (resampled.getD []).take w.capSamples
    else f.samples.take (min w.capSamples (f.sampleCount % 2 ^ 32))

/-- A bot's fan-out.  `pushing` is the frame the reader is pushing and the queues it has still to go to, `dropping` the
`dropped` of that call.  The last three are histories: the frames pushed to the bot, those that arrived at each queue, the
samples written to each channel. -/
structure BotPlayout where
  cfg          : FanoutConfig
  queues       : Nat → TargetQueue
  halfClosed   : Bool
  totalDropped : Nat
  stopped      : Bool
  pushing      : Option (AudioFrame × List Nat)
  dropping     : Nat
  pushed       : List AudioFrame
  arrived      : Nat → List AudioFrame
  written      : Bytes → List Sample

inductive BotPlayoutAct
  | push (f : AudioFrame)
  | enqueue
  | writeReplace (uuid : Bytes) (fsRateHz : Nat) (w : Option WriteFrame) (resampled : Option (List Sample))
  | halfClose
  | stop
  deriving DecidableEq, Repr

namespace BotPlayout

def init (cfg : FanoutConfig) : BotPlayout :=
  ⟨cfg, fun _ => .empty, false, 0, false, none, 0, [], fun _ => [], fun _ => []⟩

/-- One turn of the loop of `Push`, under the queue's lock. -/
def enqueue (s : BotPlayout) (f : AudioFrame) (i : Nat) (rest : List Nat) : BotPlayout :=
  { s with
    queues := Function.update s.queues i ((s.queues i).pushBack s.cfg.capacityFrames f)
    dropping := s.dropping + (s.queues i).excess s.cfg.capacityFrames
    arrived := Function.update s.arrived i (s.arrived i ++ [f])
    pushing := some (f, rest) }

/-- The queue and the frame `PopWriteFrame` takes. -/
def front (s : BotPlayout) (uuid : Bytes) : Option (Nat × AudioFrame) :=
  if s.stopped then none
  else (s.cfg.findQueue uuid).bind (fun i => (s.queues i).queue.head?.map (fun f => (i, f)))

def step (s : BotPlayout) : BotPlayoutAct → Option BotPlayout
  | .push f =>
    match s.pushing with
    | some _ => none
    | none =>
      if s.stopped ∨ s.halfClosed then some { s with pushed := s.pushed ++ [f] }
      else some { s with pushed := s.pushed ++ [f], pushing := some (f, s.cfg.writeQueues), dropping := 0 }
  | .enqueue =>
    match s.pushing with
    | some (f, i :: rest) => some (s.enqueue f i rest)
    | some (_, []) => some { s with pushing := none, totalDropped := (s.totalDropped + s.dropping) % 2 ^ 64 }
    | none => none
  | .writeReplace uuid fsRateHz w resampled =>
    match s.front uuid with
    | none => some s
    | some (i, f) =>
      some { s with
        queues := Function.update s.queues i (s.queues i).popFront
        written := Function.update s.written uuid (s.written uuid ++ writeReplaced fsRateHz w resampled f) }
  | .halfClose => some { s with halfClosed := true }
  | .stop => some { s with stopped := true }

/-- Nothing is dropped from a full queue, and a frame that is popped fits: the channel has a frame of its rate with room
for all its samples. -/
def fits (s : BotPlayout) : BotPlayoutAct → Bool
  | .enqueue =>
    match s.pushing with
    | some (_, i :: _) => decide ((s.queues i).queue.length < s.cfg.capacityFrames)
    | _ => true
  | .writeReplace uuid fsRateHz w _ =>
    match s.front uuid, w with
    | none, _ => true
    | some _, none => false
    | some (_, f), some w =>
      w.hasData && decide (w.datalen ≠ 0) && !(w.resamples fsRateHz f) && decide (f.samples.length ≤ w.capSamples)
  | _ => true

/-- The frame being pushed, for a queue that has still to get it. -/
def pending (s : BotPlayout) (i : Nat) : List AudioFrame :=
  match s.pushing with
  | some (f, rest) => if i ∈ rest then [f] else []
  | none => []

def samplesOfAll (fs : List AudioFrame) : List Sample := fs.flatMap (·.samples)

theorem samplesOfAll_append (fs gs : List AudioFrame) : samplesOfAll (fs ++ gs) = samplesOfAll fs ++ samplesOfAll gs :=
  List.flatMap_append

/-- Every queue gets the pushed frames in order, those of the write targets all of them; and what was written to a
channel and what is queued for it is what arrived. -/
structure Lossless (s : BotPlayout) : Prop where
  once    : s.cfg.writeQueues.Nodup
  loop    : ∀ f rest, s.pushing = some (f, rest) → rest.Nodup ∧ ∀ i ∈ rest, i ∈ s.cfg.writeQueues
  order   : ∀ i, s.arrived i ++ s.pending i <+: s.pushed
  all     : s.stopped = false → s.halfClosed = false → ∀ i ∈ s.cfg.writeQueues, s.arrived i ++ s.pending i = s.pushed
  played  : ∀ u i, s.cfg.findQueue u = some i →
              s.written u ++ samplesOfAll (s.queues i).queue = samplesOfAll (s.arrived i)
  unknown : ∀ u, s.cfg.findQueue u = none → s.written u = []

theorem lossless_init {cfg : FanoutConfig} (h : cfg.writeSubsetUuids.Nodup) : Lossless (init cfg) :=
  ⟨cfg.nodup_writeQueues h, nofun, fun _ => List.prefix_rfl, fun _ _ _ _ => rfl, fun _ _ _ => rfl, fun _ _ => rfl⟩

variable {s : BotPlayout} {f : AudioFrame} {i : Nat}

theorem pending_none (h : s.pushing = none) (i : Nat) : s.pending i = [] := by
  rw [pending, h]

theorem Lossless.push (h : Lossless s) (hp : s.pushing = none) (hs : s.stopped = false) (hh : s.halfClosed = false)
    (f : AudioFrame) :
    Lossless { s with pushed := s.pushed ++ [f], pushing := some (f, s.cfg.writeQueues), dropping := 0 } := by
  have hpend : ∀ i, s.arrived i ++ s.pending i = s.arrived i := fun i => by rw [pending_none hp, List.append_nil]
  have hall : ∀ i ∈ s.cfg.writeQueues, s.arrived i ++ [f] = s.pushed ++ [f] := fun i hi => by
    rw [← h.all hs hh i hi, hpend]
  refine ⟨h.once, fun g rest hg => ?_, fun i => ?_, fun _ _ i hi => ?_, h.played, h.unknown⟩
  · cases hg
    exact ⟨h.once, fun i hi => hi⟩
  · change s.arrived i ++ (if i ∈ s.cfg.writeQueues then [f] else []) <+: s.pushed ++ [f]
    split
    · rename_i hi
      rw [hall i hi]
    · rw [List.append_nil, ← hpend i]
      exact (h.order i).trans (List.prefix_append _ _)
  · change s.arrived i ++ (if i ∈ s.cfg.writeQueues then [f] else []) = s.pushed ++ [f]
    rw [if_pos hi, hall i hi]

theorem Lossless.push_closed (h : Lossless s) (hclosed : s.stopped = true ∨ s.halfClosed = true) (f : AudioFrame) :
    Lossless { s with pushed := s.pushed ++ [f] } := by
  refine ⟨h.once, h.loop, fun i => (h.order i).trans (List.prefix_append _ _), fun hs hh => ?_, h.played, h.unknown⟩
  rcases hclosed with hc | hc
  · exact absurd (hs.symm.trans hc) Bool.false_ne_true
  · exact absurd (hh.symm.trans hc) Bool.false_ne_true

theorem Lossless.enqueue (h : Lossless s) {rest : List Nat} (hp : s.pushing = some (f, i :: rest))
    (hroom : (s.queues i).queue.length < s.cfg.capacityFrames) : Lossless (s.enqueue f i rest) := by
  obtain ⟨hnd, hsub⟩ := h.loop f (i :: rest) hp
  obtain ⟨hi, hrest⟩ := List.nodup_cons.1 hnd
  have hqueue : ∀ j, ((s.enqueue f i rest).queues j).queue
      = if j = i then (s.queues i).queue ++ [f] else (s.queues j).queue := fun j => by
    have hzero : (s.queues i).excess s.cfg.capacityFrames = 0 := by
      unfold TargetQueue.excess
      omega
    change (Function.update s.queues i _ j).queue = _
    rw [Function.update_apply, apply_ite TargetQueue.queue, TargetQueue.pushBack, hzero, List.drop_zero]
  have harrived : ∀ j, (s.enqueue f i rest).arrived j = if j = i then s.arrived i ++ [f] else s.arrived j :=
    fun j => Function.update_apply ..
  -- what has arrived and what is pending together stays the same
  have hsame : ∀ j, (s.enqueue f i rest).arrived j ++ (s.enqueue f i rest).pending j = s.arrived j ++ s.pending j := by
    intro j
    have hnew : (s.enqueue f i rest).pending j = if j ∈ rest then [f] else [] := rfl
    rw [harrived, hnew, pending, hp]
    by_cases hj : j = i
    · subst hj
      simp [hi]
    · simp [hj]
  refine ⟨h.once, fun g rest' hg => ?_, fun j => hsame j ▸ h.order j, fun hs hh j hj => (hsame j).trans (h.all hs hh j hj),
    fun u j hu => ?_, h.unknown⟩
  · cases hg
    exact ⟨hrest, fun j hj => hsub j (List.mem_cons_of_mem _ hj)⟩
  · rw [hqueue, harrived]
    change s.written u ++ _ = _
    split
    · rename_i hj
      rw [samplesOfAll_append, samplesOfAll_append, ← List.append_assoc, h.played u i (hj ▸ hu)]
    · exact h.played u j hu

theorem Lossless.pushed_all (h : Lossless s) (hp : s.pushing = some (f, [])) :
    Lossless { s with pushing := none, totalDropped := (s.totalDropped + s.dropping) % 2 ^ 64 } := by
  have hpend : ∀ i, s.pending i = [] := fun i => by rw [pending, hp]; rfl
  refine ⟨h.once, nofun, fun i => ?_, fun hs hh i hi => ?_, h.played, h.unknown⟩
  · have := h.order i
    rw [hpend] at this
    exact this
  · have := h.all hs hh i hi
    rw [hpend] at this
    exact this

theorem writeReplaced_fits {fsRateHz : Nat} {w : WriteFrame} {resampled : Option (List Sample)}
    (hdata : w.hasData = true) (hlen : w.datalen ≠ 0) (hrate : w.resamples fsRateHz f = false)
    (hfit : f.samples.length ≤ w.capSamples) : writeReplaced fsRateHz (some w) resampled f = f.samples := by
  have hcount : f.sampleCount % 2 ^ 32 = f.samples.length := by
    have := w.datalen.toNat_lt
    refine Nat.mod_eq_of_lt ?_
    unfold AudioFrame.sampleCount
    unfold WriteFrame.capSamples at hfit
    omega
  simp only [writeReplaced, hdata, hlen, hrate, hcount, Bool.true_eq_false, or_self, if_false, Bool.false_eq_true]
  rw [Nat.min_eq_right hfit, List.take_length]

theorem front_eq_some {u : Bytes} (h : s.front u = some (i, f)) :
    s.cfg.findQueue u = some i ∧ (s.queues i).queue = f :: (s.queues i).queue.tail := by
  unfold front at h
  split at h
  · cases h
  · obtain ⟨j, hj, hf⟩ := Option.bind_eq_some_iff.1 h
    obtain ⟨g, hg, heq⟩ := Option.map_eq_some_iff.1 hf
    cases heq
    exact ⟨hj, (List.cons_head?_tail hg).symm⟩

theorem Lossless.writeReplace (h : Lossless s) {u : Bytes} (hf : s.front u = some (i, f)) :
    Lossless { s with
      queues := Function.update s.queues i (s.queues i).popFront
      written := Function.update s.written u (s.written u ++ f.samples) } := by
  obtain ⟨hu, hq⟩ := front_eq_some hf
  refine ⟨h.once, h.loop, h.order, h.all, fun v j hv => ?_, fun v hv => ?_⟩
  · change Function.update s.written u _ v ++ samplesOfAll (Function.update s.queues i _ j).queue = _
    by_cases hvu : v = u
    · subst hvu
      obtain rfl : j = i := Option.some.inj (hv.symm.trans hu)
      have := h.played v j hv
      rw [hq] at this
      rw [Function.update_self, Function.update_self, List.append_assoc]
      exact this
    · -- another channel has another queue
      have hji : j ≠ i := fun hji => hvu (FanoutConfig.findQueue_inj (hji ▸ hv) hu)
      rw [Function.update_of_ne hvu, Function.update_of_ne hji]
      exact h.played v j hv
  · have hvu : v ≠ u := fun hvu => by
      rw [hvu] at hv
      exact Option.some_ne_none i (hu.symm.trans hv)
    change Function.update s.written u _ v = []
    rw [Function.update_of_ne hvu]
    exact h.unknown v hv

theorem Lossless.step {s' : BotPlayout} {act : BotPlayoutAct} (h : Lossless s) (hg : s.fits act = true)
    (hs : s.step act = some s') : Lossless s' := by
  cases act with
  | push f =>
    simp only [BotPlayout.step] at hs
    split at hs
    · cases hs
    · rename_i hp
      split at hs <;> cases hs
      · rename_i hclosed
        exact h.push_closed hclosed f
      · rename_i hopen
        rw [not_or, Bool.not_eq_true, Bool.not_eq_true] at hopen
        exact h.push hp hopen.1 hopen.2 f
  | enqueue =>
    simp only [BotPlayout.step] at hs
    split at hs <;> cases hs
    · rename_i f i rest hp
      simp only [fits, hp, decide_eq_true_eq] at hg
      exact h.enqueue hp hg
    · rename_i f hp
      exact h.pushed_all hp
  | writeReplace u fsRateHz w resampled =>
    simp only [BotPlayout.step] at hs
    split at hs <;> cases hs
    · exact h
    · rename_i i f hf
      cases w with
      | none => simp only [fits, hf, Bool.false_eq_true] at hg
      | some w =>
        simp only [fits, hf, Bool.and_eq_true, decide_eq_true_eq, Bool.not_eq_true'] at hg
        obtain ⟨⟨⟨hdata, hlen⟩, hrate⟩, hfit⟩ := hg
        rw [writeReplaced_fits hdata hlen hrate hfit]
        exact h.writeReplace hf
  | halfClose =>
    cases hs
    exact ⟨h.once, h.loop, h.order, fun _ => nofun, h.played, h.unknown⟩
  | stop =>
    cases hs
    exact ⟨h.once, h.loop, h.order, nofun, h.played, h.unknown⟩

/-- **Bot playout is lossless**: with no write target named twice, in every run in which no queue overflows and every
frame popped by a callback fits the channel's frame, the samples written to a channel are a prefix of those pushed. -/
theorem playout_lossless (cfg : FanoutConfig) (hcfg : cfg.writeSubsetUuids.Nodup) (as : List BotPlayoutAct)
    (s : BotPlayout) (hrun : Run.exec step as (init cfg) = some s) (hguard : Run.along step fits as (init cfg) = true)
    (u : Bytes) : s.written u <+: samplesOfAll s.pushed := by
  have hl := Run.exec_inv_along (fun _ _ _ hi hg hs => Lossless.step hi hg hs) as _ s (lossless_init hcfg) hguard hrun
  cases hu : s.cfg.findQueue u with
  | none =>
    rw [hl.unknown u hu]
    exact List.nil_prefix
  | some i =>
    have hwritten : s.written u <+: samplesOfAll (s.arrived i) := hl.played u i hu ▸ List.prefix_append _ _
    obtain ⟨later, hlater⟩ := (List.prefix_append _ _).trans (hl.order i)
    rw [← hlater, samplesOfAll_append]
    exact hwritten.trans (List.prefix_append _ _)

/-- A frame of one sample per listed value, at 8 kHz. -/
def monoFrame (samples : List Sample) : AudioFrame := ⟨samples, 8000, 1, 0, 0, 0, []⟩

/-- Two frames pushed to a bot that writes to one queue, then two callbacks on channel `a` with frames of `bytes`. -/
def twoFrames (bytes : UInt32) : List BotPlayoutAct :=
  [.push (monoFrame [1, 2]), .enqueue, .enqueue, .push (monoFrame [3]), .enqueue, .enqueue,
    .writeReplace [97] 8000 (some ⟨true, bytes, 8000⟩) none, .writeReplace [97] 8000 (some ⟨true, bytes, 8000⟩) none]

theorem playout_lossless_twoFrames :
    (Run.exec step (twoFrames 320) (init ⟨.broadcast, [[97]], [], 50⟩)).map (fun s => s.written [97]) = some [1, 2, 3] ∧
    ∀ s, Run.exec step (twoFrames 320) (init ⟨.broadcast, [[97]], [], 50⟩) = some s →
      s.written [97] <+: samplesOfAll s.pushed :=
  ⟨by decide +kernel, fun s hs =>
    playout_lossless ⟨.broadcast, [[97]], [], 50⟩ .nil (twoFrames 320) s hs (by decide +kernel) [97]⟩

/-- Callbacks with room for one sample: the second sample of the first frame is never written.  And a whisper bot that
names its write target twice plays every frame twice. -/
theorem twoFrames_cut :
    (Run.exec step (twoFrames 2) (init ⟨.broadcast, [[97]], [], 50⟩)).map
        (fun s => (s.written [97], samplesOfAll s.pushed))
      = some ([1, 3], [1, 2, 3]) ∧
    (Run.exec step
        [.push (monoFrame [1, 2]), .enqueue, .enqueue, .enqueue,
          .writeReplace [97] 8000 (some ⟨true, 320, 8000⟩) none, .writeReplace [97] 8000 (some ⟨true, 320, 8000⟩) none]
        (init ⟨.whisper, [[97]], [[97], [97]], 50⟩)).map (fun s => (s.written [97], samplesOfAll s.pushed))
      = some ([1, 2, 1, 2], [1, 2]) := by
  decide +kernel

end BotPlayout
end Media
end Osw
