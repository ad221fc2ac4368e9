import OpenSwitch.TtsPlayout
/-!
# TtsRuns — the playout buffer under any sequence of calls (`tts_playout_buffer.cc`)

Pushes, pops and the end of the stream in any order, each one step (`popSeeing_signal`).  Every frame that has left the
queue was either played to its end or dropped by a push, and the frames leave in the order they came: what the pops
delivered and what is still queued is what was pushed, less what was not yet played of the dropped frames
(`plays_kept_samples_once`).  A pop fills the callback frame, and counts an underrun when it has to pad while the stream
is playing (`pop_fills_frame`).
-/
namespace Osw
namespace Media

/-- The samples of a pop that are no padding. -/
def Popped.delivered (p : Popped) : List Sample := p.out.take p.real

namespace TtsPlayoutBuffer

variable {cfg : TtsConfig} {b : TtsPlayoutBuffer}

/-- What is still to be played. -/
def unplayed (b : TtsPlayoutBuffer) : List Sample := unplayedOf b.queue b.frontOffsetSamples

/-- A buffer whose frames have samples and 32-bit counts. -/
structure Wf (b : TtsPlayoutBuffer) : Prop where
  fits     : ∀ f ∈ b.queue, f.Fits
  offsetIn : OffsetIn b.queue b.frontOffsetSamples
  last     : ∀ f, b.lastFrame = some f → f.Fits
  primed   : b.playbackStarted = true → b.prerollReached = true ∨ b.eos = true

theorem wf_init : init.Wf := ⟨nofun, rfl, nofun, nofun⟩

theorem Wf.signalEndOfStream (h : b.Wf) : b.signalEndOfStream.Wf := ⟨h.fits, h.offsetIn, h.last, fun _ => .inr rfl⟩

/-! ## `Push` -/

/-- What a push appends: nothing for an empty frame. -/
def arriving (f : AudioFrame) : List AudioFrame := if f.sampleCount = 0 then [] else [f]

/-- **What a push does**: `d` frames go from the front, never all of them, and are counted; a front frame that goes
takes its offset with it. -/
theorem push_spec (cfg : TtsConfig) (b : TtsPlayoutBuffer) (f : AudioFrame) : ∃ d,
    (b.push cfg f).queue = (b.queue ++ arriving f).drop d ∧
    (b.push cfg f).frontOffsetSamples = (if d = 0 then b.frontOffsetSamples else 0) ∧
    (b.push cfg f).overrunCount = b.overrunCount + d ∧
    (d = 0 ∨ d < (b.queue ++ arriving f).length) ∧
    (b.push cfg f).lastFrame = b.lastFrame ∧ (b.push cfg f).eos = b.eos ∧
    (b.push cfg f).playbackStarted = b.playbackStarted ∧ (b.push cfg f).underrunCount = b.underrunCount ∧
    (b.prerollReached = true → (b.push cfg f).prerollReached = true) := by
  unfold push arriving
  split
  · exact ⟨0, by rw [List.append_nil, List.drop_zero], rfl, rfl, .inl rfl, rfl, rfl, rfl, rfl, id⟩
  · obtain ⟨hq, ho, hd⟩ := dropOldest_spec cfg.highWater32 (b.queue ++ [f]) b.frontOffsetSamples
    refine ⟨_, hq, ho, rfl, hd, rfl, rfl, rfl, rfl, fun hp => ?_⟩
    simp only [hp, Bool.true_or]

theorem fits_of_mem_arriving {f g : AudioFrame} (hf : f.sampleCount < 2 ^ 32) (hg : g ∈ arriving f) : g.Fits := by
  unfold arriving at hg
  split at hg
  · cases hg
  · rename_i hpos
    rw [List.mem_singleton.1 hg]
    exact ⟨Nat.pos_of_ne_zero hpos, hf⟩

theorem Wf.push (h : b.Wf) {f : AudioFrame} (hf : f.sampleCount < 2 ^ 32) : (b.push cfg f).Wf := by
  obtain ⟨d, hq, ho, -, -, hl, he, hp, -, hpre⟩ := push_spec cfg b f
  have hfits : ∀ g ∈ (b.push cfg f).queue, g.Fits := by
    intro g hg
    rw [hq] at hg
    rcases List.mem_append.1 (List.mem_of_mem_drop hg) with hg | hg
    · exact h.fits g hg
    · exact fits_of_mem_arriving hf hg
  refine ⟨hfits, ?_, fun g hg => h.last g (hl ▸ hg), fun hs => ?_⟩
  · by_cases hd : d = 0
    · have hin := h.offsetIn
      rw [ho, if_pos hd]
      rw [hd, List.drop_zero] at hq
      cases hb : b.queue with
      | nil =>
        rw [hb] at hin
        rw [show b.frontOffsetSamples = 0 from hin]
        exact offsetIn_zero hfits
      | cons g q =>
        rw [hb] at hq hin
        rw [hq]
        exact hin
    · rw [ho, if_neg hd]
      exact offsetIn_zero hfits
  · rw [he]
    exact (h.primed (hp ▸ hs)).imp hpre id

/-! ## `Pop` -/

/-- What a pop into a frame of `cap` samples can do. -/
inductive PopOutcome (cfg : TtsConfig) (b : TtsPlayoutBuffer) (hasOut : Bool) (cap : Nat) :
    Popped → TtsPlayoutBuffer → Prop
  | refused (h : hasOut = false ∨ cap = 0) : PopOutcome cfg b hasOut cap ⟨[], 0, 0⟩ b
  | ended (he : b.eos = true) (hq : b.queue = []) : PopOutcome cfg b hasOut cap ⟨[], 0, 0⟩ b
  | silent (he : b.eos = false) (hs : b.playbackStarted = false) :
      PopOutcome cfg b hasOut cap ⟨List.replicate cap 0, 0, cap⟩ b
  | played (d : Drained) (fill : List Sample) (n : Nat) (hcap : 0 < cap) (hq : b.queue ≠ [])
      (hd : Drains cap b.queue b.frontOffsetSamples d) (hp : b.prerollReached = true ∨ b.eos = true)
      (hfill : (d.out ++ fill).length = cap) (hn : n = if d.out.length < cap ∧ b.eos = false then 1 else 0) :
      PopOutcome cfg b hasOut cap ⟨d.out ++ fill, d.out.length, cap⟩
        { b.drained cfg d with underrunCount := b.underrunCount + n }
  | starved (fill : List Sample) (hcap : 0 < cap) (he : b.eos = false) (hq : b.queue = [])
      (hs : b.playbackStarted = true) (hfill : fill.length = cap) :
      PopOutcome cfg b hasOut cap ⟨fill, 0, cap⟩ { b with underrunCount := b.underrunCount + 1 }

theorem length_underrunFill (cfg : TtsConfig) (hlast : ∀ f, b.lastFrame = some f → f.Fits) (room : Nat) :
    (b.underrunFill cfg room).length = room := by
  unfold underrunFill
  split
  · rename_i f _ hf
    have hfit := hlast f hf
    exact fillRepeatLast_length (by rw [hfit.sampleCount32_eq]; exact hfit.1) room
  · exact List.length_replicate

theorem drained_last (h : b.Wf) {d : Drained} {cap : Nat} (hd : Drains cap b.queue b.frontOffsetSamples d) :
    ∀ f, (b.drained cfg d).lastFrame = some f → f.Fits := by
  intro f hf
  simp only [drained] at hf
  split at hf
  · cases hl : d.last with
    | none =>
      rw [hl] at hf
      exact h.last f hf
    | some g =>
      rw [hl] at hf
      cases hf
      exact h.fits _ (hd.last_mem _ hl)
  · exact h.last f hf

/-- **Every pop of a well-formed buffer is one of the outcomes.** -/
theorem pop_outcome (cfg : TtsConfig) (h : b.Wf) (hasOut : Bool) (cap : Nat) :
    PopOutcome cfg b hasOut cap (b.pop cfg hasOut cap).1 (b.pop cfg hasOut cap).2 := by
  unfold pop popSeeing
  split
  · rename_i hnone
    exact .refused hnone
  rename_i hnone
  have hcap : 0 < cap := Nat.pos_of_ne_zero fun hz => hnone (.inr hz)
  split
  · rename_i hend
    exact .ended hend.1 hend.2
  rename_i hend
  split
  · rename_i hpre
    refine .silent hpre.2 ?_
    -- playback cannot have started without the preroll or the end of the stream
    cases hs : b.playbackStarted with
    | false => rfl
    | true =>
      rcases h.primed hs with hp | he
      · rw [hpre.1] at hp; cases hp
      · rw [hpre.2] at he; cases he
  rename_i hpre
  have hready : b.prerollReached = true ∨ b.eos = true := by
    cases hp : b.prerollReached with
    | true => exact .inl rfl
    | false =>
      cases he : b.eos with
      | true => exact .inr rfl
      | false => exact absurd ⟨hp, he⟩ hpre
  split
  · rename_i hq
    have hd := drain_spec cap b.queue b.frontOffsetSamples h.fits h.offsetIn
    generalize drain cap b.queue b.frontOffsetSamples = d at hd ⊢
    have hle := hd.le
    simp only
    split
    · rename_i hfull
      have hcase : PopOutcome cfg b hasOut cap ⟨d.out ++ [], d.out.length, cap⟩ (b.drained cfg d) :=
        .played d [] 0 hcap hq hd hready (by rw [List.append_nil, hfull]) (by rw [hfull, if_neg (by omega)])
      rw [List.append_nil] at hcase
      rwa [hfull] at hcase ⊢
    · rename_i hdry
      split
      · rename_i he
        exact .played d _ 0 hcap hq hd hready
          (by rw [List.length_append, List.length_replicate]; omega) (by rw [if_neg (by simp [he])])
      · rename_i he
        exact .played d _ 1 hcap hq hd hready
          (by rw [List.length_append, length_underrunFill cfg (drained_last h hd)]; omega)
          (by rw [if_pos ⟨by omega, by simpa using he⟩])
  · rename_i hq
    have hempty : b.queue = [] := Decidable.not_not.1 hq
    have he : b.eos = false := by
      cases he : b.eos with
      | false => rfl
      | true => exact absurd ⟨he, hempty⟩ hend
    rw [if_neg (by simp [he])]
    split
    · rename_i hs
      exact .silent he hs
    · rename_i hs
      have hfill := length_underrunFill cfg h.last cap
      simp only [hfill]
      exact .starved _ hcap he hempty (by simpa using hs) hfill

variable {hasOut : Bool} {cap : Nat} {p : Popped} {b' : TtsPlayoutBuffer}

theorem PopOutcome.wf (hp : PopOutcome cfg b hasOut cap p b') (h : b.Wf) : b'.Wf := by
  cases hp with
  | refused => exact h
  | ended => exact h
  | silent => exact h
  | played d fill n hcap hq hd hready =>
    obtain ⟨k, hk, -⟩ := hd.conserves
    refine ⟨fun f hf => h.fits f ?_, hd.offsetIn, drained_last h hd, fun _ => hready⟩
    have hf' : f ∈ d.queue := hf
    rw [hk] at hf'
    exact List.mem_of_mem_drop hf'
  | starved => exact ⟨h.fits, h.offsetIn, h.last, h.primed⟩

/-- **What a pop takes from the queue**: `k` frames go from the front, and what it copies is what is left of them and
the beginning of the next. -/
theorem PopOutcome.conserves (hp : PopOutcome cfg b hasOut cap p b') :
    b'.overrunCount = b.overrunCount ∧ b'.eos = b.eos ∧ ∃ k, b'.queue = b.queue.drop k ∧
      playedOf b.queue b.frontOffsetSamples ++ p.delivered
        = allSamples (b.queue.take k) ++ playedOf b'.queue b'.frontOffsetSamples := by
  cases hp with
  | played d fill n hcap hq hd =>
    obtain ⟨k, hk, hcons⟩ := hd.conserves
    refine ⟨rfl, rfl, k, hk, ?_⟩
    rw [Popped.delivered, List.take_left]
    exact hcons
  | _ => exact ⟨rfl, rfl, 0, rfl, List.append_nil _⟩

theorem PopOutcome.started (hp : PopOutcome cfg b hasOut cap p b') :
    b'.playbackStarted = true ↔ b.playbackStarted = true ∨ p.delivered ≠ [] := by
  cases hp with
  | played d fill n hcap hq hd =>
    have hsome := hd.some hcap hq
    rw [Popped.delivered, List.take_left]
    exact ⟨fun _ => .inr hsome, fun _ => rfl⟩
  | _ => exact ⟨.inl, fun h => h.resolve_right (fun hne => hne rfl)⟩

/-- **A pop fills its frame**, but at the end of the stream. -/
theorem PopOutcome.fills (hp : PopOutcome cfg b true cap p b') (hcap : 0 < cap) :
    p.returned = (if b.eos = true ∧ b.queue = [] then 0 else cap) ∧ p.out.length = p.returned := by
  cases hp with
  | refused h => simp at h; omega
  | ended he hq => exact ⟨by rw [if_pos ⟨he, hq⟩], rfl⟩
  | silent he => exact ⟨by rw [if_neg (by simp [he])], List.length_replicate⟩
  | played d fill n _ hq _ _ hfill => exact ⟨by rw [if_neg (by simp [hq])], hfill⟩
  | starved fill _ he _ _ hfill => exact ⟨by rw [if_neg (by simp [he])], hfill⟩

/-- **A pop counts an underrun** when it pads after playback has started and before the end of the stream. -/
theorem PopOutcome.underruns (hp : PopOutcome cfg b hasOut cap p b') :
    b'.underrunCount = b.underrunCount + (if p.real < p.returned ∧ b'.playbackStarted = true ∧ b.eos = false
      then 1 else 0) := by
  cases hp with
  | refused => rfl
  | ended => rfl
  | silent he hs => simp [hs]
  | played d fill n hcap hq hd hready hfill hn =>
    rw [hn]
    simp [drained]
  | starved fill hcap he hq hs => simp [hcap, hs, he]

end TtsPlayoutBuffer

/-! ## Histories -/

/-- What became of a frame that left the queue; a dropped frame was played up to `n` samples. -/
inductive Fate
  | played (f : AudioFrame)
  | dropped (f : AudioFrame) (n : Nat)
  deriving DecidableEq, Repr

namespace Fate

def frame : Fate → AudioFrame
  | .played f    => f
  | .dropped f _ => f

/-- The samples of a frame that are not lost. -/
def kept : Fate → List Sample
  | .played f    => f.samples
  | .dropped f n => f.samples.take n

def isDropped : Fate → Bool
  | .played _    => false
  | .dropped _ _ => true

end Fate

inductive TtsCall
  | push (f : AudioFrame)
  | pop (hasOut : Bool) (cap : Nat)
  | signalEndOfStream
  deriving DecidableEq, Repr

namespace TtsCall

/-- The frame a call brings. -/
def arriving : TtsCall → List AudioFrame
  | .push f => TtsPlayoutBuffer.arriving f
  | _       => []

/-- A frame below `2^32` samples, if any. -/
def Small : TtsCall → Prop
  | .push f => f.sampleCount < 2 ^ 32
  | _       => True

instance (c : TtsCall) : Decidable c.Small := by
  cases c <;> unfold Small <;> infer_instance

end TtsCall

/-- The frames at the front of `before` that are not in `after`. -/
def leaving (before after : List AudioFrame) : List AudioFrame := before.take (before.length - after.length)

theorem leaving_drop (q : List AudioFrame) (k : Nat) : leaving q (q.drop k) = q.take k := by
  rw [leaving, List.length_drop, List.take_eq_take_iff]
  omega

/-- The front frame goes with what was played of it. -/
def droppedFates (offset : Nat) : List AudioFrame → List Fate
  | []     => []
  | f :: q => .dropped f offset :: q.map (.dropped · 0)

theorem map_frame_droppedFates (offset : Nat) (q : List AudioFrame) : (droppedFates offset q).map Fate.frame = q := by
  cases q with
  | nil => rfl
  | cons f q =>
    rw [droppedFates, List.map_cons, List.map_map]
    exact congrArg (f :: ·) (List.map_id q)

theorem countP_droppedFates (offset : Nat) (q : List AudioFrame) :
    (droppedFates offset q).countP Fate.isDropped = q.length := by
  cases q with
  | nil => rfl
  | cons f q =>
    have hall : (droppedFates offset (f :: q)).countP Fate.isDropped = (droppedFates offset (f :: q)).length := by
      refine List.countP_eq_length.2 fun x hx => ?_
      rcases List.mem_cons.1 hx with rfl | hx
      · rfl
      · obtain ⟨g, -, rfl⟩ := List.mem_map.1 hx
        rfl
    rw [hall, droppedFates, List.length_cons, List.length_map, List.length_cons]

theorem kept_droppedFates (offset : Nat) (q : List AudioFrame) :
    (droppedFates offset q).flatMap Fate.kept = playedOf q offset := by
  cases q with
  | nil => rfl
  | cons f q =>
    have hnone : (q.map (Fate.dropped · 0)).flatMap Fate.kept = [] := by
      refine List.flatMap_eq_nil_iff.2 fun x hx => ?_
      obtain ⟨g, -, rfl⟩ := List.mem_map.1 hx
      rfl
    rw [droppedFates, List.flatMap_cons, hnone, List.append_nil]
    rfl

theorem map_frame_played (q : List AudioFrame) : (q.map Fate.played).map Fate.frame = q := by
  rw [List.map_map]
  exact List.map_id q

theorem countP_played (q : List AudioFrame) : (q.map Fate.played).countP Fate.isDropped = 0 := by
  refine List.countP_eq_zero.2 fun x hx => ?_
  obtain ⟨f, -, rfl⟩ := List.mem_map.1 hx
  nofun

theorem kept_played (q : List AudioFrame) : (q.map Fate.played).flatMap Fate.kept = allSamples q := by
  rw [List.flatMap_map]
  rfl

/-- A buffer with what its pops copied from frames and what became of the frames that left it. -/
structure TtsTrace where
  buf       : TtsPlayoutBuffer
  delivered : List Sample
  gone      : List Fate

namespace TtsTrace

variable {cfg : TtsConfig} {s : TtsTrace}

def init : TtsTrace := ⟨.init, [], []⟩

def step (cfg : TtsConfig) (s : TtsTrace) : TtsCall → TtsTrace
  | .push f =>
    let b := s.buf.push cfg f
    { s with
      buf := b
      gone := s.gone ++ droppedFates s.buf.frontOffsetSamples
        (leaving (s.buf.queue ++ TtsPlayoutBuffer.arriving f) b.queue) }
  | .pop hasOut cap =>
    let r := s.buf.pop cfg hasOut cap
    { buf := r.2
      delivered := s.delivered ++ r.1.delivered
      gone := s.gone ++ (leaving s.buf.queue r.2.queue).map .played }
  | .signalEndOfStream => { s with buf := s.buf.signalEndOfStream }

/-- The buffer after the calls. -/
def after (cfg : TtsConfig) (calls : List TtsCall) : TtsTrace := calls.foldl (step cfg) init

/-- What holds between the calls; `came` are the frames that were pushed. -/
structure Sound (s : TtsTrace) (came : List AudioFrame) : Prop where
  wf      : s.buf.Wf
  order   : s.gone.map Fate.frame ++ s.buf.queue = came
  kept    : s.delivered = s.gone.flatMap Fate.kept ++ playedOf s.buf.queue s.buf.frontOffsetSamples
  overrun : s.buf.overrunCount = s.gone.countP Fate.isDropped
  started : s.buf.playbackStarted = true ↔ s.delivered ≠ []

variable {came : List AudioFrame}

theorem sound_init : Sound init [] where
  wf      := TtsPlayoutBuffer.wf_init
  order   := rfl
  kept    := rfl
  overrun := rfl
  started := ⟨nofun, fun h => absurd rfl h⟩

theorem Sound.push (h : Sound s came) {f : AudioFrame} (hf : f.sampleCount < 2 ^ 32) :
    Sound (s.step cfg (.push f)) (came ++ TtsPlayoutBuffer.arriving f) := by
  obtain ⟨d, hq, ho, hover, hd, -, -, hstart, -, -⟩ := TtsPlayoutBuffer.push_spec cfg s.buf f
  have hleave : leaving (s.buf.queue ++ TtsPlayoutBuffer.arriving f) (s.buf.push cfg f).queue
      = (s.buf.queue ++ TtsPlayoutBuffer.arriving f).take d := by
    rw [hq, leaving_drop]
  refine { wf := h.wf.push hf, order := ?_, kept := ?_, overrun := ?_, started := ?_ }
  · simp only [step, hleave, List.map_append, map_frame_droppedFates]
    rw [hq, List.append_assoc, List.take_append_drop, ← h.order, List.append_assoc]
  · simp only [step, hleave, List.flatMap_append, kept_droppedFates]
    rw [h.kept, List.append_assoc, hq, ho]
    congr 1
    by_cases hzero : d = 0
    · -- nothing dropped: the front frame is the same one, or the new one, of which nothing was played
      rw [if_pos hzero, hzero, List.take_zero, List.drop_zero]
      cases hb : s.buf.queue with
      | nil =>
        have hin := h.wf.offsetIn
        rw [hb] at hin
        rw [show s.buf.frontOffsetSamples = 0 from hin, playedOf_zero, playedOf_zero]
        rfl
      | cons g q => rfl
    · rw [if_neg hzero, playedOf_zero, List.append_nil]
      obtain ⟨k, rfl⟩ : ∃ k, d = k + 1 := Nat.exists_eq_succ_of_ne_zero hzero
      cases hb : s.buf.queue with
      | nil =>
        -- a queue of one frame drops none
        rw [hb, List.nil_append] at hd
        have hone : (TtsPlayoutBuffer.arriving f).length ≤ 1 := by
          unfold TtsPlayoutBuffer.arriving
          split <;> simp
        omega
      | cons g q => rfl
  · simp only [step, hleave, List.countP_append, countP_droppedFates, List.length_take]
    rw [hover, h.overrun]
    omega
  · simp only [step, hstart]
    exact h.started

theorem Sound.pop (h : Sound s came) (hasOut : Bool) (cap : Nat) : Sound (s.step cfg (.pop hasOut cap)) came := by
  have hp := TtsPlayoutBuffer.pop_outcome cfg h.wf hasOut cap
  obtain ⟨hover, -, k, hk, hcons⟩ := hp.conserves
  have hleave : leaving s.buf.queue (s.buf.pop cfg hasOut cap).2.queue = s.buf.queue.take k := by
    rw [hk, leaving_drop]
  refine { wf := hp.wf h.wf, order := ?_, kept := ?_, overrun := ?_, started := ?_ }
  · simp only [step, hleave, List.map_append, map_frame_played]
    rw [hk, List.append_assoc, List.take_append_drop, h.order]
  · simp only [step, hleave, List.flatMap_append, kept_played]
    rw [h.kept, List.append_assoc, hcons, List.append_assoc]
  · simp only [step, hleave, List.countP_append, countP_played, Nat.add_zero]
    rw [hover, h.overrun]
  · simp only [step, hp.started, h.started, ne_eq, List.append_eq_nil_iff, not_and_or]

theorem Sound.step (h : Sound s came) {c : TtsCall} (hc : c.Small) :
    Sound (s.step cfg c) (came ++ c.arriving) := by
  cases c with
  | push f => exact h.push hc
  | pop hasOut cap => simpa only [TtsCall.arriving, List.append_nil] using h.pop hasOut cap
  | signalEndOfStream =>
    simp only [TtsCall.arriving, List.append_nil]
    exact ⟨h.wf.signalEndOfStream, h.order, h.kept, h.overrun, h.started⟩

theorem sound_foldl (cfg : TtsConfig) : ∀ (calls : List TtsCall) (s : TtsTrace) (came : List AudioFrame),
    Sound s came → (∀ c ∈ calls, c.Small) → Sound (calls.foldl (TtsTrace.step cfg) s) (came ++ calls.flatMap TtsCall.arriving)
  | [], s, came, h, _ => by
    rw [List.flatMap_nil, List.append_nil]
    exact h
  | c :: calls, s, came, h, hc => by
    rw [List.flatMap_cons, ← List.append_assoc]
    exact sound_foldl cfg calls _ _ (h.step (hc c List.mem_cons_self)) (fun c' hc' => hc c' (List.mem_cons_of_mem c hc'))

theorem sound_after (cfg : TtsConfig) (calls : List TtsCall) (hsmall : ∀ c ∈ calls, c.Small) :
    Sound (after cfg calls) (calls.flatMap TtsCall.arriving) :=
  sound_foldl cfg calls init [] sound_init hsmall

/-- What one call does to the queue: a push drops the oldest frames and counts them; a pop loses nothing of what is
still to be played. -/
def DropsOldestInPush (cfg : TtsConfig) (b : TtsPlayoutBuffer) : TtsCall → Prop
  | .push f => ∃ d, (b.push cfg f).queue = (b.queue ++ TtsPlayoutBuffer.arriving f).drop d ∧
      (b.push cfg f).overrunCount = b.overrunCount + d
  | .pop hasOut cap =>
      b.unplayed = (b.pop cfg hasOut cap).1.delivered ++ (b.pop cfg hasOut cap).2.unplayed ∧
      (b.pop cfg hasOut cap).2.overrunCount = b.overrunCount
  | .signalEndOfStream => b.signalEndOfStream.unplayed = b.unplayed ∧ b.signalEndOfStream.overrunCount = b.overrunCount

theorem dropsOldestInPush (cfg : TtsConfig) {b : TtsPlayoutBuffer} (h : b.Wf) (c : TtsCall) :
    DropsOldestInPush cfg b c := by
  cases c with
  | push f =>
    obtain ⟨d, hq, -, hover, -⟩ := TtsPlayoutBuffer.push_spec cfg b f
    exact ⟨d, hq, hover⟩
  | pop hasOut cap =>
    obtain ⟨hover, -, k, hk, hcons⟩ := (TtsPlayoutBuffer.pop_outcome cfg h hasOut cap).conserves
    refine ⟨?_, hover⟩
    have hsplit : allSamples b.queue
        = allSamples (b.queue.take k) ++ allSamples (b.pop cfg hasOut cap).2.queue := by
      rw [hk, allSamples, allSamples, allSamples, ← List.flatMap_append, List.take_append_drop]
    -- both sides follow what was played of the front frame, and complete it to the whole queue
    refine (List.append_right_inj (playedOf b.queue b.frontOffsetSamples)).1 ?_
    rw [TtsPlayoutBuffer.unplayed, playedOf_append_unplayedOf, ← List.append_assoc, hcons, List.append_assoc,
      TtsPlayoutBuffer.unplayed, playedOf_append_unplayedOf, hsplit]
  | signalEndOfStream => exact ⟨rfl, rfl⟩

/-- Two frames of 20 ms and one of 40 ms at 100 Hz: for the third, a high-water mark of 40 ms drops the other two, the
first of which a pop has begun.  Two pops drain the rest and have to pad. -/
def sixCalls : List TtsCall :=
  [.push ⟨[1, 2], 100, 1, 0, 0, 0, []⟩, .pop true 1, .push ⟨[3, 4], 100, 1, 1, 2, 0, []⟩,
    .push ⟨[5, 6, 7, 8], 100, 1, 2, 4, 0, []⟩, .pop true 3, .pop true 2]

/-- **The buffer plays every kept sample once, in order**: what the pops copied from frames and what is queued from the
front offset on is the frames pushed, in their order, each whole or, if a push dropped it, up to where it had been
played.  The frames leave from the front, only a push drops any, and the overrun counter is how many. -/
theorem plays_kept_samples_once (cfg : TtsConfig) (calls : List TtsCall) (hsmall : ∀ c ∈ calls, c.Small) :
    (after cfg calls).delivered ++ (after cfg calls).buf.unplayed
      = (after cfg calls).gone.flatMap Fate.kept ++ allSamples (after cfg calls).buf.queue ∧
    (after cfg calls).gone.map Fate.frame ++ (after cfg calls).buf.queue = calls.flatMap TtsCall.arriving ∧
    (after cfg calls).buf.overrunCount = (after cfg calls).gone.countP Fate.isDropped ∧
    ∀ c, DropsOldestInPush cfg (after cfg calls).buf c := by
  have h := sound_after cfg calls hsmall
  refine ⟨?_, h.order, h.overrun, dropsOldestInPush cfg h.wf⟩
  rw [h.kept, List.append_assoc, TtsPlayoutBuffer.unplayed, playedOf_append_unplayedOf]

theorem plays_kept_samples_once_sixCalls :
    (∀ c ∈ sixCalls, c.Small) ∧
    (after ⟨20, 40, .silence⟩ sixCalls).gone.countP Fate.isDropped = 2 ∧
    (after ⟨20, 40, .silence⟩ sixCalls).buf.overrunCount = (after ⟨20, 40, .silence⟩ sixCalls).gone.countP Fate.isDropped :=
  ⟨by decide, by decide +kernel, (plays_kept_samples_once ⟨20, 40, .silence⟩ sixCalls (by decide)).2.2.1⟩

/-! ## What a pop writes and counts -/

theorem step_eos (cfg : TtsConfig) (h : s.buf.Wf) (c : TtsCall) :
    (s.step cfg c).buf.eos = true ↔ s.buf.eos = true ∨ c = .signalEndOfStream := by
  cases c with
  | push f =>
    obtain ⟨_, -, -, -, -, -, he, -⟩ := TtsPlayoutBuffer.push_spec cfg s.buf f
    simp only [step, he, reduceCtorEq, or_false]
  | pop hasOut cap =>
    have hp := TtsPlayoutBuffer.pop_outcome cfg h hasOut cap
    simp only [step, hp.conserves.2.1, reduceCtorEq, or_false]
  | signalEndOfStream => exact ⟨fun _ => .inr rfl, fun _ => rfl⟩

theorem eos_foldl (cfg : TtsConfig) : ∀ (calls : List TtsCall) (s : TtsTrace) (came : List AudioFrame),
    Sound s came → (∀ c ∈ calls, c.Small) →
    ((calls.foldl (step cfg) s).buf.eos = true ↔ s.buf.eos = true ∨ .signalEndOfStream ∈ calls)
  | [], s, came, _, _ => by simp
  | c :: calls, s, came, h, hc => by
    have hhead := hc c List.mem_cons_self
    rw [List.foldl_cons, eos_foldl cfg calls _ _ (h.step hhead) (fun c' hc' => hc c' (List.mem_cons_of_mem c hc')),
      step_eos cfg h.wf, List.mem_cons, or_assoc, eq_comm (a := c)]

theorem eos_after (cfg : TtsConfig) (calls : List TtsCall) (hsmall : ∀ c ∈ calls, c.Small) :
    (after cfg calls).buf.eos = true ↔ .signalEndOfStream ∈ calls := by
  rw [after, eos_foldl cfg calls init [] sound_init hsmall]
  exact ⟨fun h => h.resolve_left nofun, .inr⟩

/-- A call is a pop that pads, after something was delivered, by an earlier pop or by itself. -/
def padsPlaying (cfg : TtsConfig) (s : TtsTrace) : TtsCall → Bool
  | .pop hasOut cap =>
    let p := (s.buf.pop cfg hasOut cap).1
    decide (p.real < p.returned ∧ s.delivered ++ p.delivered ≠ [])
  | _ => false

theorem Sound.underruns (h : Sound s came) (c : TtsCall) :
    (s.step cfg c).buf.underrunCount
      = s.buf.underrunCount + (if padsPlaying cfg s c = true ∧ s.buf.eos = false then 1 else 0) := by
  cases c with
  | push f =>
    obtain ⟨_, -, -, -, -, -, -, -, hu, -⟩ := TtsPlayoutBuffer.push_spec cfg s.buf f
    simp only [TtsTrace.step, hu, padsPlaying, Bool.false_eq_true, false_and, if_false, Nat.add_zero]
  | pop hasOut cap =>
    have hp := TtsPlayoutBuffer.pop_outcome cfg h.wf hasOut cap
    have hstart : (s.buf.pop cfg hasOut cap).2.playbackStarted = true ↔
        s.delivered ++ (s.buf.pop cfg hasOut cap).1.delivered ≠ [] := by
      rw [hp.started, h.started, ne_eq, ne_eq, ne_eq, List.append_eq_nil_iff, not_and_or]
    simp only [TtsTrace.step, hp.underruns, padsPlaying, decide_eq_true_eq, hstart, and_assoc]
  | signalEndOfStream => rfl

/-- **A pop fills the callback frame**: into a frame of `cap ≥ 1` samples it writes and returns `cap` samples, except
that it writes and returns nothing when the end of the stream was signalled and the queue is empty.  The underrun
counter goes up by one in the pops that pad while the stream is playing, and at no other call. -/
theorem pop_fills_frame (cfg : TtsConfig) (calls : List TtsCall) (hsmall : ∀ c ∈ calls, c.Small) :
    (∀ cap, 0 < cap →
      (((after cfg calls).buf.pop cfg true cap).1.returned = 0 ↔
        .signalEndOfStream ∈ calls ∧ (after cfg calls).buf.queue = []) ∧
      (((after cfg calls).buf.pop cfg true cap).1.returned = 0 ∨
        ((after cfg calls).buf.pop cfg true cap).1.returned = cap) ∧
      ((after cfg calls).buf.pop cfg true cap).1.out.length = ((after cfg calls).buf.pop cfg true cap).1.returned) ∧
    ∀ c, (step cfg (after cfg calls) c).buf.underrunCount = (after cfg calls).buf.underrunCount +
      (if padsPlaying cfg (after cfg calls) c = true ∧ .signalEndOfStream ∉ calls then 1 else 0) := by
  have h := sound_after cfg calls hsmall
  have heos := eos_after cfg calls hsmall
  refine ⟨fun cap hcap => ?_, fun c => ?_⟩
  · obtain ⟨hret, hlen⟩ := (TtsPlayoutBuffer.pop_outcome cfg h.wf true cap).fills hcap
    simp only [heos] at hret
    refine ⟨?_, ?_, hlen⟩
    · rw [hret]
      split
      · rename_i hend
        exact ⟨fun _ => hend, fun _ => rfl⟩
      · rename_i hend
        exact ⟨fun hz => absurd hz (Nat.ne_of_gt hcap), fun hc => absurd hc hend⟩
    · rw [hret]
      split
      · exact .inl rfl
      · exact .inr rfl
  · simp only [h.underruns c, ← heos, Bool.not_eq_true]

theorem pop_fills_frame_sixCalls :
    (∀ c ∈ sixCalls, c.Small) ∧ padsPlaying ⟨20, 40, .repeatLast⟩ (after ⟨20, 40, .repeatLast⟩ sixCalls) (.pop true 3) = true ∧
    (step ⟨20, 40, .repeatLast⟩ (after ⟨20, 40, .repeatLast⟩ sixCalls) (.pop true 3)).buf.underrunCount
      = (after ⟨20, 40, .repeatLast⟩ sixCalls).buf.underrunCount + 1 := by
  have hpads : padsPlaying ⟨20, 40, .repeatLast⟩ (after ⟨20, 40, .repeatLast⟩ sixCalls) (.pop true 3) = true := by
    decide +kernel
  have hcount := (pop_fills_frame ⟨20, 40, .repeatLast⟩ sixCalls (by decide)).2 (.pop true 3)
  rw [if_pos ⟨hpads, by decide⟩] at hcount
  exact ⟨by decide, hpads, hcount⟩

end TtsTrace
end Media
end Osw
