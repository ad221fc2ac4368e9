import OpenSwitch.AudioFrame
/-!
# TtsPlayout — the playout buffer of a TTS stream (`tts_playout_buffer.cc`)

The reader of the stream pushes frames of any size; the media thread pops callback frames of the channel's size, which
are filled across the queued frames, from an offset into the front one.  A push over the high-water mark drops the
oldest frames; a pop that finds too little pads by the underrun policy.
-/
namespace Osw
namespace Media

inductive UnderrunPolicy
  | silence
  | repeatLast
  deriving DecidableEq, Repr

/-- `TtsPlayoutBuffer::Config`.  The two depths are `std::chrono::milliseconds`. -/
structure TtsConfig where
  prerollMs   : Int
  highWaterMs : Int
  underrun    : UnderrunPolicy
  deriving DecidableEq, Repr

namespace TtsConfig

/-- `static_cast<std::uint32_t>(cfg_.preroll_ms.count())`. -/
def preroll32 (cfg : TtsConfig) : Nat := (cfg.prerollMs % 2 ^ 32).toNat

/-- `static_cast<std::uint32_t>(cfg_.high_water_ms.count())`. -/
def highWater32 (cfg : TtsConfig) : Nat := (cfg.highWaterMs % 2 ^ 32).toNat

end TtsConfig

def durationMsForSamples (samples sampleRateHz channels : Nat) : Nat :=
  if samples = 0 ∨ sampleRateHz = 0 ∨ channels = 0 then 0
  else samples * 1000 / (sampleRateHz * channels) % 2 ^ 32

namespace AudioFrame

/-- `static_cast<std::uint32_t>(f.sample_count())`. -/
def sampleCount32 (f : AudioFrame) : Nat := f.sampleCount % 2 ^ 32

/-- What a reader at an offset has still to take of a frame. -/
def avail (f : AudioFrame) (offset : Nat) : Nat :=
  if f.sampleCount32 ≤ offset then 0 else f.sampleCount32 - offset

/-- A frame the 32-bit counts are right for, with something in it. -/
def Fits (f : AudioFrame) : Prop := 0 < f.sampleCount ∧ f.sampleCount < 2 ^ 32

theorem Fits.sampleCount32_eq {f : AudioFrame} (h : f.Fits) : f.sampleCount32 = f.samples.length :=
  Nat.mod_eq_of_lt h.2

theorem Fits.avail_eq {f : AudioFrame} (h : f.Fits) {offset : Nat} (ho : offset < f.samples.length) :
    f.avail offset = f.samples.length - offset := by
  rw [avail, h.sampleCount32_eq, if_neg (Nat.not_le.2 ho)]

end AudioFrame

/-- `RecomputeDepth`. -/
def recomputeDepth : List AudioFrame → Nat → Nat
  | [], _ => 0
  | f :: q, offset =>
    min (durationMsForSamples (f.avail offset) f.sampleRateHz f.channels +
        (q.map (fun g => durationMsForSamples g.sampleCount32 g.sampleRateHz g.channels)).sum) (2 ^ 32 - 1)

/-! ## The loops -/

/-- What the loop of `Push` leaves. -/
structure Trimmed where
  queue   : List AudioFrame
  offset  : Nat
  dropped : Nat
  deriving DecidableEq, Repr

/-- The loop of `Push`: the oldest frame goes while the queue is over the high-water mark and not down to one frame. -/
def dropOldest (highWater : Nat) : List AudioFrame → Nat → Trimmed
  | f :: g :: q, offset =>
    if highWater < recomputeDepth (f :: g :: q) offset then
      let r := dropOldest highWater (g :: q) 0
      { r with dropped := r.dropped + 1 }
    else ⟨f :: g :: q, offset, 0⟩
  | q, offset => ⟨q, offset, 0⟩

/-- What the loop of `Pop` leaves: the samples it copied and the last frame it copied from. -/
structure Drained where
  out    : List Sample
  queue  : List AudioFrame
  offset : Nat
  last   : Option AudioFrame
  deriving DecidableEq, Repr

/-- The loop of `Pop`, with room for `room` more samples. -/
def drain (room : Nat) : List AudioFrame → Nat → Drained
  | [], offset => ⟨[], [], offset, none⟩
  | f :: q, offset =>
    if room = 0 then ⟨[], f :: q, offset, none⟩
    else if f.avail offset = 0 then drain room q 0
    else
      let n := min room (f.avail offset)
      let chunk := (f.samples.drop offset).take n
      if f.sampleCount32 ≤ offset + n then
        let r := drain (room - n) q 0
        { r with out := chunk ++ r.out, last := r.last <|> some f }
      -- the frame is not used up, so `n` was all the room there was and the loop ends
      else ⟨chunk, f :: q, offset + n, some f⟩

/-- The loop of `FillRepeatLast`; every turn writes a sample, so `fuel` turns fill `fuel` samples. -/
def fillLoop (last : AudioFrame) : Nat → Nat → List Sample
  | 0, _ => []
  | fuel + 1, room =>
    if room = 0 then []
    else last.samples.take (min room last.sampleCount32) ++ fillLoop last fuel (room - min room last.sampleCount32)

def fillRepeatLast (room : Nat) (last : AudioFrame) : List Sample :=
  if last.sampleCount32 = 0 then [] else fillLoop last room room

/-! ## The buffer -/

/-- `TtsPlayoutBuffer`.  `lastFrame` is `last_frame_` once `has_last_frame_` is set; the two counts are
exact below `2 ^ 64`. -/
structure TtsPlayoutBuffer where
  queue              : List AudioFrame
  frontOffsetSamples : Nat
  depthMs            : Nat
  lastFrame          : Option AudioFrame
  prerollReached     : Bool
  eos                : Bool
  playbackStarted    : Bool
  underrunCount      : Nat
  overrunCount       : Nat
  deriving DecidableEq, Repr

/-- What a `Pop` wrote, how many of these samples it copied from frames, and what it returned. -/
structure Popped where
  out      : List Sample
  real     : Nat
  returned : Nat
  deriving DecidableEq, Repr

namespace TtsPlayoutBuffer

def init : TtsPlayoutBuffer := ⟨[], 0, 0, none, false, false, false, 0, 0⟩

def push (cfg : TtsConfig) (b : TtsPlayoutBuffer) (frame : AudioFrame) : TtsPlayoutBuffer :=
  if frame.sampleCount = 0 then b
  else
    let r := dropOldest cfg.highWater32 (b.queue ++ [frame]) b.frontOffsetSamples
    let depth := recomputeDepth r.queue r.offset
    { b with
      queue := r.queue
      frontOffsetSamples := r.offset
      depthMs := depth
      overrunCount := b.overrunCount + r.dropped
      prerollReached := b.prerollReached || decide (cfg.preroll32 ≤ depth) }

/-- What fills a frame on an underrun. -/
def underrunFill (cfg : TtsConfig) (b : TtsPlayoutBuffer) (room : Nat) : List Sample :=
  match cfg.underrun, b.lastFrame with
  | .repeatLast, some last => fillRepeatLast room last
  | _, _ => List.replicate room 0

/-- The buffer after the loop of `Pop`. -/
def drained (cfg : TtsConfig) (b : TtsPlayoutBuffer) (d : Drained) : TtsPlayoutBuffer :=
  { b with
    queue := d.queue
    frontOffsetSamples := d.offset
    depthMs := recomputeDepth d.queue d.offset
    lastFrame := if cfg.underrun = .repeatLast then d.last <|> b.lastFrame else b.lastFrame
    playbackStarted := true }

/-- `Pop`.  It reads `eos_` up to three times, and `SignalEndOfStream` stores it without the lock: `eos₁`, `eos₂` and
`eos₃` are what the reads see.  `hasOut` tells whether `out` is not null. -/
def popSeeing (cfg : TtsConfig) (b : TtsPlayoutBuffer) (hasOut : Bool) (cap : Nat) (eos₁ eos₂ eos₃ : Bool) :
    Popped × TtsPlayoutBuffer :=
  if hasOut = false ∨ cap = 0 then (⟨[], 0, 0⟩, b)
  else if eos₁ = true ∧ b.queue = [] then (⟨[], 0, 0⟩, b)
  -- still priming
  else if b.prerollReached = false ∧ eos₂ = false then (⟨List.replicate cap 0, 0, cap⟩, b)
  else if b.queue ≠ [] then
    let d := drain cap b.queue b.frontOffsetSamples
    let b' := b.drained cfg d
    if d.out.length = cap then (⟨d.out, d.out.length, d.out.length⟩, b')
    -- the queue ran dry
    else if eos₃ then (⟨d.out ++ List.replicate (cap - d.out.length) 0, d.out.length, cap⟩, b')
    else (⟨d.out ++ b'.underrunFill cfg (cap - d.out.length), d.out.length, cap⟩,
      { b' with underrunCount := b'.underrunCount + 1 })
  else if eos₃ then (⟨[], 0, 0⟩, b)
  else if b.playbackStarted = false then (⟨List.replicate cap 0, 0, cap⟩, b)
  else
    let fill := b.underrunFill cfg cap
    (⟨fill, 0, fill.length⟩, { b with underrunCount := b.underrunCount + 1 })

def pop (cfg : TtsConfig) (b : TtsPlayoutBuffer) (hasOut : Bool) (cap : Nat) : Popped × TtsPlayoutBuffer :=
  b.popSeeing cfg hasOut cap b.eos b.eos b.eos

def signalEndOfStream (b : TtsPlayoutBuffer) : TtsPlayoutBuffer := { b with eos := true }

/-- **A `SignalEndOfStream` during a `Pop` is as one before or after it**: whichever of its reads of `eos_` come after
the store, the pop does what it does when none or all of them do. -/
theorem popSeeing_signal (cfg : TtsConfig) (b : TtsPlayoutBuffer) (hasOut : Bool) (cap : Nat) (eos₁ eos₂ eos₃ : Bool)
    (h₁₂ : eos₁ = true → eos₂ = true) (h₂₃ : eos₂ = true → eos₃ = true) :
    b.popSeeing cfg hasOut cap eos₁ eos₂ eos₃ = b.popSeeing cfg hasOut cap eos₁ eos₁ eos₁ ∨
    b.popSeeing cfg hasOut cap eos₁ eos₂ eos₃ = b.popSeeing cfg hasOut cap eos₃ eos₃ eos₃ := by
  cases eos₁ with
  | true =>
    rw [h₁₂ rfl, h₂₃ (h₁₂ rfl)]
    exact .inl rfl
  | false =>
    cases eos₃ with
    | false =>
      cases eos₂ with
      | false => exact .inl rfl
      | true => cases h₂₃ rfl
    | true =>
      by_cases hsilent : b.prerollReached = false ∧ eos₂ = false
      · -- the pop is over before it reads `eos_` again
        left
        simp only [popSeeing, hsilent.1, hsilent.2, and_self, if_true]
      · right
        by_cases hq : b.queue = []
        · simp [popSeeing, hq, hsilent]
        · simp [popSeeing, hq, hsilent]

theorem popSeeing_signal_init :
    let pop := init.popSeeing ⟨0, 0, .silence⟩ true 1
    pop false false true = pop false false false ∨ pop false false true = pop true true true :=
  popSeeing_signal _ _ true 1 false false true nofun nofun

end TtsPlayoutBuffer

/-! ## What the loops do -/

/-- The samples of a queue of frames. -/
def allSamples (q : List AudioFrame) : List Sample := q.flatMap AudioFrame.samples

/-- What has been played of the front frame. -/
def playedOf : List AudioFrame → Nat → List Sample
  | [], _ => []
  | f :: _, offset => f.samples.take offset

/-- What is still to be played of a queue. -/
def unplayedOf : List AudioFrame → Nat → List Sample
  | [], _ => []
  | f :: q, offset => f.samples.drop offset ++ allSamples q

theorem playedOf_append_unplayedOf (q : List AudioFrame) (offset : Nat) :
    playedOf q offset ++ unplayedOf q offset = allSamples q := by
  cases q with
  | nil => rfl
  | cons f q => rw [playedOf, unplayedOf, ← List.append_assoc, List.take_append_drop, allSamples, allSamples, List.flatMap_cons]

theorem playedOf_zero (q : List AudioFrame) : playedOf q 0 = [] := by
  cases q <;> rfl

/-- An offset into the front frame, zero when there is none. -/
def OffsetIn : List AudioFrame → Nat → Prop
  | [], offset => offset = 0
  | f :: _, offset => offset < f.samples.length

theorem offsetIn_zero {q : List AudioFrame} (hq : ∀ f ∈ q, f.Fits) : OffsetIn q 0 := by
  cases q with
  | nil => rfl
  | cons f q => exact (hq f List.mem_cons_self).1

/-- **What the loop of `Push` does**: it takes frames from the front, never the last one, and a taken front frame takes
the offset with it. -/
theorem dropOldest_spec (highWater : Nat) : ∀ (q : List AudioFrame) (offset : Nat),
    (dropOldest highWater q offset).queue = q.drop (dropOldest highWater q offset).dropped ∧
    (dropOldest highWater q offset).offset = (if (dropOldest highWater q offset).dropped = 0 then offset else 0) ∧
    ((dropOldest highWater q offset).dropped = 0 ∨ (dropOldest highWater q offset).dropped < q.length)
  | [], _ => ⟨rfl, rfl, .inl rfl⟩
  | [_], _ => ⟨rfl, rfl, .inl rfl⟩
  | f :: g :: q, offset => by
    obtain ⟨hq, ho, hd⟩ := dropOldest_spec highWater (g :: q) 0
    rw [dropOldest]
    split
    · refine ⟨hq, ?_, .inr ?_⟩
      · rw [if_neg (Nat.succ_ne_zero _)]
        simpa only [ite_self] using ho
      · simp only [List.length_cons] at hd ⊢
        omega
    · exact ⟨rfl, rfl, .inl rfl⟩

/-- What the loop of `Pop` does to a queue, given room for `room` samples. -/
structure Drains (room : Nat) (q : List AudioFrame) (offset : Nat) (d : Drained) : Prop where
  conserves : ∃ k, d.queue = q.drop k ∧
    playedOf q offset ++ d.out = allSamples (q.take k) ++ playedOf d.queue d.offset
  offsetIn  : OffsetIn d.queue d.offset
  le        : d.out.length ≤ room
  full      : d.queue ≠ [] → d.out.length = room
  some      : 0 < room → q ≠ [] → d.out ≠ []
  last_mem  : ∀ f, d.last = Option.some f → f ∈ q

theorem allSamples_cons (f : AudioFrame) (q : List AudioFrame) : allSamples (f :: q) = f.samples ++ allSamples q :=
  List.flatMap_cons

theorem Drains.nil (room offset : Nat) (ho : OffsetIn [] offset) : Drains room [] offset ⟨[], [], offset, none⟩ where
  conserves := ⟨0, rfl, rfl⟩
  offsetIn  := ho
  le        := Nat.zero_le _
  full      := fun h => absurd rfl h
  some      := fun _ h => absurd rfl h
  last_mem  := nofun

section turn

variable {room offset : Nat} {f : AudioFrame} {q : List AudioFrame}

theorem Drains.stop (ho : OffsetIn (f :: q) offset) : Drains 0 (f :: q) offset ⟨[], f :: q, offset, none⟩ where
  conserves := ⟨0, rfl, List.append_nil _⟩
  offsetIn  := ho
  le        := Nat.zero_le _
  full      := fun _ => rfl
  some      := fun hpos => absurd hpos (Nat.lt_irrefl 0)
  last_mem  := nofun

theorem Drains.usedUp (hlt : offset < f.samples.length) (hroom : f.samples.length - offset ≤ room) {d : Drained}
    (hd : Drains (room - (f.samples.length - offset)) q 0 d) :
    Drains room (f :: q) offset { d with out := f.samples.drop offset ++ d.out, last := d.last <|> Option.some f } := by
  obtain ⟨⟨k, hk, hcons⟩, hoff, hle, hfull, -, hlast⟩ := hd
  rw [playedOf_zero, List.nil_append] at hcons
  have hlen : (f.samples.drop offset ++ d.out).length = f.samples.length - offset + d.out.length := by
    rw [List.length_append, List.length_drop]
  refine
    { conserves := ⟨k + 1, hk, ?_⟩
      offsetIn  := hoff
      le        := ?_
      full      := fun h => ?_
      some      := fun _ _ h => ?_
      last_mem  := fun g hg => ?_ }
  · rw [List.take_succ_cons, allSamples_cons, List.append_assoc, ← hcons, playedOf, ← List.append_assoc,
      List.take_append_drop]
  · rw [hlen]
    omega
  · rw [hlen, hfull h]
    omega
  · have hnil := List.drop_eq_nil_iff.1 (List.append_eq_nil_iff.1 h).1
    omega
  · simp only at hg
    cases hr : d.last with
    | none =>
      rw [hr] at hg
      cases hg
      exact List.mem_cons_self
    | some g' =>
      rw [hr] at hg
      cases hg
      exact List.mem_cons_of_mem f (hlast _ hr)

theorem Drains.cut (hpos : 0 < room) (hroom : offset + room < f.samples.length) :
    Drains room (f :: q) offset ⟨(f.samples.drop offset).take room, f :: q, offset + room, Option.some f⟩ := by
  have hlen : ((f.samples.drop offset).take room).length = room := by
    rw [List.length_take, List.length_drop]
    omega
  refine
    { conserves := ⟨0, rfl, ?_⟩
      offsetIn  := hroom
      le        := Nat.le_of_eq hlen
      full      := fun _ => hlen
      some      := fun _ _ => List.ne_nil_of_length_pos (Nat.lt_of_lt_of_eq hpos hlen.symm)
      last_mem  := fun g hg => ?_ }
  · simp only [playedOf, List.take_zero, allSamples, List.flatMap_nil, List.nil_append]
    rw [List.take_add]
  · cases hg
    exact List.mem_cons_self

end turn

/-- **The loop of `Pop` copies across the frames, from the offset on, until there is no room or no frame.** -/
theorem drain_spec : ∀ (room : Nat) (q : List AudioFrame) (offset : Nat), (∀ f ∈ q, f.Fits) → OffsetIn q offset →
    Drains room q offset (drain room q offset)
  | room, [], offset, _, ho => .nil room offset ho
  | room, f :: q, offset, hq, ho => by
    have hf : f.Fits := hq f List.mem_cons_self
    have hlt : offset < f.samples.length := ho
    have hrest : ∀ g ∈ q, g.Fits := fun g hg => hq g (List.mem_cons_of_mem f hg)
    rw [drain]
    split
    · rename_i hroom
      subst hroom
      exact .stop ho
    rename_i hroom
    rw [hf.avail_eq hlt, if_neg (by omega)]
    simp only [hf.sampleCount32_eq]
    split
    · rename_i hend
      rw [Nat.min_eq_right (by omega), List.take_of_length_le (by rw [List.length_drop])]
      exact .usedUp hlt (by omega) (drain_spec _ q 0 hrest (offsetIn_zero hrest))
    · rename_i hend
      rw [Nat.min_eq_left (by omega)]
      exact .cut (by omega) (by omega)

theorem fillLoop_length (last : AudioFrame) (hpos : 0 < last.sampleCount32) : ∀ (fuel room : Nat), room ≤ fuel →
    (fillLoop last fuel room).length = room
  | 0, room, h => by
    rw [Nat.le_zero.1 h]
    rfl
  | fuel + 1, room, h => by
    have hcount : last.sampleCount32 ≤ last.samples.length := Nat.mod_le _ _
    rw [fillLoop]
    split
    · rename_i hroom
      exact hroom.symm
    · rename_i hroom
      rw [List.length_append, List.length_take, fillLoop_length last hpos fuel _ (by omega)]
      omega

theorem fillRepeatLast_length {last : AudioFrame} (hpos : 0 < last.sampleCount32) (room : Nat) :
    (fillRepeatLast room last).length = room := by
  rw [fillRepeatLast, if_neg (Nat.ne_of_gt hpos)]
  exact fillLoop_length last hpos room room (Nat.le_refl _)

end Media
end Osw
