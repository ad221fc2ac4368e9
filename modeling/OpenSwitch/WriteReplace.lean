import Mathlib.Algebra.Order.Floor.Div
import OpenSwitch.MediaStreams
import OpenSwitch.ProtoFrame
import OpenSwitch.Run
import OpenSwitch.TtsPlayout
/-!
# WriteReplace — the write-replace callback of a stream (`OswStreamingWriteReplace`)

A stream plays what its service sends.  The reader makes frames of it at the rate the service answered with in
`StreamReady`; the callback takes samples out of the playout buffer and converts them from the rate the handler had asked
for to the rate of the channel.  The first part counts the samples a callback asks for, in the types of the source; the
second follows each sample from the frame it came from to the rate it is converted from.
-/
namespace Osw
namespace Media

/-! ## How many samples are asked for -/

def resampledCapacity (inSamples : UInt64) (fromHz toHz : UInt32) : UInt64 :=
  if inSamples = 0 ∨ fromHz = 0 ∨ toHz = 0 then 0
  else (inSamples * toHz.toUInt64 + fromHz.toUInt64 - 1) / fromHz.toUInt64 + 16

/-- `needed_at_stream_rate`, with `std::max` as it compares. -/
def neededAtStreamRate (capSamples fsRate streamRate : UInt32) : UInt32 :=
  let needed := resampledCapacity capSamples.toUInt64 fsRate streamRate - 16
  (if 1 < needed then needed else 1).toUInt32

/-- Half of a 32-bit length leaves room for the product with a rate: nothing wraps around. -/
theorem resampledCapacity_toNat {n fs stream : UInt32} (hn : n ≠ 0) (hhalf : n.toNat < 2 ^ 31) (hfs : fs ≠ 0)
    (hstream : stream ≠ 0) :
    (resampledCapacity n.toUInt64 fs stream).toNat = (n.toNat * stream.toNat) ⌈/⌉ fs.toNat + 16 := by
  have hn' : n.toUInt64 ≠ 0 := fun h => hn (by simpa using congrArg UInt64.toUInt32 h)
  have hpos : 0 < fs.toNat := Nat.pos_of_ne_zero (fun h => hfs (UInt32.toNat_inj.1 h))
  have hprod : n.toNat * stream.toNat < 2 ^ 31 * 2 ^ 32 := Nat.mul_lt_mul'' hhalf stream.toNat_lt
  have hrate := fs.toNat_lt
  have hdiv : (n.toNat * stream.toNat + fs.toNat - 1) / fs.toNat ≤ n.toNat * stream.toNat + fs.toNat - 1 :=
    Nat.div_le_self _ _
  rw [resampledCapacity, if_neg (by simp [hn', hfs, hstream]), Nat.ceilDiv_eq_add_pred_div]
  simp only [UInt64.toNat_add, UInt64.toNat_div, UInt64.toNat_sub, UInt64.toNat_mul, UInt32.toNat_toUInt64]
  have hsum : (2 ^ 64 - (1 : UInt64).toNat + (n.toNat * stream.toNat % 2 ^ 64 + fs.toNat) % 2 ^ 64) % 2 ^ 64
      = n.toNat * stream.toNat + fs.toNat - 1 := by
    have hone : (1 : UInt64).toNat = 1 := rfl
    omega
  have hmargin : (16 : UInt64).toNat = 16 := rfl
  rw [hsum, hmargin, Nat.mod_eq_of_lt (by omega)]

/-- Of no samples at all the margin is taken away from zero. -/
theorem neededAtStreamRate_zero (fs stream : UInt32) : neededAtStreamRate 0 fs stream = 4294967280 := by
  have hcap : resampledCapacity (0 : UInt32).toUInt64 fs stream = 0 := if_pos (.inl rfl)
  rw [neededAtStreamRate, hcap]
  decide

theorem neededAtStreamRate_toNat {n fs stream : UInt32} (hn : n ≠ 0) (hhalf : n.toNat < 2 ^ 31) (hfs : fs ≠ 0)
    (hstream : stream ≠ 0) (hfit : max 1 ((n.toNat * stream.toNat) ⌈/⌉ fs.toNat) < 2 ^ 32) :
    (neededAtStreamRate n fs stream).toNat = max 1 ((n.toNat * stream.toNat) ⌈/⌉ fs.toNat) := by
  have hcap := resampledCapacity_toNat hn hhalf hfs hstream
  have hle : (16 : UInt64) ≤ resampledCapacity n.toUInt64 fs stream := by
    rw [UInt64.le_iff_toNat_le, hcap]
    exact Nat.le_add_left ..
  have hneeded : (resampledCapacity n.toUInt64 fs stream - 16).toNat = (n.toNat * stream.toNat) ⌈/⌉ fs.toNat := by
    rw [UInt64.toNat_sub_of_le _ _ hle, hcap]
    exact Nat.add_sub_cancel ..
  have hone : (1 : UInt64).toNat = 1 := rfl
  rw [neededAtStreamRate, UInt64.toNat_toUInt32]
  split
  · rename_i hlt
    rw [UInt64.lt_iff_toNat_lt, hneeded, hone] at hlt
    rw [hneeded, Nat.mod_eq_of_lt (by omega), Nat.max_eq_right (Nat.le_of_lt hlt)]
  · rename_i hlt
    rw [UInt64.lt_iff_toNat_lt, hneeded, hone] at hlt
    rw [hone, Nat.max_eq_left (Nat.le_of_not_lt hlt)]

/-- **The callback asks for the right number of samples exactly when its frame has a sample in it.**  Without one,
the margin of `ResampledCapacity` is taken from nothing and 4294967280 samples are asked for. -/
theorem neededAtStreamRate_iff (datalen fs stream : UInt32) (hfs : fs ≠ 0) (hstream : stream ≠ 0)
    (hfit : max 1 ((datalen.toNat / 2 * stream.toNat) ⌈/⌉ fs.toNat) < 2 ^ 32) :
    (neededAtStreamRate (datalen / 2) fs stream).toNat = max 1 ((datalen.toNat / 2 * stream.toNat) ⌈/⌉ fs.toNat) ↔
      2 ≤ datalen := by
  have hcap : (datalen / 2).toNat = datalen.toNat / 2 := UInt32.toNat_div ..
  have hlen := datalen.toNat_lt
  have hzero : datalen / 2 = 0 ↔ ¬ 2 ≤ datalen := by
    rw [← UInt32.toNat_inj, hcap, UInt32.le_iff_toNat_le]
    exact Nat.div_eq_zero_iff.trans (by simp)
  rw [← hcap] at hfit ⊢
  by_cases hshort : datalen / 2 = 0
  · refine iff_of_false (fun h => ?_) (hzero.1 hshort)
    have hone : max 1 (((0 : UInt32).toNat * stream.toNat) ⌈/⌉ fs.toNat) = 1 := by simp
    rw [hshort, neededAtStreamRate_zero, hone] at h
    exact absurd h (by decide)
  · exact iff_of_true (neededAtStreamRate_toNat hshort (by omega) hfs hstream hfit) (not_not.1 (mt hzero.2 hshort))

/-- 20 ms of an 8 kHz channel are 320 samples at 16 kHz; a frame of one byte asks for 8 GiB of them. -/
theorem neededAtStreamRate_iff_small :
    (neededAtStreamRate (320 / 2) 8000 16000).toNat = 320 ∧
    ¬ (neededAtStreamRate (1 / 2) 8000 16000).toNat = max 1 (((1 : UInt32).toNat / 2 * 16000) ⌈/⌉ 8000) :=
  ⟨(neededAtStreamRate_iff 320 8000 16000 (by decide) (by decide) (by decide)).2 (by decide),
   fun h => absurd ((neededAtStreamRate_iff 1 8000 16000 (by decide) (by decide) (by decide)).1 h) (by decide)⟩

/-- The source's own arithmetic on frames of no byte and of one. -/
theorem neededAtStreamRate_empty :
    (neededAtStreamRate (0 / 2) 8000 16000).toNat = 4294967280 ∧
    (neededAtStreamRate (1 / 2) 16000 8000).toNat = 4294967280 ∧
    max 1 (((1 : UInt32).toNat / 2 * 16000) ⌈/⌉ 8000) = 1 := by decide

/-! ## Where popped samples come from -/

/-- The chunks the loop of `Pop` copies, each with its frame. -/
def drainParts (room : Nat) : List AudioFrame → Nat → List (AudioFrame × List Sample)
  | [], _ => []
  | f :: q, offset =>
    if room = 0 then []
    else if f.avail offset = 0 then drainParts room q 0
    else
      let n := min room (f.avail offset)
      let chunk := (f.samples.drop offset).take n
      if f.sampleCount32 ≤ offset + n then (f, chunk) :: drainParts (room - n) q 0 else [(f, chunk)]

theorem drainParts_out : ∀ (room : Nat) (q : List AudioFrame) (offset : Nat),
    (drainParts room q offset).flatMap (·.2) = (drain room q offset).out
  | _, [], _ => rfl
  | room, f :: q, offset => by
    rw [drainParts, drain]
    split
    · rfl
    split
    · exact drainParts_out room q 0
    dsimp only
    split
    · rw [List.flatMap_cons, drainParts_out]
    · simp

theorem drainParts_mem : ∀ {room : Nat} {q : List AudioFrame} {offset : Nat} {p : AudioFrame × List Sample},
    p ∈ drainParts room q offset → p.1 ∈ q
  | _, [], _, p, hp => by cases hp
  | room, f :: q, offset, p, hp => by
    rw [drainParts] at hp
    split at hp
    · cases hp
    split at hp
    · exact List.mem_cons_of_mem f (drainParts_mem hp)
    dsimp only at hp
    split at hp
    · rcases List.mem_cons.1 hp with rfl | hp
      · exact List.mem_cons_self
      · exact List.mem_cons_of_mem f (drainParts_mem hp)
    · rw [List.mem_singleton.1 hp]
      exact List.mem_cons_self

theorem of_orElse_eq_some {α : Type} {a b : Option α} {x : α} (h : (a <|> b) = some x) : a = some x ∨ b = some x := by
  cases a with
  | none => exact .inr h
  | some y => exact .inl h

/-- What is left in the queue was in it, and so was the last frame. -/
theorem drain_mem : ∀ (room : Nat) (q : List AudioFrame) (offset : Nat),
    (∀ g ∈ (drain room q offset).queue, g ∈ q) ∧ ∀ g, (drain room q offset).last = some g → g ∈ q
  | _, [], _ => ⟨fun _ h => h, fun _ h => by cases h⟩
  | room, f :: q, offset => by
    rw [drain]
    split
    · exact ⟨fun _ h => h, fun _ h => by cases h⟩
    split
    · obtain ⟨hq, hl⟩ := drain_mem room q 0
      exact ⟨fun g hg => List.mem_cons_of_mem f (hq g hg), fun g hg => List.mem_cons_of_mem f (hl g hg)⟩
    dsimp only
    split
    · obtain ⟨hq, hl⟩ := drain_mem (room - min room (f.avail offset)) q 0
      refine ⟨fun g hg => List.mem_cons_of_mem f (hq g hg), fun g hg => ?_⟩
      rcases of_orElse_eq_some hg with hg | hg
      · exact List.mem_cons_of_mem f (hl g hg)
      · cases hg
        exact List.mem_cons_self
    · refine ⟨fun _ h => h, fun g hg => ?_⟩
      cases hg
      exact List.mem_cons_self

theorem drainParts_front {room : Nat} {f : AudioFrame} {q : List AudioFrame} (hroom : 0 < room)
    (hf : 0 < f.sampleCount32) : ∃ chunk, (f, chunk) ∈ drainParts room (f :: q) 0 ∧ chunk ≠ [] := by
  have havail : f.avail 0 = f.sampleCount32 := by
    rw [AudioFrame.avail, if_neg (by omega), Nat.sub_zero]
  have hcount : f.sampleCount32 ≤ f.samples.length := Nat.mod_le _ _
  refine ⟨(f.samples.drop 0).take (min room (f.avail 0)), ?_, ?_⟩
  · rw [drainParts, if_neg (by omega), if_neg (by omega)]
    dsimp only
    split <;> exact List.mem_cons_self
  · intro hnil
    have hlen := congrArg List.length hnil
    rw [List.length_take, List.drop_zero, havail, List.length_nil] at hlen
    omega

namespace TtsPlayoutBuffer

/-- The frame `underrunFill` repeats, if it repeats one. -/
def fillOrigin (cfg : TtsConfig) (b : TtsPlayoutBuffer) : Option AudioFrame :=
  match cfg.underrun, b.lastFrame with
  | .repeatLast, some last => some last
  | _, _ => none

/-- What a `Pop` writes, each piece with the frame it comes from; silence comes from none. -/
def popParts (cfg : TtsConfig) (b : TtsPlayoutBuffer) (hasOut : Bool) (cap : Nat) :
    List (Option AudioFrame × List Sample) :=
  if hasOut = false ∨ cap = 0 then []
  else if b.eos = true ∧ b.queue = [] then []
  else if b.prerollReached = false ∧ b.eos = false then [(none, List.replicate cap 0)]
  else if b.queue ≠ [] then
    let d := drain cap b.queue b.frontOffsetSamples
    let parts := (drainParts cap b.queue b.frontOffsetSamples).map (fun p => (some p.1, p.2))
    if d.out.length = cap then parts
    else if b.eos then parts ++ [(none, List.replicate (cap - d.out.length) 0)]
    else parts ++ [((b.drained cfg d).fillOrigin cfg, (b.drained cfg d).underrunFill cfg (cap - d.out.length))]
  else if b.eos then []
  else if b.playbackStarted = false then [(none, List.replicate cap 0)]
  else [(b.fillOrigin cfg, b.underrunFill cfg cap)]

theorem popParts_out (cfg : TtsConfig) (b : TtsPlayoutBuffer) (hasOut : Bool) (cap : Nat) :
    (b.popParts cfg hasOut cap).flatMap (·.2) = (b.pop cfg hasOut cap).1.out := by
  have hparts : ((drainParts cap b.queue b.frontOffsetSamples).map (fun p => (some p.1, p.2))).flatMap (·.2)
      = (drain cap b.queue b.frontOffsetSamples).out := by
    rw [List.flatMap_map, ← drainParts_out]
  have hone : ∀ (o : Option AudioFrame) (out : List Sample), [(o, out)].flatMap (·.2) = out := fun o out => by simp
  unfold popParts pop popSeeing
  split
  · rfl
  split
  · rfl
  split
  · exact hone ..
  split
  · dsimp only
    split
    · exact hparts
    split
    · rw [List.flatMap_append, hparts, hone]
    · rw [List.flatMap_append, hparts, hone]
  split
  · rfl
  split
  · exact hone ..
  · exact hone ..

/-- Every frame the buffer has, in its queue or to repeat, satisfies `P`. -/
structure All (P : AudioFrame → Prop) (b : TtsPlayoutBuffer) : Prop where
  queue : ∀ f ∈ b.queue, P f
  last  : ∀ f, b.lastFrame = some f → P f

section all

variable {P : AudioFrame → Prop} {cfg : TtsConfig} {b : TtsPlayoutBuffer}

theorem All.push (h : b.All P) (cfg : TtsConfig) {f : AudioFrame} (hf : f.sampleCount ≠ 0 → P f) : (b.push cfg f).All P := by
  unfold TtsPlayoutBuffer.push
  split
  · exact h
  rename_i hne
  refine ⟨fun g hg => ?_, h.last⟩
  obtain ⟨hq, -⟩ := dropOldest_spec cfg.highWater32 (b.queue ++ [f]) b.frontOffsetSamples
  dsimp only at hg
  rw [hq] at hg
  rcases List.mem_append.1 (List.mem_of_mem_drop hg) with hg | hg
  · exact h.queue g hg
  · rw [List.mem_singleton.1 hg]
    exact hf hne

theorem All.drained (h : b.All P) (cfg : TtsConfig) (cap : Nat) : (b.drained cfg (drain cap b.queue b.frontOffsetSamples)).All P := by
  obtain ⟨hq, hl⟩ := drain_mem cap b.queue b.frontOffsetSamples
  refine ⟨fun g hg => h.queue g (hq g hg), fun g hg => ?_⟩
  simp only [TtsPlayoutBuffer.drained] at hg
  split at hg
  · rcases of_orElse_eq_some hg with hg | hg
    · exact h.queue g (hl g hg)
    · exact h.last g hg
  · exact h.last g hg

theorem All.pop (h : b.All P) (hasOut : Bool) (cap : Nat) : (b.pop cfg hasOut cap).2.All P := by
  unfold TtsPlayoutBuffer.pop popSeeing
  split
  · exact h
  split
  · exact h
  split
  · exact h
  split
  · have hd := h.drained cfg cap
    dsimp only
    split
    · exact hd
    split
    · exact hd
    · exact ⟨hd.queue, hd.last⟩
  split
  · exact h
  split
  · exact h
  · exact ⟨h.queue, h.last⟩

theorem All.fillOrigin (h : b.All P) {f : AudioFrame} (hf : b.fillOrigin cfg = some f) : P f := by
  unfold TtsPlayoutBuffer.fillOrigin at hf
  split at hf
  · rename_i last hlast
    cases hf
    exact h.last _ hlast
  · cases hf

theorem All.popParts (h : b.All P) {hasOut : Bool} {cap : Nat} {part : Option AudioFrame × List Sample} {f : AudioFrame}
    (hpart : part ∈ b.popParts cfg hasOut cap) (hf : part.1 = some f) : P f := by
  have hdrain : ∀ p, p ∈ (drainParts cap b.queue b.frontOffsetSamples).map (fun p => (some p.1, p.2)) → p.1 = some f →
      P f := by
    intro p hp hpf
    obtain ⟨q, hq, rfl⟩ := List.mem_map.1 hp
    cases hpf
    exact h.queue _ (drainParts_mem hq)
  unfold TtsPlayoutBuffer.popParts at hpart
  split at hpart
  · cases hpart
  split at hpart
  · cases hpart
  split at hpart
  · rw [List.mem_singleton.1 hpart] at hf
    cases hf
  split at hpart
  · dsimp only at hpart
    split at hpart
    · exact hdrain part hpart hf
    split at hpart
    · rcases List.mem_append.1 hpart with hpart | hpart
      · exact hdrain part hpart hf
      · rw [List.mem_singleton.1 hpart] at hf
        cases hf
    · rcases List.mem_append.1 hpart with hpart | hpart
      · exact hdrain part hpart hf
      · rw [List.mem_singleton.1 hpart] at hf
        exact (h.drained cfg cap).fillOrigin hf
  split at hpart
  · cases hpart
  split at hpart
  · rw [List.mem_singleton.1 hpart] at hf
    cases hf
  · rw [List.mem_singleton.1 hpart] at hf
    exact h.fillOrigin hf

end all

theorem mem_popParts_of_eos (cfg : TtsConfig) {b : TtsPlayoutBuffer} {f : AudioFrame} {q : List AudioFrame} {cap : Nat}
    (he : b.eos = true) (hq : b.queue = f :: q) (ho : b.frontOffsetSamples = 0) (hf : 0 < f.sampleCount32)
    (hcap : 0 < cap) : ∃ chunk, (some f, chunk) ∈ b.popParts cfg true cap ∧ chunk ≠ [] := by
  obtain ⟨chunk, hmem, hne⟩ := @drainParts_front cap f q hcap hf
  refine ⟨chunk, ?_, hne⟩
  have hparts : (some f, chunk) ∈ (drainParts cap b.queue b.frontOffsetSamples).map (fun p => (some p.1, p.2)) := by
    rw [hq, ho]
    exact List.mem_map.2 ⟨_, hmem, rfl⟩
  have hqne : b.queue ≠ [] := by rw [hq]; exact List.cons_ne_nil _ _
  rw [popParts, if_neg (by simp; omega), if_neg (fun h => hqne h.2), if_neg (by simp [he]), if_pos hqne]
  dsimp only
  split
  · exact hparts
  · exact List.mem_append_left _ hparts

end TtsPlayoutBuffer

end Media

namespace Control

open Media

/-! ## The callback -/

/-- What `StartTts` and `StartVoicebot` have settled when they make the context of the callback: the rate they asked for,
which their checks admit, the write rate of the channel, the answer of the service and the buffer's configuration. -/
structure PlayoutStart where
  rate        : UInt32
  fsWriteRate : UInt32
  ready       : StreamReady
  cfg         : TtsConfig
  supported   : rate = 8000 ∨ rate = 16000

/-- The rates of a `WriteCallbackCtx`, and those its resampler was made for. -/
structure WriteCallbackCtx where
  streamRateHz : UInt32
  fsRateHz     : UInt32
  resampler    : Option (UInt32 × UInt32)
  deriving DecidableEq, Repr

/-- `EnsureResampler` for two rates that differ: the one that is there, or a new one.  `created` tells whether
FreeSWITCH makes one for rates that are supported. -/
def ensureResampler (created : Bool) (resampler : Option (UInt32 × UInt32)) (fromHz toHz : UInt32) :
    Option (UInt32 × UInt32) :=
  match resampler with
  | some r => some r
  | none   => if created && resamplerSupports fromHz.toNat toHz.toNat then some (fromHz, toHz) else none

/-- Samples taken from the buffer, each piece with its frame, and the rate they are converted from. -/
structure Playback where
  sourceRateHz : Nat
  parts        : List (Option AudioFrame × List Sample)
  deriving DecidableEq, Repr

/-- A stream while its bug is attached; `played` is what its callbacks have popped. -/
structure PlayoutStream where
  ctx    : WriteCallbackCtx
  buffer : TtsPlayoutBuffer
  played : List Playback
  deriving DecidableEq, Repr

namespace PlayoutStream

def init (start : PlayoutStart) : PlayoutStream := ⟨⟨start.rate, start.fsWriteRate, none⟩, .init, []⟩

/-- A callback pops `cap` samples, which are taken to be at `rate`. -/
def pop (cfg : TtsConfig) (s : PlayoutStream) (rate : UInt32) (hasOut : Bool) (cap : UInt32) : PlayoutStream :=
  { s with
    buffer := (s.buffer.pop cfg hasOut cap.toNat).2
    played := s.played ++ [⟨rate.toNat, s.buffer.popParts cfg hasOut cap.toNat⟩] }

/-- `OswStreamingWriteReplace`; `allocated` tells whether there is memory for the samples it asks for. -/
def writeReplace (cfg : TtsConfig) (s : PlayoutStream) (frame : WriteFrame) (created allocated : Bool) : PlayoutStream :=
  let capSamples := frame.datalen / 2
  let fsRate := if frame.rate ≠ 0 then frame.rate else s.ctx.fsRateHz
  let streamRate := if s.ctx.streamRateHz ≠ 0 then s.ctx.streamRateHz else fsRate
  if fsRate ≠ streamRate then
    match ensureResampler created s.ctx.resampler streamRate fsRate with
    | none => s
    | some r =>
      let s' := { s with ctx := { s.ctx with resampler := some r } }
      if allocated then s'.pop cfg r.1 true (neededAtStreamRate capSamples fsRate streamRate) else s'
  -- nothing is converted: the samples are taken to be at the rate of the channel
  else s.pop cfg fsRate frame.hasData capSamples

/-- What happens to a stream: a message of the service, its end, a callback. -/
inductive Event
  | audio (msg : AudioFrameProto)
  | done
  | writeReplace (frame : WriteFrame) (created allocated : Bool)

/-- One event; after a message that ends the process there is no next state. -/
def step (start : PlayoutStart) (s : PlayoutStream) : Event → Option PlayoutStream
  | .audio msg =>
    match AudioFrame.fromProto msg start.ready.sampleRateHz.toNat start.ready.channels.toNat with
    | .nullopt    => some s
    | .frame f    => some { s with buffer := s.buffer.push start.cfg f }
    | .terminates => none
  | .done => some { s with buffer := s.buffer.signalEndOfStream }
  | .writeReplace frame created allocated => some (s.writeReplace start.cfg frame created allocated)

/-! ## The rate of the samples -/

/-- Every popped sample was converted from the rate of the frame it came from. -/
def RatesAgree (s : PlayoutStream) : Prop :=
  ∀ p ∈ s.played, ∀ part ∈ p.parts, ∀ f, part.1 = some f → part.2 ≠ [] → p.sourceRateHz = f.sampleRateHz

/-- In a run whose frames all have the rate that was asked for, the callback knows it. -/
structure Inv (rate : UInt32) (s : PlayoutStream) : Prop where
  stream    : s.ctx.streamRateHz = rate
  resampler : ∀ r, s.ctx.resampler = some r → r.1 = rate
  frames    : s.buffer.All (fun f => f.sampleRateHz = rate.toNat)
  agree     : s.RatesAgree

section inv

variable {rate : UInt32} {cfg : TtsConfig} {s : PlayoutStream}

theorem Inv.pop (h : s.Inv rate) (hasOut : Bool) (cap : UInt32) : (s.pop cfg rate hasOut cap).Inv rate := by
  refine ⟨h.stream, h.resampler, h.frames.pop hasOut cap.toNat, fun p hp part hpart f hf hne => ?_⟩
  rcases List.mem_append.1 hp with hp | hp
  · exact h.agree p hp part hpart f hf hne
  · rw [List.mem_singleton.1 hp] at hpart ⊢
    exact (h.frames.popParts hpart hf).symm

theorem ensureResampler_fst {created : Bool} {resampler : Option (UInt32 × UInt32)} {fs : UInt32} {r : UInt32 × UInt32}
    (hold : ∀ r, resampler = some r → r.1 = rate) (h : ensureResampler created resampler rate fs = some r) : r.1 = rate := by
  unfold ensureResampler at h
  cases resampler with
  | some r' =>
    cases h
    exact hold _ rfl
  | none =>
    dsimp only at h
    split at h
    · cases h
      rfl
    · cases h

theorem Inv.writeReplace (h : s.Inv rate) (hrate : rate ≠ 0) (frame : WriteFrame) (created allocated : Bool) :
    (s.writeReplace cfg frame created allocated).Inv rate := by
  unfold PlayoutStream.writeReplace
  rw [h.stream]
  simp only [if_pos hrate]
  generalize (if frame.rate ≠ 0 then frame.rate else s.ctx.fsRateHz) = fs
  split
  · cases hr : ensureResampler created s.ctx.resampler rate fs with
    | none => exact h
    | some r =>
      have hfst := ensureResampler_fst h.resampler hr
      have h' : ({ s with ctx := { s.ctx with resampler := some r } } : PlayoutStream).Inv rate :=
        ⟨h.stream, fun r' hr' => by cases hr'; exact hfst, h.frames, h.agree⟩
      dsimp only
      split
      · rw [hfst]
        exact h'.pop true _
      · exact h'
  · rename_i hsame
    rw [not_not.1 hsame]
    exact h.pop _ _

/-- What the reader makes of a message has the rate of the answer, and no samples when the answer has no channels. -/
theorem fromProto_frame {msg : AudioFrameProto} {rate channels : Nat} {f : AudioFrame}
    (h : AudioFrame.fromProto msg rate channels = .frame f) :
    f.sampleRateHz = rate ∧ (channels = 0 → f.sampleCount = 0) := by
  unfold AudioFrame.fromProto at h
  dsimp only at h
  split at h
  · cases h
  split at h
  · cases h
  · cases h
    refine ⟨rfl, ?_⟩
    rintro rfl
    simp [AudioFrame.sampleCount]

theorem Inv.step {start : PlayoutStart} (h : s.Inv start.rate)
    (hready : start.ready.sampleRateHz = start.rate ∨ start.ready.channels = 0) (e : Event) (s' : PlayoutStream)
    (hs : s.step start e = some s') : s'.Inv start.rate := by
  cases e with
  | audio msg =>
    simp only [PlayoutStream.step] at hs
    split at hs
    · cases hs
      exact h
    · rename_i f hf
      cases hs
      obtain ⟨hrate, hempty⟩ := fromProto_frame hf
      refine ⟨h.stream, h.resampler, h.frames.push start.cfg (fun hne => ?_), h.agree⟩
      rcases hready with hready | hready
      · rw [hrate, hready]
      · exact absurd (hempty (by rw [hready]; rfl)) hne
    · cases hs
  | done =>
    cases hs
    exact ⟨h.stream, h.resampler, ⟨h.frames.queue, h.frames.last⟩, h.agree⟩
  | writeReplace frame created allocated =>
    cases hs
    refine h.writeReplace ?_ frame created allocated
    rcases start.supported with hr | hr <;> rw [hr] <;> decide

end inv

/-! ## An answer with another rate -/

/-- One sample for each channel of the answer. -/
def oneSample (ready : StreamReady) : AudioFrameProto :=
  ⟨0, 0, 1, List.replicate (ready.channels.toNat * 2) 0, 0, []⟩

/-- The service sends a message and ends; a callback of 20 ms comes for a channel with the other of the two rates. -/
def otherRate (start : PlayoutStart) : List Event :=
  [.audio (oneSample start.ready), .done,
    .writeReplace ⟨true, 320, if start.rate = 8000 then 16000 else 8000⟩ true true]

theorem fromProto_oneSample (ready : StreamReady) :
    ∃ f, AudioFrame.fromProto (oneSample ready) ready.sampleRateHz.toNat ready.channels.toNat = .frame f ∧
      f.sampleRateHz = ready.sampleRateHz.toNat ∧ f.sampleCount = ready.channels.toNat := by
  have hlt := ready.channels.toNat_lt
  have hmax : maxSamples = 2 ^ 62 - 1 := rfl
  unfold AudioFrame.fromProto oneSample
  simp only [List.length_replicate, Nat.one_mul]
  rw [Nat.mod_eq_of_lt (by omega), if_neg (not_not.2 rfl), Nat.mod_eq_of_lt (by omega), if_neg (by omega)]
  exact ⟨_, rfl, rfl, by simp [AudioFrame.sampleCount]⟩

theorem push_init (cfg : TtsConfig) {f : AudioFrame} (hf : f.sampleCount ≠ 0) :
    (TtsPlayoutBuffer.init.push cfg f).queue = [f] ∧ (TtsPlayoutBuffer.init.push cfg f).frontOffsetSamples = 0 := by
  rw [TtsPlayoutBuffer.push, if_neg hf]
  exact ⟨rfl, rfl⟩

theorem writeReplace_other (cfg : TtsConfig) (s : PlayoutStream) {rate : UInt32} (hrate : rate = 8000 ∨ rate = 16000)
    (hstream : s.ctx.streamRateHz = rate) (hnone : s.ctx.resampler = none) :
    ∃ ctx cap, 0 < cap.toNat ∧
      s.writeReplace cfg ⟨true, 320, if rate = 8000 then 16000 else 8000⟩ true true
        = ({ s with ctx := ctx } : PlayoutStream).pop cfg rate true cap := by
  rcases hrate with rfl | rfl
  · exact ⟨⟨s.ctx.streamRateHz, s.ctx.fsRateHz, some (8000, 16000)⟩, neededAtStreamRate 160 16000 8000, by decide, by
      simp only [writeReplace, hstream, hnone]
      rfl⟩
  · exact ⟨⟨s.ctx.streamRateHz, s.ctx.fsRateHz, some (16000, 8000)⟩, neededAtStreamRate 160 8000 16000, by decide, by
      simp only [writeReplace, hstream, hnone]
      rfl⟩

theorem otherRate_disagrees {start : PlayoutStart} (hrate : start.ready.sampleRateHz ≠ start.rate)
    (hchannels : start.ready.channels ≠ 0) :
    ∃ s, Run.exec (step start) (otherRate start) (init start) = some s ∧ ¬ s.RatesAgree := by
  obtain ⟨f, hf, hfrate, hcount⟩ := fromProto_oneSample start.ready
  have hpos : 0 < start.ready.channels.toNat := Nat.pos_of_ne_zero (fun h => hchannels (UInt32.toNat_inj.1 h))
  have hcount32 : f.sampleCount32 = start.ready.channels.toNat := by
    rw [AudioFrame.sampleCount32, hcount]
    exact Nat.mod_eq_of_lt start.ready.channels.toNat_lt
  obtain ⟨hq, ho⟩ := push_init start.cfg (show f.sampleCount ≠ 0 by omega)
  let b := (TtsPlayoutBuffer.init.push start.cfg f).signalEndOfStream
  obtain ⟨ctx, cap, hcap, hcallback⟩ :=
    writeReplace_other start.cfg { init start with buffer := b } start.supported rfl rfl
  have hrun : Run.exec (step start) (otherRate start) (init start)
      = some (({ init start with ctx := ctx, buffer := b } : PlayoutStream).pop start.cfg start.rate true cap) := by
    simp only [Run.exec, otherRate, step, hf]
    exact congrArg some hcallback
  refine ⟨_, hrun, fun hagree => ?_⟩
  -- the callback has popped from the frame, and takes it for one at the rate that was asked for
  obtain ⟨chunk, hmem, hne⟩ :=
    TtsPlayoutBuffer.mem_popParts_of_eos start.cfg (show b.eos = true from rfl) hq ho (by omega) hcap
  have hbad := hagree _ (List.mem_append_right _ List.mem_cons_self) _ hmem f rfl hne
  rw [hfrate] at hbad
  exact hrate (UInt32.toNat_inj.1 hbad).symm

/-- **The rates agree in every run exactly when the service answers with the rate it was asked for**, or with no
channels, so that no sample gets through. -/
theorem ratesAgree_iff (start : PlayoutStart) :
    (∀ events s, Run.exec (step start) events (init start) = some s → s.RatesAgree) ↔
      start.ready.sampleRateHz = start.rate ∨ start.ready.channels = 0 := by
  constructor
  · intro h
    by_contra hno
    obtain ⟨hrate, hchannels⟩ := not_or.1 hno
    obtain ⟨s, hs, hdis⟩ := otherRate_disagrees hrate hchannels
    exact hdis (h _ s hs)
  · intro hready events s hs
    have hinit : (init start).Inv start.rate := ⟨rfl, nofun, ⟨nofun, nofun⟩, nofun⟩
    exact (Run.exec_inv (fun s e s' hi he => hi.step hready e s' he) events _ s hinit hs).agree

/-- 16 kHz were asked for on a channel of 8 kHz, and the service answers with 8 kHz. -/
def downgraded : PlayoutStart := ⟨16000, 8000, ⟨8000, 1, []⟩, ⟨100, 1000, .silence⟩, .inr rfl⟩

/-- The sample is at 8 kHz already, and is converted from 16 kHz to 8 kHz. -/
theorem downgraded_disagrees :
    (Run.exec (step downgraded) (otherRate downgraded) (init downgraded)).map (fun s =>
      (s.ctx.resampler, s.played.map (fun p => (p.sourceRateHz, p.parts.map (fun q => q.1.map (·.sampleRateHz))))))
      = some (some (16000, 8000), [(16000, [some 8000, none])]) ∧
    ∃ s, Run.exec (step downgraded) (otherRate downgraded) (init downgraded) = some s ∧ ¬ s.RatesAgree :=
  ⟨by decide +kernel, otherRate_disagrees (by decide) (by decide)⟩

end PlayoutStream
end Control
end Osw
