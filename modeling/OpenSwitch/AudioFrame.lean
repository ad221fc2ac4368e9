import Mathlib.Data.List.GetD
import Mathlib.Data.List.Range
import Mathlib.Data.List.TakeDrop
import OpenSwitch.Basic
/-!
# AudioFrame — PCM frames and the bytes of a stereo one (`audio_frame.h`, `stereo_pairer.cc`, `recording_relay.cc`)

A frame is a list of 16-bit samples with its place in a stream.  The pairer writes two lists of samples as interleaved
little-endian bytes, the shorter one filled up with silence; the recording relay reads them back sample by sample.
-/
namespace Osw
namespace Media

/-- `std::int16_t`. -/
abbrev Sample := BitVec 16

/-- `osw::media::AudioFrame`. -/
structure AudioFrame where
  samples          : List Sample
  sampleRateHz     : Nat
  channels         : Nat
  seq              : Nat
  timestampSamples : Nat
  channel          : Nat
  channelUuid      : Bytes
  deriving DecidableEq, Repr, Inhabited

namespace AudioFrame

def sampleCount (f : AudioFrame) : Nat := f.samples.length

/-- `duration_samples`: the samples of one channel, in 32 bits. -/
def durationSamples (f : AudioFrame) : Nat := if 0 < f.channels then f.samples.length / f.channels % 2 ^ 32 else 0

end AudioFrame

/-- The frame of `MediaBugGetWriteReplaceFrame`, which a write-replace callback fills. -/
structure WriteFrame where
  hasData : Bool
  datalen : UInt32
  rate    : UInt32
  deriving DecidableEq, Repr

/-! ## Samples as bytes -/

/-- `AppendInt16Le`: the low byte, then the high one. -/
def int16Le (s : Sample) : Bytes := [UInt8.ofNat (s.toNat % 256), UInt8.ofNat (s.toNat / 256 % 256)]

/-- `ReadInt16Le`. -/
def readInt16Le (bytes : Bytes) (sampleIndex : Nat) : Sample :=
  BitVec.ofNat 16 ((bytes.getD (sampleIndex * 2) 0).toNat ||| ((bytes.getD (sampleIndex * 2 + 1) 0).toNat <<< 8))

theorem or_bytes (n : Nat) (h : n < 2 ^ 16) : n % 256 ||| (n / 256 % 256) <<< 8 = n := by
  have hdiv : n / 256 % 256 = n / 256 := Nat.mod_eq_of_lt (by omega)
  have hor := Nat.two_pow_add_eq_or_of_lt (i := 8) (b := n % 256) (Nat.mod_lt _ (by decide)) (n / 256)
  rw [hdiv, Nat.shiftLeft_eq, Nat.mul_comm, Nat.or_comm, ← hor]
  omega

/-- The two bytes of a sample give the sample back, wherever they stand. -/
theorem readInt16Le_of_getD {bytes : Bytes} {i : Nat} {s : Sample}
    (h0 : bytes.getD (i * 2) 0 = UInt8.ofNat (s.toNat % 256))
    (h1 : bytes.getD (i * 2 + 1) 0 = UInt8.ofNat (s.toNat / 256 % 256)) : readInt16Le bytes i = s := by
  have hlo : (UInt8.ofNat (s.toNat % 256)).toNat = s.toNat % 256 := by
    rw [UInt8.toNat_ofNat']
    omega
  have hhi : (UInt8.ofNat (s.toNat / 256 % 256)).toNat = s.toNat / 256 % 256 := by
    rw [UInt8.toNat_ofNat']
    omega
  rw [readInt16Le, h0, h1, hlo, hhi, or_bytes s.toNat s.isLt]
  simp

/-! ## Interleaving two channels -/

/-- The samples per channel of a stereo frame: those of the longer side. -/
def stereoLength (left right : List Sample) : Nat := max left.length right.length

/-- The loop of `MakePairedFrameLocked`: left and right in turn, silence past the end of a side. -/
def interleave (left right : List Sample) : Bytes :=
  (List.range (stereoLength left right)).flatMap (fun i => int16Le (left.getD i 0) ++ int16Le (right.getD i 0))

theorem interleave_eq_nil {left right : List Sample} (h : interleave left right = []) : stereoLength left right = 0 := by
  refine Nat.eq_zero_of_not_pos (fun hpos => ?_)
  have := List.flatMap_eq_nil_iff.1 h 0 (List.mem_range.2 hpos)
  cases this

/-- The samples of `FlushPairedFrame`: `samples_per_channel * 2u` of them, a product in 32 bits. -/
def readInterleaved (bytes : Bytes) (samplesPerChannel : Nat) : List Sample :=
  (List.range (samplesPerChannel * 2 % 2 ^ 32)).map (readInt16Le bytes)

/-- The two channels of interleaved samples. -/
def deinterleave : List Sample → List Sample × List Sample
  | l :: r :: rest => (l :: (deinterleave rest).1, r :: (deinterleave rest).2)
  | _ => ([], [])

/-- A side followed by silence up to `n` samples. -/
def padTo (n : Nat) (side : List Sample) : List Sample := side ++ List.replicate (n - side.length) 0

theorem length_padTo {n : Nat} {side : List Sample} (h : side.length ≤ n) : (padTo n side).length = n := by
  rw [padTo, List.length_append, List.length_replicate]
  omega

theorem map_getD_range {n : Nat} {side : List Sample} (h : side.length ≤ n) :
    (List.range n).map (fun i => side.getD i 0) = padTo n side := by
  refine List.ext_getElem (by rw [List.length_map, List.length_range, length_padTo h]) (fun i h1 h2 => ?_)
  rw [List.getElem_map, List.getElem_range, List.getD_eq_getElem?_getD]
  by_cases hi : i < side.length
  · simp [padTo, List.getElem_append_left hi, List.getElem?_eq_getElem hi]
  · have hle : side.length ≤ i := Nat.le_of_not_lt hi
    simp [padTo, List.getElem_append_right hle, List.getElem?_eq_none hle]

/-- Into blocks of `w` bytes: byte `k` of block `i`. -/
theorem getD_blocks {w : Nat} {f : Nat → Bytes} (hf : ∀ i, (f i).length = w) {k : Nat} (hk : k < w) :
    ∀ {n i : Nat}, i < n → ((List.range n).flatMap f).getD (w * i + k) 0 = (f i).getD k 0
  | 0, _, hi => absurd hi (Nat.not_lt_zero _)
  | n + 1, i, hi => by
    have hlen : ((List.range n).flatMap f).length = w * n := by
      simp [List.length_flatMap, hf, Nat.mul_comm]
    rw [List.range_succ, List.flatMap_append, List.flatMap_singleton]
    by_cases hlt : i < n
    · have hle : w * (i + 1) ≤ w * n := Nat.mul_le_mul_left w hlt
      rw [Nat.mul_succ] at hle
      rw [List.getD_append _ _ _ _ (by omega), getD_blocks hf hk hlt]
    · obtain rfl : i = n := by omega
      rw [List.getD_append_right _ _ _ _ (by omega), hlen, Nat.add_sub_cancel_left]

/-- The bytes of an interleaved frame, read back: left at the even places, right at the odd ones. -/
theorem readInt16Le_interleave (left right : List Sample) {i : Nat} (hi : i < stereoLength left right) :
    readInt16Le (interleave left right) (2 * i) = left.getD i 0 ∧
    readInt16Le (interleave left right) (2 * i + 1) = right.getD i 0 := by
  have hf : ∀ i, (int16Le (left.getD i 0) ++ int16Le (right.getD i 0)).length = 4 := fun _ => rfl
  have hbyte : ∀ k < 4, (interleave left right).getD (4 * i + k) 0
      = (int16Le (left.getD i 0) ++ int16Le (right.getD i 0)).getD k 0 := fun k hk => getD_blocks hf hk hi
  refine ⟨readInt16Le_of_getD ?_ ?_, readInt16Le_of_getD ?_ ?_⟩
  · rw [show 2 * i * 2 = 4 * i + 0 by omega]
    exact hbyte 0 (by decide)
  · rw [show 2 * i * 2 + 1 = 4 * i + 1 by omega]
    exact hbyte 1 (by decide)
  · rw [show (2 * i + 1) * 2 = 4 * i + 2 by omega]
    exact hbyte 2 (by decide)
  · rw [show (2 * i + 1) * 2 + 1 = 4 * i + 3 by omega]
    exact hbyte 3 (by decide)

theorem deinterleave_range (f : Nat → Sample) : ∀ k,
    deinterleave ((List.range (2 * k)).map f)
      = ((List.range k).map (fun i => f (2 * i)), (List.range k).map (fun i => f (2 * i + 1)))
  | 0 => rfl
  | k + 1 => by
    -- the first pair comes off, and the rest is the same statement for `f` two places on
    have ih := deinterleave_range (fun j => f (j + 2)) k
    rw [show 2 * (k + 1) = (2 * k + 1) + 1 by omega, List.range_succ_eq_map, List.range_succ_eq_map, List.map_cons,
      List.map_cons, List.map_cons, List.map_map, List.map_map]
    have hrest : (List.range (2 * k)).map ((f ∘ Nat.succ) ∘ Nat.succ) = (List.range (2 * k)).map (fun j => f (j + 2)) :=
      rfl
    rw [deinterleave, hrest, ih, List.range_succ_eq_map, List.map_cons, List.map_cons, List.map_map, List.map_map]
    rfl

/-- The samples a stereo frame is read back as: each side with its silence, cut to `n` modulo `2 ^ 31`. -/
theorem deinterleave_read (left right : List Sample) :
    deinterleave (readInterleaved (interleave left right) (stereoLength left right % 2 ^ 32))
      = ((padTo (stereoLength left right) left).take (stereoLength left right % 2 ^ 31),
         (padTo (stereoLength left right) right).take (stereoLength left right % 2 ^ 31)) := by
  obtain ⟨n, hn⟩ : ∃ n, n = stereoLength left right := ⟨_, rfl⟩
  have hl : left.length ≤ n := hn ▸ Nat.le_max_left _ _
  have hr : right.length ≤ n := hn ▸ Nat.le_max_right _ _
  have hle : n % 2 ^ 31 ≤ n := Nat.mod_le _ _
  have hcount : n % 2 ^ 32 * 2 % 2 ^ 32 = 2 * (n % 2 ^ 31) := by omega
  have hread : ∀ i ∈ List.range (n % 2 ^ 31), i < stereoLength left right := fun i hi => by
    have := List.mem_range.1 hi
    omega
  rw [← hn, readInterleaved, hcount, deinterleave_range, ← map_getD_range hl, ← map_getD_range hr,
    ← List.map_take, ← List.map_take, List.take_range, Nat.min_eq_left hle]
  refine Prod.ext ?_ ?_
  · exact List.map_congr_left (fun i hi => (readInt16Le_interleave left right (hread i hi)).1)
  · exact List.map_congr_left (fun i hi => (readInt16Le_interleave left right (hread i hi)).2)

/-- **A stereo frame is read back whole exactly below `2 ^ 31` samples per channel.** -/
theorem deinterleave_read_iff (left right : List Sample) :
    deinterleave (readInterleaved (interleave left right) (stereoLength left right % 2 ^ 32))
        = (padTo (stereoLength left right) left, padTo (stereoLength left right) right) ↔
      stereoLength left right < 2 ^ 31 := by
  have hleft : (padTo (stereoLength left right) left).length = stereoLength left right :=
    length_padTo (Nat.le_max_left _ _)
  have hright : (padTo (stereoLength left right) right).length = stereoLength left right :=
    length_padTo (Nat.le_max_right _ _)
  rw [deinterleave_read, Prod.mk.injEq, List.take_eq_self_iff, List.take_eq_self_iff, hleft, hright, and_self]
  omega

end Media
end Osw
