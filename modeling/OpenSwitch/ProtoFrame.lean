import OpenSwitch.AudioFrame
/-!
# ProtoFrame — audio frames on the wire (`AudioFrame::FromProto`, `AudioFrame::ToProto`)

A frame is sent with the samples per channel and its samples as bytes; the receiver knows the rate and the channel count
and compares the bytes with the samples they should be.  The machine is little-endian, so what `memcpy` and
`reinterpret_cast` make of a sample is `int16Le`.
-/
namespace Osw
namespace Media

/-- `open_switch::media::v1::AudioFrame`.  An enum is an `int`, and an open one. -/
structure AudioFrameProto where
  seq              : Nat
  timestampSamples : Nat
  durationSamples  : Nat
  payload          : Bytes
  channel          : Int
  channelUuid      : Bytes
  deriving DecidableEq, Repr

/-- `open_switch::media::v1::StreamReady`: what the service agrees to. -/
structure StreamReady where
  sampleRateHz   : UInt32
  channels       : UInt32
  serverStreamId : Bytes
  deriving DecidableEq, Repr

/-- `max_size` of a `std::vector<std::int16_t>`. -/
def maxSamples : Nat := 2 ^ 62 - 1

/-- What `FromProto` comes to.  It is `noexcept`: a vector that cannot be that long ends the process. -/
inductive FromProtoResult
  | nullopt
  | frame (f : AudioFrame)
  | terminates
  deriving DecidableEq, Repr

namespace AudioFrame

/-- The bytes of samples, as they lie in memory. -/
def bytesOf (samples : List Sample) : Bytes := samples.flatMap int16Le

def toProto (f : AudioFrame) : AudioFrameProto where
  seq := f.seq
  timestampSamples := f.timestampSamples
  durationSamples := f.durationSamples
  -- static_cast<Channel>(channel_), which is 32 bits wide
  channel := (BitVec.ofNat 32 f.channel).toInt
  channelUuid := f.channelUuid
  payload := (bytesOf f.samples).take (f.samples.length * 2 % 2 ^ 64)

def fromProto (p : AudioFrameProto) (sampleRateHz channels : Nat) : FromProtoResult :=
  let expectedBytes := p.durationSamples * channels * 2 % 2 ^ 64
  if p.payload.length ≠ expectedBytes then .nullopt
  else
    let totalSamples := p.durationSamples * channels % 2 ^ 64
    if maxSamples < totalSamples then .terminates
    else
      -- a vector of zeros, and the bytes of the payload over it
      .frame ⟨(List.range totalSamples).map (readInt16Le p.payload), sampleRateHz, channels, p.seq, p.timestampSamples,
        (BitVec.ofInt 32 p.channel).toNat, p.channelUuid⟩

/-! ## There and back -/

theorem length_bytesOf (samples : List Sample) : (bytesOf samples).length = samples.length * 2 := by
  simp [bytesOf, List.length_flatMap, int16Le]

theorem bytesOf_eq_range (samples : List Sample) :
    bytesOf samples = (List.range samples.length).flatMap (fun i => int16Le (samples.getD i 0)) := by
  have hmap : (List.range samples.length).map (fun i => samples.getD i 0) = samples := by
    rw [map_getD_range (Nat.le_refl _), padTo, Nat.sub_self]
    exact List.append_nil _
  rw [← List.flatMap_map, hmap]
  rfl

theorem read_bytesOf (samples : List Sample) :
    (List.range samples.length).map (readInt16Le (bytesOf samples)) = samples := by
  have hread : ∀ i ∈ List.range samples.length, readInt16Le (bytesOf samples) i = samples.getD i 0 := fun i hi => by
    have hi := List.mem_range.1 hi
    have hbyte : ∀ k < 2, (bytesOf samples).getD (2 * i + k) 0 = (int16Le (samples.getD i 0)).getD k 0 := fun k hk => by
      rw [bytesOf_eq_range]
      exact getD_blocks (w := 2) (fun _ => rfl) hk hi
    refine readInt16Le_of_getD ?_ ?_
    · rw [Nat.mul_comm]
      exact hbyte 0 (by decide)
    · rw [Nat.mul_comm]
      exact hbyte 1 (by decide)
  rw [List.map_congr_left hread, map_getD_range (Nat.le_refl _), padTo, Nat.sub_self]
  exact List.append_nil _

theorem durationSamples_mul {f : AudioFrame} (hch : 1 ≤ f.channels) (hdvd : f.channels ∣ f.samples.length)
    (hdur : f.samples.length / f.channels < 2 ^ 32) : f.durationSamples * f.channels = f.samples.length := by
  rw [durationSamples, if_pos (show 0 < f.channels from hch), Nat.mod_eq_of_lt hdur, Nat.div_mul_cancel hdvd]

/-- **Audio frames survive the wire**: `FromProto` gives back the frame `ToProto` was given.  A frame holds no more
samples than a vector can. -/
theorem fromProto_toProto (f : AudioFrame) (hch : 1 ≤ f.channels) (hdvd : f.channels ∣ f.samples.length)
    (hdur : f.samples.length / f.channels < 2 ^ 32) (htag : f.channel ≤ 3) (hsize : f.samples.length ≤ maxSamples) :
    fromProto f.toProto f.sampleRateHz f.channels = .frame f := by
  have hmul : f.toProto.durationSamples * f.channels = f.samples.length := durationSamples_mul hch hdvd hdur
  have hbytes : f.samples.length * 2 < 2 ^ 64 := by
    have : maxSamples < 2 ^ 63 := by decide
    omega
  have hpayload : f.toProto.payload = bytesOf f.samples := by
    change (bytesOf f.samples).take (f.samples.length * 2 % 2 ^ 64) = _
    rw [Nat.mod_eq_of_lt hbytes, ← length_bytesOf, List.take_length]
  have htag' : (BitVec.ofInt 32 f.toProto.channel).toNat = f.channel := by
    change (BitVec.ofInt 32 (BitVec.ofNat 32 f.channel).toInt).toNat = f.channel
    rw [BitVec.ofInt_toInt, BitVec.toNat_ofNat]
    omega
  simp only [fromProto, hmul]
  rw [hpayload, length_bytesOf, Nat.mod_eq_of_lt hbytes, if_neg (not_not.2 rfl), Nat.mod_eq_of_lt (by omega),
    if_neg (Nat.not_lt.2 hsize), read_bytesOf, htag']
  rfl

/-- A stereo frame of two samples per channel. -/
def smallStereo : AudioFrame := ⟨[1, -1, 300, 0x8000], 8000, 2, 7, 320, 3, str "a"⟩

theorem fromProto_toProto_smallStereo : fromProto smallStereo.toProto 8000 2 = .frame smallStereo :=
  fromProto_toProto smallStereo (by decide) (by decide) (by decide) (by decide) (by decide)

/-! ## What is let in -/

/-- The length check is exact: the payload is as long as the samples it should be and they become a frame, or the
message is refused. -/
def LengthChecked (p : AudioFrameProto) (sampleRateHz channels : Nat) : Prop :=
  (p.payload.length = p.durationSamples * channels * 2 →
    ∃ f, fromProto p sampleRateHz channels = .frame f ∧ f.samples.length * 2 = p.payload.length) ∧
  (p.payload.length ≠ p.durationSamples * channels * 2 → fromProto p sampleRateHz channels = .nullopt)

/-- **The length check is exact unless the payload is `2 ^ 64` short.**  The product of the two numbers and the sample
size is taken in 64 bits; a payload as long as what is left of it passes, and the process ends at a vector of at least
`2 ^ 63` samples. -/
theorem lengthChecked_iff (p : AudioFrameProto) (sampleRateHz channels : Nat) (hd : p.durationSamples < 2 ^ 32)
    (hc : channels < 2 ^ 32) (hlen : p.payload.length < 2 ^ 63) :
    LengthChecked p sampleRateHz channels ↔ p.payload.length + 2 ^ 64 ≠ p.durationSamples * channels * 2 := by
  have hprod : p.durationSamples * channels < 2 ^ 32 * 2 ^ 32 := Nat.mul_lt_mul'' hd hc
  have hmax : maxSamples = 2 ^ 62 - 1 := rfl
  unfold LengthChecked fromProto
  dsimp only
  generalize p.durationSamples * channels = n at hprod ⊢
  rw [Nat.mod_eq_of_lt (show n < 2 ^ 64 by omega)]
  by_cases hwrap : 2 ^ 64 ≤ n * 2
  · have hmod : n * 2 % 2 ^ 64 = n * 2 - 2 ^ 64 := by omega
    rw [hmod]
    constructor
    · rintro ⟨-, hrefused⟩ hshort
      have h := hrefused (by omega)
      rw [if_neg (by omega), if_pos (by omega)] at h
      cases h
    · intro hne
      exact ⟨fun h => by omega, fun _ => if_pos (by omega)⟩
  · have hmod : n * 2 % 2 ^ 64 = n * 2 := Nat.mod_eq_of_lt (by omega)
    rw [hmod]
    refine ⟨fun _ => by omega, fun _ => ⟨fun h => ?_, fun h => if_pos h⟩⟩
    rw [if_neg (not_not.2 h), if_neg (by omega)]
    exact ⟨_, rfl, by rw [List.length_map, List.length_range, h]⟩

/-- Two numbers whose product is `2 ^ 63 + 2`, with four bytes. -/
def wrappedProto : AudioFrameProto := ⟨0, 0, 4294836226, [0, 0, 0, 0], 0, []⟩

/-- Four bytes pass for `2 ^ 64 + 4`, and the process ends. -/
theorem wrappedProto_terminates :
    wrappedProto.durationSamples < 2 ^ 32 ∧ 2147549185 < 2 ^ 32 ∧
    wrappedProto.payload.length ≠ wrappedProto.durationSamples * 2147549185 * 2 ∧
    fromProto wrappedProto 8000 2147549185 = .terminates := by decide +kernel

theorem lengthChecked_iff_small :
    LengthChecked ⟨0, 0, 2, [1, 0, 2, 0], 0, []⟩ 8000 1 ∧ ¬ LengthChecked wrappedProto 8000 2147549185 :=
  ⟨(lengthChecked_iff ⟨0, 0, 2, [1, 0, 2, 0], 0, []⟩ 8000 1 (by decide) (by decide) (by decide)).2 (by decide),
   fun h => (lengthChecked_iff wrappedProto 8000 2147549185 (by decide) (by decide) (by decide)).1 h (by decide)⟩

end AudioFrame
end Media
end Osw
