import OpenSwitch.TtsRuns
/-!
# TtsDepth — how long the playout buffer gets (`DurationMsForSamples`, `RecomputeDepth`, `Push`)

The buffer is kept under its high-water mark by a depth that is a sum of whole milliseconds, one truncation a frame.
Where the loop of `Push` stops, and what is queued then, is said by `dropOldest_stops`; the bound on the real duration
follows for a frame whose samples make whole milliseconds, and fails when the truncations add up: frames of less than a
millisecond count as nothing and pile up.
-/
namespace Osw
namespace Media

/-- The front offset once `k` frames are gone. -/
def offsetAt (offset k : Nat) : Nat := if k = 0 then offset else 0

/-- The loop of `Push` stops with `k` frames gone: what is left is within the mark, or is one frame. -/
def StopsAt (highWater : Nat) (q : List AudioFrame) (offset k : Nat) : Prop :=
  recomputeDepth (q.drop k) (offsetAt offset k) ≤ highWater ∨ k + 1 = q.length

/-- **The loop of `Push` stops as soon as it may.** -/
theorem dropOldest_stops (highWater : Nat) : ∀ (q : List AudioFrame) (offset : Nat), q ≠ [] →
    StopsAt highWater q offset (dropOldest highWater q offset).dropped ∧
    ∀ k < (dropOldest highWater q offset).dropped, ¬ StopsAt highWater q offset k
  | [], _, h => absurd rfl h
  | [_], _, _ => ⟨.inr rfl, fun _ hk => absurd hk (Nat.not_lt_zero _)⟩
  | f :: g :: q, offset, _ => by
    obtain ⟨hstop, hfirst⟩ := dropOldest_stops highWater (g :: q) 0 (List.cons_ne_nil _ _)
    -- with the front frame gone, `k + 1` frames of this queue are `k` of the next
    have hshift : ∀ k, StopsAt highWater (f :: g :: q) offset (k + 1) ↔ StopsAt highWater (g :: q) 0 k := fun k => by
      have hoffset : offsetAt offset (k + 1) = offsetAt 0 k := by
        rw [offsetAt, if_neg (Nat.succ_ne_zero k), offsetAt, ite_self]
      rw [StopsAt, StopsAt, hoffset, List.drop_succ_cons, List.length_cons (a := f), Nat.add_right_cancel_iff]
    rw [dropOldest]
    split
    · rename_i hover
      refine ⟨(hshift _).2 hstop, fun k hk => ?_⟩
      cases k with
      | zero =>
        rintro (hdepth | hlen)
        · exact absurd hover (Nat.not_lt.2 hdepth)
        · simp at hlen
      | succ k => exact fun hs => hfirst k (Nat.lt_of_succ_lt_succ hk) ((hshift k).1 hs)
    · rename_i hunder
      exact ⟨.inl (Nat.le_of_not_lt hunder), fun _ hk => absurd hk (Nat.not_lt_zero _)⟩

theorem dropOldest_of_within {highWater : Nat} : ∀ {q : List AudioFrame} {offset : Nat},
    recomputeDepth q offset ≤ highWater → dropOldest highWater q offset = ⟨q, offset, 0⟩
  | [], _, _ => rfl
  | [_], _, _ => rfl
  | _ :: _ :: _, _, h => by rw [dropOldest, if_neg (Nat.not_lt.2 h)]

theorem unplayedOf_zero (q : List AudioFrame) : unplayedOf q 0 = allSamples q := by
  cases q with
  | nil => rfl
  | cons f q => rw [unplayedOf, List.drop_zero, allSamples_cons]

theorem length_allSamples_drop_le (q : List AudioFrame) (k : Nat) :
    (allSamples (q.drop k)).length ≤ (allSamples q).length := by
  have hsplit : allSamples q = allSamples (q.take k) ++ allSamples (q.drop k) := by
    rw [allSamples, allSamples, allSamples, ← List.flatMap_append, List.take_append_drop]
  rw [hsplit, List.length_append]
  exact Nat.le_add_left _ _

theorem length_unplayedOf_drop_le (q : List AudioFrame) (offset : Nat) {j k : Nat} (h : j ≤ k) :
    (unplayedOf (q.drop k) (offsetAt offset k)).length ≤ (unplayedOf (q.drop j) (offsetAt offset j)).length := by
  rcases Nat.eq_or_lt_of_le h with rfl | hlt
  · exact Nat.le_refl _
  · obtain ⟨m, rfl⟩ : ∃ m, k = j + (m + 1) := ⟨k - j - 1, by omega⟩
    rw [offsetAt, if_neg (by omega), unplayedOf_zero, ← List.drop_drop]
    cases q.drop j with
    | nil => exact Nat.zero_le _
    | cons f rest =>
      rw [List.drop_succ_cons, unplayedOf, List.length_append]
      exact (length_allSamples_drop_le rest m).trans (Nat.le_add_left _ _)

/-! ## One push -/

/-- What is queued lasts no longer than the high-water mark, the newest frame and a millisecond. -/
def WithinMark (cfg : TtsConfig) (rate : Nat) (newest : AudioFrame) (queued : List Sample) : Prop :=
  (queued.length * 1000 : Int) ≤ rate * (cfg.highWaterMs + 1) + newest.samples.length * 1000

/-- The truncated depth may be trusted at this push: whatever it takes to be within the mark is. -/
def DepthTells (cfg : TtsConfig) (rate : Nat) (b : TtsPlayoutBuffer) (f : AudioFrame) : Prop :=
  ∀ k < (b.queue ++ [f]).length, StopsAt cfg.highWater32 (b.queue ++ [f]) b.frontOffsetSamples k →
    WithinMark cfg rate f (unplayedOf ((b.queue ++ [f]).drop k) (offsetAt b.frontOffsetSamples k))

variable {f : AudioFrame} {rate : Nat}

/-- **After a push the buffer is within its bound exactly when the depth may be trusted.** -/
theorem withinMark_push_iff (cfg : TtsConfig) (rate : Nat) (b : TtsPlayoutBuffer) (hf : f.sampleCount ≠ 0) :
    WithinMark cfg rate f (b.push cfg f).unplayed ↔ DepthTells cfg rate b f := by
  have hne : b.queue ++ [f] ≠ [] := by simp
  obtain ⟨hq, ho, hd⟩ := dropOldest_spec cfg.highWater32 (b.queue ++ [f]) b.frontOffsetSamples
  obtain ⟨hstop, hfirst⟩ := dropOldest_stops cfg.highWater32 (b.queue ++ [f]) b.frontOffsetSamples hne
  have hleft : (b.push cfg f).unplayed = unplayedOf
      ((b.queue ++ [f]).drop (dropOldest cfg.highWater32 (b.queue ++ [f]) b.frontOffsetSamples).dropped)
      (offsetAt b.frontOffsetSamples (dropOldest cfg.highWater32 (b.queue ++ [f]) b.frontOffsetSamples).dropped) := by
    rw [TtsPlayoutBuffer.unplayed, TtsPlayoutBuffer.push, if_neg hf, offsetAt, ← hq, ← ho]
  rw [hleft]
  generalize (dropOldest cfg.highWater32 (b.queue ++ [f]) b.frontOffsetSamples).dropped = d at hd hstop hfirst
  constructor
  · -- a longer rest than any the depth trusts is within the bound
    intro hwithin k _ hk
    have hdk : d ≤ k := Nat.le_of_not_lt (fun hlt => hfirst k hlt hk)
    have hle := length_unplayedOf_drop_le (b.queue ++ [f]) b.frontOffsetSamples hdk
    unfold WithinMark at hwithin ⊢
    omega
  · intro htells
    refine htells d ?_ hstop
    have hpos := List.length_pos_of_ne_nil hne
    omega

/-! ## Frames of whole milliseconds -/

/-- A frame of one channel whose samples make whole milliseconds, few enough for 32 bits. -/
structure AudioFrame.WholeMs (rate : Nat) (f : AudioFrame) : Prop where
  rate_eq : f.sampleRateHz = rate
  mono    : f.channels = 1
  fits    : f.Fits
  whole   : rate ∣ f.samples.length * 1000
  small   : f.samples.length * 1000 / rate < 2 ^ 32

theorem AudioFrame.WholeMs.avail_lt (hrate : 0 < rate) (h : f.WholeMs rate) {offset : Nat}
    (ho : offset < f.samples.length) :
    (f.samples.length - offset) * 1000
      < rate * (durationMsForSamples (f.avail offset) f.sampleRateHz f.channels + 1) := by
  have hle : (f.samples.length - offset) * 1000 / rate ≤ f.samples.length * 1000 / rate :=
    Nat.div_le_div_right (Nat.mul_le_mul_right _ (Nat.sub_le _ _))
  rw [h.fits.avail_eq ho, durationMsForSamples, h.rate_eq, h.mono, Nat.mul_one, if_neg (by omega),
    Nat.mod_eq_of_lt (Nat.lt_of_le_of_lt hle h.small)]
  exact Nat.lt_mul_div_succ _ hrate

theorem AudioFrame.WholeMs.duration_eq (hrate : 0 < rate) (h : f.WholeMs rate) :
    rate * durationMsForSamples f.sampleCount32 f.sampleRateHz f.channels = f.samples.length * 1000 := by
  have hpos : f.samples.length ≠ 0 := Nat.ne_of_gt h.fits.1
  rw [h.fits.sampleCount32_eq, durationMsForSamples, h.rate_eq, h.mono, Nat.mul_one, if_neg (by omega),
    Nat.mod_eq_of_lt h.small, Nat.mul_div_cancel' h.whole]

theorem sum_durations (hrate : 0 < rate) : ∀ {q : List AudioFrame}, (∀ f ∈ q, f.WholeMs rate) →
    rate * (q.map (fun g => durationMsForSamples g.sampleCount32 g.sampleRateHz g.channels)).sum
      = (allSamples q).length * 1000
  | [], _ => by simp [allSamples]
  | f :: q, h => by
    have hf := (h f (by simp)).duration_eq hrate
    have hq := sum_durations hrate (fun g hg => h g (List.mem_cons_of_mem f hg))
    rw [List.map_cons, List.sum_cons, Nat.mul_add, hf, hq, allSamples_cons, List.length_append, Nat.add_mul]

/-- Frames of whole milliseconds that the depth takes to be within a mark are, up to a millisecond. -/
theorem length_le_of_depth_le (hrate : 0 < rate) {q : List AudioFrame} (hq : ∀ f ∈ q, f.WholeMs rate)
    {offset highWater : Nat} (ho : OffsetIn q offset) (hmark : highWater < 2 ^ 32 - 1)
    (h : recomputeDepth q offset ≤ highWater) : (unplayedOf q offset).length * 1000 ≤ rate * (highWater + 1) := by
  cases q with
  | nil => simp [unplayedOf]
  | cons f q =>
    have hfront := (hq f (by simp)).avail_lt hrate ho
    have hrest := sum_durations hrate (fun g hg => hq g (List.mem_cons_of_mem f hg))
    rw [recomputeDepth] at h
    have hsum : durationMsForSamples (f.avail offset) f.sampleRateHz f.channels
        + (q.map (fun g => durationMsForSamples g.sampleCount32 g.sampleRateHz g.channels)).sum ≤ highWater := by omega
    have hmul := Nat.mul_le_mul_left rate (Nat.succ_le_succ hsum)
    rw [unplayedOf, List.length_append, List.length_drop, Nat.add_mul, ← hrest]
    refine Nat.le_trans (Nat.le_of_lt (Nat.add_lt_add_right hfront _)) (Nat.le_trans (Nat.le_of_eq ?_) hmul)
    rw [← Nat.mul_add]
    congr 1
    omega

/-- The offset lies in the front frame of every rest of the queue with a new frame at its end. -/
theorem offsetIn_drop {b : TtsPlayoutBuffer} (hwf : b.Wf) (hfits : ∀ g ∈ b.queue ++ [f], g.Fits) (k : Nat) :
    OffsetIn ((b.queue ++ [f]).drop k) (offsetAt b.frontOffsetSamples k) := by
  by_cases hzero : k = 0
  · subst hzero
    have hin := hwf.offsetIn
    cases hb : b.queue with
    | nil =>
      rw [hb] at hin
      rw [show b.frontOffsetSamples = 0 from hin]
      exact (hfits f (by simp)).1
    | cons g q =>
      rw [hb] at hin
      exact hin
  · rw [offsetAt, if_neg hzero]
    exact offsetIn_zero (fun g hg => hfits g (List.mem_of_mem_drop hg))

theorem withinMark_newest {cfg : TtsConfig} (hlow : 0 ≤ cfg.highWaterMs) (rate : Nat) (f : AudioFrame) (offset : Nat) :
    WithinMark cfg rate f (unplayedOf [f] offset) := by
  have hlen : (unplayedOf [f] offset).length ≤ f.samples.length := by
    rw [unplayedOf, List.length_append, List.length_drop]
    exact Nat.sub_le _ _
  have hpos : (0 : Int) ≤ rate * (cfg.highWaterMs + 1) := Int.mul_nonneg (Int.natCast_nonneg _) (by omega)
  unfold WithinMark
  omega

theorem depthTells_of_wholeMs {cfg : TtsConfig} (hrate : 0 < rate) (hlow : 0 ≤ cfg.highWaterMs)
    (hhigh : cfg.highWaterMs < 2 ^ 32 - 1) {b : TtsPlayoutBuffer} (hwf : b.Wf)
    (hq : ∀ g ∈ b.queue ++ [f], g.WholeMs rate) : DepthTells cfg rate b f := by
  have hmark : (cfg.highWater32 : Int) = cfg.highWaterMs := by
    rw [TtsConfig.highWater32]
    omega
  intro k hk hstop
  have hall : ∀ g ∈ (b.queue ++ [f]).drop k, g.WholeMs rate := fun g hg => hq g (List.mem_of_mem_drop hg)
  rcases hstop with hdepth | hlast
  · have hoffset := offsetIn_drop hwf (fun g hg => (hq g hg).fits) k
    have hle := length_le_of_depth_le hrate hall hoffset (by omega) hdepth
    have hcast : ((unplayedOf ((b.queue ++ [f]).drop k) (offsetAt b.frontOffsetSamples k)).length * 1000 : Int)
        ≤ rate * (cfg.highWater32 + 1) := by exact_mod_cast hle
    rw [WithinMark, ← hmark]
    omega
  · have hdrop : (b.queue ++ [f]).drop k = [f] := by
      rw [List.length_append, List.length_singleton] at hlast
      rw [show k = b.queue.length by omega, List.drop_left]
    rw [hdrop]
    exact withinMark_newest hlow rate f _

/-! ## Runs -/

namespace TtsTrace

theorem after_append (cfg : TtsConfig) (calls : List TtsCall) (c : TtsCall) :
    after cfg (calls ++ [c]) = (after cfg calls).step cfg c :=
  List.foldl_concat ..

theorem mem_of_mem_queue {cfg : TtsConfig} {calls : List TtsCall} (hsmall : ∀ c ∈ calls, c.Small)
    (hf : f ∈ (after cfg calls).buf.queue) : .push f ∈ calls := by
  have horder := (sound_after cfg calls hsmall).order
  have hcame : f ∈ calls.flatMap TtsCall.arriving := horder ▸ List.mem_append_right _ hf
  obtain ⟨c, hc, hfc⟩ := List.mem_flatMap.1 hcame
  cases c with
  | push g =>
    change f ∈ TtsPlayoutBuffer.arriving g at hfc
    unfold TtsPlayoutBuffer.arriving at hfc
    split at hfc
    · cases hfc
    · rwa [List.mem_singleton.1 hfc]
  | pop => cases hfc
  | signalEndOfStream => cases hfc

/-- **The buffered duration is bounded exactly as long as the truncated depth may be trusted.**  In every run, after each
push what is queued lasts at most the high-water mark, the newest frame and a millisecond, if and only if `DepthTells`
holds at each push.  It does in every run of frames of whole milliseconds, with a mark the 32-bit depth can go over. -/
theorem depth_bounded_iff (cfg : TtsConfig) (rate : Nat) (hrate : 0 < rate) (calls : List TtsCall)
    (hne : ∀ f, .push f ∈ calls → f.sampleCount ≠ 0) :
    ((∀ pre f post, calls = pre ++ .push f :: post →
        WithinMark cfg rate f (after cfg (pre ++ [.push f])).buf.unplayed) ↔
      ∀ pre f post, calls = pre ++ .push f :: post → DepthTells cfg rate (after cfg pre).buf f) ∧
    (0 ≤ cfg.highWaterMs → cfg.highWaterMs < 2 ^ 32 - 1 → (∀ f, .push f ∈ calls → f.WholeMs rate) →
      ∀ pre f post, calls = pre ++ .push f :: post →
        WithinMark cfg rate f (after cfg (pre ++ [.push f])).buf.unplayed) := by
  have hpush : ∀ pre f post, calls = pre ++ .push f :: post →
      (WithinMark cfg rate f (after cfg (pre ++ [.push f])).buf.unplayed ↔ DepthTells cfg rate (after cfg pre).buf f) :=
    fun pre f post h => by
      rw [after_append]
      exact withinMark_push_iff cfg rate _ (hne f (by simp [h]))
  refine ⟨⟨fun h pre f post hc => (hpush pre f post hc).1 (h pre f post hc),
    fun h pre f post hc => (hpush pre f post hc).2 (h pre f post hc)⟩, fun hlow hhigh hwhole pre f post hc => ?_⟩
  have hpre : ∀ c ∈ pre, c ∈ calls := fun c hcp => by simp [hc, hcp]
  have hsmall : ∀ c ∈ pre, c.Small := fun c hcp => by
    cases c with
    | push g => exact (hwhole g (hpre _ hcp)).fits.2
    | pop => trivial
    | signalEndOfStream => trivial
  refine (hpush pre f post hc).2 (depthTells_of_wholeMs hrate hlow hhigh (sound_after cfg pre hsmall).wf fun g hg => ?_)
  rcases List.mem_append.1 hg with hg | hg
  · exact hwhole g (hpre _ (mem_of_mem_queue hsmall hg))
  · rw [List.mem_singleton.1 hg]
    exact hwhole f (by simp [hc])

/-! ### Frames that count as nothing -/

/-- Seven samples at 8 kHz, seven eighths of a millisecond. -/
def sevenSamples : AudioFrame := ⟨List.replicate 7 0, 8000, 1, 0, 0, 0, []⟩

theorem recomputeDepth_sevenSamples (n : Nat) : recomputeDepth (List.replicate n sevenSamples) 0 = 0 := by
  have hzero : durationMsForSamples sevenSamples.sampleCount32 sevenSamples.sampleRateHz sevenSamples.channels = 0 := by
    decide
  cases n with
  | zero => rfl
  | succ n =>
    have hsum : ((List.replicate n sevenSamples).map
        (fun g => durationMsForSamples g.sampleCount32 g.sampleRateHz g.channels)).sum = 0 := by
      rw [List.map_replicate, hzero, List.sum_replicate_nat, Nat.mul_zero]
    rw [List.replicate_succ, recomputeDepth, hsum]
    decide

/-- Whatever the high-water mark, these frames pile up. -/
theorem queue_sevenSamples (cfg : TtsConfig) (n : Nat) :
    (after cfg (List.replicate n (.push sevenSamples))).buf.queue = List.replicate n sevenSamples ∧
    (after cfg (List.replicate n (.push sevenSamples))).buf.frontOffsetSamples = 0 := by
  induction n with
  | zero => exact ⟨rfl, rfl⟩
  | succ n ih =>
    have hdrop : dropOldest cfg.highWater32 (List.replicate n sevenSamples ++ [sevenSamples]) 0
        = ⟨List.replicate (n + 1) sevenSamples, 0, 0⟩ := by
      rw [← List.replicate_succ']
      exact dropOldest_of_within (by rw [recomputeDepth_sevenSamples]; exact Nat.zero_le _)
    rw [List.replicate_succ', after_append]
    change ((after cfg (List.replicate n (.push sevenSamples))).buf.push cfg sevenSamples).queue = _ ∧
      ((after cfg (List.replicate n (.push sevenSamples))).buf.push cfg sevenSamples).frontOffsetSamples = _
    rw [TtsPlayoutBuffer.push, if_neg (by decide), ih.1, ih.2]
    simp only [hdrop]
    trivial

theorem length_allSamples_replicate (n : Nat) (f : AudioFrame) :
    (allSamples (List.replicate n f)).length = n * f.samples.length := by
  induction n with
  | zero => exact (Nat.zero_mul _).symm
  | succ n ih => rw [List.replicate_succ, allSamples_cons, List.length_append, ih, Nat.succ_mul, Nat.add_comm]

/-- Three thousand of them are 2625 ms under a mark of 2000 ms. -/
theorem sevenSamples_over_mark :
    ¬ WithinMark ⟨200, 2000, .silence⟩ 8000 sevenSamples
      (after ⟨200, 2000, .silence⟩ (List.replicate 2999 (.push sevenSamples) ++ [.push sevenSamples])).buf.unplayed := by
  obtain ⟨hq, ho⟩ := queue_sevenSamples ⟨200, 2000, .silence⟩ 3000
  have hlen : (allSamples (List.replicate 3000 sevenSamples)).length = 21000 := length_allSamples_replicate 3000 _
  rw [← List.replicate_succ', TtsPlayoutBuffer.unplayed, hq, ho, unplayedOf_zero, WithinMark, hlen]
  decide

/-- A millisecond at 8 kHz. -/
def eightSamples (seq : Nat) : AudioFrame := ⟨List.replicate 8 0, 8000, 1, seq, 8 * seq, 0, []⟩

theorem depth_bounded_iff_eightSamples :
    WithinMark ⟨50, 1, .silence⟩ 8000 (eightSamples 1)
      (after ⟨50, 1, .silence⟩ ([.push (eightSamples 0)] ++ [.push (eightSamples 1)])).buf.unplayed := by
  have hwhole : ∀ f, TtsCall.push f ∈ [TtsCall.push (eightSamples 0), .push (eightSamples 1)] → f.WholeMs 8000 :=
    fun f hf => by
      simp only [List.mem_cons, TtsCall.push.injEq, List.not_mem_nil, or_false] at hf
      rcases hf with rfl | rfl <;> exact ⟨rfl, rfl, ⟨by decide, by decide⟩, by decide, by decide⟩
  exact (depth_bounded_iff ⟨50, 1, .silence⟩ 8000 (by decide) _ (fun f hf => Nat.ne_of_gt (hwhole f hf).fits.1)).2
    (by decide) (by decide) hwhole _ _ [] rfl

end TtsTrace
end Media
end Osw
