import OpenSwitch.Config
import OpenSwitch.TtsDepth
/-!
# TtsPreroll — when the pre-roll lets playback start (`start_tts_handler.cc`, `TtsPlayoutBuffer::Push`)

`HandleStartTts` takes the depths of a buffer from the configuration and the request's override; `Push` drops whole frames
down to the high-water mark before it looks whether the pre-roll is reached.  What is pushed up to the pre-roll is all
queued (`Priming`); the push that reaches it sets the flag exactly when some rest of the frames is as long as the pre-roll
and one the loop of `Push` may stop at.
-/
namespace Osw
namespace Control

open Media (TtsConfig UnderrunPolicy)

structure TtsBufferOverride where
  jitterBufferMs : Nat
  prerollMs      : Nat
  deriving DecidableEq, Repr

/-- `std::clamp`. -/
def clamp (v lo hi : Nat) : Nat := if v < lo then lo else if hi < v then hi else v

theorem clamp_between (v : Nat) {lo hi : Nat} (h : lo ≤ hi) : lo ≤ clamp v lo hi ∧ clamp v lo hi ≤ hi := by
  unfold clamp
  split
  · omega
  · split <;> omega

def resolveBufferMs (ov : TtsBufferOverride) (cfg : Config) : Nat :=
  if ov.jitterBufferMs = 0 then cfg.ttsJitterBufferMs else clamp ov.jitterBufferMs 200 cfg.ttsMaxJitterBufferMs

def resolvePrerollMs (ov : TtsBufferOverride) (cfg : Config) (jitterMs : Nat) : Nat :=
  if ov.prerollMs = 0 then min cfg.ttsPrerollMs jitterMs else clamp ov.prerollMs 50 jitterMs

def parseUnderrunPolicy (s : Bytes) : UnderrunPolicy := if s = str "repeat_last" then .repeatLast else .silence

def prerollOf (ov : TtsBufferOverride) (cfg : Config) : Nat := resolvePrerollMs ov cfg (resolveBufferMs ov cfg)

def highWaterOf (ov : TtsBufferOverride) (cfg : Config) : Nat := max cfg.ttsHighWaterMs (resolveBufferMs ov cfg)

/-- The part of `HandleStartTts` that configures the buffer; `underrunPolicy` is the setting `tts_underrun_policy`. -/
def startTtsBuffer (ov : TtsBufferOverride) (cfg : Config) (underrunPolicy : Bytes) : TtsConfig where
  prerollMs := prerollOf ov cfg
  highWaterMs := highWaterOf ov cfg
  underrun := parseUnderrunPolicy underrunPolicy

theorem tts_of_validate {regexError : Bytes → Option Bytes} {cfg : Config} (h : validate regexError cfg = none) :
    200 ≤ cfg.ttsJitterBufferMs ∧ cfg.ttsJitterBufferMs ≤ cfg.ttsMaxJitterBufferMs ∧
    50 ≤ cfg.ttsPrerollMs ∧ cfg.ttsPrerollMs ≤ cfg.ttsJitterBufferMs ∧
    cfg.ttsJitterBufferMs ≤ cfg.ttsHighWaterMs ∧ cfg.ttsHighWaterMs ≤ cfg.ttsMaxJitterBufferMs := by
  rw [validate_eq_none] at h
  have hjitter := Check.fails_error_eq_none.1 (h _ (List.mem_of_getElem? (i := 20) rfl))
  have hpreroll := Check.fails_error_eq_none.1 (h _ (List.mem_of_getElem? (i := 21) rfl))
  have hmark := Check.fails_error_eq_none.1 (h _ (List.mem_of_getElem? (i := 22) rfl))
  simp only [Bool.or_eq_false_iff, decide_eq_false_iff_not, Nat.not_lt] at hjitter hpreroll hmark
  exact ⟨hjitter.1, hjitter.2, hpreroll.1, hpreroll.2, hmark.1, hmark.2⟩

/-- **The depths of a buffer are in order**, whatever the override asks for. -/
theorem depths_of_validate {regexError : Bytes → Option Bytes} {cfg : Config} (h : validate regexError cfg = none)
    (ov : TtsBufferOverride) :
    50 ≤ prerollOf ov cfg ∧ prerollOf ov cfg ≤ highWaterOf ov cfg ∧ highWaterOf ov cfg ≤ cfg.ttsMaxJitterBufferMs := by
  obtain ⟨hj, hjm, hp, hpj, hjh, hhm⟩ := tts_of_validate h
  have hbuf : 200 ≤ resolveBufferMs ov cfg ∧ resolveBufferMs ov cfg ≤ cfg.ttsMaxJitterBufferMs := by
    unfold resolveBufferMs
    split
    · exact ⟨hj, hjm⟩
    · exact clamp_between _ (by omega)
  have hpre : 50 ≤ prerollOf ov cfg ∧ prerollOf ov cfg ≤ resolveBufferMs ov cfg := by
    unfold prerollOf resolvePrerollMs
    split
    · omega
    · exact clamp_between _ (by omega)
  unfold highWaterOf
  omega

end Control

namespace Media

/-! ## Depths without an offset -/

/-- The duration of a frame in whole milliseconds. -/
def AudioFrame.ms (f : AudioFrame) : Nat := f.samples.length * 1000 / (f.sampleRateHz * f.channels)

def totalMs (q : List AudioFrame) : Nat := (q.map AudioFrame.ms).sum

theorem totalMs_append (q q' : List AudioFrame) : totalMs (q ++ q') = totalMs q + totalMs q' := by
  rw [totalMs, List.map_append, List.sum_append]
  rfl

/-- What `DurationMsForSamples` makes of a frame. -/
def AudioFrame.duration32 (f : AudioFrame) : Nat := durationMsForSamples f.sampleCount32 f.sampleRateHz f.channels

theorem AudioFrame.duration32_le (f : AudioFrame) : f.duration32 ≤ f.ms := by
  unfold duration32 durationMsForSamples ms
  split
  · exact Nat.zero_le _
  · exact (Nat.mod_le _ _).trans (Nat.div_le_div_right (Nat.mul_le_mul_right _ (Nat.mod_le _ _)))

theorem recomputeDepth_zero (q : List AudioFrame) :
    recomputeDepth q 0 = min (q.map AudioFrame.duration32).sum (2 ^ 32 - 1) := by
  cases q with
  | nil => rfl
  | cons f q =>
    have havail : f.avail 0 = f.sampleCount32 := by
      unfold AudioFrame.avail
      split <;> omega
    rw [recomputeDepth, havail]
    rfl

theorem recomputeDepth_le_totalMs (q : List AudioFrame) : recomputeDepth q 0 ≤ totalMs q := by
  have hsum : (q.map AudioFrame.duration32).sum ≤ totalMs q := by
    induction q with
    | nil => exact Nat.le_refl _
    | cons f q ih =>
      rw [totalMs, List.map_cons, List.map_cons, List.sum_cons, List.sum_cons]
      exact Nat.add_le_add f.duration32_le ih
  rw [recomputeDepth_zero]
  exact (Nat.min_le_left _ _).trans hsum

theorem recomputeDepth_drop_le (q : List AudioFrame) {j k : Nat} (h : j ≤ k) :
    recomputeDepth (q.drop k) 0 ≤ recomputeDepth (q.drop j) 0 := by
  have hsum : ((q.drop k).map AudioFrame.duration32).sum ≤ ((q.drop j).map AudioFrame.duration32).sum := by
    obtain ⟨m, rfl⟩ := Nat.exists_eq_add_of_le h
    rw [← List.drop_drop]
    generalize q.drop j = l
    have hsplit : (l.map AudioFrame.duration32).sum
        = ((l.take m).map AudioFrame.duration32).sum + ((l.drop m).map AudioFrame.duration32).sum := by
      rw [← List.sum_append, ← List.map_append, List.take_append_drop]
    rw [hsplit]
    exact Nat.le_add_left _ _
  rw [recomputeDepth_zero, recomputeDepth_zero]
  omega

/-! ## The push that reaches the pre-roll -/

/-- Some rest of the frames is as long as the pre-roll, and the loop of `Push` may stop at it. -/
def Primes (preroll highWater : Nat) (frames : List AudioFrame) : Prop :=
  ∃ k < frames.length, preroll ≤ recomputeDepth (frames.drop k) 0 ∧ StopsAt highWater frames 0 k

/-- **A push onto an unplayed queue sets the flag exactly when the frames prime the buffer.** -/
theorem prerollReached_push_iff {cfg : TtsConfig} {b : TtsPlayoutBuffer} (hoffset : b.frontOffsetSamples = 0)
    (hunset : b.prerollReached = false) {f : AudioFrame} (hf : f.sampleCount ≠ 0) :
    (b.push cfg f).prerollReached = true ↔ Primes cfg.preroll32 cfg.highWater32 (b.queue ++ [f]) := by
  have hne : b.queue ++ [f] ≠ [] := by simp
  have hpos := List.length_pos_of_ne_nil hne
  obtain ⟨hq, ho, hd⟩ := dropOldest_spec cfg.highWater32 (b.queue ++ [f]) 0
  obtain ⟨hstop, hfirst⟩ := dropOldest_stops cfg.highWater32 (b.queue ++ [f]) 0 hne
  have hflag : (b.push cfg f).prerollReached = true ↔ cfg.preroll32 ≤
      recomputeDepth ((b.queue ++ [f]).drop (dropOldest cfg.highWater32 (b.queue ++ [f]) 0).dropped) 0 := by
    rw [TtsPlayoutBuffer.push, if_neg hf, hoffset]
    simp only [hunset, Bool.false_or, decide_eq_true_eq]
    rw [hq, ho, ite_self]
  rw [hflag]
  generalize (dropOldest cfg.highWater32 (b.queue ++ [f]) 0).dropped = d at hd hstop hfirst ⊢
  constructor
  · exact fun hdepth => ⟨d, by omega, hdepth, hstop⟩
  · rintro ⟨k, -, hdepth, hk⟩
    have hdk : d ≤ k := Nat.le_of_not_lt (fun hlt => hfirst k hlt hk)
    exact hdepth.trans (recomputeDepth_drop_le _ hdk)

theorem pop_prerollReached (cfg : TtsConfig) (b : TtsPlayoutBuffer) (hasOut : Bool) (cap : Nat) :
    (b.pop cfg hasOut cap).2.prerollReached = b.prerollReached := by
  unfold TtsPlayoutBuffer.pop TtsPlayoutBuffer.popSeeing
  dsimp only
  repeat' split
  all_goals rfl

theorem pop_priming {cfg : TtsConfig} {b : TtsPlayoutBuffer} (hunset : b.prerollReached = false) (heos : b.eos = false)
    (hasOut : Bool) (cap : Nat) : (b.pop cfg hasOut cap).2 = b := by
  unfold TtsPlayoutBuffer.pop TtsPlayoutBuffer.popSeeing
  simp only [hunset, heos, and_self, if_true, Bool.false_eq_true, false_and, if_false]
  split <;> rfl

namespace TtsTrace

variable {cfg : TtsConfig} {f : AudioFrame} {calls : List TtsCall}

theorem prerollReached_step {s : TtsTrace} (h : s.buf.prerollReached = true) (c : TtsCall) :
    (s.step cfg c).buf.prerollReached = true := by
  cases c with
  | push f =>
    obtain ⟨d, -, -, -, -, -, -, -, -, hpre⟩ := TtsPlayoutBuffer.push_spec cfg s.buf f
    exact hpre h
  | pop hasOut cap => exact (pop_prerollReached cfg s.buf hasOut cap).trans h
  | signalEndOfStream => exact h

def pushed (calls : List TtsCall) : List AudioFrame := calls.flatMap TtsCall.arriving

theorem pushed_append (calls : List TtsCall) (c : TtsCall) : pushed (calls ++ [c]) = pushed calls ++ c.arriving := by
  rw [pushed, List.flatMap_append, List.flatMap_singleton]
  rfl

theorem ms_of_empty (h : f.sampleCount = 0) : f.ms = 0 := by
  rw [AudioFrame.ms, show f.samples.length = 0 from h, Nat.zero_mul, Nat.zero_div]

theorem totalMs_pushed (calls : List TtsCall) (f : AudioFrame) :
    totalMs (pushed (calls ++ [.push f])) = totalMs (pushed calls) + f.ms := by
  rw [pushed_append, totalMs_append, TtsCall.arriving, TtsPlayoutBuffer.arriving]
  split
  · rename_i hf
    rw [ms_of_empty hf]
    rfl
  · simp [totalMs]

/-- The call that takes the pushed frames to a duration is a push of a frame with something in it. -/
theorem push_of_reaches {c : TtsCall} {n : Nat} (hbelow : totalMs (pushed calls) < n)
    (hreach : n ≤ totalMs (pushed (calls ++ [c]))) :
    ∃ f, c = .push f ∧ f.sampleCount ≠ 0 ∧ n ≤ totalMs (pushed calls) + f.ms := by
  cases c with
  | push f =>
    rw [totalMs_pushed] at hreach
    refine ⟨f, rfl, fun hf => ?_, hreach⟩
    rw [ms_of_empty hf] at hreach
    omega
  | pop =>
    rw [pushed_append, totalMs_append] at hreach
    exact absurd hreach (Nat.not_le.2 hbelow)
  | signalEndOfStream =>
    rw [pushed_append, totalMs_append] at hreach
    exact absurd hreach (Nat.not_le.2 hbelow)

/-- A buffer below its pre-roll: everything pushed is queued. -/
structure Priming (b : TtsPlayoutBuffer) (frames : List AudioFrame) : Prop where
  queue  : b.queue = frames
  offset : b.frontOffsetSamples = 0
  unset  : b.prerollReached = false
  eos    : b.eos = false

theorem Priming.push (hmark : cfg.preroll32 ≤ cfg.highWater32) {b : TtsPlayoutBuffer} {frames : List AudioFrame}
    (h : Priming b frames) (f : AudioFrame) (hbelow : totalMs (frames ++ TtsPlayoutBuffer.arriving f) < cfg.preroll32) :
    Priming (b.push cfg f) (frames ++ TtsPlayoutBuffer.arriving f) := by
  unfold TtsPlayoutBuffer.push
  unfold TtsPlayoutBuffer.arriving at hbelow ⊢
  split
  · rw [List.append_nil]
    exact h
  · rename_i hf
    rw [if_neg hf] at hbelow
    have hdepth := recomputeDepth_le_totalMs (frames ++ [f])
    have hdrop : dropOldest cfg.highWater32 (b.queue ++ [f]) b.frontOffsetSamples = ⟨frames ++ [f], 0, 0⟩ := by
      rw [h.queue, h.offset]
      exact dropOldest_of_within (by omega)
    simp only [hdrop]
    refine ⟨rfl, rfl, ?_, h.eos⟩
    simp only [h.unset, Bool.false_or, decide_eq_false_iff_not]
    omega

theorem priming_after (hmark : cfg.preroll32 ≤ cfg.highWater32) :
    ∀ {calls : List TtsCall}, .signalEndOfStream ∉ calls → totalMs (pushed calls) < cfg.preroll32 →
      Priming (after cfg calls).buf (pushed calls) := by
  intro calls
  induction calls using List.reverseRecOn with
  | nil => exact fun _ _ => ⟨rfl, rfl, rfl, rfl⟩
  | append_singleton calls c ih =>
    intro hno hbelow
    rw [pushed_append, totalMs_append] at hbelow
    have h := ih (fun hmem => hno (List.mem_append_left _ hmem)) (by omega)
    rw [after_append, pushed_append]
    cases c with
    | push f => exact h.push hmark f (by rw [totalMs_append]; exact hbelow)
    | pop hasOut cap =>
      change Priming ((after cfg calls).buf.pop cfg hasOut cap).2 (pushed calls ++ [])
      rw [pop_priming h.unset h.eos, List.append_nil]
      exact h
    | signalEndOfStream => simp at hno

theorem prerollReached_crossing (hmark : cfg.preroll32 ≤ cfg.highWater32) (hno : .signalEndOfStream ∉ calls)
    (hbelow : totalMs (pushed calls) < cfg.preroll32) (hf : f.sampleCount ≠ 0) :
    (after cfg (calls ++ [.push f])).buf.prerollReached = true ↔
      Primes cfg.preroll32 cfg.highWater32 (pushed calls ++ [f]) := by
  have h := priming_after hmark hno hbelow
  rw [after_append, ← h.queue]
  exact prerollReached_push_iff h.offset h.unset hf

/-- **The pre-roll flag is set as soon as the pushed frames reach the pre-roll exactly when every push that reaches it
primes the buffer.** -/
theorem prerollReached_iff (cfg : TtsConfig) (hpos : 0 < cfg.preroll32) (hmark : cfg.preroll32 ≤ cfg.highWater32)
    (hno : .signalEndOfStream ∉ calls) :
    (∀ pre post, calls = pre ++ post → cfg.preroll32 ≤ totalMs (pushed pre) →
      (after cfg pre).buf.prerollReached = true) ↔
    ∀ pre f post, calls = pre ++ .push f :: post → totalMs (pushed pre) < cfg.preroll32 →
      cfg.preroll32 ≤ totalMs (pushed pre) + f.ms → Primes cfg.preroll32 cfg.highWater32 (pushed pre ++ [f]) := by
  have hnot : ∀ pre post, calls = pre ++ post → .signalEndOfStream ∉ pre := fun pre post h hmem =>
    hno (by rw [h]; exact List.mem_append_left _ hmem)
  constructor
  · intro h pre f post hc hbelow hreach
    have hf : f.sampleCount ≠ 0 := fun hzero => by
      rw [ms_of_empty hzero] at hreach
      omega
    rw [← prerollReached_crossing hmark (hnot pre _ hc) hbelow hf]
    exact h (pre ++ [.push f]) post (by rw [hc, List.append_assoc]; rfl) (by rwa [totalMs_pushed])
  · intro h pre
    induction pre using List.reverseRecOn with
    | nil =>
      intro post _ hreach
      exact absurd hreach (Nat.not_le.2 hpos)
    | append_singleton pre c ih =>
      intro post hc hreach
      have hc' : calls = pre ++ c :: post := by rw [hc, List.append_assoc]; rfl
      by_cases hbelow : totalMs (pushed pre) < cfg.preroll32
      · obtain ⟨f, rfl, hf, hreach'⟩ := push_of_reaches hbelow hreach
        rw [prerollReached_crossing hmark (hnot pre _ hc') hbelow hf]
        exact h pre f post hc' hbelow hreach'
      · rw [after_append]
        exact prerollReached_step (ih _ hc' (Nat.le_of_not_lt hbelow)) c

/-- Frames of which none is longer than what the mark leaves over the pre-roll prime the buffer. -/
theorem primes_of_short {preroll highWater : Nat} (hhigh : highWater < 2 ^ 32) {frames : List AudioFrame}
    (hexact : ∀ g ∈ frames ++ [f], g.duration32 = g.ms) (hbelow : totalMs frames < preroll)
    (hreach : preroll ≤ totalMs frames + f.ms) (hshort : f.ms + preroll ≤ highWater + 1) :
    Primes preroll highWater (frames ++ [f]) := by
  have hsum : ((frames ++ [f]).map AudioFrame.duration32).sum = totalMs frames + f.ms := by
    rw [List.map_congr_left hexact, List.map_append, List.sum_append]
    simp [totalMs]
  have hdepth : recomputeDepth ((frames ++ [f]).drop 0) 0 = totalMs frames + f.ms := by
    rw [List.drop_zero, recomputeDepth_zero, hsum]
    omega
  refine ⟨0, by simp, by rw [hdepth]; exact hreach, .inl ?_⟩
  change recomputeDepth ((frames ++ [f]).drop 0) 0 ≤ highWater
  rw [hdepth]
  omega

end TtsTrace
end Media

namespace Control

open Media (AudioFrame TtsCall TtsConfig TtsTrace totalMs Primes)

/-- **When the pre-roll rule starts playback.**  Take a configuration that is accepted, any override, and any sequence of
pushes and pops.  The pre-roll flag is set as soon as the pushed frames add up to the pre-roll, if and only if at the
push that reaches it some rest of the frames is as long as the pre-roll and within the high-water mark, or is the newest
frame alone.  So it is when no frame is longer than the mark leaves over the pre-roll. -/
theorem preroll_starts_iff (regexError : Bytes → Option Bytes) (cfg : Config) (hcfg : validate regexError cfg = none)
    (hmax : cfg.ttsMaxJitterBufferMs < 2 ^ 32) (ov : TtsBufferOverride) (underrunPolicy : Bytes) (calls : List TtsCall)
    (hno : .signalEndOfStream ∉ calls) :
    ((∀ pre post, calls = pre ++ post → prerollOf ov cfg ≤ totalMs (TtsTrace.pushed pre) →
        (TtsTrace.after (startTtsBuffer ov cfg underrunPolicy) pre).buf.prerollReached = true) ↔
      ∀ pre f post, calls = pre ++ .push f :: post → totalMs (TtsTrace.pushed pre) < prerollOf ov cfg →
        prerollOf ov cfg ≤ totalMs (TtsTrace.pushed pre) + f.ms →
        Primes (prerollOf ov cfg) (highWaterOf ov cfg) (TtsTrace.pushed pre ++ [f])) ∧
    ((∀ f, .push f ∈ calls → f.duration32 = f.ms ∧ f.ms + prerollOf ov cfg ≤ highWaterOf ov cfg + 1) →
      ∀ pre post, calls = pre ++ post → prerollOf ov cfg ≤ totalMs (TtsTrace.pushed pre) →
        (TtsTrace.after (startTtsBuffer ov cfg underrunPolicy) pre).buf.prerollReached = true) := by
  obtain ⟨hpre, hmark, hhigh⟩ := depths_of_validate hcfg ov
  have hp : (startTtsBuffer ov cfg underrunPolicy).preroll32 = prerollOf ov cfg := by
    change ((prerollOf ov cfg : Int) % 2 ^ 32).toNat = _
    omega
  have hh : (startTtsBuffer ov cfg underrunPolicy).highWater32 = highWaterOf ov cfg := by
    change ((highWaterOf ov cfg : Int) % 2 ^ 32).toNat = _
    omega
  have hiff := TtsTrace.prerollReached_iff (startTtsBuffer ov cfg underrunPolicy) (by omega) (by omega) hno
  rw [hp, hh] at hiff
  refine ⟨hiff, fun hshort => hiff.2 fun pre f post hc hbelow hreach => ?_⟩
  refine TtsTrace.primes_of_short (by omega) (fun g hg => ?_) hbelow hreach (hshort f (by simp [hc])).2
  rcases List.mem_append.1 hg with hg | hg
  · obtain ⟨c, hcp, hgc⟩ := List.mem_flatMap.1 hg
    cases c with
    | push f' =>
      change g ∈ Media.TtsPlayoutBuffer.arriving f' at hgc
      unfold Media.TtsPlayoutBuffer.arriving at hgc
      split at hgc
      · cases hgc
      · rw [List.mem_singleton.1 hgc]
        exact (hshort f' (by simp [hc, hcp])).1
    | pop => cases hgc
    | signalEndOfStream => cases hgc
  · rw [List.mem_singleton.1 hg]
    exact (hshort f (by simp [hc])).1

/-- The three depths all at 200 ms. -/
def tightDepths : Config := { ttsJitterBufferMs := 200, ttsPrerollMs := 200, ttsHighWaterMs := 200 }

/-- 150 ms at 8 kHz. -/
def longFrame : AudioFrame := ⟨List.replicate 1200 0, 8000, 1, 0, 0, 0, []⟩

theorem validate_tightDepths : validate (fun _ => none) tightDepths = none := by
  have hpii : piiFailure (fun _ => none) tightDepths = none := rfl
  rw [validate_eq_none]
  simp only [checks, List.forall_mem_cons, Check.outside, Check.error_eq_none, hpii, true_and]
  decide +kernel

def tightBuffer : TtsConfig := startTtsBuffer ⟨0, 0⟩ tightDepths (str "silence")

/-- One frame is below the pre-roll, and of two the older one goes. -/
theorem queue_longFrame (n : Nat) :
    (TtsTrace.after tightBuffer (List.replicate (n + 1) (.push longFrame))).buf.queue = [longFrame] ∧
    (TtsTrace.after tightBuffer (List.replicate (n + 1) (.push longFrame))).buf.frontOffsetSamples = 0 ∧
    (TtsTrace.after tightBuffer (List.replicate (n + 1) (.push longFrame))).buf.prerollReached = false := by
  induction n with
  | zero => decide +kernel
  | succ n ih =>
    have hdrop : Media.dropOldest tightBuffer.highWater32 [longFrame, longFrame] 0 = ⟨[longFrame], 0, 1⟩ := by
      decide +kernel
    have hdepth : ¬ tightBuffer.preroll32 ≤ Media.recomputeDepth [longFrame] 0 := by decide +kernel
    obtain ⟨hq, ho, hunset⟩ := ih
    rw [List.replicate_succ', TtsTrace.after_append]
    generalize TtsTrace.after tightBuffer (List.replicate (n + 1) (.push longFrame)) = s at hq ho hunset ⊢
    rw [TtsTrace.step, Media.TtsPlayoutBuffer.push, if_neg (by decide +kernel), hq, ho, List.singleton_append, hdrop]
    simp only [hunset, Bool.false_or, decide_eq_false_iff_not]
    exact ⟨trivial, trivial, hdepth⟩

/-- However many frames of 150 ms are pushed, a pre-roll of 200 ms is not reached. -/
theorem longFrame_never_starts :
    validate (fun _ => none) tightDepths = none ∧ prerollOf ⟨0, 0⟩ tightDepths = 200 ∧ longFrame.ms = 150 ∧
    ∀ n, (TtsTrace.after tightBuffer (List.replicate n (.push longFrame))).buf.prerollReached = false := by
  refine ⟨validate_tightDepths, by decide, by decide +kernel, fun n => ?_⟩
  cases n with
  | zero => rfl
  | succ n => exact (queue_longFrame n).2.2

theorem preroll_starts_iff_defaults :
    (TtsTrace.after (startTtsBuffer ⟨0, 0⟩ {} (str "silence")) [.push longFrame, .pop true 160, .push longFrame]).buf.prerollReached
      = true := by
  refine (preroll_starts_iff (fun _ => none) {} validate_defaults (by decide) ⟨0, 0⟩ (str "silence")
    [.push longFrame, .pop true 160, .push longFrame] (by decide)).2 (fun f hf => ?_) _ [] rfl (by decide +kernel)
  simp only [List.mem_cons, TtsCall.push.injEq, reduceCtorEq, List.not_mem_nil, or_false, false_or, or_self] at hf
  subst hf
  decide +kernel

end Control
end Osw
