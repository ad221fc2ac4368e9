import Mathlib.Data.List.Induction
import OpenSwitch.AudioFrame
import OpenSwitch.DropRing
/-!
# StereoPairer — pairing the two sides of a recording (`stereo_pairer.cc`)

Each side has a ring of 16 pending frames.  A push enqueues, dropping the oldest frame of a full ring, and then, as a
tick does, emits at most one stereo frame: the two oldest frames when both sides have one and their timestamps are
close enough, otherwise the oldest frame of one side over silence, when it is too far behind or has waited too long.
An `Emission` is an emitted frame with the pending frames it was made of.
-/
namespace Osw
namespace Media

inductive Side
  | left
  | right
  deriving DecidableEq, Repr

/-- `StereoFramePairer::PendingFrame`; `arrivedAt` is a clock reading in nanoseconds. -/
structure PendingFrame where
  fsTimestampSamples : Nat
  arrivedAt          : Int
  samples            : List Sample
  deriving DecidableEq, Repr, Inhabited

structure PairedFrame where
  interleaved       : Bytes
  samplesPerChannel : Nat
  sampleRateHz      : Nat
  seq               : Nat
  deriving DecidableEq, Repr

/-- A stereo frame and the pending frames of the two sides it was made of. -/
structure Emission where
  part  : Side → Option PendingFrame
  frame : PairedFrame

/-- The samples of a side; a missing side is silent. -/
def Emission.samples (e : Emission) (s : Side) : List Sample := ((e.part s).map (·.samples)).getD []

/-- `StereoFramePairer::Config`. -/
structure PairerConfig where
  sampleRateHz    : Nat
  desyncWarnMs    : Nat
  desyncTimeoutMs : Nat
  deriving DecidableEq, Repr

def kRingCapacity : Nat := 16

/-- The members of `StereoFramePairer`: the ring of each side, with its history, and the counters. -/
structure StereoFramePairer where
  cfg          : PairerConfig
  ring         : Side → Trail PendingFrame kRingCapacity
  seq          : Nat
  pairedCount  : Nat
  desyncCount  : Nat
  warnCount    : Nat
  droppedCount : Nat

def diffSamples (lhs rhs : Nat) : Nat := if rhs ≤ lhs then lhs - rhs else rhs - lhs

namespace StereoFramePairer

def make (cfg : PairerConfig) : StereoFramePairer := ⟨cfg, fun _ => .make (by decide), 0, 0, 0, 0, 0⟩

def countOf (p : StereoFramePairer) (s : Side) : Nat := (p.ring s).ring.count

/-- `FrontLocked`. -/
def front (p : StereoFramePairer) (s : Side) : PendingFrame := (p.ring s).ring.front

def warnThresholdSamples (p : StereoFramePairer) : Nat := p.cfg.desyncWarnMs * p.cfg.sampleRateHz / 1000

def timeoutThresholdSamples (p : StereoFramePairer) : Nat := p.cfg.desyncTimeoutMs * p.cfg.sampleRateHz / 1000

/-- `EnqueueLocked`. -/
def enqueue (p : StereoFramePairer) (s : Side) (f : PendingFrame) : StereoFramePairer :=
  { p with
    ring := Function.update p.ring s ((p.ring s).push f)
    droppedCount := if p.countOf s = kRingCapacity then (p.droppedCount + 1) % 2 ^ 64 else p.droppedCount }

/-- `PopLocked`; the frame it returns is `front`. -/
def pop (p : StereoFramePairer) (s : Side) : StereoFramePairer :=
  { p with ring := Function.update p.ring s (p.ring s).pop }

/-- `RecordWarnLocked`, under its condition. -/
def recordWarn (p : StereoFramePairer) (diff : Nat) : StereoFramePairer :=
  if 0 < diff ∧ (p.warnThresholdSamples = 0 ∨ p.warnThresholdSamples ≤ diff) then
    { p with warnCount := (p.warnCount + 1) % 2 ^ 64 }
  else p

/-- `RecordTimeoutLocked`. -/
def recordTimeout (p : StereoFramePairer) : StereoFramePairer :=
  { p with desyncCount := (p.desyncCount + 1) % 2 ^ 64, warnCount := (p.warnCount + 1) % 2 ^ 64 }

/-- The frame `MakePairedFrameLocked` builds. -/
def pairedFrame (p : StereoFramePairer) (left right : List Sample) : PairedFrame where
  interleaved := interleave left right
  samplesPerChannel := stereoLength left right % 2 ^ 32
  sampleRateHz := p.cfg.sampleRateHz
  seq := p.seq

/-- What `MakePairedFrameLocked` counts. -/
def countPaired (p : StereoFramePairer) : StereoFramePairer :=
  { p with seq := (p.seq + 1) % 2 ^ 64, pairedCount := (p.pairedCount + 1) % 2 ^ 64 }

/-- `EmitSilenceFillLocked`: the oldest frame of one side over silence. -/
def emitSilenceFill (p : StereoFramePairer) (s : Side) : Emission × StereoFramePairer :=
  (⟨Function.update (fun _ => none) s (some (p.front s)),
    match s with
    | .left  => p.pairedFrame (p.front .left).samples []
    | .right => p.pairedFrame [] (p.front .right).samples⟩,
   (p.pop s).recordTimeout.countPaired)

/-- The wait of a side's oldest frame is over: whole milliseconds past the timeout. -/
def expired (p : StereoFramePairer) (s : Side) (now : Int) : Bool :=
  decide (0 < p.countOf s) && decide ((p.cfg.desyncTimeoutMs : Int) < (now - (p.front s).arrivedAt).tdiv 1000000)

/-- `TryEmitExpiredLocked`. -/
def tryEmitExpired (p : StereoFramePairer) (now : Int) : Option Emission × StereoFramePairer :=
  if p.expired .left now then (some (p.emitSilenceFill .left).1, (p.emitSilenceFill .left).2)
  else if p.expired .right now then (some (p.emitSilenceFill .right).1, (p.emitSilenceFill .right).2)
  else (none, p)

/-- The two oldest frames as one. -/
def emitPair (p : StereoFramePairer) (diff : Nat) : Emission × StereoFramePairer :=
  (⟨fun s => some (p.front s), p.pairedFrame (p.front .left).samples (p.front .right).samples⟩,
   (((p.pop .left).pop .right).recordWarn diff).countPaired)

/-- The side of the older front frame, by its timestamp. -/
def behind (p : StereoFramePairer) : Side :=
  if (p.front .left).fsTimestampSamples < (p.front .right).fsTimestampSamples then .left else .right

/-- `TryEmitLocked`. -/
def tryEmit (p : StereoFramePairer) (now : Int) : Option Emission × StereoFramePairer :=
  if 0 < p.countOf .left ∧ 0 < p.countOf .right then
    let diff := diffSamples (p.front .left).fsTimestampSamples (p.front .right).fsTimestampSamples
    if p.timeoutThresholdSamples < diff then (some (p.emitSilenceFill p.behind).1, (p.emitSilenceFill p.behind).2)
    else (some (p.emitPair diff).1, (p.emitPair diff).2)
  else p.tryEmitExpired now

end StereoFramePairer

/-- A call of the pairer.  `PushLeft` and `PushRight` read the clock twice, `Tick` once. -/
inductive PairAct
  | push (s : Side) (f : PendingFrame) (now : Int)
  | tick (now : Int)
  deriving DecidableEq, Repr

namespace StereoFramePairer

/-- `PushLeft`, `PushRight` and `Tick`. -/
def call (p : StereoFramePairer) : PairAct → Option Emission × StereoFramePairer
  | .push s f now => (p.enqueue s f).tryEmit now
  | .tick now     => p.tryEmit now

/-! ## What a call does -/

theorem enqueue_ring_self (p : StereoFramePairer) (s : Side) (f : PendingFrame) :
    (p.enqueue s f).ring s = (p.ring s).push f :=
  Function.update_self ..

theorem enqueue_ring_of_ne (p : StereoFramePairer) {s s' : Side} (h : s' ≠ s) (f : PendingFrame) :
    (p.enqueue s f).ring s' = p.ring s' :=
  Function.update_of_ne h ..

/-- What an emission does to the pairer: a side gives its oldest frame or nothing, the frame carries the next seq and
the samples of what was given, and it is counted. -/
structure Emits (p p' : StereoFramePairer) (e : Emission) : Prop where
  side    : ∀ s, (e.part s = none ∧ p'.ring s = p.ring s) ∨
              (e.part s = some (p.front s) ∧ p.countOf s ≠ 0 ∧ p'.ring s = (p.ring s).pop)
  frame   : e.frame = p.pairedFrame (e.samples .left) (e.samples .right)
  seq     : p'.seq = (p.seq + 1) % 2 ^ 64
  paired  : p'.pairedCount = (p.pairedCount + 1) % 2 ^ 64
  dropped : p'.droppedCount = p.droppedCount

theorem emitSilenceFill_emits (p : StereoFramePairer) {s : Side} (h : p.countOf s ≠ 0) :
    Emits p (p.emitSilenceFill s).2 (p.emitSilenceFill s).1 := by
  have hpart : (p.emitSilenceFill s).1.part = Function.update (fun _ => none) s (some (p.front s)) := rfl
  refine ⟨fun s' => ?_, ?_, rfl, rfl, rfl⟩
  · by_cases hs : s' = s
    · subst hs
      exact .inr ⟨by rw [hpart, Function.update_self], h, Function.update_self ..⟩
    · exact .inl ⟨by rw [hpart, Function.update_of_ne hs], Function.update_of_ne hs ..⟩
  · cases s <;> rfl

theorem emitPair_emits (p : StereoFramePairer) (diff : Nat) (h : ∀ s, p.countOf s ≠ 0) :
    Emits p (p.emitPair diff).2 (p.emitPair diff).1 := by
  have hwarn : ∀ q : StereoFramePairer, (q.recordWarn diff).ring = q.ring ∧ (q.recordWarn diff).seq = q.seq ∧
      (q.recordWarn diff).pairedCount = q.pairedCount ∧ (q.recordWarn diff).droppedCount = q.droppedCount := fun q => by
    unfold recordWarn
    split <;> exact ⟨rfl, rfl, rfl, rfl⟩
  obtain ⟨hring, hseq, hpaired, hdropped⟩ := hwarn ((p.pop .left).pop .right)
  refine ⟨fun s => .inr ⟨rfl, h s, ?_⟩, rfl, ?_, ?_, hdropped⟩
  · change (((p.pop .left).pop .right).recordWarn diff).ring s = _
    rw [hring]
    cases s <;> rfl
  · exact congrArg (fun n => (n + 1) % 2 ^ 64) hseq
  · exact congrArg (fun n => (n + 1) % 2 ^ 64) hpaired

/-- **What `TryEmitLocked` can do**: nothing, or one emission. -/
theorem tryEmit_cases (p : StereoFramePairer) (now : Int) :
    p.tryEmit now = (none, p) ∨ ∃ e p', p.tryEmit now = (some e, p') ∧ Emits p p' e := by
  unfold tryEmit
  split
  · rename_i hboth
    have hne : ∀ s, p.countOf s ≠ 0 := fun s => by cases s <;> omega
    dsimp only
    split
    · exact .inr ⟨_, _, rfl, p.emitSilenceFill_emits (hne _)⟩
    · exact .inr ⟨_, _, rfl, p.emitPair_emits _ hne⟩
  · unfold tryEmitExpired
    split
    · rename_i hexp
      simp only [expired, Bool.and_eq_true, decide_eq_true_eq] at hexp
      exact .inr ⟨_, _, rfl, p.emitSilenceFill_emits (Nat.ne_of_gt hexp.1)⟩
    · split
      · rename_i hexp
        simp only [expired, Bool.and_eq_true, decide_eq_true_eq] at hexp
        exact .inr ⟨_, _, rfl, p.emitSilenceFill_emits (Nat.ne_of_gt hexp.1)⟩
      · exact .inl rfl

/-- A call emits nothing, or one frame under the next seq; a frame without bytes has no samples. -/
theorem call_cases (p : StereoFramePairer) (a : PairAct) :
    ((p.call a).1 = none ∧ (p.call a).2.seq = p.seq) ∨
    ∃ e, (p.call a).1 = some e ∧ e.frame.seq = p.seq ∧ (p.call a).2.seq = (p.seq + 1) % 2 ^ 64 ∧
      (e.frame.interleaved = [] → e.frame.samplesPerChannel = 0) := by
  have hcall : ∃ (p₀ : StereoFramePairer) (now : Int), p.call a = p₀.tryEmit now ∧ p₀.seq = p.seq := by
    cases a with
    | push s f now => exact ⟨p.enqueue s f, now, rfl, rfl⟩
    | tick now => exact ⟨p, now, rfl, rfl⟩
  obtain ⟨p₀, now, hcall, hseq⟩ := hcall
  rw [hcall, ← hseq]
  rcases p₀.tryEmit_cases now with hn | ⟨e, p', hn, he⟩ <;> rw [hn]
  · exact .inl ⟨rfl, rfl⟩
  · refine .inr ⟨e, rfl, congrArg (·.seq) he.frame, he.seq, fun hi => ?_⟩
    rw [he.frame] at hi ⊢
    exact congrArg (· % 2 ^ 32) (interleave_eq_nil hi)

end StereoFramePairer

/-! ## Runs of the pairer -/

/-- A pairer and what it has emitted. -/
structure Recording where
  pairer : StereoFramePairer
  out    : List Emission

namespace Recording

def make (cfg : PairerConfig) : Recording := ⟨.make cfg, []⟩

def step (r : Recording) (a : PairAct) : Recording := ⟨(r.pairer.call a).2, r.out ++ (r.pairer.call a).1.toList⟩

/-- The recording after a sequence of calls. -/
def after (cfg : PairerConfig) (acts : List PairAct) : Recording := acts.foldl step (make cfg)

/-- The frames of a side still held, oldest first. -/
def held (r : Recording) (s : Side) : List PendingFrame := (r.pairer.ring s).ring.toList

/-- The frames of a side that were emitted, in order. -/
def emitted (r : Recording) (s : Side) : List PendingFrame := r.out.filterMap (·.part s)

/-- The frames of a side that were dropped, in order. -/
def drops (r : Recording) (s : Side) : List PendingFrame := (r.pairer.ring s).drops

end Recording

/-- The frame a call pushes to a side. -/
def PairAct.pushes (s : Side) : PairAct → Option PendingFrame
  | .push s' f _ => if s' = s then some f else none
  | .tick _      => none

namespace Recording

open StereoFramePairer (tryEmit tryEmitExpired expired countOf front enqueue timeoutThresholdSamples emitPair)

/-- The books of a recording: the rings keep what they were given, and everything is counted. -/
structure Booked (acts : List PairAct) (r : Recording) : Prop where
  kept    : ∀ s, (r.pairer.ring s).Kept
  pushed  : ∀ s, (r.pairer.ring s).pushed = acts.filterMap (PairAct.pushes s)
  taken   : ∀ s, (r.pairer.ring s).taken = r.emitted s
  dropped : r.pairer.droppedCount = ((r.drops .left).length + (r.drops .right).length) % 2 ^ 64
  paired  : r.pairer.pairedCount = r.out.length % 2 ^ 64
  seq     : r.pairer.seq = r.out.length % 2 ^ 64
  seqs    : r.out.map (·.frame.seq) = (List.range r.out.length).map (· % 2 ^ 64)
  frames  : ∀ e ∈ r.out, e.frame.interleaved = interleave (e.samples .left) (e.samples .right) ∧
              e.frame.samplesPerChannel = stereoLength (e.samples .left) (e.samples .right) % 2 ^ 32

theorem booked_make (cfg : PairerConfig) : Booked [] (make cfg) :=
  ⟨fun _ => Trail.kept_make _, fun _ => rfl, fun _ => rfl, rfl, rfl, rfl, rfl, nofun⟩

variable {acts : List PairAct} {r : Recording}

theorem Booked.enqueue (h : Booked acts r) (s : Side) (f : PendingFrame) (now : Int) :
    Booked (acts ++ [.push s f now]) { r with pairer := r.pairer.enqueue s f } := by
  have hself := r.pairer.enqueue_ring_self s f
  have hother : ∀ s', s' ≠ s → (r.pairer.enqueue s f).ring s' = r.pairer.ring s' :=
    fun s' hs => r.pairer.enqueue_ring_of_ne hs f
  refine ⟨fun s' => ?_, fun s' => ?_, fun s' => ?_, ?_, h.paired, h.seq, h.seqs, h.frames⟩
  · by_cases hs : s' = s
    · subst hs
      rw [hself]
      exact (h.kept s').push f
    · rw [hother s' hs]
      exact h.kept s'
  · rw [List.filterMap_append, ← h.pushed s']
    by_cases hs : s' = s
    · subst hs
      rw [hself]
      simp [Trail.push, PairAct.pushes]
    · rw [hother s' hs]
      simp [PairAct.pushes, Ne.symm hs]
  · by_cases hs : s' = s
    · subst hs
      rw [hself, Trail.taken_push]
      exact h.taken s'
    · rw [hother s' hs]
      exact h.taken s'
  · have hcount : (r.pairer.enqueue s f).droppedCount
        = (r.pairer.droppedCount + (r.pairer.ring s).ring.dropped.toList.length) % 2 ^ 64 := by
      have hlt : r.pairer.droppedCount < 2 ^ 64 := by
        rw [h.dropped]
        exact Nat.mod_lt _ (by decide)
      have hd : (r.pairer.ring s).ring.dropped
          = if r.pairer.countOf s = kRingCapacity then some (r.pairer.front s) else none := rfl
      by_cases hfull : r.pairer.countOf s = kRingCapacity
      · rw [hd, StereoFramePairer.enqueue, if_pos hfull, if_pos hfull]
        rfl
      · rw [hd, StereoFramePairer.enqueue, if_neg hfull, if_neg hfull]
        exact (Nat.mod_eq_of_lt hlt).symm
    have hdrops : ((r.pairer.enqueue s f).ring s).drops.length
        = (r.drops s).length + (r.pairer.ring s).ring.dropped.toList.length := by
      rw [hself, Trail.drops_push, List.length_append]
      rfl
    have hkeep : ∀ s', s' ≠ s → ((r.pairer.enqueue s f).ring s').drops = r.drops s' := fun s' hs => by
      rw [hother s' hs]
      rfl
    change (r.pairer.enqueue s f).droppedCount
      = (((r.pairer.enqueue s f).ring .left).drops.length + ((r.pairer.enqueue s f).ring .right).drops.length) % 2 ^ 64
    rw [hcount, h.dropped]
    cases s with
    | left =>
      rw [hdrops, hkeep .right (by decide)]
      omega
    | right =>
      rw [hdrops, hkeep .left (by decide)]
      omega

theorem Booked.emit (h : Booked acts r) {e : Emission} {p' : StereoFramePairer} (he : r.pairer.Emits p' e) :
    Booked acts ⟨p', r.out ++ [e]⟩ := by
  have hmod : ∀ n : Nat, (n % 2 ^ 64 + 1) % 2 ^ 64 = (n + 1) % 2 ^ 64 := fun n => by omega
  have hdrops : ∀ s, (p'.ring s).drops = r.drops s := fun s => by
    rcases he.side s with ⟨_, hr⟩ | ⟨_, _, hr⟩ <;> rw [hr]
    · rfl
    · exact Trail.drops_pop _
  refine ⟨fun s => ?_, fun s => ?_, fun s => ?_, ?_, ?_, ?_, ?_, fun e' he' => ?_⟩
  · rcases he.side s with ⟨_, hr⟩ | ⟨_, hne, hr⟩ <;> rw [hr]
    · exact h.kept s
    · exact (h.kept s).pop hne
  · rcases he.side s with ⟨_, hr⟩ | ⟨_, _, hr⟩ <;> rw [hr] <;> exact h.pushed s
  · rcases he.side s with ⟨hp, hr⟩ | ⟨hp, _, hr⟩
    · rw [hr, h.taken s]
      simp [emitted, hp]
    · rw [hr, Trail.taken_pop, h.taken s]
      simp [emitted, hp, StereoFramePairer.front]
  · change p'.droppedCount = ((p'.ring .left).drops.length + (p'.ring .right).drops.length) % 2 ^ 64
    rw [he.dropped, h.dropped, hdrops .left, hdrops .right]
  · rw [he.paired, h.paired, hmod, List.length_append, List.length_singleton]
  · rw [he.seq, h.seq, hmod, List.length_append, List.length_singleton]
  · rw [List.map_append, h.seqs, List.length_append, List.length_singleton, List.range_succ, List.map_append,
      List.map_singleton, List.map_singleton, he.frame, StereoFramePairer.pairedFrame, h.seq]
  · rcases List.mem_append.1 he' with he' | he'
    · exact h.frames e' he'
    · cases List.mem_singleton.1 he'
      rw [he.frame]
      exact ⟨rfl, rfl⟩

theorem Booked.tryEmit (h : Booked acts r) (now : Int) :
    Booked acts ⟨(r.pairer.tryEmit now).2, r.out ++ (r.pairer.tryEmit now).1.toList⟩ := by
  rcases r.pairer.tryEmit_cases now with hn | ⟨e, p', hn, he⟩ <;> rw [hn]
  · rw [Option.toList_none, List.append_nil]
    exact h
  · exact h.emit he

theorem Booked.step (h : Booked acts r) (a : PairAct) : Booked (acts ++ [a]) (r.step a) := by
  cases a with
  | push s f now => exact (h.enqueue s f now).tryEmit now
  | tick now =>
    have hsame : ∀ s, (acts ++ [PairAct.tick now]).filterMap (PairAct.pushes s) = acts.filterMap (PairAct.pushes s) :=
      fun s => by rw [List.filterMap_append]; exact List.append_nil _
    obtain ⟨hk, hp, ht, hd, hpa, hs, hss, hf⟩ := h.tryEmit now
    exact ⟨hk, fun s => (hp s).trans (hsame s).symm, ht, hd, hpa, hs, hss, hf⟩

theorem after_append (cfg : PairerConfig) (acts : List PairAct) (a : PairAct) :
    after cfg (acts ++ [a]) = (after cfg acts).step a :=
  List.foldl_concat ..

theorem booked_after (cfg : PairerConfig) (acts : List PairAct) : Booked acts (after cfg acts) := by
  induction acts using List.reverseRecOn with
  | nil => exact booked_make cfg
  | append_singleton acts a ih =>
    rw [after_append]
    exact ih.step a

/-- A call drops a frame of a side only when it pushes to that side and finds its 16 slots full: the oldest one. -/
theorem drops_step (r : Recording) (a : PairAct) (s : Side) :
    (r.step a).drops s = r.drops s ++
      (if (a.pushes s).isSome ∧ (r.held s).length = kRingCapacity then (r.held s).head?.toList else []) := by
  have htry : ∀ (p : StereoFramePairer) (now : Int), ((p.tryEmit now).2.ring s).drops = (p.ring s).drops := fun p now => by
    rcases p.tryEmit_cases now with hn | ⟨e, p', hn, he⟩ <;> rw [hn]
    rcases he.side s with ⟨_, hr⟩ | ⟨_, _, hr⟩ <;> rw [hr]
    exact Trail.drops_pop _
  cases a with
  | tick now =>
    change ((r.pairer.tryEmit now).2.ring s).drops = _
    rw [htry]
    simp [PairAct.pushes, drops]
  | push s' f now =>
    change (((r.pairer.enqueue s' f).tryEmit now).2.ring s).drops = _
    rw [htry]
    by_cases hs : s' = s
    · subst hs
      rw [StereoFramePairer.enqueue_ring_self, Trail.drops_push, DropRing.dropped_eq_head?]
      simp only [PairAct.pushes, if_pos, Option.isSome_some, true_and, drops, held]
      by_cases hfull : (r.pairer.ring s').ring.toList.length = kRingCapacity
      · rw [if_pos hfull, if_pos hfull]
      · rw [if_neg hfull, if_neg hfull, Option.toList_none]
    · rw [StereoFramePairer.enqueue_ring_of_ne _ (Ne.symm hs)]
      simp [PairAct.pushes, hs, drops]

/-- **Stereo recording loses and reorders nothing silently.**  In every run of the pairer, for each side: what was
emitted and then what is held is what was pushed, in order, without the frames marked as dropped; a frame is dropped
only as the oldest of a full ring of 16; and the counters, in their 64 bits, count exactly the drops and the emissions.
The bytes of an emitted frame are read back as the samples of each side followed by silence exactly when the frame has
fewer than `2 ^ 31` samples per channel: past that `samples_per_channel * 2u` wraps. -/
theorem recording_accounts (cfg : PairerConfig) (acts : List PairAct) :
    (∀ s, ∃ marks : List (PendingFrame × Bool),
      marks.map Prod.fst = acts.filterMap (PairAct.pushes s) ∧
      (marks.filter (fun d => !d.2)).map Prod.fst = (after cfg acts).emitted s ++ (after cfg acts).held s ∧
      (marks.filter (·.2)).map Prod.fst = (after cfg acts).drops s) ∧
    (∀ a s, (after cfg (acts ++ [a])).drops s = (after cfg acts).drops s ++
      (if (a.pushes s).isSome ∧ ((after cfg acts).held s).length = kRingCapacity
       then ((after cfg acts).held s).head?.toList else [])) ∧
    (after cfg acts).pairer.droppedCount
      = (((after cfg acts).drops .left).length + ((after cfg acts).drops .right).length) % 2 ^ 64 ∧
    (after cfg acts).pairer.pairedCount = (after cfg acts).out.length % 2 ^ 64 ∧
    (after cfg acts).pairer.seq = (after cfg acts).out.length % 2 ^ 64 ∧
    (after cfg acts).out.map (·.frame.seq) = (List.range (after cfg acts).out.length).map (· % 2 ^ 64) ∧
    (∀ e ∈ (after cfg acts).out,
      deinterleave (readInterleaved e.frame.interleaved e.frame.samplesPerChannel)
          = (padTo (stereoLength (e.samples .left) (e.samples .right)) (e.samples .left),
             padTo (stereoLength (e.samples .left) (e.samples .right)) (e.samples .right)) ↔
        stereoLength (e.samples .left) (e.samples .right) < 2 ^ 31) := by
  have hb := booked_after cfg acts
  refine ⟨fun s => ?_, fun a s => ?_, hb.dropped, hb.paired, hb.seq, hb.seqs, fun e he => ?_⟩
  · obtain ⟨marks, hp, ht, hd⟩ := (hb.kept s).marks
    exact ⟨marks, hp.trans (hb.pushed s), by rw [ht, hb.taken s]; rfl, hd⟩
  · rw [after_append]
    exact drops_step _ a s
  · obtain ⟨hi, hn⟩ := hb.frames e he
    rw [hi, hn]
    exact deinterleave_read_iff _ _

/-- A left frame and an empty right one with the same timestamp, pushed at one time. -/
def pairOf (samples : List Sample) : List PairAct := [.push .left ⟨0, 0, samples⟩ 0, .push .right ⟨0, 0, []⟩ 0]

/-- The two frames of `pairOf` are emitted as one. -/
theorem pairOf_out (samples : List Sample) :
    ∃ e ∈ (after ⟨8000, 5, 25⟩ (pairOf samples)).out, e.samples .left = samples ∧ e.samples .right = [] := by
  have hfirst : ((StereoFramePairer.make ⟨8000, 5, 25⟩).enqueue .left ⟨0, 0, samples⟩).tryEmit 0
      = (none, (StereoFramePairer.make ⟨8000, 5, 25⟩).enqueue .left ⟨0, 0, samples⟩) := by
    simp [tryEmit, tryEmitExpired, expired, countOf, front, enqueue, StereoFramePairer.make, Trail.push, Trail.make,
      DropRing.push, DropRing.room, DropRing.put, DropRing.make, DropRing.front, kRingCapacity]
  simp only [after, pairOf, step, make, StereoFramePairer.call, List.foldl, hfirst]
  simp [tryEmit, countOf, front, enqueue, StereoFramePairer.make, Trail.push, Trail.make, DropRing.push, DropRing.room,
    DropRing.put, DropRing.make, DropRing.front, kRingCapacity, diffSamples, timeoutThresholdSamples, emitPair,
    Emission.samples]

theorem pairOf_unread (samples : List Sample) (h : samples.length = 2 ^ 31) :
    ∃ e ∈ (after ⟨8000, 5, 25⟩ (pairOf samples)).out, e.samples .left = samples ∧
      deinterleave (readInterleaved e.frame.interleaved e.frame.samplesPerChannel) = ([], []) := by
  obtain ⟨e, he, hl, hr⟩ := pairOf_out samples
  obtain ⟨hi, hn⟩ := (booked_after _ _).frames e he
  have hlen : stereoLength samples [] = 2 ^ 31 := by rw [stereoLength, h, List.length_nil, Nat.max_zero]
  refine ⟨e, he, hl, ?_⟩
  rw [hi, hn, hl, hr, deinterleave_read, hlen, Nat.mod_self, List.take_zero, List.take_zero]

/-- A left frame of `2 ^ 31` samples is emitted, and the relay reads nothing of it back. -/
theorem pairOf_long_unread :
    ∃ e ∈ (after ⟨8000, 5, 25⟩ (pairOf (List.replicate (2 ^ 31) 1))).out, e.samples .left = List.replicate (2 ^ 31) 1 ∧
      deinterleave (readInterleaved e.frame.interleaved e.frame.samplesPerChannel) = ([], []) :=
  pairOf_unread _ List.length_replicate

end Recording
end Media
end Osw
