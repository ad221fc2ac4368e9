import Mathlib.Algebra.BigOperators.Group.List.Basic
import Mathlib.Data.List.Nodup
import OpenSwitch.Run
import OpenSwitch.StereoPairer
import OpenSwitch.StreamClient
import OpenSwitch.Turns
/-!
# RecordingRelay — from the pairer to the send ring (`recording_relay.cc`)

The left tap, the right tap and the tick thread of a stereo relay share a pairer and a stream.  A thread that a frame
comes back to from the pairer flushes it on its own: it draws a seq, advances the timestamp and sends, while the other
threads may be doing the same for later frames.  The frames enter the send ring in pairing order, each with the samples
before it as its timestamp, as far as no thread overtakes another at the last two (`recorded_in_pairing_order`).
-/
namespace Osw
namespace Media

inductive RelayThread
  | tap (side : Side)
  | tick
  deriving DecidableEq, Repr

def RelayThread.all : List RelayThread := [.tap .left, .tap .right, .tick]

theorem RelayThread.mem_all : ∀ th : RelayThread, th ∈ all
  | .tap .left | .tap .right | .tick => by decide

/-- Where a thread is, in `PushSide` or in an iteration of `TickLoop`, and then in `FlushPairedFrame`. -/
inductive RelayPhase
  | idle
  | pushing (fsTimestampSamples : Nat) (samples : List Sample)
  | ticking
  | paired (f : PairedFrame)
  | numbered (f : PairedFrame) (seq : Nat)
  | timed (f : PairedFrame) (seq ts : Nat)
  deriving DecidableEq, Repr

namespace RelayPhase

/-- The frame of a thread that has not advanced the timestamp for it. -/
def waits : RelayPhase → Option PairedFrame
  | .paired f | .numbered f _ => some f
  | _ => none

/-- The frame of a thread that has not sent it. -/
def holds : RelayPhase → Option PairedFrame
  | .paired f | .numbered f _ | .timed f _ _ => some f
  | _ => none

theorem holds_of_waits : ∀ {ph : RelayPhase} {f : PairedFrame}, ph.waits = some f → ph.holds = some f
  | .paired _, _, h | .numbered _ _, _, h => h

end RelayPhase

/-- A stereo relay.  Two histories: `emitted` is what the pairer has returned, `sent` what entered the send ring, each
frame with the one made of it. -/
structure RecordingRelay (c : Nat) where
  sampleRateHz : Nat
  stopped      : Bool
  pairer       : StereoFramePairer
  client       : StreamClient c
  phase        : RelayThread → RelayPhase
  emitted      : List PairedFrame
  sent         : List (PairedFrame × AudioFrame)

/-- A step of a thread or of the stream.  The samples of `push` are those that reach the pairer, resampled if need be;
`call` reads the clock. -/
inductive RelayAct
  | push (side : Side) (fsTimestampSamples : Nat) (samples : List Sample)
  | tick
  | call (th : RelayThread) (arrivedAt now : Int)
  | nextSeq (th : RelayThread)
  | advanceTimestamp (th : RelayThread)
  | sendAudio (th : RelayThread)
  | stop
  | close
  | control (msg : Bytes)
  | writer (ok : Bool)
  deriving DecidableEq, Repr

def kBothInterleavedChannel : Nat := 3

namespace RecordingRelay

variable {c : Nat}

/-- A relay just started, on a stream just opened. -/
def init (h : 0 < c) (cfg : PairerConfig) : RecordingRelay c :=
  ⟨cfg.sampleRateHz, false, .make cfg, .make h, fun _ => .idle, [], []⟩

def goto (s : RecordingRelay c) (th : RelayThread) (ph : RelayPhase) : RecordingRelay c :=
  { s with phase := Function.update s.phase th ph }

/-- The call of the pairer a thread is about to make. -/
def pairCall (s : RecordingRelay c) (th : RelayThread) (arrivedAt now : Int) : Option PairAct :=
  match th, s.phase th with
  | .tap side, .pushing ts samples => some (.push side ⟨ts, arrivedAt, samples⟩ now)
  | .tick, .ticking => some (.tick now)
  | _, _ => none

/-- A call of the pairer, under its lock. -/
def callPairer (s : RecordingRelay c) (th : RelayThread) (a : PairAct) : RecordingRelay c :=
  match (s.pairer.call a).1 with
  | none   => { s.goto th .idle with pairer := (s.pairer.call a).2 }
  | some e => { s.goto th (.paired e.frame) with pairer := (s.pairer.call a).2, emitted := s.emitted ++ [e.frame] }

/-- The frame `FlushPairedFrame` sends. -/
def audioFrame (s : RecordingRelay c) (f : PairedFrame) (seq ts : Nat) : AudioFrame :=
  ⟨readInterleaved f.interleaved f.samplesPerChannel, s.sampleRateHz, 2, seq, ts, kBothInterleavedChannel, []⟩

/-- The step of `FlushPairedFrame` that calls `SendAudio`. -/
def send (s : RecordingRelay c) (th : RelayThread) (f : PairedFrame) (a : AudioFrame) : RecordingRelay c :=
  { s.goto th .idle with
    client := s.client.sendAudio a
    sent := if s.client.takes a then s.sent ++ [(f, a)] else s.sent }

def step (s : RecordingRelay c) : RelayAct → Option (RecordingRelay c)
  | .push side ts samples =>
    match s.phase (.tap side) with
    | .idle => if s.stopped ∨ samples = [] then some s else some (s.goto (.tap side) (.pushing ts samples))
    | _ => none
  | .tick =>
    match s.phase .tick with
    | .idle => if s.stopped then none else some (s.goto .tick .ticking)
    | _ => none
  | .call th arrivedAt now => (s.pairCall th arrivedAt now).map (s.callPairer th)
  | .nextSeq th =>
    match s.phase th with
    | .paired f =>
      -- `FlushPairedFrame` returns before `NextSeq` on an empty frame
      if f.samplesPerChannel = 0 ∨ f.interleaved = [] then some (s.goto th .idle)
      else some { s.goto th (.numbered f s.client.seqCounter) with client := s.client.nextSeq }
    | _ => none
  | .advanceTimestamp th =>
    match s.phase th with
    | .numbered f q =>
      some { s.goto th (.timed f q s.client.tsCounter) with client := s.client.advanceTimestamp f.samplesPerChannel }
    | _ => none
  | .sendAudio th =>
    match s.phase th with
    | .timed f q ts => some (s.send th f (s.audioFrame f q ts))
    | _ => none
  | .stop => some { s with stopped := true }
  | .close => some { s with client := s.client.close }
  | .control msg => some { s with client := s.client.sendControl msg }
  | .writer ok => (s.client.writerStep ok).map (fun k => { s with client := k })

def waits (s : RecordingRelay c) (th : RelayThread) : Option Nat := ((s.phase th).waits).map (·.seq)

def holds (s : RecordingRelay c) (th : RelayThread) : Option Nat := ((s.phase th).holds).map (·.seq)

/-- No thread overtakes another on the way from the pairer to the send ring; and no counter wraps. -/
def inTurn (s : RecordingRelay c) : RelayAct → Bool
  | .call _ _ _ => decide (s.pairer.seq + 1 < 2 ^ 64)
  | .advanceTimestamp th =>
    match s.phase th with
    | .numbered f _ =>
      decide (s.client.tsCounter + f.samplesPerChannel < 2 ^ 64) && Turns.smallest RelayThread.all s.waits f.seq
    | _ => true
  | .sendAudio th =>
    match s.phase th with
    | .timed f _ _ => Turns.smallest RelayThread.all s.holds f.seq
    | _ => true
  | _ => true

end RecordingRelay

/-! ## Samples of a set of frames -/

/-- The samples per channel, together, of the frames whose seq is in `P`. -/
def samplesOf (P : Nat → Bool) (E : List PairedFrame) : Nat :=
  ((E.filter (fun e => P e.seq)).map (·.samplesPerChannel)).sum

/-- The samples per channel of all frames before a seq. -/
def samplesBefore (E : List PairedFrame) (q : Nat) : Nat := samplesOf (fun p => decide (p < q)) E

@[simp] theorem samplesOf_nil (P : Nat → Bool) : samplesOf P [] = 0 := rfl

theorem samplesOf_cons (P : Nat → Bool) (e : PairedFrame) (E : List PairedFrame) :
    samplesOf P (e :: E) = (if P e.seq then e.samplesPerChannel else 0) + samplesOf P E := by
  unfold samplesOf
  rw [List.filter_cons]
  split
  · rw [List.map_cons, List.sum_cons]
  · rw [Nat.zero_add]

theorem samplesOf_append (P : Nat → Bool) (E E' : List PairedFrame) :
    samplesOf P (E ++ E') = samplesOf P E + samplesOf P E' := by
  rw [samplesOf, List.filter_append, List.map_append, List.sum_append]
  rfl

theorem samplesOf_congr {P Q : Nat → Bool} : ∀ {E : List PairedFrame},
    (∀ e ∈ E, P e.seq = Q e.seq ∨ e.samplesPerChannel = 0) → samplesOf P E = samplesOf Q E
  | [], _ => rfl
  | e :: E, h => by
    rw [samplesOf_cons, samplesOf_cons, samplesOf_congr (fun e' he' => h e' (List.mem_cons_of_mem _ he'))]
    rcases h e List.mem_cons_self with he | he
    · rw [he]
    · rw [he, ite_self, ite_self]

theorem samplesOf_insert {P Q : Nat → Bool} {E : List PairedFrame} (hnd : (E.map (·.seq)).Nodup) {f : PairedFrame}
    (hf : f ∈ E) (hP : P f.seq = false) (hQ : Q f.seq = true) (hPQ : ∀ q, q ≠ f.seq → P q = Q q) :
    samplesOf Q E = samplesOf P E + f.samplesPerChannel := by
  obtain ⟨pre, post, rfl⟩ := List.append_of_mem hf
  rw [List.map_append, List.map_cons] at hnd
  have hpre : ∀ e ∈ pre, e.seq ≠ f.seq := fun e he heq =>
    (List.nodup_append.1 hnd).2.2 e.seq (List.mem_map_of_mem he) f.seq List.mem_cons_self heq
  have hpost : ∀ e ∈ post, e.seq ≠ f.seq := fun e he heq =>
    (List.nodup_cons.1 (List.nodup_append.1 hnd).2.1).1 (heq ▸ List.mem_map_of_mem he)
  have h1 : samplesOf Q pre = samplesOf P pre := samplesOf_congr (fun e he => .inl (hPQ _ (hpre e he)).symm)
  have h2 : samplesOf Q post = samplesOf P post := samplesOf_congr (fun e he => .inl (hPQ _ (hpost e he)).symm)
  rw [samplesOf_append, samplesOf_append, samplesOf_cons, samplesOf_cons, h1, h2, if_pos hQ, hP,
    if_neg Bool.false_ne_true]
  omega

theorem samplesBefore_append {E : List PairedFrame} {f : PairedFrame} {q : Nat} (h : q ≤ f.seq) :
    samplesBefore (E ++ [f]) q = samplesBefore E q := by
  rw [samplesBefore, samplesOf_append, samplesOf_cons, if_neg (by simpa using h)]
  rfl

namespace RecordingRelay

variable {c : Nat} {s : RecordingRelay c}

/-! ## Order -/

/-- No thread still has to advance the timestamp for the frame of this seq. -/
def settled (s : RecordingRelay c) (q : Nat) : Bool := RelayThread.all.all (fun th => decide (s.waits th ≠ some q))

theorem settled_iff {q : Nat} : s.settled q = true ↔ ∀ th, s.waits th ≠ some q := by
  simp only [settled, List.all_eq_true, decide_eq_true_eq]
  exact ⟨fun h th => h th (RelayThread.mem_all th), fun h th _ => h th⟩

/-- The timestamp counts the settled frames, and they are those before every waiting one: so a frame's timestamp is the
samples before it, when it is taken and ever after. -/
structure Ordered (s : RecordingRelay c) : Prop where
  seqs    : s.emitted.map (·.seq) = List.range s.pairer.seq
  line    : Turns (s.sent.map (·.1.seq)) s.holds s.pairer.seq
  held    : ∀ th f, (s.phase th).holds = some f → f ∈ s.emitted
  bytes   : ∀ f ∈ s.emitted, f.interleaved = [] → f.samplesPerChannel = 0
  total   : s.client.tsCounter = samplesOf s.settled s.emitted
  gate    : ∀ th q, s.waits th = some q → ∀ e ∈ s.emitted, q < e.seq → s.settled e.seq = true → e.samplesPerChannel = 0
  timed   : ∀ th f q ts, s.phase th = .timed f q ts → ts = samplesBefore s.emitted f.seq
  stamped : ∀ x ∈ s.sent, x.1 ∈ s.emitted ∧ x.2.timestampSamples = samplesBefore s.emitted x.1.seq
  queued  : s.sent.map Prod.snd = s.client.queued

theorem ordered_init (h : 0 < c) (cfg : PairerConfig) : Ordered (init h cfg) :=
  ⟨rfl, .start (fun _ => rfl), nofun, nofun, rfl, nofun, nofun, nofun, rfl⟩

theorem Ordered.nodup (h : Ordered s) : (s.emitted.map (·.seq)).Nodup := by
  rw [h.seqs]
  exact List.nodup_range

theorem Ordered.seq_lt (h : Ordered s) {f : PairedFrame} (hf : f ∈ s.emitted) : f.seq < s.pairer.seq := by
  have := List.mem_map_of_mem (f := (·.seq)) hf
  rw [h.seqs] at this
  exact List.mem_range.1 this

theorem Ordered.of_client (h : Ordered s) {k : StreamClient c} (hq : k.queued = s.client.queued)
    (hts : k.tsCounter = s.client.tsCounter) : Ordered { s with client := k } :=
  ⟨h.seqs, h.line, h.held, h.bytes, hts.trans h.total, h.gate, h.timed, h.stamped, h.queued.trans hq.symm⟩

section goto

variable {s : RecordingRelay c} {th th' : RelayThread} {ph : RelayPhase} {q : Nat} {f : PairedFrame}

theorem phase_goto (th' : RelayThread) : (s.goto th ph).phase th' = if th' = th then ph else s.phase th' :=
  Function.update_apply ..

theorem phase_goto_self : (s.goto th ph).phase th = ph := Function.update_self ..

theorem phase_goto_ne (h : th' ≠ th) : (s.goto th ph).phase th' = s.phase th' :=
  Function.update_of_ne h ..

theorem settled_goto (hw : ph.waits = (s.phase th).waits) :
    (s.goto th ph).waits = s.waits ∧ (s.goto th ph).settled = s.settled := by
  have hwaits : (s.goto th ph).waits = s.waits := funext (fun th' => by
    rw [waits, waits, phase_goto]
    split
    · rename_i heq
      rw [heq, hw]
    · rfl)
  exact ⟨hwaits, funext (fun q => by rw [settled, settled, hwaits])⟩

/-- A timed frame is in the hands of the thread that was about to time it, or was timed before. -/
theorem timed_goto (ht : ∀ f q ts, ph ≠ .timed f q ts) {ts : Nat} (h : (s.goto th ph).phase th' = .timed f q ts) :
    s.phase th' = .timed f q ts := by
  rw [phase_goto] at h
  split at h
  · exact absurd h (ht f q ts)
  · exact h

theorem holds_goto (hh : ∀ f, ph.holds = some f → (s.phase th).holds = some f)
    (h : ((s.goto th ph).phase th').holds = some f) : (s.phase th').holds = some f := by
  rw [phase_goto] at h
  split at h
  · rename_i heq
    exact heq ▸ hh f h
  · exact h

theorem not_timed_idle : ∀ f q ts, RelayPhase.idle ≠ .timed f q ts := nofun

theorem holds_idle : ∀ f, RelayPhase.idle.holds = some f → (s.phase th).holds = some f := nofun

theorem holds_eq_some : s.holds th' = some q ↔ ∃ f, (s.phase th').holds = some f ∧ f.seq = q :=
  Option.map_eq_some_iff

theorem holds_goto_seq (hh : ∀ f, ph.holds = some f → (s.phase th).holds = some f)
    (h : (s.goto th ph).holds th' = some q) : s.holds th' = some q := by
  obtain ⟨f, hf, hq⟩ := holds_eq_some.1 h
  exact holds_eq_some.2 ⟨f, holds_goto hh hf, hq⟩

theorem Ordered.goto (h : Ordered s) (hw : ph.waits = (s.phase th).waits) (hh : ph.holds = (s.phase th).holds)
    (ht : ∀ f q ts, ph ≠ .timed f q ts) : Ordered (s.goto th ph) := by
  obtain ⟨hwaits, hsettled⟩ := settled_goto hw
  have hhold : ∀ f, ph.holds = some f → (s.phase th).holds = some f := fun f hf => hh ▸ hf
  exact ⟨h.seqs, h.line.leave (fun th' q hq => holds_goto_seq hhold hq), fun th' f hf => h.held th' f (holds_goto hhold hf),
    h.bytes, hsettled ▸ h.total, fun th' q hq e he hlt hse => h.gate th' q (hwaits ▸ hq) e he hlt (hsettled ▸ hse),
    fun th' f q ts hph => h.timed th' f q ts (timed_goto ht hph), h.stamped, h.queued⟩

/-! ### A frame is settled -/

theorem waits_eq_some : s.waits th' = some q ↔ ∃ f, (s.phase th').waits = some f ∧ f.seq = q :=
  Option.map_eq_some_iff

theorem waits_settle (hp : ph.waits = none) (h : (s.goto th ph).waits th' = some q) :
    th' ≠ th ∧ s.waits th' = some q := by
  rw [waits, phase_goto] at h
  split at h
  · rw [hp] at h
    cases h
  · rename_i hne
    exact ⟨hne, h⟩

/-- When the thread of a frame waits no more, that frame is settled, and no other. -/
theorem settled_settle (h : Ordered s) (hf : (s.phase th).waits = some f) (hp : ph.waits = none) :
    s.settled f.seq = false ∧ (s.goto th ph).settled f.seq = true ∧
    ∀ q, q ≠ f.seq → s.settled q = (s.goto th ph).settled q := by
  have hth : s.waits th = some f.seq := waits_eq_some.2 ⟨f, hf, rfl⟩
  refine ⟨?_, settled_iff.2 (fun th' hw => ?_), fun q hq => Bool.eq_iff_iff.2 ?_⟩
  · refine Bool.eq_false_iff.2 (fun hs => settled_iff.1 hs th hth)
  · -- only one thread holds the frame
    obtain ⟨hne, hw⟩ := waits_settle hp hw
    obtain ⟨g, hg, hgq⟩ := waits_eq_some.1 hw
    exact hne (h.line.distinct th' th f.seq (holds_eq_some.2 ⟨g, RelayPhase.holds_of_waits hg, hgq⟩)
      (holds_eq_some.2 ⟨f, RelayPhase.holds_of_waits hf, rfl⟩))
  · rw [settled_iff, settled_iff]
    refine ⟨fun hs th' hw => hs th' (waits_settle hp hw).2, fun hs th' hw => ?_⟩
    by_cases heq : th' = th
    · subst heq
      rw [hth] at hw
      exact hq (Option.some.inj hw).symm
    · exact hs th' (by rw [waits, phase_goto_ne heq]; exact hw)

theorem Ordered.frame_unique {e : PairedFrame} (h : Ordered s) (hf : f ∈ s.emitted) (he : e ∈ s.emitted)
    (heq : e.seq = f.seq) : e = f :=
  List.inj_on_of_nodup_map h.nodup he hf heq

/-- What settling a frame does to the timestamp and the gate: the frame has no samples, or none waits before it. -/
theorem Ordered.settle (h : Ordered s) (hf : (s.phase th).waits = some f) (hp : ph.waits = none)
    (hmin : f.samplesPerChannel = 0 ∨ Turns.smallest RelayThread.all s.waits f.seq = true) :
    samplesOf (s.goto th ph).settled s.emitted = s.client.tsCounter + f.samplesPerChannel ∧
    ∀ th' q, (s.goto th ph).waits th' = some q → ∀ e ∈ s.emitted, q < e.seq → (s.goto th ph).settled e.seq = true →
      e.samplesPerChannel = 0 := by
  have hmem := h.held th f (RelayPhase.holds_of_waits hf)
  obtain ⟨hnot, hnow, hother⟩ := settled_settle h hf hp
  refine ⟨?_, fun th' q hq e he hlt hse => ?_⟩
  · rw [samplesOf_insert h.nodup hmem hnot hnow hother, h.total]
  · obtain ⟨-, hq⟩ := waits_settle hp hq
    by_cases heq : e.seq = f.seq
    · rcases hmin with hzero | hmin
      · rw [h.frame_unique hmem he heq, hzero]
      · have := Turns.le_of_smallest hmin (RelayThread.mem_all th') hq
        omega
    · exact h.gate th' q hq e he hlt (hother _ heq ▸ hse)

/-- `FlushPairedFrame` drops an empty frame. -/
theorem Ordered.skip (h : Ordered s) (hph : s.phase th = .paired f) (hempty : f.samplesPerChannel = 0) :
    Ordered (s.goto th .idle) := by
  have hf : (s.phase th).waits = some f := by rw [hph]; rfl
  have hidle : RelayPhase.idle.waits = none := rfl
  obtain ⟨htotal, hgate⟩ := h.settle hf hidle (.inl hempty)
  rw [hempty] at htotal
  exact ⟨h.seqs, h.line.leave (fun th' q hq => holds_goto_seq holds_idle hq),
    fun th' g hg => h.held th' g (holds_goto holds_idle hg), h.bytes, htotal.symm, hgate,
    fun th' g q ts hg => h.timed th' g q ts (timed_goto not_timed_idle hg), h.stamped, h.queued⟩

/-- With nobody waiting before it, the settled samples are those before a waiting frame. -/
theorem Ordered.before (h : Ordered s) (hf : (s.phase th).waits = some f)
    (hmin : Turns.smallest RelayThread.all s.waits f.seq = true) :
    s.client.tsCounter = samplesBefore s.emitted f.seq := by
  rw [h.total]
  have hth : s.waits th = some f.seq := waits_eq_some.2 ⟨f, hf, rfl⟩
  refine samplesOf_congr (fun e he => ?_)
  rcases Nat.lt_trichotomy e.seq f.seq with hlt | heq | hgt
  · refine .inl ((settled_iff.2 (fun th' hw => ?_)).trans (decide_eq_true hlt).symm)
    have := Turns.le_of_smallest hmin (RelayThread.mem_all th') hw
    omega
  · refine .inl ((Bool.eq_false_iff.2 (fun hs => ?_)).trans (decide_eq_false (by omega)).symm)
    exact settled_iff.1 hs th (heq ▸ hth)
  · cases hs : s.settled e.seq with
    | true => exact .inr (h.gate th f.seq hth e he hgt hs)
    | false => exact .inl (decide_eq_false (by omega)).symm

theorem Ordered.advanceTimestamp (h : Ordered s) (hph : s.phase th = .numbered f q)
    (hwrap : s.client.tsCounter + f.samplesPerChannel < 2 ^ 64)
    (hmin : Turns.smallest RelayThread.all s.waits f.seq = true) :
    Ordered { s.goto th (.timed f q s.client.tsCounter) with
      client := s.client.advanceTimestamp f.samplesPerChannel } := by
  have hf : (s.phase th).waits = some f := by rw [hph]; rfl
  have hts : (s.client.advanceTimestamp f.samplesPerChannel).tsCounter = s.client.tsCounter + f.samplesPerChannel :=
    Nat.mod_eq_of_lt hwrap
  have hdone : (RelayPhase.timed f q s.client.tsCounter).waits = none := rfl
  obtain ⟨htotal, hgate⟩ := h.settle hf hdone (.inr hmin)
  have hhold : ∀ g, (RelayPhase.timed f q s.client.tsCounter).holds = some g → (s.phase th).holds = some g :=
    fun g hg => by rw [hph]; exact hg
  refine ⟨h.seqs, h.line.leave (fun th' p hp => holds_goto_seq hhold hp),
    fun th' g hg => h.held th' g (holds_goto hhold hg), h.bytes, hts.trans htotal.symm, hgate, fun th' g p ts hg => ?_,
    h.stamped, h.queued⟩
  change (s.goto th _).phase th' = _ at hg
  rw [phase_goto] at hg
  split at hg
  · cases hg
    exact h.before hf hmin
  · exact h.timed th' g p ts hg

/-! ### A frame is emitted, or sent -/

theorem waits_emit : (s.goto th (.paired f)).waits th = some f.seq := by
  rw [waits, phase_goto_self]
  rfl

theorem settled_emit (h : Ordered s) (hph : (s.phase th).holds = none) (hseq : f.seq = s.pairer.seq) :
    (s.goto th (.paired f)).settled f.seq = false ∧
    ∀ e ∈ s.emitted, (s.goto th (.paired f)).settled e.seq = s.settled e.seq := by
  have hnone : s.waits th = none := by
    cases hw : (s.phase th).waits with
    | none => rw [waits, hw]; rfl
    | some g => rw [RelayPhase.holds_of_waits hw] at hph; cases hph
  refine ⟨Bool.eq_false_iff.2 (fun hs => settled_iff.1 hs th waits_emit), fun e he => Bool.eq_iff_iff.2 ?_⟩
  have hlt := h.seq_lt he
  rw [settled_iff, settled_iff]
  refine forall_congr' (fun th' => ?_)
  by_cases heq : th' = th
  · subst heq
    rw [waits_emit, hnone]
    exact ⟨nofun, fun _ hq => by have := Option.some.inj hq; omega⟩
  · rw [waits, phase_goto_ne heq, waits]

theorem Ordered.emit {p : StereoFramePairer} (h : Ordered s) (hph : (s.phase th).holds = none)
    (hseq : f.seq = s.pairer.seq) (hnext : p.seq = s.pairer.seq + 1)
    (hbytes : f.interleaved = [] → f.samplesPerChannel = 0) :
    Ordered { s.goto th (.paired f) with pairer := p, emitted := s.emitted ++ [f] } := by
  obtain ⟨hnew, hold⟩ := settled_emit h hph hseq
  refine ⟨?_, ?_, fun th' g hg => ?_, fun g hg => ?_, ?_, fun th' q hq e he hlt hse => ?_, fun th' g q ts hg => ?_,
    fun x hx => ?_, h.queued⟩
  · change (s.emitted ++ [f]).map (·.seq) = List.range p.seq
    rw [List.map_append, h.seqs, hnext, List.range_succ, List.map_singleton, hseq]
  · change Turns (s.sent.map (·.1.seq)) (s.goto th (.paired f)).holds p.seq
    rw [hnext]
    refine h.line.draw (i := th) ?_ (fun th' hne => by rw [holds, phase_goto_ne hne, holds])
    rw [holds, phase_goto_self, ← hseq]
    rfl
  · change ((s.goto th (.paired f)).phase th').holds = some g at hg
    rw [phase_goto] at hg
    split at hg
    · cases hg
      exact List.mem_append_right _ (List.mem_singleton_self _)
    · exact List.mem_append_left _ (h.held th' g hg)
  · rcases List.mem_append.1 hg with hg | hg
    · exact h.bytes g hg
    · cases List.mem_singleton.1 hg
      exact hbytes
  · change s.client.tsCounter = samplesOf (s.goto th (.paired f)).settled (s.emitted ++ [f])
    rw [samplesOf_append, samplesOf_cons, hnew, if_neg Bool.false_ne_true, samplesOf_nil, h.total]
    exact samplesOf_congr (fun e he => .inl (hold e he).symm)
  · change (s.goto th (.paired f)).waits th' = some q at hq
    change (s.goto th (.paired f)).settled e.seq = true at hse
    rcases List.mem_append.1 he with he | he
    · have hbelow := h.seq_lt he
      rw [hold e he] at hse
      by_cases heq : th' = th
      · subst heq
        rw [waits_emit] at hq
        have := Option.some.inj hq
        omega
      · rw [waits, phase_goto_ne heq] at hq
        exact h.gate th' q hq e he hlt hse
    · cases List.mem_singleton.1 he
      rw [hnew] at hse
      cases hse
  · have hpaired : ∀ g q ts, RelayPhase.paired f ≠ .timed g q ts := nofun
    have hg := timed_goto hpaired hg
    have hlt := h.seq_lt (h.held th' g (by rw [hg]; rfl))
    rw [samplesBefore_append (by omega)]
    exact h.timed th' g q ts hg
  · obtain ⟨hmem, hts⟩ := h.stamped x hx
    have hlt := h.seq_lt hmem
    rw [samplesBefore_append (by omega)]
    exact ⟨List.mem_append_left _ hmem, hts⟩

theorem Ordered.send {ts : Nat} (h : Ordered s) (hph : s.phase th = .timed f q ts)
    (hmin : Turns.smallest RelayThread.all s.holds f.seq = true) : Ordered (s.send th f (s.audioFrame f q ts)) := by
  have hidle : RelayPhase.idle.waits = (s.phase th).waits := by rw [hph]; rfl
  obtain ⟨hwaits, hsettled⟩ := settled_goto hidle
  have hf : (s.phase th).holds = some f := by rw [hph]; rfl
  have hmem := h.held th f hf
  refine ⟨h.seqs, ?_, fun th' g hg => h.held th' g (holds_goto holds_idle hg), h.bytes, ?_,
    fun th' p hp e he hlt hse => h.gate th' p (hwaits ▸ hp) e he hlt (hsettled ▸ hse),
    fun th' g p ts' hg => h.timed th' g p ts' (timed_goto not_timed_idle hg), fun x hx => ?_, ?_⟩
  · change Turns (List.map _ (if s.client.takes _ then _ else _)) (s.goto th .idle).holds s.pairer.seq
    split
    · rw [List.map_append, List.map_singleton]
      exact h.line.pass (i := th) (holds_eq_some.2 ⟨f, hf, rfl⟩)
        (fun th' _ hp => Turns.le_of_smallest hmin (RelayThread.mem_all th') hp)
        (by rw [holds, phase_goto_self]; rfl) (fun th' hne => by rw [holds, phase_goto_ne hne, holds])
    · exact h.line.leave (fun th' p hp => holds_goto_seq holds_idle hp)
  · change (s.client.sendAudio _).tsCounter = samplesOf (s.goto th .idle).settled s.emitted
    rw [hsettled, (s.client.sendAudio_counters _).2, h.total]
  · change x ∈ (if s.client.takes _ then _ else _) at hx
    split at hx
    · rcases List.mem_append.1 hx with hx | hx
      · exact h.stamped x hx
      · cases List.mem_singleton.1 hx
        exact ⟨hmem, h.timed th f q ts hph⟩
    · exact h.stamped x hx
  · change List.map _ (if s.client.takes _ then _ else _) = (s.client.sendAudio _).queued
    rw [StreamClient.queued_sendAudio]
    split
    · rw [List.map_append, h.queued, List.map_singleton]
    · exact h.queued

end goto

theorem Ordered.callPairer {th : RelayThread} {a : PairAct} (h : Ordered s) (hw : (s.phase th).holds = none)
    (hwrap : s.pairer.seq + 1 < 2 ^ 64) : Ordered (s.callPairer th a) := by
  have hwaits : (s.phase th).waits = none := by
    cases hw' : (s.phase th).waits with
    | none => rfl
    | some g => rw [RelayPhase.holds_of_waits hw'] at hw; cases hw
  unfold RecordingRelay.callPairer
  rcases s.pairer.call_cases a with ⟨hnone, hseq⟩ | ⟨e, hsome, hframe, hnext, hbytes⟩
  · rw [hnone]
    have hi : Ordered (s.goto th .idle) := h.goto hwaits.symm hw.symm nofun
    exact ⟨hi.seqs.trans (congrArg List.range hseq.symm), hseq ▸ hi.line, hi.held, hi.bytes, hi.total, hi.gate, hi.timed,
      hi.stamped, hi.queued⟩
  · rw [hsome]
    exact h.emit hw hframe (hnext.trans (Nat.mod_eq_of_lt hwrap)) hbytes

theorem pairCall_holds {th : RelayThread} {arrivedAt now : Int} {a : PairAct}
    (h : s.pairCall th arrivedAt now = some a) : (s.phase th).holds = none := by
  unfold pairCall at h
  split at h
  · rename_i hph
    rw [hph]
    rfl
  · rename_i hph
    rw [hph]
    rfl
  · cases h

theorem Ordered.step {s' : RecordingRelay c} {act : RelayAct} (h : Ordered s) (hg : s.inTurn act = true)
    (hs : s.step act = some s') : Ordered s' := by
  cases act with
  | push side ts samples =>
    simp only [RecordingRelay.step] at hs
    split at hs
    · rename_i hph
      split at hs <;> cases hs
      · exact h
      · exact h.goto (by rw [hph]; rfl) (by rw [hph]; rfl) nofun
    · cases hs
  | tick =>
    simp only [RecordingRelay.step] at hs
    split at hs
    · rename_i hph
      split at hs <;> cases hs
      exact h.goto (by rw [hph]; rfl) (by rw [hph]; rfl) nofun
    · cases hs
  | call th arrivedAt now =>
    obtain ⟨a, ha, rfl⟩ := Option.map_eq_some_iff.1 hs
    exact h.callPairer (pairCall_holds ha) (of_decide_eq_true hg)
  | nextSeq th =>
    simp only [RecordingRelay.step] at hs
    split at hs
    · rename_i f hph
      have hmem := h.held th f (by rw [hph]; rfl)
      split at hs <;> cases hs
      · rename_i hempty
        exact h.skip hph (hempty.elim id (h.bytes f hmem))
      · have hnum : Ordered (s.goto th (.numbered f s.client.seqCounter)) :=
          h.goto (by rw [hph]; rfl) (by rw [hph]; rfl) nofun
        exact hnum.of_client rfl rfl
    · cases hs
  | advanceTimestamp th =>
    simp only [RecordingRelay.step] at hs
    split at hs <;> cases hs
    rename_i f q hph
    simp only [inTurn, hph, Bool.and_eq_true, decide_eq_true_eq] at hg
    exact h.advanceTimestamp hph hg.1 hg.2
  | sendAudio th =>
    simp only [RecordingRelay.step] at hs
    split at hs <;> cases hs
    rename_i f q ts hph
    simp only [inTurn, hph] at hg
    exact h.send hph hg
  | stop =>
    cases hs
    exact ⟨h.seqs, h.line, h.held, h.bytes, h.total, h.gate, h.timed, h.stamped, h.queued⟩
  | close =>
    cases hs
    exact h.of_client rfl rfl
  | control msg =>
    cases hs
    exact h.of_client (s.client.queued_sendControl msg) (s.client.sendControl_counters msg).2
  | writer ok =>
    obtain ⟨k, hk, rfl⟩ := Option.map_eq_some_iff.1 hs
    obtain ⟨hq, -, hts⟩ := StreamClient.queued_writerStep hk
    exact h.of_client hq hts

/-- **Recorded audio leaves in pairing order**: in every run in which no thread overtakes another between the pairer
and the send ring, the frames enter the ring in the order of their pairer seqs, each with the samples per channel of
all frames before it as its timestamp. -/
theorem recorded_in_pairing_order (h : 0 < c) (cfg : PairerConfig) (as : List RelayAct) (s : RecordingRelay c)
    (hrun : Run.exec step as (init h cfg) = some s) (hguard : Run.along step inTurn as (init h cfg) = true) :
    s.sent.map Prod.snd = s.client.queued ∧
    (s.sent.map (·.1.seq)).Pairwise (· < ·) ∧
    ∀ x ∈ s.sent, x.1 ∈ s.emitted ∧ x.2.timestampSamples = samplesBefore s.emitted x.1.seq := by
  have ho := Run.exec_inv_along (fun _ _ _ hi hg hs => Ordered.step hi hg hs) as _ s (ordered_init h cfg) hguard hrun
  exact ⟨ho.queued, ho.line.sorted, ho.stamped⟩

/-- The right tap gets a pair back and the left tap pushes one frame more, which the tick thread emits alone when it has
waited long enough; then the threads of `flush` go through `FlushPairedFrame` one after the other. -/
def twoFlushes (flush : List RelayThread) : List RelayAct :=
  [.push .left 0 [1], .call (.tap .left) 0 0, .push .right 0 [2], .call (.tap .right) 0 0,
    .push .left 160 [3], .call (.tap .left) 0 0, .tick, .call .tick 0 26000000]
  ++ flush.flatMap (fun th => [.nextSeq th, .advanceTimestamp th, .sendAudio th])

theorem recorded_in_pairing_order_twoFlushes :
    (Run.exec step (twoFlushes [.tap .right, .tick]) (init (c := 256) (by decide) ⟨8000, 5, 25⟩)).map
        (fun s => s.sent.map (fun x => (x.1.seq, x.2.timestampSamples)))
      = some [(0, 0), (1, 1)] ∧
    ∀ s, Run.exec step (twoFlushes [.tap .right, .tick]) (init (c := 256) (by decide) ⟨8000, 5, 25⟩) = some s →
      s.sent.map Prod.snd = s.client.queued ∧
      (s.sent.map (·.1.seq)).Pairwise (· < ·) ∧
      ∀ x ∈ s.sent, x.1 ∈ s.emitted ∧ x.2.timestampSamples = samplesBefore s.emitted x.1.seq :=
  ⟨by decide +kernel, fun s hs =>
    recorded_in_pairing_order (by decide) ⟨8000, 5, 25⟩ (twoFlushes [.tap .right, .tick]) s hs (by decide +kernel)⟩

/-- The tick thread flushes first: frame 1 enters the ring before frame 0, with its timestamp. -/
theorem twoFlushes_overtaken :
    (Run.exec step (twoFlushes [.tick, .tap .right]) (init (c := 256) (by decide) ⟨8000, 5, 25⟩)).map
        (fun s => s.client.queued.map (fun f => (f.samples, f.timestampSamples)))
      = some [([3, 0], 0), ([1, 2], 1)] ∧
    (Run.exec step (twoFlushes [.tick, .tap .right]) (init (c := 256) (by decide) ⟨8000, 5, 25⟩)).map
        (fun s => s.sent.map (fun x => (x.1.seq, x.2.timestampSamples)))
      = some [(1, 0), (0, 1)] := by
  decide +kernel

end RecordingRelay
end Media
end Osw
