import OpenSwitch.CallTable
import OpenSwitch.Run
import OpenSwitch.StreamClient
import OpenSwitch.Turns
/-!
# BotUpstream — what a bot hears, sent upstream (`BotSession::OnTargetReadFrame`)

The read callback of every target of a bot takes a seq, a timestamp and a place in the send ring of the bot's one
stream, in three separate accesses.  Over any interleaving of any number of callbacks the frames go upstream in seq
order, with timestamps that never go back, exactly as far as each of the three is taken in the order of the first
(`upstream_in_order`).  One callback after another, a frame's timestamp counts the samples of every target, not of its
own (`timestamp_step_iff`).
-/
namespace Osw
namespace Media

/-- The arguments of `OnTargetReadFrame`. -/
structure ReadFrame where
  channelUuid  : Bytes
  samples      : List Sample
  sampleRateHz : Nat
  channels     : Nat
  deriving DecidableEq, Repr

namespace ReadFrame

def safeChannels (a : ReadFrame) : Nat := max a.channels 1

/-- What the timestamp is advanced by. -/
def advance (a : ReadFrame) : Nat := a.samples.length / a.safeChannels % 2 ^ 32

def frame (a : ReadFrame) (seq ts : Nat) : AudioFrame :=
  ⟨a.samples, a.sampleRateHz, a.safeChannels, seq, ts, 0, a.channelUuid⟩

theorem frame_duration (a : ReadFrame) (seq ts : Nat) : (a.frame seq ts).durationSamples = a.advance := by
  have hpos : 0 < a.safeChannels := Nat.lt_of_lt_of_le Nat.one_pos (Nat.le_max_right _ _)
  exact if_pos hpos

end ReadFrame

/-- Where a call of `OnTargetReadFrame` is. -/
inductive ReadCall
  | entered (a : ReadFrame)
  | numbered (a : ReadFrame) (seq : Nat)
  | timed (a : ReadFrame) (seq ts : Nat)
  deriving DecidableEq, Repr

namespace ReadCall

/-- The seq of a call that has no timestamp yet. -/
def waits : ReadCall → Option Nat
  | .numbered _ q => some q
  | _ => none

/-- The seq of a call that has not sent its frame. -/
def holds : ReadCall → Option Nat
  | .numbered _ q | .timed _ q _ => some q
  | .entered _ => none

end ReadCall

/-- A bot's stream and the calls in progress.  `stamps` is a history: seq and timestamp of each call, in the order in
which the timestamps were taken. -/
structure BotUpstream (c : Nat) where
  stopped : Bool
  client  : StreamClient c
  calls   : AList (fun _ : Nat => ReadCall)
  stamps  : List (Nat × Nat)

inductive BotUpstreamAct
  | enter (n : Nat) (a : ReadFrame)
  | nextSeq (n : Nat)
  | advanceTimestamp (n : Nat)
  | sendAudio (n : Nat)
  | stop
  | close
  | control (msg : Bytes)
  | writer (ok : Bool)
  deriving DecidableEq, Repr

namespace BotUpstream

open CallTable (lookup_insert lookup_erase)

variable {c n : Nat} {s : BotUpstream c} {a : ReadFrame}

def init (h : 0 < c) : BotUpstream c := ⟨false, .make h, ∅, []⟩

def step (s : BotUpstream c) : BotUpstreamAct → Option (BotUpstream c)
  | .enter n a =>
    if n ∈ s.calls then none
    else if s.stopped ∨ a.samples = [] then some s
    else some { s with calls := s.calls.insert n (.entered a) }
  | .nextSeq n =>
    match s.calls.lookup n with
    | some (.entered a) =>
      some { s with client := s.client.nextSeq, calls := s.calls.insert n (.numbered a s.client.seqCounter) }
    | _ => none
  | .advanceTimestamp n =>
    match s.calls.lookup n with
    | some (.numbered a q) =>
      some { s with
        client := s.client.advanceTimestamp a.advance
        calls := s.calls.insert n (.timed a q s.client.tsCounter)
        stamps := s.stamps ++ [(q, s.client.tsCounter)] }
    | _ => none
  | .sendAudio n =>
    match s.calls.lookup n with
    | some (.timed a q ts) => some { s with client := s.client.sendAudio (a.frame q ts), calls := s.calls.erase n }
    | _ => none
  | .stop => some { s with stopped := true }
  | .close => some { s with client := s.client.close }
  | .control msg => some { s with client := s.client.sendControl msg }
  | .writer ok => (s.client.writerStep ok).map (fun k => { s with client := k })

def waits (s : BotUpstream c) (n : Nat) : Option Nat := (s.calls.lookup n).bind ReadCall.waits

def holds (s : BotUpstream c) (n : Nat) : Option Nat := (s.calls.lookup n).bind ReadCall.holds

/-- Timestamps are taken, and frames sent, in the order of the seqs; and no counter wraps. -/
def inTurn (s : BotUpstream c) : BotUpstreamAct → Bool
  | .nextSeq _ => decide (s.client.seqCounter + 1 < 2 ^ 64)
  | .advanceTimestamp n =>
    match s.calls.lookup n with
    | some (.numbered a q) => decide (s.client.tsCounter + a.advance < 2 ^ 64) && Turns.smallest s.calls.keys s.waits q
    | _ => true
  | .sendAudio n =>
    match s.calls.lookup n with
    | some (.timed _ q _) => Turns.smallest s.calls.keys s.holds q
    | _ => true
  | _ => true

theorem mem_keys_of_bind {of : ReadCall → Option Nat} {p : Nat} (hp : (s.calls.lookup n).bind of = some p) :
    n ∈ s.calls.keys := by
  obtain ⟨call, hl, -⟩ := Option.bind_eq_some_iff.1 hp
  exact AList.mem_keys.1 (AList.lookup_isSome.1 (by rw [hl]; rfl))

/-! ## Order -/

/-- Both gates are passed in turn, and timestamps rise with the seqs. -/
structure Ordered (s : BotUpstream c) : Prop where
  sound  : s.client.Sound
  gate   : Turns (s.stamps.map Prod.fst) s.waits s.client.seqCounter
  line   : Turns (s.client.queued.map (·.seq)) s.holds s.client.seqCounter
  rising : s.stamps.Pairwise (fun x y => x.2 ≤ y.2)
  top    : ∀ x ∈ s.stamps, x.2 ≤ s.client.tsCounter
  timed  : ∀ n a q ts, s.calls.lookup n = some (.timed a q ts) → (q, ts) ∈ s.stamps
  queued : ∀ f ∈ s.client.queued, (f.seq, f.timestampSamples) ∈ s.stamps

theorem ordered_init (h : 0 < c) : Ordered (init h) :=
  ⟨StreamClient.sound_make h, .start (fun _ => rfl), .start (fun _ => rfl), .nil, nofun, nofun, nofun⟩

theorem Ordered.of_client (h : Ordered s) {k : StreamClient c} (hk : k.Sound) (hq : k.queued = s.client.queued)
    (hseq : k.seqCounter = s.client.seqCounter) (hts : k.tsCounter = s.client.tsCounter) :
    Ordered { s with client := k } :=
  ⟨hk, hseq ▸ h.gate, by rw [hseq, hq]; exact h.line, h.rising, fun x hx => hts ▸ h.top x hx, h.timed,
    fun f hf => h.queued f (hq ▸ hf)⟩

theorem Ordered.enter (h : Ordered s) (a : ReadFrame) : Ordered { s with calls := s.calls.insert n (.entered a) } := by
  refine ⟨h.sound, h.gate.leave (fun m q hq => ?_), h.line.leave (fun m q hq => ?_), h.rising, h.top,
    fun m b q ts hm => ?_, h.queued⟩
  · rw [waits, lookup_insert] at hq
    split at hq
    · cases hq
    · exact hq
  · rw [holds, lookup_insert] at hq
    split at hq
    · cases hq
    · exact hq
  · rw [lookup_insert] at hm
    split at hm
    · cases hm
    · exact h.timed m b q ts hm

theorem Ordered.nextSeq (h : Ordered s) (hg : s.client.seqCounter + 1 < 2 ^ 64) :
    Ordered { s with client := s.client.nextSeq, calls := s.calls.insert n (.numbered a s.client.seqCounter) } := by
  have hnext : s.client.nextSeq.seqCounter = s.client.seqCounter + 1 := Nat.mod_eq_of_lt hg
  refine ⟨h.sound.of_same rfl rfl rfl, ?_, ?_, h.rising, h.top, fun m b q ts hm => ?_, h.queued⟩
  · change Turns _ _ s.client.nextSeq.seqCounter
    rw [hnext]
    exact h.gate.draw (i := n) (by rw [waits, lookup_insert, if_pos rfl]; rfl)
      (fun m hm => by rw [waits, lookup_insert, if_neg hm, waits])
  · change Turns _ _ s.client.nextSeq.seqCounter
    rw [hnext]
    exact h.line.draw (i := n) (by rw [holds, lookup_insert, if_pos rfl]; rfl)
      (fun m hm => by rw [holds, lookup_insert, if_neg hm, holds])
  · rw [lookup_insert] at hm
    split at hm
    · cases hm
    · exact h.timed m b q ts hm

theorem Ordered.advanceTimestamp (h : Ordered s) {q : Nat} (hc : s.calls.lookup n = some (.numbered a q))
    (hwrap : s.client.tsCounter + a.advance < 2 ^ 64) (hmin : Turns.smallest s.calls.keys s.waits q = true) :
    Ordered { s with
      client := s.client.advanceTimestamp a.advance
      calls := s.calls.insert n (.timed a q s.client.tsCounter)
      stamps := s.stamps ++ [(q, s.client.tsCounter)] } := by
  have hts : (s.client.advanceTimestamp a.advance).tsCounter = s.client.tsCounter + a.advance := Nat.mod_eq_of_lt hwrap
  refine ⟨h.sound.of_same rfl rfl rfl, ?_, h.line.leave (fun m p hp => ?_), ?_, fun x hx => ?_, fun m b p ts hm => ?_,
    fun f hf => List.mem_append_left _ (h.queued f hf)⟩
  · rw [List.map_append, List.map_singleton]
    exact h.gate.pass (i := n) (by rw [waits, hc]; rfl) (fun m p hp => Turns.le_of_smallest hmin (mem_keys_of_bind hp) hp)
      (by rw [waits, lookup_insert, if_pos rfl]; rfl) (fun m hm => by rw [waits, lookup_insert, if_neg hm, waits])
  · rw [holds, lookup_insert] at hp
    split at hp
    · rename_i hmn
      rw [hmn, holds, hc]
      exact hp
    · exact hp
  · refine List.pairwise_append.2 ⟨h.rising, List.pairwise_singleton _ _, fun x hx y hy => ?_⟩
    cases List.mem_singleton.1 hy
    exact h.top x hx
  · change x.2 ≤ (s.client.advanceTimestamp a.advance).tsCounter
    rw [hts]
    rcases List.mem_append.1 hx with hx | hx
    · exact (h.top x hx).trans (Nat.le_add_right _ _)
    · cases List.mem_singleton.1 hx
      exact Nat.le_add_right _ _
  · rw [lookup_insert] at hm
    split at hm
    · cases hm
      exact List.mem_append_right _ (List.mem_singleton_self _)
    · exact List.mem_append_left _ (h.timed m b p ts hm)

theorem Ordered.sendAudio (h : Ordered s) {q ts : Nat} (hc : s.calls.lookup n = some (.timed a q ts))
    (hmin : Turns.smallest s.calls.keys s.holds q = true) :
    Ordered { s with client := s.client.sendAudio (a.frame q ts), calls := s.calls.erase n } := by
  obtain ⟨hseq, hts⟩ := s.client.sendAudio_counters (a.frame q ts)
  have herase : ∀ {of : ReadCall → Option Nat} {m p : Nat}, ((s.calls.erase n).lookup m).bind of = some p →
      (s.calls.lookup m).bind of = some p := fun {of m p} hp => by
    rw [lookup_erase] at hp
    split at hp
    · cases hp
    · exact hp
  refine ⟨h.sound.sendAudio _, ?_, ?_, h.rising, fun x hx => ?_, fun m b p ts' hm => ?_, fun f hf => ?_⟩
  · change Turns _ _ (s.client.sendAudio (a.frame q ts)).seqCounter
    rw [hseq]
    exact h.gate.leave (fun m p hp => herase hp)
  · change Turns ((s.client.sendAudio (a.frame q ts)).queued.map _) _ (s.client.sendAudio (a.frame q ts)).seqCounter
    rw [hseq, StreamClient.queued_sendAudio]
    split
    · rw [List.map_append, List.map_singleton]
      exact h.line.pass (i := n) (by rw [holds, hc]; rfl) (fun m p hp => Turns.le_of_smallest hmin (mem_keys_of_bind hp) hp)
        (by rw [holds, lookup_erase, if_pos rfl]; rfl) (fun m hm => by rw [holds, lookup_erase, if_neg hm, holds])
    · exact h.line.leave (fun m p hp => herase hp)
  · change x.2 ≤ (s.client.sendAudio (a.frame q ts)).tsCounter
    rw [hts]
    exact h.top x hx
  · rw [lookup_erase] at hm
    split at hm
    · cases hm
    · exact h.timed m b p ts' hm
  · change f ∈ (s.client.sendAudio (a.frame q ts)).queued at hf
    rw [StreamClient.queued_sendAudio] at hf
    split at hf
    · rcases List.mem_append.1 hf with hf | hf
      · exact h.queued f hf
      · cases List.mem_singleton.1 hf
        exact h.timed n a q ts hc
    · exact h.queued f hf

theorem Ordered.step {s' : BotUpstream c} {act : BotUpstreamAct} (h : Ordered s) (hg : s.inTurn act = true)
    (hs : s.step act = some s') : Ordered s' := by
  cases act with
  | enter n a =>
    simp only [BotUpstream.step] at hs
    split at hs
    · cases hs
    · split at hs <;> cases hs
      · exact h
      · exact h.enter a
  | nextSeq n =>
    simp only [BotUpstream.step] at hs
    split at hs <;> cases hs
    exact h.nextSeq (of_decide_eq_true hg)
  | advanceTimestamp n =>
    simp only [BotUpstream.step] at hs
    split at hs <;> cases hs
    rename_i a q hc
    simp only [inTurn, hc, Bool.and_eq_true, decide_eq_true_eq] at hg
    exact h.advanceTimestamp hc hg.1 hg.2
  | sendAudio n =>
    simp only [BotUpstream.step] at hs
    split at hs <;> cases hs
    rename_i a q ts hc
    simp only [inTurn, hc] at hg
    exact h.sendAudio hc hg
  | stop =>
    cases hs
    exact ⟨h.sound, h.gate, h.line, h.rising, h.top, h.timed, h.queued⟩
  | close =>
    cases hs
    exact h.of_client (h.sound.of_same rfl rfl rfl) rfl rfl rfl
  | control msg =>
    cases hs
    obtain ⟨hseq, hts⟩ := s.client.sendControl_counters msg
    exact h.of_client (h.sound.sendControl msg) (s.client.queued_sendControl msg) hseq hts
  | writer ok =>
    obtain ⟨k, hk, rfl⟩ := Option.map_eq_some_iff.1 hs
    obtain ⟨hq, hseq, hts⟩ := StreamClient.queued_writerStep hk
    exact h.of_client (h.sound.writerStep hk) hq hseq hts

/-- In a list sorted by both components, a smaller first is no larger second. -/
theorem snd_le_of_fst_lt {l : List (Nat × Nat)} (h : l.Pairwise (fun x y => x.1 < y.1 ∧ x.2 ≤ y.2)) {x y : Nat × Nat}
    (hx : x ∈ l) (hy : y ∈ l) (hlt : x.1 < y.1) : x.2 ≤ y.2 := by
  obtain ⟨pre, post, rfl⟩ := List.append_of_mem hx
  obtain ⟨_, hpost, hpre⟩ := List.pairwise_append.1 h
  rcases List.mem_append.1 hy with hy | hy
  · have := (hpre y hy x List.mem_cons_self).1
    omega
  · rcases List.mem_cons.1 hy with rfl | hy
    · exact Nat.le_refl _
    · exact ((List.pairwise_cons.1 hpost).1 y hy).2

/-- **Bot audio goes upstream in sequence order**: in every run whose callbacks take their timestamps and send their
frames in the order of their seqs, the frames written have strictly increasing seqs and timestamps that never go back. -/
theorem upstream_in_order (h : 0 < c) (as : List BotUpstreamAct) (s : BotUpstream c)
    (hrun : Run.exec step as (init h) = some s) (hguard : Run.along step inTurn as (init h) = true) :
    (s.client.upstream.map (·.seq)).Pairwise (· < ·) ∧
    (s.client.upstream.map (·.timestampSamples)).Pairwise (· ≤ ·) := by
  have ho := Run.exec_inv_along (fun _ _ _ hi hg hs => Ordered.step hi hg hs) as _ s (ordered_init h) hguard hrun
  have hstamps : s.stamps.Pairwise (fun x y => x.1 < y.1 ∧ x.2 ≤ y.2) :=
    List.Pairwise.and (List.pairwise_map.1 ho.gate.sorted) ho.rising
  have hqueued : s.client.queued.Pairwise (fun f g => f.seq < g.seq) := List.pairwise_map.1 ho.line.sorted
  have hup := hqueued.sublist ho.sound.upstream_sublist
  refine ⟨List.pairwise_map.2 hup, List.pairwise_map.2 (hup.imp_of_mem (fun {f g} hf hg hlt => ?_))⟩
  exact snd_le_of_fst_lt hstamps (ho.queued f (ho.sound.upstream_sublist.subset hf))
    (ho.queued g (ho.sound.upstream_sublist.subset hg)) hlt

/-- Two targets' callbacks, each with a frame of one sample; `order` is who sends first, and the writer writes both. -/
def twoReads (first second : Nat) : List BotUpstreamAct :=
  [.enter 0 ⟨[97], [1], 8000, 1⟩, .enter 1 ⟨[98], [2], 8000, 1⟩, .nextSeq 0, .nextSeq 1, .advanceTimestamp 0,
    .advanceTimestamp 1, .sendAudio first, .sendAudio second, .writer true, .writer true, .writer true, .writer true]

theorem upstream_in_order_twoReads :
    (Run.exec step (twoReads 0 1) (init (c := 256) (by decide))).map (fun s => s.client.upstream.map (·.seq))
      = some [0, 1] ∧
    ∀ s, Run.exec step (twoReads 0 1) (init (c := 256) (by decide)) = some s →
      (s.client.upstream.map (·.seq)).Pairwise (· < ·) ∧
      (s.client.upstream.map (·.timestampSamples)).Pairwise (· ≤ ·) :=
  ⟨by decide +kernel, fun s hs => upstream_in_order (by decide) (twoReads 0 1) s hs (by decide +kernel)⟩

/-- The callback that drew seq 1 sends first: seq and timestamp go back on the wire. -/
theorem twoReads_out_of_order :
    (Run.exec step (twoReads 1 0) (init (c := 256) (by decide))).map (fun s =>
        s.client.upstream.map (fun f => (f.seq, f.timestampSamples)))
      = some [(1, 1), (0, 0)] := by
  decide +kernel

/-! ## One call after another -/

/-- `OnTargetReadFrame`, uninterrupted. -/
def onTargetReadFrame (s : BotUpstream c) (a : ReadFrame) : BotUpstream c :=
  if s.stopped ∨ a.samples = [] then s
  else
    { s with
      client := (s.client.nextSeq.advanceTimestamp a.advance).sendAudio (a.frame s.client.seqCounter s.client.tsCounter)
      stamps := s.stamps ++ [(s.client.seqCounter, s.client.tsCounter)] }

theorem exec_onTargetReadFrame (s : BotUpstream c) (n : Nat) (a : ReadFrame) (h : s.calls = ∅) :
    ∃ as, Run.exec step as s = some (s.onTargetReadFrame a) := by
  have hn : n ∉ s.calls := by
    rw [h]
    exact AList.notMem_empty n
  unfold onTargetReadFrame
  split
  · rename_i hret
    exact ⟨[.enter n a], by simp only [Run.exec, step, if_neg hn, if_pos hret]⟩
  · rename_i hgo
    refine ⟨[.enter n a, .nextSeq n, .advanceTimestamp n, .sendAudio n], ?_⟩
    simp only [Run.exec, step, if_neg hn, if_neg hgo, AList.lookup_insert]
    congr 1
    rw [BotUpstream.mk.injEq]
    refine ⟨rfl, rfl, ?_, rfl⟩
    rw [h]
    refine AList.ext ?_
    change List.kerase n _ = []
    simp

/-- Every frame carries the durations of all frames before it, in 64 bits. -/
def Timed (l : List AudioFrame) : Prop :=
  ∀ pre f post, l = pre ++ f :: post → f.timestampSamples = (pre.map (·.durationSamples)).sum % 2 ^ 64

theorem Timed.concat {l : List AudioFrame} (h : Timed l) {f : AudioFrame}
    (hf : f.timestampSamples = (l.map (·.durationSamples)).sum % 2 ^ 64) : Timed (l ++ [f]) := by
  intro pre g post heq
  rcases List.eq_nil_or_concat post with rfl | ⟨post, last, rfl⟩
  · obtain ⟨rfl, hfg⟩ := List.append_inj' heq rfl
    cases hfg
    exact hf
  · rw [List.concat_eq_append, ← List.cons_append, ← List.append_assoc] at heq
    exact h pre g post (List.append_inj' heq rfl).1

/-- Of an open stream: the timestamp counter and every frame count what was sent before. -/
structure Counted (s : BotUpstream c) : Prop where
  running : s.stopped = false ∧ s.client.ringClosed = false
  counter : s.client.tsCounter = (s.client.queued.map (·.durationSamples)).sum % 2 ^ 64
  timed   : Timed s.client.queued

theorem counted_init (h : 0 < c) : Counted (init h) := ⟨⟨rfl, rfl⟩, rfl, fun pre f post hp => by cases pre <;> cases hp⟩

theorem Counted.onTargetReadFrame (h : Counted s) (a : ReadFrame) : Counted (s.onTargetReadFrame a) := by
  unfold BotUpstream.onTargetReadFrame
  split
  · exact h
  · rename_i hgo
    have hne : a.samples ≠ [] := fun he => hgo (.inr he)
    let k := s.client.nextSeq.advanceTimestamp a.advance
    let f := a.frame s.client.seqCounter s.client.tsCounter
    have htakes : k.takes f = true := by
      have hcount : f.sampleCount ≠ 0 := fun h0 => hne (List.length_eq_zero_iff.1 h0)
      have hopen : k.ringClosed = false := h.running.2
      simp only [StreamClient.takes, hopen, Bool.not_false, Bool.and_true, decide_eq_true_eq]
      exact hcount
    have hqueued : (k.sendAudio f).queued = s.client.queued ++ [f] := by
      rw [StreamClient.queued_sendAudio, if_pos htakes]
      rfl
    have hts : (k.sendAudio f).tsCounter = (s.client.tsCounter + a.advance) % 2 ^ 64 := (k.sendAudio_counters f).2
    have hclosed : (k.sendAudio f).ringClosed = s.client.ringClosed := by
      rw [StreamClient.sendAudio, if_pos htakes]
      rfl
    refine ⟨⟨h.running.1, hclosed.trans h.running.2⟩, ?_, ?_⟩
    · change (k.sendAudio f).tsCounter = ((k.sendAudio f).queued.map _).sum % 2 ^ 64
      rw [hts, hqueued, List.map_append, List.sum_append, List.map_singleton, List.sum_singleton, h.counter,
        ReadFrame.frame_duration]
      omega
    · change Timed (k.sendAudio f).queued
      rw [hqueued]
      exact h.timed.concat h.counter

theorem counted_calls (h : 0 < c) (calls : List ReadFrame) : Counted (calls.foldl onTargetReadFrame (init h)) :=
  List.foldlRecOn calls _ (counted_init h) (fun _ hs a _ => hs.onTargetReadFrame a)

/-- **A target's timestamps count the audio of all targets**: two consecutive frames of one target are apart by the
duration of the earlier one exactly when the frames of the other targets sent in between have no duration together. -/
theorem timestamp_step_iff (h : 0 < c) (calls : List ReadFrame) (pre mid post : List AudioFrame) (f g : AudioFrame)
    (hq : (calls.foldl onTargetReadFrame (init h)).client.queued = pre ++ f :: (mid ++ g :: post))
    (_hsame : g.channelUuid = f.channelUuid) (_hmid : ∀ x ∈ mid, x.channelUuid ≠ f.channelUuid) :
    g.timestampSamples = (f.timestampSamples + f.durationSamples) % 2 ^ 64 ↔
      (mid.map (·.durationSamples)).sum % 2 ^ 64 = 0 := by
  have ht := (counted_calls h calls).timed
  have hf := ht pre f (mid ++ g :: post) hq
  have hg := ht (pre ++ f :: mid) g post (by rw [hq, List.append_assoc, List.cons_append])
  rw [hf, hg, List.map_append, List.sum_append, List.map_cons, List.sum_cons]
  omega

/-- One target alone: its frames are apart by their durations. -/
theorem timestamp_step_iff_alone :
    ∃ f g : AudioFrame,
      ([⟨[97], [1, 2], 8000, 1⟩, ⟨[97], [3], 8000, 1⟩].foldl onTargetReadFrame (init (c := 256) (by decide))).client.queued
        = [f, g] ∧
      (g.timestampSamples = (f.timestampSamples + f.durationSamples) % 2 ^ 64 ↔
        (([] : List AudioFrame).map (·.durationSamples)).sum % 2 ^ 64 = 0) := by
  refine ⟨⟨[1, 2], 8000, 1, 0, 0, 0, [97]⟩, ⟨[3], 8000, 1, 1, 2, 0, [97]⟩, by decide +kernel, ?_⟩
  exact timestamp_step_iff (c := 256) (by decide) [⟨[97], [1, 2], 8000, 1⟩, ⟨[97], [3], 8000, 1⟩] [] [] [] _ _
    (by decide +kernel) rfl nofun

/-- A frame of another target in between: the target's second frame is two samples after its first one of one sample. -/
theorem timestamp_counts_other_target :
    ([⟨[97], [1], 8000, 1⟩, ⟨[98], [2], 8000, 1⟩, ⟨[97], [3], 8000, 1⟩].foldl onTargetReadFrame
        (init (c := 256) (by decide))).client.queued.map (fun f => (f.channelUuid, f.timestampSamples, f.durationSamples))
      = [([97], 0, 1), ([98], 1, 1), ([97], 2, 1)] := by
  decide +kernel

end BotUpstream
end Media
end Osw
