import OpenSwitch.Handover
/-!
# ReplayWindow — how far back a client can resume

The ring of a tier is both the buffer a reconnecting client is replayed from and the queue its worker drains.  An
eviction reaches back further than a ring full of entries only (`Lane.Spaced`), but a pop takes an entry out of the
window at once: `replay_window_iff` says that a client that missed at most a ring full of entries is served exactly as
long as the worker popped none of them.
-/
namespace Osw
namespace Events

/-- A replay into an open queue with room for all of it goes through, and every entry it wants is in the queue. -/
theorem replayEntries_room (t : Tier) : ∀ (es : List RingEntry) (f : Feed), f.sub.queue.closed = false →
    f.sub.queue.q.length + es.length ≤ f.sub.queue.capacity →
    (replayEntries t es f).1 = true ∧
    (∀ d ∈ f.log, d ∈ (replayEntries t es f).2.log) ∧
    ∀ e ∈ es, f.sub.filter.wants t e = true → (replayEntries t es f).2.got t e
  | [], f, _, _ => ⟨rfl, fun _ h => h, nofun⟩
  | e :: es, f, hopen, hroom => by
    rw [List.length_cons] at hroom
    unfold replayEntries
    by_cases hw : f.sub.filter.wants t e = true
    · obtain ⟨b, hb⟩ : ∃ b, e.envelopeBytes = some b := by
        cases hb : e.envelopeBytes with
        | none => rw [SubscriberFilter.wants, hb] at hw; cases hw
        | some b => exact ⟨b, rfl⟩
      have hq : f.sub.queue.tryPush b = some { f.sub.queue with q := f.sub.queue.q ++ [b] } := by
        rw [SendQueue.tryPush, if_neg (by rw [hopen]; exact Bool.false_ne_true), if_neg (by omega)]
      have hp : f.tryPush .replay t e = some ⟨{ f.sub with queue := { f.sub.queue with q := f.sub.queue.q ++ [b] } },
          f.log ++ [⟨.replay, t, e⟩], f.written⟩ := by
        rw [Feed.tryPush, hb]
        simp only [hq, Option.map_some]
      obtain ⟨hok, hkeep, hgot⟩ := replayEntries_room t es ⟨{ f.sub with queue := { f.sub.queue with
          q := f.sub.queue.q ++ [b] } }, f.log ++ [⟨.replay, t, e⟩], f.written⟩ hopen
        (by simp only [List.length_append, List.length_singleton]; omega)
      rw [if_pos hw, hp]
      refine ⟨hok, fun d hd => hkeep d (List.mem_append_left _ hd), fun x hx hwx => ?_⟩
      rcases List.mem_cons.1 hx with rfl | hx
      · exact ⟨.replay, hkeep _ (List.mem_append_right _ (List.mem_singleton.2 rfl))⟩
      · exact hgot x hx hwx
    · obtain ⟨hok, hkeep, hgot⟩ := replayEntries_room t es f hopen (by omega)
      rw [if_neg hw]
      refine ⟨hok, hkeep, fun x hx hwx => ?_⟩
      rcases List.mem_cons.1 hx with rfl | hx
      · exact absurd hwx hw
      · exact hgot x hx hwx

namespace Plane

variable {s s' : Plane}

/-- Seqs have 64 bits. -/
structure Bounded (s : Plane) : Prop where
  holds  : ∀ t n q, s.holds t n = some q → q < 2 ^ 64
  pushed : ∀ t, ∀ e ∈ (s.lanes t).pushed, e.seq < 2 ^ 64

theorem bounded_init (m c : Nat) (capacity : Tier → Nat) : Bounded (init m c capacity) := ⟨nofun, fun _ => nofun⟩

theorem Bounded.step {a : PlaneAct} (hb : Bounded s) (h : s.step a = some s') : Bounded s' := by
  refine ⟨fun t n q hq => ?_, fun t e he => ?_⟩
  · rcases step_holds h hq with ⟨hq, _⟩ | ⟨_, rfl⟩
    · exact hb.holds t n q hq
    · exact Nat.mod_lt _ (by decide)
  · rcases step_lanes h t with hl | ⟨n, x, _, hc, hl⟩ | ⟨_, _, hl⟩ | ⟨_, hl⟩ <;> rw [hl] at he
    · exact hb.pushed t e he
    · rcases List.mem_append.1 he with he | he
      · exact hb.pushed t e he
      · cases List.mem_singleton.1 he
        exact hb.holds t n _ (holds_of_built hc)
    · exact hb.pushed t e he
    · exact hb.pushed t e he

/-- The window of one lane: with at most a ring full of entries after a pushed resume point, the resume point is found
exactly when none of them was popped; the successor of the greatest seq is 0, which only an empty ring or a ring that
starts at 0 can answer. -/
theorem found_iff_not_popped {t : Tier} (hl : LaneOk s t) (hb : Bounded s) {sinceSeq : Nat} (hpos : 0 < sinceSeq)
    (hpush : ∃ e ∈ (s.lanes t).pushed, e.seq = sinceSeq)
    (hwindow : ((s.lanes t).pushed.filter (fun e => decide (sinceSeq < e.seq))).length ≤ (s.lanes t).ring.capacity) :
    ((s.lanes t).ring.snapshotFromSeq sinceSeq).foundInWindow = true ↔
      (∀ e ∈ (s.lanes t).popped, e.seq ≤ sinceSeq) ∧
      (sinceSeq + 1 < 2 ^ 64 ∨ ∀ front ∈ (s.lanes t).ring.q.head?, front.seq = 0) := by
  have hlt : sinceSeq < 2 ^ 64 := by
    obtain ⟨e, he, rfl⟩ := hpush
    exact hb.pushed t e he
  constructor
  · intro hf
    refine ⟨fun e he => ?_, ?_⟩
    · obtain ⟨d, hd, rfl⟩ := (Lane.mem_gone_iff (s.lanes t) e).2 (.inr he)
      exact hl.kept.gone_le_of_found hl.inOrder hpos hf hd
    · by_cases h64 : sinceSeq + 1 < 2 ^ 64
      · exact .inl h64
      · refine .inr fun front hfront => ?_
        cases hq : (s.lanes t).ring.q with
        | nil => rw [hq] at hfront; cases hfront
        | cons x rest =>
          rw [hq] at hfront
          cases hfront
          have hle := (Ring.snapshotFromSeq_cons hq hpos).1 hf
          rw [show sinceSeq + 1 = 2 ^ 64 by omega, Nat.mod_self] at hle
          omega
  · rintro ⟨hpop, hedge⟩
    -- an eviction after the resume point would have needed more than a ring full of entries
    have hgone : ∀ d ∈ (s.lanes t).gone, d.entry.seq ≤ sinceSeq := fun d hd => by
      rcases (Lane.mem_gone_iff (s.lanes t) d.entry).1 ⟨d, hd, rfl⟩ with hev | hp
      · by_contra hgt
        have := hl.kept.window_of_evicted hl.inOrder hl.spaced hev (s := sinceSeq) (by omega)
        omega
      · exact hpop _ hp
    rcases hedge with h64 | hfront
    · exact hl.kept.found_of_gone_le hl.inOrder hpos h64 hpush hgone
    · cases hq : (s.lanes t).ring.q with
      | nil =>
        rw [Ring.snapshotFromSeq_nil hq]
        rcases hl.kept.max_mem with h0 | ⟨e, he, hm⟩
        · omega
        · rw [hl.kept.conserved, hq, List.append_nil] at he
          obtain ⟨d, hd, rfl⟩ := List.mem_map.1 he
          have := hgone d hd
          omega
      | cons x rest =>
        rw [Ring.snapshotFromSeq_cons hq hpos, hfront x (by rw [hq]; rfl)]
        exact Nat.zero_le _

/-- **The replay window**: in every run whose entries enter their rings in contiguous seq order, a request for a tier
whose resume point was pushed, with at most a ring full of entries after it and a queue at least as large, is accepted
with every matching one of them in its queue, exactly when the tier's worker popped none of them (and, for the greatest
seq there is, the ring is empty or starts at 0). -/
theorem replay_window_iff (m c : Nat) (capacity : Tier → Nat) (as : List PlaneAct) (s : Plane)
    (hrun : Run.exec step as (init m c capacity) = some s)
    (horder : Run.along step inOrder as (init m c capacity) = true)
    (t : Tier) (sinceSeq : Nat) (hpos : 1 ≤ sinceSeq) (hpush : ∃ e ∈ (s.lanes t).pushed, e.seq = sinceSeq)
    (hwindow : ((s.lanes t).pushed.filter (fun e => decide (sinceSeq < e.seq))).length ≤ (s.lanes t).ring.capacity)
    (f : SubscriberFilter) (queueCapacity : Nat) (hqueue : (s.lanes t).ring.capacity ≤ queueCapacity) :
    ((replaySinceSeq s.ringOf sinceSeq [t] (.make f queueCapacity)).1 = true ∧
      ∀ e ∈ (s.lanes t).pushed, sinceSeq < e.seq → f.wants t e = true →
        (replaySinceSeq s.ringOf sinceSeq [t] (.make f queueCapacity)).2.got t e) ↔
    (∀ e ∈ (s.lanes t).popped, e.seq ≤ sinceSeq) ∧
      (sinceSeq + 1 < 2 ^ 64 ∨ ∀ front ∈ (s.lanes t).ring.q.head?, front.seq = 0) := by
  have hinv : InOrderSound s ∧ Bounded s :=
    Run.exec_inv_along (I := fun x => InOrderSound x ∧ Bounded x)
      (fun _ _ _ hx hg h => ⟨hx.1.step hg h, hx.2.step h⟩) as _ s
      ⟨inOrderSound_init m c capacity, bounded_init m c capacity⟩ horder hrun
  obtain ⟨hs, hb⟩ := hinv
  have hl := hs.lanes t
  have htier : t ≠ .unspecified := by
    rintro rfl
    obtain ⟨e, he, _⟩ := hpush
    rw [hs.untiered.pushed] at he
    cases he
  -- a request for one tier is one look into its ring
  have hreplay : replaySinceSeq s.ringOf sinceSeq [t] (.make f queueCapacity)
      = replayTier (s.lanes t).ring t sinceSeq (.make f queueCapacity) := by
    simp only [replaySinceSeq, ringOf, if_neg htier]
    rcases hx : replayTier (s.lanes t).ring t sinceSeq (.make f queueCapacity) with ⟨_ | _, f'⟩ <;> rfl
  rw [hreplay, ← found_iff_not_popped hl hb hpos hpush hwindow]
  constructor
  · rintro ⟨hok, _⟩
    exact replayTier_found hok
  · intro hf
    have hentries := Ring.snapshotFromSeq_entries hpos hf
    have hroom : ((s.lanes t).ring.snapshotFromSeq sinceSeq).entries.length ≤ queueCapacity := by
      rw [hentries]
      have hsub : ((s.lanes t).ring.q.filter (fun e => decide (sinceSeq < e.seq))).length
          ≤ ((s.lanes t).pushed.filter (fun e => decide (sinceSeq < e.seq))).length := by
        rw [hl.kept.conserved, List.filter_append, List.length_append]
        exact Nat.le_add_left _ _
      omega
    have hcap : (Feed.make f queueCapacity).sub.queue.capacity = queueCapacity := by
      have := (s.lanes t).ring.capacity_pos
      exact if_neg (by omega)
    obtain ⟨hok, _, hgot⟩ := replayEntries_room t _ (.make f queueCapacity) rfl
      (by rw [hcap]; simpa [Feed.make, Subscriber.make, SendQueue.make] using hroom)
    rw [replayTier, if_pos hf]
    refine ⟨hok, fun e he hseq hw => hgot e ?_ hw⟩
    rw [hentries, List.mem_filter]
    refine ⟨?_, decide_eq_true hseq⟩
    rw [hl.kept.conserved] at he
    rcases List.mem_append.1 he with hg | hq
    · obtain ⟨d, hd, rfl⟩ := List.mem_map.1 hg
      have := hl.kept.gone_le_of_found hl.inOrder hpos hf hd
      omega
    · exact hq

/-- Three entries of tier 1 in a ring of four, of which the worker popped the first before the others came. -/
def windowRun : List PlaneAct :=
  [.alloc 0 .critical, .build 0 (some [1]), .push 0, .worker .critical, .worker .critical, .alloc 1 .critical,
    .build 1 (some [2]), .push 1, .alloc 2 .critical, .build 2 (some [3]), .push 2]

theorem replay_window_iff_windowRun :
    (Run.exec step windowRun (init 0 0 (fun _ => 4))).map (fun s =>
        ((s.lanes .critical).pushed.map (·.seq), (s.lanes .critical).popped.map (·.seq))) = some ([1, 2, 3], [1]) ∧
    ∀ s, Run.exec step windowRun (init 0 0 (fun _ => 4)) = some s →
      (((replaySinceSeq s.ringOf 1 [.critical] (.make ⟨[], [], [], []⟩ 8)).1 = true ∧
        ∀ e ∈ (s.lanes .critical).pushed, 1 < e.seq → SubscriberFilter.wants ⟨[], [], [], []⟩ .critical e = true →
          (replaySinceSeq s.ringOf 1 [.critical] (.make ⟨[], [], [], []⟩ 8)).2.got .critical e) ↔
      (∀ e ∈ (s.lanes .critical).popped, e.seq ≤ 1) ∧
        (1 + 1 < 2 ^ 64 ∨ ∀ front ∈ (s.lanes .critical).ring.q.head?, front.seq = 0)) := by
  refine ⟨by decide +kernel, fun s hs => ?_⟩
  have hm : (Run.exec step windowRun (init 0 0 (fun _ => 4))).map (fun s =>
      decide ((∃ e ∈ (s.lanes .critical).pushed, e.seq = 1) ∧
        ((s.lanes .critical).pushed.filter (fun e => decide (1 < e.seq))).length ≤ (s.lanes .critical).ring.capacity ∧
        (s.lanes .critical).ring.capacity ≤ 8)) = some true := by
    decide +kernel
  rw [hs, Option.map_some, Option.some.injEq, decide_eq_true_eq] at hm
  obtain ⟨hpush, hwindow, hqueue⟩ := hm
  exact replay_window_iff 0 0 (fun _ => 4) windowRun s hs (by decide +kernel) .critical 1 (by decide) hpush hwindow
    ⟨[], [], [], []⟩ 8 hqueue

/-- Two entries of tier 1 in a ring of four, both popped by the worker. -/
def drainedRun : List PlaneAct :=
  [.alloc 0 .critical, .build 0 (some [1]), .push 0, .alloc 1 .critical, .build 1 (some [2]), .push 1,
    .worker .critical, .worker .critical]

/-- A client that missed one entry of a ring of four is refused as evicted once the worker popped it. -/
theorem drainedRun_refused :
    (Run.exec step drainedRun (init 0 0 (fun _ => 4))).map (fun s =>
        ((s.lanes .critical).pushed.map (·.seq), (s.lanes .critical).evicted,
          (replaySinceSeq s.ringOf 1 [.critical] (.make ⟨[], [], [], []⟩ 8)).1,
          (replaySinceSeq s.ringOf 1 [.critical] (.make ⟨[], [], [], []⟩ 8)).2.sub.kickReason))
      = some ([1, 2], [], false, .replayEvicted) ∧
    Run.along step inOrder drainedRun (init 0 0 (fun _ => 4)) = true := by
  decide +kernel

end Plane
end Events
end Osw
