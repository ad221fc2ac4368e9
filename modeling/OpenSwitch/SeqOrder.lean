import OpenSwitch.PlaneSteps
/-!
# SeqOrder — the order in which a tier's entries reach its subscribers

The entries of a tier move along one line: out of the ring into a worker's batch, and out of the batch into
`Dispatch`.  Workers keep that line (`workerStep_line`), so the order of dispatch is the order of the pushes; and the
pushes of concurrent `HandleEvent` calls come in seq order exactly as far as no call pushes past a smaller seq still on
its way, since `next_seq_` and the ring are two separate accesses.
-/
namespace Osw
namespace Events

/-- What a worker has popped and not begun to dispatch. -/
def Worker.inHand : Worker → List RingEntry
  | .popped batch => batch
  | .dispatching _ _ es _ _ => es
  | _ => []

/-- The seq of a call on tier `t` that has one and has not pushed yet. -/
def Call.holds (t : Tier) : Call → Option Nat
  | .allocated t' seq => if t' = t then some seq else none
  | .built t' e => if t' = t then some e.seq else none
  | _ => none

namespace Plane

variable {s s' : Plane} {t : Tier} {a : PlaneAct} {n : Nat} {e : RingEntry}

/-- The entries of a tier in their order: dispatched, in the worker's hand, in the ring. -/
def line (s : Plane) (t : Tier) : List RingEntry :=
  (s.dispatched t).map Prod.fst ++ (s.worker t).inHand ++ (s.lanes t).ring.q

def holds (s : Plane) (t : Tier) (n : Nat) : Option Nat := (s.calls.lookup n).bind (Call.holds t)

theorem next_line (s : Plane) (t : Tier) (roster : List Nat) (es : List RingEntry) :
    (s.next t roster es).line t = (s.dispatched t).map Prod.fst ++ es ++ (s.lanes t).ring.q := by
  cases es <;> simp [next, line, Worker.inHand]

theorem workerStep_line (h : s.workerStep t = some s') : s'.line t = s.line t := by
  rcases workerStep_cases h with ⟨hw, rfl⟩ | ⟨hw, rfl⟩ | ⟨hw, rfl⟩ | ⟨e, es, hw, _, rfl⟩ | ⟨roster, e, es, stage, hw, rfl⟩ |
    ⟨roster, e, es, i, rest, stage, hw, rfl⟩
  · simp only [line, hw, Function.update_self]
    split <;> rfl
  · simp [line, hw, Worker.inHand, Lane.popBatch, Ring.popBatch]
  · simp only [line, hw, Function.update_self]
    split <;> rfl
  · rw [next_line, line, hw]
    rfl
  · rw [next_line, line, hw]
    rfl
  · obtain ⟨_, hl, hd, rest', stage', hw'⟩ := s.dispatchTo_sameBut t roster e es i rest stage
    rw [line, line, hl, hd, hw', hw]
    rfl

/-- What a step does to the line of a tier: nothing, or a push at its end, which may take one entry out. -/
theorem step_line (h : s.step a = some s') (t : Tier) :
    s'.line t = s.line t ∨
    ∃ n e, a = .push n ∧ s.calls.lookup n = some (.built t e) ∧ (s'.line t).Sublist (s.line t ++ [e]) := by
  by_cases ha : a = .worker t
  · subst ha
    exact .inl (workerStep_line h)
  · obtain ⟨hw, hd⟩ := step_worker_ne h ha
    have hline : (s'.lanes t).ring.q = (s.lanes t).ring.q → s'.line t = s.line t := fun hq => by
      rw [line, line, hw, hd, hq]
    rcases step_lanes h t with hl | ⟨n, e, rfl, hc, hl⟩ | ⟨hwt, _, _⟩ | ⟨_, hl⟩
    · exact .inl (hline (by rw [hl]))
    · refine .inr ⟨n, e, rfl, hc, ?_⟩
      have hsub : ((s.lanes t).push e).ring.q.Sublist ((s.lanes t).ring.q ++ [e]) := by
        rw [← Lane.evictee_append_push]
        exact List.sublist_append_right _ _
      rw [line, line, hw, hd, hl, List.append_assoc _ _ [e]]
      exact hsub.append_left _
    · exact absurd hwt ha
    · exact .inl (hline (by rw [hl]; rfl))

/-- What a step does to the calls in progress and to the counters they draw their seqs from. -/
theorem step_calls (h : s.step a = some s') :
    (s'.calls = s.calls ∧ s'.nextSeq = s.nextSeq ∧ (∀ n, a ≠ .push n) ∧ ∀ n t, a ≠ .alloc n t) ∨
    (∃ n t, a = .alloc n t ∧ s'.nextSeq = Function.update s.nextSeq t ((s.nextSeq t + 1) % 2 ^ 64) ∧
      s'.calls = s.calls.insert n (.allocated t ((s.nextSeq t + 1) % 2 ^ 64))) ∨
    (s'.nextSeq = s.nextSeq ∧ (∀ n t, a ≠ .alloc n t) ∧ ∃ n c, (∀ m, a = .push m → m = n) ∧ (a = .push n → ∀ t, c.holds t = none) ∧
      (s'.calls = s.calls.erase n ∨
        (s'.calls = s.calls.insert n c ∧ ∀ t q, c.holds t = some q → s.holds t n = some q))) := by
  cases a with
  | alloc n t =>
    simp only [step, alloc] at h
    split at h <;> cases h
    exact .inr (.inl ⟨n, t, rfl, rfl, rfl⟩)
  | build n bytes =>
    simp only [step, build] at h
    split at h
    · rename_i t seq hc
      split at h <;> cases h
      · exact .inr (.inr ⟨rfl, by simp, n, .counted, by simp, by simp, .inl rfl⟩)
      · rename_i b
        refine .inr (.inr ⟨rfl, by simp, n, .built t ⟨seq, some b⟩, by simp, by simp, .inr ⟨rfl, fun t' q hq => ?_⟩⟩)
        rw [holds, hc]
        exact hq
    · cases h
  | push n =>
    obtain ⟨t, e, _, _, _, _, hn, _, hc⟩ := push_cases h
    refine .inr (.inr ⟨hn, by simp, n, _, ?_, fun _ _ => rfl, .inr ⟨hc, by simp [Call.holds]⟩⟩)
    rintro m ⟨⟩
    rfl
  | count n =>
    simp only [step, count] at h
    split at h
    · cases h
      exact .inr (.inr ⟨rfl, by simp, n, .counted, by simp, by simp, .inr ⟨rfl, by simp [Call.holds]⟩⟩)
    · cases h
      exact .inr (.inr ⟨rfl, by simp, n, .counted, by simp, by simp, .inl rfl⟩)
    · cases h
  | worker t =>
    have hs := workerStep_sameBut h
    exact .inl ⟨hs.calls, hs.nextSeq, by simp, by simp⟩
  | stop => exact .inl ⟨(stopStep_events h).1.calls, (stopStep_events h).1.nextSeq, by simp, by simp⟩
  | _ => exact .inl ⟨(step_sameEvents h rfl).calls, (step_sameEvents h rfl).nextSeq, by simp, by simp⟩

/-- A call holds a seq after a step only if it held it before, and has not pushed it, or has just drawn it. -/
theorem step_holds (h : s.step a = some s') {q : Nat} (hq : s'.holds t n = some q) :
    (s.holds t n = some q ∧ a ≠ .push n) ∨ (a = .alloc n t ∧ q = (s.nextSeq t + 1) % 2 ^ 64) := by
  rcases step_calls h with ⟨hc, _, ha, _⟩ | ⟨m, t', rfl, _, hc⟩ | ⟨_, _, m, c, hpush, hnone, hc | ⟨hc, hkeep⟩⟩
  · rw [holds, hc] at hq
    exact .inl ⟨hq, ha n⟩
  · rw [holds, hc] at hq
    by_cases hnm : n = m
    · subst hnm
      rw [AList.lookup_insert, Option.bind_some, Call.holds] at hq
      split at hq <;> cases hq
      rename_i ht
      subst ht
      exact .inr ⟨rfl, rfl⟩
    · rw [AList.lookup_insert_ne hnm] at hq
      exact .inl ⟨hq, nofun⟩
  · rw [holds, hc] at hq
    by_cases hnm : n = m
    · subst hnm
      rw [AList.lookup_erase] at hq
      cases hq
    · rw [AList.lookup_erase_ne hnm] at hq
      exact .inl ⟨hq, fun ha => hnm (hpush n ha)⟩
  · rw [holds, hc] at hq
    by_cases hnm : n = m
    · subst hnm
      rw [AList.lookup_insert, Option.bind_some] at hq
      exact .inl ⟨hkeep t q hq, fun ha => by rw [hnone ha t] at hq; cases hq⟩
    · rw [AList.lookup_insert_ne hnm] at hq
      exact .inl ⟨hq, fun ha => hnm (hpush n ha)⟩

theorem step_nextSeq (h : s.step a = some s') (t : Tier) :
    (s'.nextSeq t = (s.nextSeq t + 1) % 2 ^ 64 ∧ ∃ n, a = .alloc n t) ∨
    (s'.nextSeq t = s.nextSeq t ∧ ∀ n, a ≠ .alloc n t) := by
  rcases step_calls h with ⟨_, hn, _, ha⟩ | ⟨n, t', rfl, hn, _⟩ | ⟨hn, ha, _⟩
  · exact .inr ⟨by rw [hn], fun n => ha n t⟩
  · by_cases ht : t = t'
    · subst ht
      exact .inl ⟨by rw [hn, Function.update_self], n, rfl⟩
    · exact .inr ⟨by rw [hn, Function.update_of_ne ht], fun m hm => by cases hm; exact ht rfl⟩
  · exact .inr ⟨by rw [hn], fun n => ha n t⟩

/-! ## Pushing the smallest seq first -/

/-- No call on the tier holds a smaller seq than the one being pushed, and no seq counter wraps. -/
def smallestFirst (s : Plane) : PlaneAct → Bool
  | .alloc _ t => decide (s.nextSeq t + 1 < 2 ^ 64)
  | .push n =>
    match s.calls.lookup n with
    | some (.built t e) =>
      s.calls.entries.all (fun c => match c.2.holds t with | some q => decide (e.seq ≤ q) | none => true)
    | _ => true
  | _ => true

theorem smallestFirst_push (hg : s.smallestFirst (.push n) = true) (hc : s.calls.lookup n = some (.built t e))
    {m q : Nat} (hq : s.holds t m = some q) : e.seq ≤ q := by
  simp only [smallestFirst, hc, List.all_eq_true] at hg
  obtain ⟨c, hm, hcq⟩ := Option.bind_eq_some_iff.1 hq
  have := hg ⟨m, c⟩ (List.of_mem_dlookup hm)
  simpa only [hcq, decide_eq_true_eq] using this

/-- The line of every tier is sorted, every seq still held comes after it, and no two calls hold one seq. -/
structure Ordered (s : Plane) : Prop where
  sorted   : ∀ t, (s.line t).Pairwise (fun a b => a.seq < b.seq)
  below    : ∀ t n q, s.holds t n = some q → ∀ e ∈ s.line t, e.seq < q
  held_le  : ∀ t n q, s.holds t n = some q → q ≤ s.nextSeq t
  line_le  : ∀ t, ∀ e ∈ s.line t, e.seq ≤ s.nextSeq t
  distinct : ∀ t n m q, s.holds t n = some q → s.holds t m = some q → n = m

theorem ordered_init (m c : Nat) (capacity : Tier → Nat) : Ordered (init m c capacity) := by
  have hline : ∀ t, (init m c capacity).line t = [] := fun t => by
    cases t <;> rfl
  refine ⟨fun t => ?_, nofun, nofun, fun t e he => ?_, nofun⟩
  · rw [hline]
    exact .nil
  · rw [hline] at he
    cases he

theorem mem_line_of_step (h : s.step a = some s') (he : e ∈ s'.line t) :
    e ∈ s.line t ∨ ∃ n, a = .push n ∧ s.calls.lookup n = some (.built t e) := by
  rcases step_line h t with hl | ⟨n, x, ha, hc, hsub⟩
  · exact .inl (hl ▸ he)
  · rcases List.mem_append.1 (hsub.subset he) with he | he
    · exact .inl he
    · cases List.mem_singleton.1 he
      exact .inr ⟨n, ha, hc⟩

theorem holds_of_built (hc : s.calls.lookup n = some (.built t e)) : s.holds t n = some e.seq := by
  rw [holds, hc, Option.bind_some, Call.holds, if_pos rfl]

theorem Ordered.step (hs : Ordered s) (hg : s.smallestFirst a = true) (h : s.step a = some s') : Ordered s' := by
  -- the counter of a tier never goes back
  have hnext : ∀ t, s.nextSeq t ≤ s'.nextSeq t ∧ ((∃ n, a = .alloc n t) → s'.nextSeq t = s.nextSeq t + 1) := fun t => by
    rcases step_nextSeq h t with ⟨hn, n, rfl⟩ | ⟨hn, ha⟩
    · rw [hn, Nat.mod_eq_of_lt (of_decide_eq_true hg)]
      exact ⟨Nat.le_succ _, fun _ => rfl⟩
    · exact ⟨Nat.le_of_eq hn.symm, fun ⟨n, hal⟩ => absurd hal (ha n)⟩
  -- a seq held after the step was held before it, or is the fresh value of the counter
  have hheld : ∀ t n q, s'.holds t n = some q →
      (s.holds t n = some q ∧ a ≠ .push n) ∨ (a = .alloc n t ∧ q = s.nextSeq t + 1 ∧ q = s'.nextSeq t) := by
    intro t n q hq
    rcases step_holds h hq with hq | ⟨rfl, rfl⟩
    · exact .inl hq
    · have hlt : s.nextSeq t + 1 < 2 ^ 64 := of_decide_eq_true hg
      rw [Nat.mod_eq_of_lt hlt]
      exact .inr ⟨rfl, rfl, ((hnext t).2 ⟨n, rfl⟩).symm⟩
  refine ⟨fun t => ?_, fun t n q hq e he => ?_, fun t n q hq => ?_, fun t e he => ?_, fun t n m q hn hm => ?_⟩
  · rcases step_line h t with hl | ⟨n, e, rfl, hc, hsub⟩
    · rw [hl]
      exact hs.sorted t
    · refine List.Pairwise.sublist hsub (List.pairwise_append.2 ⟨hs.sorted t, List.pairwise_singleton _ _, ?_⟩)
      intro x hx y hy
      cases List.mem_singleton.1 hy
      exact hs.below t n e.seq (holds_of_built hc) x hx
  · rcases hheld t n q hq with ⟨hq, hne⟩ | ⟨rfl, hq, _⟩
    · rcases mem_line_of_step h he with he | ⟨m, rfl, hc⟩
      · exact hs.below t n q hq e he
      · have hle := smallestFirst_push hg hc hq
        have hnm : e.seq ≠ q := fun heq =>
          hne (by rw [hs.distinct t n m q hq (heq ▸ holds_of_built hc)])
        omega
    · rcases mem_line_of_step h he with he | ⟨m, hal, _⟩
      · have := hs.line_le t e he
        omega
      · cases hal
  · rcases hheld t n q hq with ⟨hq, _⟩ | ⟨_, _, hq⟩
    · exact (hs.held_le t n q hq).trans (hnext t).1
    · omega
  · rcases mem_line_of_step h he with he | ⟨n, rfl, hc⟩
    · exact (hs.line_le t e he).trans (hnext t).1
    · exact (hs.held_le t n _ (holds_of_built hc)).trans (hnext t).1
  · rcases hheld t n q hn with ⟨hn, _⟩ | ⟨han, hqn, _⟩ <;> rcases hheld t m q hm with ⟨hm, _⟩ | ⟨ham, hqm, _⟩
    · exact hs.distinct t n m q hn hm
    · have := hs.held_le t n q hn
      omega
    · have := hs.held_le t m q hm
      omega
    · rw [han] at ham
      cases ham
      rfl

/-- **A tier's entries are dispatched in strictly increasing seq order**, in every run whose pushes each find no smaller
seq of the tier still on its way and whose counters do not wrap. -/
theorem dispatched_in_seq_order (m c : Nat) (capacity : Tier → Nat) (as : List PlaneAct) (s : Plane)
    (hrun : Run.exec step as (init m c capacity) = some s)
    (hguard : Run.along step smallestFirst as (init m c capacity) = true) (t : Tier) :
    ((s.dispatched t).map (fun d => d.1.seq)).Pairwise (· < ·) := by
  have hord := Run.exec_inv_along (fun _ _ _ hs hg h => Ordered.step hs hg h) as _ s (ordered_init m c capacity) hguard hrun
  have hsort := hord.sorted t
  rw [line, List.append_assoc] at hsort
  have hd := (List.pairwise_append.1 hsort).1
  rw [List.pairwise_map] at hd ⊢
  exact hd

/-- Two calls of tier 1, a subscriber, and the worker of the tier; `first` pushes before `second`. -/
def twoCalls (first second : Nat) : List PlaneAct :=
  [.addSubscriber 7 ⟨[], [], [], []⟩ 8, .alloc 0 .critical, .alloc 1 .critical, .build 0 (some [1]), .build 1 (some [2]),
    .push first, .push second] ++ List.replicate 9 (.worker .critical)

theorem dispatched_in_seq_order_twoCalls :
    (Run.exec step (twoCalls 0 1) (init 0 0 (fun _ => 4))).map (fun s => (s.dispatched .critical).map (fun d => d.1.seq))
      = some [1, 2] ∧
    ∀ s, Run.exec step (twoCalls 0 1) (init 0 0 (fun _ => 4)) = some s →
      ((s.dispatched .critical).map (fun d => d.1.seq)).Pairwise (· < ·) :=
  ⟨by decide +kernel, fun s hs => dispatched_in_seq_order 0 0 (fun _ => 4) (twoCalls 0 1) s hs (by decide +kernel) .critical⟩

/-- The call that drew seq 2 pushes first: the worker dispatches 2 before 1, and so the subscriber gets them. -/
theorem twoCalls_out_of_order :
    (Run.exec step (twoCalls 1 0) (init 0 0 (fun _ => 4))).map (fun s =>
        ((s.dispatched .critical).map (fun d => d.1.seq), ((s.feeds 7).live .critical).map (·.seq)))
      = some ([2, 1], [2, 1]) := by
  decide +kernel

end Plane
end Events
end Osw
