import OpenSwitch.StereoPairer
/-!
# PairerTiming — which frames of a recording meet, and how long they wait

`TryEmitLocked` looks at the two oldest frames only.  `Decides` says why it does what it does; from it follow how far
apart the frames of one emission are, what a frame that goes out over silence leaves waiting, and how many frames wait.
-/
namespace Osw
namespace Media

def Side.other : Side → Side
  | .left  => .right
  | .right => .left

theorem Side.other_ne (s : Side) : s.other ≠ s := by cases s <;> decide

theorem Side.other_other (s : Side) : s.other.other = s := by cases s <;> rfl

theorem Side.eq_other_of_ne {s s' : Side} (h : s' ≠ s) : s' = s.other := by
  cases s <;> cases s' <;> first | rfl | exact absurd rfl h

/-- `TimeoutThresholdSamplesLocked`, from the configuration alone. -/
def PairerConfig.timeoutSamples (cfg : PairerConfig) : Nat := cfg.desyncTimeoutMs * cfg.sampleRateHz / 1000

/-- The clock does not go back between the two readings of a push. -/
def PairAct.Timed : PairAct → Prop
  | .push _ f now => f.arrivedAt ≤ now
  | .tick _       => True

namespace StereoFramePairer

/-- How far apart the two oldest frames are. -/
def frontDiff (p : StereoFramePairer) : Nat :=
  diffSamples (p.front .left).fsTimestampSamples (p.front .right).fsTimestampSamples

/-- Why `TryEmitLocked` does what it does. -/
inductive Decides (p : StereoFramePairer) (now : Int) : Option Emission × StereoFramePairer → Prop
  /-- The two oldest frames are near each other. -/
  | pair (both : ∀ s, p.countOf s ≠ 0) (near : p.frontDiff ≤ p.cfg.timeoutSamples) :
      Decides p now (some (p.emitPair p.frontDiff).1, (p.emitPair p.frontDiff).2)
  /-- They are too far apart: the older one goes alone. -/
  | apart (both : ∀ s, p.countOf s ≠ 0) (far : p.cfg.timeoutSamples < p.frontDiff) :
      Decides p now (some (p.emitSilenceFill p.behind).1, (p.emitSilenceFill p.behind).2)
  /-- The other side has nothing, and the wait is over. -/
  | late (s : Side) (old : p.expired s now = true) (alone : p.countOf s.other = 0) :
      Decides p now (some (p.emitSilenceFill s).1, (p.emitSilenceFill s).2)
  | wait (s : Side) (empty : p.countOf s.other = 0) (fresh : p.expired s now = false) : Decides p now (none, p)

variable {s s' : Side} {p : StereoFramePairer}

theorem countOf_ne_zero_of_expired {now : Int} (h : p.expired s now = true) : p.countOf s ≠ 0 := by
  simp only [expired, Bool.and_eq_true, decide_eq_true_eq] at h
  exact Nat.ne_of_gt h.1

theorem tryEmit_decides (p : StereoFramePairer) (now : Int) : p.Decides now (p.tryEmit now) := by
  unfold tryEmit
  split
  · rename_i hboth
    have hne : ∀ s, p.countOf s ≠ 0 := fun s => by cases s <;> omega
    dsimp only
    split
    · rename_i hfar
      exact .apart hne hfar
    · rename_i hnear
      exact .pair hne (Nat.le_of_not_lt hnear)
  · rename_i hone
    unfold tryEmitExpired
    split
    · rename_i hleft
      have hl := countOf_ne_zero_of_expired hleft
      exact .late .left hleft (by change p.countOf .right = 0; omega)
    · rename_i hleft
      split
      · rename_i hright
        have hr := countOf_ne_zero_of_expired hright
        exact .late .right hright (by change p.countOf .left = 0; omega)
      · rename_i hright
        -- nobody's wait is over, and one of the sides is empty
        rcases Nat.eq_zero_or_pos (p.countOf .left) with h | h
        · exact .wait .right h (Bool.not_eq_true _ ▸ hright)
        · exact .wait .left (by change p.countOf .right = 0; omega) (Bool.not_eq_true _ ▸ hleft)

theorem emitSilenceFill_part_self (p : StereoFramePairer) (s : Side) :
    (p.emitSilenceFill s).1.part s = some (p.front s) := by
  change Function.update (fun _ => none) s (some (p.front s)) s = _
  rw [Function.update_self]

theorem emitSilenceFill_part_of_ne (p : StereoFramePairer) (h : s' ≠ s) : (p.emitSilenceFill s).1.part s' = none := by
  change Function.update (fun _ => none) s (some (p.front s)) s' = _
  rw [Function.update_of_ne h]

theorem emitSilenceFill_part_some {f : PendingFrame} (h : (p.emitSilenceFill s).1.part s' = some f) :
    s' = s ∧ f = p.front s := by
  by_cases hs : s' = s
  · subst hs
    rw [p.emitSilenceFill_part_self] at h
    exact ⟨rfl, (Option.some.inj h).symm⟩
  · rw [p.emitSilenceFill_part_of_ne hs] at h
    cases h

theorem emitSilenceFill_not_pair {f g : PendingFrame} (hf : (p.emitSilenceFill s).1.part .left = some f)
    (hg : (p.emitSilenceFill s).1.part .right = some g) : False := by
  have hl := (emitSilenceFill_part_some hf).1
  rw [← hl] at hg
  cases (emitSilenceFill_part_some hg).1

theorem emitSilenceFill_ring_self (p : StereoFramePairer) (s : Side) :
    (p.emitSilenceFill s).2.ring s = (p.ring s).pop :=
  Function.update_self ..

theorem emitSilenceFill_ring_of_ne (p : StereoFramePairer) (h : s' ≠ s) : (p.emitSilenceFill s).2.ring s' = p.ring s' :=
  Function.update_of_ne h ..

theorem recordWarn_ring (p : StereoFramePairer) (diff : Nat) : (p.recordWarn diff).ring = p.ring := by
  unfold recordWarn
  split <;> rfl

theorem recordWarn_cfg (p : StereoFramePairer) (diff : Nat) : (p.recordWarn diff).cfg = p.cfg := by
  unfold recordWarn
  split <;> rfl

theorem emitPair_ring (p : StereoFramePairer) (diff : Nat) (s : Side) :
    (p.emitPair diff).2.ring s = (p.ring s).pop := by
  change (((p.pop .left).pop .right).recordWarn diff).ring s = _
  rw [recordWarn_ring]
  cases s <;> rfl

theorem emitSilenceFill_countOf (p : StereoFramePairer) (s : Side) :
    (p.emitSilenceFill s).2.countOf s = p.countOf s - 1 ∧
    (p.emitSilenceFill s).2.countOf s.other = p.countOf s.other := by
  unfold countOf
  rw [emitSilenceFill_ring_self, emitSilenceFill_ring_of_ne p s.other_ne]
  exact ⟨DropRing.count_advance _, rfl⟩

theorem emitPair_countOf (p : StereoFramePairer) (diff : Nat) (s : Side) :
    (p.emitPair diff).2.countOf s = p.countOf s - 1 := by
  unfold countOf
  rw [emitPair_ring]
  exact DropRing.count_advance _

theorem tryEmit_cfg (p : StereoFramePairer) (now : Int) : (p.tryEmit now).2.cfg = p.cfg := by
  have hd := p.tryEmit_decides now
  generalize p.tryEmit now = out at hd ⊢
  cases hd with
  | pair => exact recordWarn_cfg _ _
  | apart => rfl
  | late => rfl
  | wait => rfl

theorem call_cfg (p : StereoFramePairer) (a : PairAct) : (p.call a).2.cfg = p.cfg := by
  cases a with
  | push s f now => exact (p.enqueue s f).tryEmit_cfg now
  | tick now => exact p.tryEmit_cfg now

theorem enqueue_toList (p : StereoFramePairer) (f : PendingFrame) (h : p.countOf s < kRingCapacity) :
    ((p.enqueue s f).ring s).ring.toList = (p.ring s).ring.toList ++ [f] := by
  have hpush := DropRing.dropped_append_push (p.ring s).ring f
  have hnone : (p.ring s).ring.dropped = none := if_neg (Nat.ne_of_lt h)
  rw [hnone, Option.toList_none, List.nil_append] at hpush
  rw [enqueue_ring_self]
  exact hpush

theorem enqueue_countOf_self (p : StereoFramePairer) (f : PendingFrame) (h : p.countOf s < kRingCapacity) :
    (p.enqueue s f).countOf s = p.countOf s + 1 := by
  rw [countOf, ← DropRing.length_toList, enqueue_toList p f h, List.length_append, DropRing.length_toList]
  rfl

/-- The side behind is the one whose oldest frame is older by the whole distance. -/
theorem behind_front (p : StereoFramePairer) :
    (p.front p.behind).fsTimestampSamples + p.frontDiff = (p.front p.behind.other).fsTimestampSamples := by
  unfold behind frontDiff diffSamples at *
  by_cases hlt : (p.front .left).fsTimestampSamples < (p.front .right).fsTimestampSamples
  · rw [if_pos hlt, if_neg (by omega)]
    change (p.front .left).fsTimestampSamples + _ = (p.front .right).fsTimestampSamples
    omega
  · rw [if_neg hlt, if_pos (by omega)]
    change (p.front .right).fsTimestampSamples + _ = (p.front .left).fsTimestampSamples
    omega

end StereoFramePairer

namespace Recording

open StereoFramePairer (Decides)

theorem cfg_after (cfg : PairerConfig) (acts : List PairAct) : (after cfg acts).pairer.cfg = cfg := by
  induction acts using List.reverseRecOn with
  | nil => rfl
  | append_singleton acts a ih =>
    rw [after_append]
    exact ((after cfg acts).pairer.call_cfg a).trans ih

theorem call_decides (cfg : PairerConfig) (acts : List PairAct) (a : PairAct) :
    ∃ (p : StereoFramePairer) (now : Int), (after cfg acts).pairer.call a = p.tryEmit now ∧ p.cfg = cfg ∧
      Booked (acts ++ [a]) ⟨p, (after cfg acts).out⟩ := by
  have hb := booked_after cfg acts
  cases a with
  | push s f now => exact ⟨_, now, rfl, cfg_after cfg acts, hb.enqueue s f now⟩
  | tick now =>
    refine ⟨_, now, rfl, cfg_after cfg acts, ?_⟩
    obtain ⟨hk, hp, ht, hd, hpa, hs, hss, hf⟩ := hb
    exact ⟨hk, fun s => by rw [hp s, List.filterMap_append]; exact (List.append_nil _).symm, ht, hd, hpa, hs, hss, hf⟩

variable {acts : List PairAct} {r : Recording} {s : Side}

theorem Booked.pairwise (h : Booked acts r) {R : PendingFrame → PendingFrame → Prop}
    (hR : (acts.filterMap (PairAct.pushes s)).Pairwise R) : (r.held s).Pairwise R := by
  have hk : (r.pairer.ring s).pushed = _ := h.kept s
  rw [← h.pushed s, hk] at hR
  exact (List.pairwise_append.1 hR).2.1

theorem held_eq_cons (r : Recording) (h : r.pairer.countOf s ≠ 0) :
    r.held s = r.pairer.front s :: (r.pairer.ring s).ring.advance.toList :=
  DropRing.toList_advance h

/-! ## How far apart frames are -/

/-- The timestamps a side is given do not decrease. -/
def InOrder (acts : List PairAct) (s : Side) : Prop :=
  (acts.filterMap (PairAct.pushes s)).Pairwise (fun f g => f.fsTimestampSamples ≤ g.fsTimestampSamples)

instance (acts : List PairAct) (s : Side) : Decidable (InOrder acts s) := inferInstanceAs (Decidable (List.Pairwise _ _))

theorem front_le_held (hb : Booked acts r) (hord : InOrder acts s) (hne : r.pairer.countOf s ≠ 0) {g : PendingFrame}
    (hg : g ∈ r.held s) : (r.pairer.front s).fsTimestampSamples ≤ g.fsTimestampSamples := by
  have hpw := hb.pairwise hord
  rw [r.held_eq_cons hne] at hpw hg
  rcases List.mem_cons.1 hg with rfl | hg
  · exact Nat.le_refl _
  · exact (List.pairwise_cons.1 hpw).1 g hg

/-- Past the distance of the two oldest frames, the older one is too far from everything the other side holds. -/
theorem apart_from_waiting (hb : Booked acts r) (hord : ∀ s, InOrder acts s) (both : ∀ s, r.pairer.countOf s ≠ 0)
    (far : r.pairer.cfg.timeoutSamples < r.pairer.frontDiff) {g : PendingFrame}
    (hg : g ∈ r.held r.pairer.behind.other) :
    r.pairer.cfg.timeoutSamples
      < diffSamples (r.pairer.front r.pairer.behind).fsTimestampSamples g.fsTimestampSamples := by
  have hle := front_le_held hb (hord _) (both _) hg
  have hbehind := r.pairer.behind_front
  unfold diffSamples
  split <;> omega

/-- **A silence fill skips no partner.**  When a call of a run given in order emits a frame over silence, every frame
that waits on the other side is farther from it than the desync timeout; the two frames of one emission never are. -/
theorem silence_fill_skips_no_partner (cfg : PairerConfig) (acts : List PairAct) (a : PairAct)
    (hord : ∀ s, InOrder (acts ++ [a]) s) (e : Emission) (he : ((after cfg acts).pairer.call a).1 = some e) :
    (∀ s f, e.part s = some f → e.part s.other = none → ∀ g ∈ (after cfg (acts ++ [a])).held s.other,
      cfg.timeoutSamples < diffSamples f.fsTimestampSamples g.fsTimestampSamples) ∧
    (∀ f g, e.part .left = some f → e.part .right = some g →
      diffSamples f.fsTimestampSamples g.fsTimestampSamples ≤ cfg.timeoutSamples) := by
  obtain ⟨p, now, hcall, hcfg, hb⟩ := call_decides cfg acts a
  have hheld : ∀ s, (after cfg (acts ++ [a])).held s = ((p.tryEmit now).2.ring s).ring.toList := fun s => by
    rw [after_append, ← hcall]
    rfl
  simp only [hheld]
  rw [hcall] at he
  subst hcfg
  have hd := p.tryEmit_decides now
  generalize p.tryEmit now = out at hd he ⊢
  cases hd with
  | pair both near =>
    cases he
    refine ⟨fun s f _ hn => absurd hn (by simp [StereoFramePairer.emitPair]), fun f g hf hg => ?_⟩
    cases hf
    cases hg
    exact near
  | apart both far =>
    cases he
    refine ⟨fun s f hf _ g hg => ?_, fun f g hf hg => (StereoFramePairer.emitSilenceFill_not_pair hf hg).elim⟩
    obtain ⟨rfl, rfl⟩ := StereoFramePairer.emitSilenceFill_part_some hf
    rw [p.emitSilenceFill_ring_of_ne (Side.other_ne _)] at hg
    exact apart_from_waiting hb hord both far hg
  | late s old alone =>
    cases he
    refine ⟨fun s' f hf _ g hg => ?_, fun f g hf hg => (StereoFramePairer.emitSilenceFill_not_pair hf hg).elim⟩
    obtain ⟨rfl, rfl⟩ := StereoFramePairer.emitSilenceFill_part_some hf
    rw [p.emitSilenceFill_ring_of_ne (Side.other_ne _)] at hg
    have hlen : (p.ring s'.other).ring.toList.length = 0 := (DropRing.length_toList _).trans alone
    rw [List.eq_nil_of_length_eq_zero hlen] at hg
    cases hg
  | wait => cases he

/-- Two left frames wait when a right one far ahead of them arrives: the older goes out over silence. -/
def farAhead : List PairAct := [.push .left ⟨0, 0, []⟩ 0, .push .left ⟨160, 20000000, []⟩ 20000000]

theorem silence_fill_skips_no_partner_farAhead :
    ∃ e, ((after ⟨8000, 5, 25⟩ farAhead).pairer.call (.push .right ⟨1000, 20000000, []⟩ 20000000)).1 = some e ∧
      e.part .left = some ⟨0, 0, []⟩ ∧ e.part .right = none ∧
      ∀ g ∈ (after ⟨8000, 5, 25⟩ (farAhead ++ [.push .right ⟨1000, 20000000, []⟩ 20000000])).held .right,
        200 < diffSamples 0 g.fsTimestampSamples := by
  have hparts : (((after ⟨8000, 5, 25⟩ farAhead).pairer.call (.push .right ⟨1000, 20000000, []⟩ 20000000)).1.map
      (fun e => (e.part .left, e.part .right))) = some (some ⟨0, 0, []⟩, none) := by decide +kernel
  obtain ⟨e, he, hp⟩ := Option.map_eq_some_iff.1 hparts
  have hord : ∀ s, InOrder (farAhead ++ [.push .right ⟨1000, 20000000, []⟩ 20000000]) s := fun s => by
    cases s <;> decide
  obtain ⟨hl, hr⟩ := Prod.mk.inj hp
  exact ⟨e, he, hl, hr, (silence_fill_skips_no_partner _ _ _ hord e he).1 .left _ hl hr⟩

/-! ## Which frames meet -/

/-- The `k`-th frame a side is given has the timestamp `g k`. -/
def OnGrid (g : Nat → Nat) (acts : List PairAct) (s : Side) : Prop :=
  (acts.filterMap (PairAct.pushes s)).map (·.fsTimestampSamples)
    = (List.range (acts.filterMap (PairAct.pushes s)).length).map g

instance (g : Nat → Nat) (acts : List PairAct) (s : Side) : Decidable (OnGrid g acts s) :=
  inferInstanceAs (Decidable (_ = _))

/-- The frames of a side that went without a partner: over silence, or dropped. -/
def alone (r : Recording) (s : Side) : Nat :=
  r.out.countP (fun e => (e.part s).isSome && (e.part s.other).isNone) + (r.drops s).length

def pairs (r : Recording) : Nat := r.out.countP (fun e => (e.part .left).isSome && (e.part .right).isSome)

theorem length_emitted (r : Recording) (s : Side) : (r.emitted s).length + (r.drops s).length = r.pairs + r.alone s := by
  have hsplit : ∀ es : List Emission, (es.filterMap (·.part s)).length
      = es.countP (fun e => (e.part .left).isSome && (e.part .right).isSome)
        + es.countP (fun e => (e.part s).isSome && (e.part s.other).isNone) := fun es => by
    induction es with
    | nil => rfl
    | cons e es ih =>
      rw [List.countP_cons, List.countP_cons, List.filterMap_cons]
      cases s <;> cases hl : e.part .left <;> cases hr : e.part .right <;>
        simp_all [Side.other] <;> omega
  rw [emitted, hsplit, pairs, alone, Nat.add_assoc]

theorem front_on_grid (hb : Booked acts r) {g : Nat → Nat} (hgrid : OnGrid g acts s) (hne : r.pairer.countOf s ≠ 0) :
    (r.pairer.front s).fsTimestampSamples = g (r.pairs + r.alone s) := by
  have hk : (r.pairer.ring s).pushed = (r.pairer.ring s).gone.map Prod.fst ++ r.held s := hb.kept s
  have hgone : (r.pairer.ring s).gone.length = r.pairs + r.alone s := by
    rw [← r.length_emitted s, ← hb.taken s, List.length_eq_length_filter_add (·.2), Nat.add_comm, Trail.taken,
      List.length_map, drops, Trail.drops, List.length_map]
  rw [OnGrid, ← hb.pushed s, hk, r.held_eq_cons hne] at hgrid
  have hat := congrArg (·[r.pairs + r.alone s]?) hgrid
  simpa [← hgone, List.getElem?_append_right] using hat

/-- On a grid wider than a timeout, what is within the timeout is one instant. -/
theorem eq_of_near_on_grid {g : Nat → Nat} (hg : StrictMono g) {timeout : Nat} (hwide : ∀ k, timeout < g (k + 1) - g k)
    {i j : Nat} (hnear : diffSamples (g i) (g j) ≤ timeout) : g i = g j := by
  have hstep : ∀ i j, i < j → timeout < g j - g i := fun i j hij => by
    have hnext := hwide i
    have hle : g (i + 1) ≤ g j := hg.monotone hij
    omega
  unfold diffSamples at hnear
  rcases Nat.lt_trichotomy i j with hlt | heq | hgt
  · have hfar := hstep i j hlt
    split at hnear <;> omega
  · rw [heq]
  · have hfar := hstep j i hgt
    split at hnear <;> omega

theorem alone_emitPair (p : StereoFramePairer) (out : List Emission) (s : Side) :
    alone ⟨(p.emitPair p.frontDiff).2, out ++ [(p.emitPair p.frontDiff).1]⟩ s = alone ⟨p, out⟩ s := by
  rw [alone, alone, List.countP_append, drops, drops, StereoFramePairer.emitPair_ring, Trail.drops_pop]
  rfl

/-- **Frames that go out together belong together, as far as the tolerance can tell.**  Both sides push the timestamps of
one increasing grid.  Two frames of one emission are at most the desync timeout apart; they are the same instant exactly
when as many left frames as right ones have gone without a partner, and always when the grid is wider than the timeout. -/
theorem paired_frames_on_grid (cfg : PairerConfig) (g : Nat → Nat) (hg : StrictMono g) (acts : List PairAct)
    (a : PairAct) (hgrid : ∀ s, OnGrid g (acts ++ [a]) s) (e : Emission)
    (he : ((after cfg acts).pairer.call a).1 = some e) (f h : PendingFrame) (hf : e.part .left = some f)
    (hh : e.part .right = some h) :
    diffSamples f.fsTimestampSamples h.fsTimestampSamples ≤ cfg.timeoutSamples ∧
    (f.fsTimestampSamples = h.fsTimestampSamples ↔
      (after cfg (acts ++ [a])).alone .left = (after cfg (acts ++ [a])).alone .right) ∧
    ((∀ k, cfg.timeoutSamples < g (k + 1) - g k) → f.fsTimestampSamples = h.fsTimestampSamples) := by
  obtain ⟨p, now, hcall, hcfg, hb⟩ := call_decides cfg acts a
  have hafter : after cfg (acts ++ [a]) = ⟨(p.tryEmit now).2, (after cfg acts).out ++ (p.tryEmit now).1.toList⟩ := by
    rw [after_append, ← hcall]
    rfl
  rw [hafter]
  rw [hcall] at he
  subst hcfg
  have hd := p.tryEmit_decides now
  generalize p.tryEmit now = out at hd he ⊢
  cases hd with
  | apart => cases he; exact (StereoFramePairer.emitSilenceFill_not_pair hf hh).elim
  | late => cases he; exact (StereoFramePairer.emitSilenceFill_not_pair hf hh).elim
  | wait => cases he
  | pair both near =>
    cases he
    cases hf
    cases hh
    have hat : ∀ s, (p.front s).fsTimestampSamples = _ := fun s => front_on_grid hb (hgrid s) (both s)
    refine ⟨near, ?_, fun hwide => ?_⟩
    · rw [hat .left, hat .right, hg.injective.eq_iff, Option.toList_some, alone_emitPair, alone_emitPair,
        Nat.add_left_cancel_iff]
    · change diffSamples (p.front .left).fsTimestampSamples (p.front .right).fsTimestampSamples ≤ _ at near
      rw [hat .left, hat .right] at near ⊢
      exact eq_of_near_on_grid hg hwide near

/-- A left frame goes out over silence before the right one of its instant comes; then comes the next left one. -/
def lateRight : List PairAct :=
  [.push .left ⟨0, 0, []⟩ 0, .tick 26000000, .push .right ⟨0, 26000000, []⟩ 26000000]

def nextLeft : PairAct := .push .left ⟨160, 26000000, []⟩ 26000000

theorem lateRight_on_grid (s : Side) : OnGrid (160 * ·) (lateRight ++ [nextLeft]) s := by cases s <;> decide

theorem lateRight_emits :
    ∃ e, ((after ⟨8000, 5, 25⟩ lateRight).pairer.call nextLeft).1 = some e ∧
      e.part .left = some ⟨160, 26000000, []⟩ ∧ e.part .right = some ⟨0, 26000000, []⟩ := by
  have hparts : ((after ⟨8000, 5, 25⟩ lateRight).pairer.call nextLeft).1.map (fun e => (e.part .left, e.part .right))
      = some (some ⟨160, 26000000, []⟩, some ⟨0, 26000000, []⟩) := by decide +kernel
  obtain ⟨e, he, hp⟩ := Option.map_eq_some_iff.1 hparts
  obtain ⟨hl, hr⟩ := Prod.mk.inj hp
  exact ⟨e, he, hl, hr⟩

/-- Frames 20 ms apart go out together. -/
theorem lateRight_pairs_two_instants :
    (∀ s, OnGrid (160 * ·) (lateRight ++ [nextLeft]) s) ∧
    ∃ e, ((after ⟨8000, 5, 25⟩ lateRight).pairer.call nextLeft).1 = some e ∧
      e.part .left = some ⟨160, 26000000, []⟩ ∧ e.part .right = some ⟨0, 26000000, []⟩ :=
  ⟨lateRight_on_grid, lateRight_emits⟩

theorem paired_frames_on_grid_lateRight :
    diffSamples 160 0 ≤ PairerConfig.timeoutSamples ⟨8000, 5, 25⟩ ∧
    ((160 : Nat) = 0 ↔ (after ⟨8000, 5, 25⟩ (lateRight ++ [nextLeft])).alone .left
      = (after ⟨8000, 5, 25⟩ (lateRight ++ [nextLeft])).alone .right) := by
  obtain ⟨e, he, hl, hr⟩ := lateRight_emits
  have hmono : StrictMono (160 * · : Nat → Nat) := fun i j hij => Nat.mul_lt_mul_of_pos_left hij (by decide)
  have hmeet := paired_frames_on_grid ⟨8000, 5, 25⟩ (160 * ·) hmono lateRight nextLeft lateRight_on_grid e he _ _ hl hr
  exact ⟨hmeet.1, hmeet.2.1⟩

/-! ## How many frames wait -/

/-- Two pushes of a side are at least 10 ms apart. -/
def Spaced (acts : List PairAct) (s : Side) : Prop :=
  (acts.filterMap (PairAct.pushes s)).Pairwise (fun f g => f.arrivedAt + 10000000 ≤ g.arrivedAt)

instance (acts : List PairAct) (s : Side) : Decidable (Spaced acts s) := inferInstanceAs (Decidable (List.Pairwise _ _))

theorem span_of_spaced (g : PendingFrame) : ∀ (f : PendingFrame) (l : List PendingFrame),
    (f :: (l ++ [g])).Pairwise (fun f g => f.arrivedAt + 10000000 ≤ g.arrivedAt) →
      f.arrivedAt + (l.length + 1) * 10000000 ≤ g.arrivedAt
  | f, [], h => by
    have hfg := (List.pairwise_cons.1 h).1 g (by simp)
    simpa using hfg
  | f, x :: l, h => by
    obtain ⟨hf, ht⟩ := List.pairwise_cons.1 h
    have hx := hf x (by simp)
    have hspan := span_of_spaced g x l ht
    rw [List.length_cons, Nat.cast_succ]
    omega

/-- A frame that a push has just brought in, on a side whose oldest one may still wait, is one of at most eleven. -/
theorem count_le_of_fresh {f : PendingFrame} {now : Int}
    (hb : Booked (acts ++ [.push s f now]) ⟨r.pairer.enqueue s f, r.out⟩) (hroom : r.pairer.countOf s < kRingCapacity)
    (hspaced : Spaced (acts ++ [.push s f now]) s) (htimed : f.arrivedAt ≤ now)
    (hcfg : r.pairer.cfg.desyncTimeoutMs ≤ 100) (hfresh : (r.pairer.enqueue s f).expired s now = false) :
    (r.pairer.enqueue s f).countOf s ≤ 11 := by
  have hpush := r.pairer.enqueue_toList f hroom
  have hpw := hb.pairwise hspaced
  have hcount : (r.pairer.enqueue s f).countOf s = (r.held s).length + 1 := by
    rw [r.pairer.enqueue_countOf_self f hroom, held, DropRing.length_toList]
    rfl
  rw [held, hpush] at hpw
  change (r.held s ++ [f]).Pairwise _ at hpw
  cases hheld : r.held s with
  | nil =>
    rw [hcount, hheld]
    decide
  | cons x l =>
    rw [hheld] at hpw
    have hspan := span_of_spaced f x l hpw
    have hfront : (r.pairer.enqueue s f).front s = x := by
      have hne : (r.pairer.enqueue s f).countOf s ≠ 0 := by omega
      have hcons := DropRing.toList_advance hne
      rw [hpush] at hcons
      change r.held s ++ [f] = _ at hcons
      rw [hheld] at hcons
      exact (List.cons.inj hcons).1.symm
    rw [hcount, hheld, List.length_cons]
    simp only [StereoFramePairer.expired, hfront, Bool.and_eq_false_iff, decide_eq_false_iff_not] at hfresh
    have hwait := hfresh.resolve_left (by omega)
    rw [Int.tdiv_eq_ediv_of_nonneg (by omega)] at hwait
    have hcfg' : (r.pairer.enqueue s f).cfg.desyncTimeoutMs = r.pairer.cfg.desyncTimeoutMs := rfl
    omega

end Recording

def StereoFramePairer.waiting (p : StereoFramePairer) : Nat := p.countOf .left + p.countOf .right

theorem StereoFramePairer.waiting_eq (p : StereoFramePairer) (s : Side) :
    p.waiting = p.countOf s + p.countOf s.other := by
  cases s
  · rfl
  · exact Nat.add_comm _ _

/-- A call leaves at most eleven of twelve frames: it emits, or the frames are on one side and none is late. -/
theorem StereoFramePairer.tryEmit_waiting {p : StereoFramePairer} {now : Int} (h : p.waiting ≤ 12)
    (hfresh : ∀ s, p.countOf s.other = 0 → p.expired s now = false → p.countOf s ≤ 11) :
    (p.tryEmit now).2.waiting ≤ 11 := by
  have hfill : ∀ s, p.countOf s ≠ 0 → (p.emitSilenceFill s).2.waiting ≤ 11 := fun s hne => by
    obtain ⟨hs, ho⟩ := p.emitSilenceFill_countOf s
    rw [waiting_eq _ s] at h ⊢
    omega
  have hd := p.tryEmit_decides now
  generalize p.tryEmit now = out at hd ⊢
  cases hd with
  | pair both near =>
    have hl := both .left
    have hl' := p.emitPair_countOf p.frontDiff .left
    have hr' := p.emitPair_countOf p.frontDiff .right
    unfold waiting at *
    dsimp only
    omega
  | apart both far => exact hfill _ (both _)
  | late s old alone => exact hfill s (countOf_ne_zero_of_expired old)
  | wait s empty fresh =>
    have hs := hfresh s empty fresh
    rw [waiting_eq _ s, empty]
    exact hs

namespace Recording

theorem Spaced.of_append {acts acts' : List PairAct} {s : Side} (h : Spaced (acts ++ acts') s) : Spaced acts s := by
  rw [Spaced, List.filterMap_append] at h
  exact (List.pairwise_append.1 h).1

/-- One call of a calm run: at most eleven frames wait after it, and it drops none. -/
theorem waiting_step {cfg : PairerConfig} (hcfg : cfg.desyncTimeoutMs ≤ 100) {acts : List PairAct} {a : PairAct}
    (hspaced : ∀ s, Spaced (acts ++ [a]) s) (htimed : a.Timed) (hw : (after cfg acts).pairer.waiting ≤ 11) :
    (after cfg (acts ++ [a])).pairer.waiting ≤ 11 ∧
    ∀ s, (after cfg (acts ++ [a])).drops s = (after cfg acts).drops s := by
  have hlen : ∀ s, ((after cfg acts).held s).length ≤ 11 := fun s => by
    rw [StereoFramePairer.waiting_eq _ s] at hw
    rw [held, DropRing.length_toList]
    exact (Nat.le_add_right _ _).trans hw
  refine ⟨?_, fun s => ?_⟩
  · rw [after_append]
    cases a with
    | tick now =>
      refine StereoFramePairer.tryEmit_waiting (Nat.le_succ_of_le hw) (fun s _ _ => ?_)
      rw [StereoFramePairer.waiting_eq _ s] at hw
      exact (Nat.le_add_right _ _).trans hw
    | push s f now =>
      have hroom : (after cfg acts).pairer.countOf s < kRingCapacity := by
        have := hlen s
        rw [held, DropRing.length_toList] at this
        exact Nat.lt_of_le_of_lt this (by decide)
      have hself := (after cfg acts).pairer.enqueue_countOf_self f hroom
      have hother : ((after cfg acts).pairer.enqueue s f).countOf s.other = (after cfg acts).pairer.countOf s.other := by
        rw [StereoFramePairer.countOf, StereoFramePairer.enqueue_ring_of_ne _ s.other_ne]
        rfl
      refine StereoFramePairer.tryEmit_waiting ?_ (fun s' hempty hfresh => ?_)
      · rw [StereoFramePairer.waiting_eq _ s] at hw ⊢
        omega
      · by_cases hs : s' = s
        · subst hs
          exact count_le_of_fresh ((booked_after cfg acts).enqueue s' f now) hroom (hspaced s') htimed
            ((cfg_after cfg acts).symm ▸ hcfg) hfresh
        · -- the side of the push is not empty
          rw [Side.eq_other_of_ne hs, Side.other_other, hself] at hempty
          omega
  · rw [after_append, drops_step, if_neg, List.append_nil]
    rintro ⟨_, hfull⟩
    have := hlen s
    rw [hfull] at this
    exact absurd this (by decide)

/-- **The pairer does not overflow under normal timing.**  With a desync timeout of at most 100 ms, and pushes of a side
at least 10 ms apart, no run drops a frame, whatever the timestamps. -/
theorem no_drop_of_spaced (cfg : PairerConfig) (hcfg : cfg.desyncTimeoutMs ≤ 100) (acts : List PairAct)
    (hspaced : ∀ s, Spaced acts s) (htimed : ∀ a ∈ acts, a.Timed) : (after cfg acts).pairer.droppedCount = 0 := by
  have hcalm : (after cfg acts).pairer.waiting ≤ 11 ∧ ∀ s, (after cfg acts).drops s = [] := by
    induction acts using List.reverseRecOn with
    | nil => exact ⟨Nat.zero_le _, fun _ => rfl⟩
    | append_singleton acts a ih =>
      obtain ⟨hw, hd⟩ := ih (fun s => (hspaced s).of_append) (fun b hb => htimed b (List.mem_append_left _ hb))
      obtain ⟨hw', hd'⟩ := waiting_step hcfg hspaced (htimed a (by simp)) hw
      exact ⟨hw', fun s => (hd' s).trans (hd s)⟩
  rw [(booked_after cfg acts).dropped, hcalm.2, hcalm.2]
  rfl

/-- A left frame every 10 ms for 120 ms, with nothing on the right. -/
def leftOnly : List PairAct := (List.range 12).map (fun k => .push .left ⟨80 * k, 10000000 * k, []⟩ (10000000 * k))

theorem no_drop_of_spaced_leftOnly : (after ⟨8000, 5, 100⟩ leftOnly).pairer.droppedCount = 0 := by
  refine no_drop_of_spaced ⟨8000, 5, 100⟩ (by decide) leftOnly (fun s => ?_) (fun a ha => ?_)
  · cases s <;> decide
  · obtain ⟨k, _, rfl⟩ := List.mem_map.1 ha
    exact Int.le_refl _

end Recording
end Media
end Osw
