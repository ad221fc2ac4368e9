import OpenSwitch.Registration
/-!
# WriterDrain — what a stream has written when its writer loop returns

What enters a send queue is written, is in the hand of the writer or waits in the queue (`Feed.Conserved`), as long as
the client stays connected, no write fails, and every popped entry parses as an envelope: `WriterLoop` drops one that does
not, with a warning, and goes on.  It returns when a wait gave nothing and the subscriber is closed, but a push and
a close request both fit between the wait and the look at the flag, and then the entry stays in the queue.  When the
queue is still empty at that look, everything pushed so far has been written, in order (`pushed_written`).
-/
namespace Osw
namespace Events

/-! ## What enters a queue -/

namespace Feed

/-- The bytes pushed to the queue, in order. -/
def pushed (f : Feed) : List Bytes := f.log.filterMap (·.entry.envelopeBytes)

/-- Nothing but pushes happened to the queue. -/
def Grew (f f' : Feed) : Prop :=
  ∃ bs, f'.pushed = f.pushed ++ bs ∧ f'.sub.queue.q = f.sub.queue.q ++ bs ∧ f'.written = f.written

variable {f f' : Feed}

theorem Grew.refl (f : Feed) : Grew f f := ⟨[], (List.append_nil _).symm, (List.append_nil _).symm, rfl⟩

theorem Grew.trans {g h : Feed} (hfg : Grew f g) (hgh : Grew g h) : Grew f h := by
  obtain ⟨bs, hp, hq, hw⟩ := hfg
  obtain ⟨cs, hp', hq', hw'⟩ := hgh
  exact ⟨bs ++ cs, by rw [hp', hp, List.append_assoc], by rw [hq', hq, List.append_assoc], hw'.trans hw⟩

theorem Grew.pushed_prefix (h : Grew f f') : f.pushed <+: f'.pushed := by
  obtain ⟨bs, hp, _⟩ := h
  exact ⟨bs, hp.symm⟩

theorem Grew.written_eq (h : Grew f f') : f'.written = f.written := by
  obtain ⟨_, _, _, hw⟩ := h
  exact hw

theorem closeStep_grew (f : Feed) (st : CloseStage) : Grew f (f.closeStep st) := by
  cases st <;> exact .refl f

theorem requestClose_grew (f : Feed) (r : KickReason) : Grew f (f.requestClose r) := .refl f

theorem tryPush_grew {o : Origin} {t : Tier} {e : RingEntry} (h : f.tryPush o t e = some f') : Grew f f' := by
  unfold tryPush at h
  split at h
  · cases h
  · rename_i b hb
    obtain ⟨q, hq, rfl⟩ := Option.map_eq_some_iff.1 h
    unfold SendQueue.tryPush at hq
    split at hq
    · cases hq
    · split at hq <;> cases hq
      refine ⟨[b], ?_, rfl, rfl⟩
      simp only [pushed, List.filterMap_append, List.filterMap_cons, List.filterMap_nil, hb]

/-- What was pushed was written, is in the hand of the writer or waits in the queue, in this order. -/
def Conserved (f : Feed) (hand : List Bytes) : Prop := f.pushed = f.written ++ hand ++ f.sub.queue.q

theorem Conserved.grew {hand : List Bytes} (hc : f.Conserved hand) (h : Grew f f') : f'.Conserved hand := by
  obtain ⟨bs, hp, hq, hw⟩ := h
  rw [Conserved, hp, hq, hw, hc, List.append_assoc]

theorem conserved_make (filter : SubscriberFilter) (capacity : Nat) : (make filter capacity).Conserved [] := rfl

end Feed

theorem replayEntries_grew (t : Tier) : ∀ (es : List RingEntry) (f : Feed), f.Grew (replayEntries t es f).2
  | [], f => .refl f
  | e :: es, f => by
    unfold replayEntries
    split
    · cases hp : f.tryPush .replay t e with
      | none => exact f.requestClose_grew _
      | some f' => exact (Feed.tryPush_grew hp).trans (replayEntries_grew t es f')
    · exact replayEntries_grew t es f

theorem replayTier_grew (r : Ring) (t : Tier) (sinceSeq : Nat) (f : Feed) : f.Grew (replayTier r t sinceSeq f).2 := by
  unfold replayTier
  dsimp only
  split
  · exact replayEntries_grew t _ f
  · exact f.requestClose_grew _

/-- What the writer of a call has popped and not yet written; `none` once it is on its way out. -/
def Handler.inHand : Handler → Option (List Bytes)
  | .writing b => some [b]
  | .cancelling _ | .removing _ _ | .returned _ => none
  | _ => some []

namespace Plane

variable {s s' : Plane} {i : Nat} {a : PlaneAct} {hand : List Bytes}

/-- The call is out of its writer loop. -/
def left (s : Plane) (i : Nat) : Prop := s.phase i = .leaving ∨ s.phase i = .gone

theorem inHand_update (s : Plane) (i : Nat) (h : Handler) (H : s'.handler = Function.update s.handler i h) :
    (s'.handler i).inHand = h.inHand := by
  rw [H, Function.update_self]

/-! ## The other threads -/

theorem grew_update {F : Nat → Feed} {j : Nat} {f : Feed} (hf : (F j).Grew f) (i : Nat) :
    (F i).Grew (Function.update F j f i) := by
  by_cases hij : i = j
  · subst hij
    rwa [Function.update_self]
  · rw [Function.update_of_ne hij]
    exact .refl _

theorem workerStep_grew {t : Tier} (h : s.workerStep t = some s') (i : Nat) : (s.feeds i).Grew (s'.feeds i) := by
  rcases workerStep_cases h with ⟨_, rfl⟩ | ⟨_, rfl⟩ | ⟨_, rfl⟩ | ⟨e, es, _, _, rfl⟩ | ⟨roster, e, es, stage, _, rfl⟩ |
    ⟨roster, e, es, j, rest, stage, _, rfl⟩
  iterate 4 · exact .refl _
  · cases es <;> exact .refl _
  · rcases s.dispatchTo_cases t roster e es j rest stage with ⟨_, _, hd⟩ | ⟨_, _, _, hd⟩ | ⟨_, f, hp, hd⟩ | ⟨_, _, hd⟩ |
      ⟨st, _, hd⟩ | ⟨_, hd⟩ <;> rw [hd]
    · exact .refl _
    · exact .refl _
    · exact grew_update (Feed.tryPush_grew hp) i
    · exact .refl _
    · exact grew_update (Feed.closeStep_grew _ _) i
    · exact .refl _

theorem stopStep_grew (h : s.stopStep = some s') (i : Nat) : (s.feeds i).Grew (s'.feeds i) := by
  obtain ⟨_, _, _, _, rfl, _, rfl | ⟨j, st, rfl⟩⟩ := stopStep_frame h
  · exact .refl _
  · exact grew_update (Feed.closeStep_grew _ _) i

theorem step_grew (h : s.step a = some s') (ha : ∀ c, a ≠ .handler i c) :
    (s'.handler i = s.handler i ∧ (s.feeds i).Grew (s'.feeds i)) ∨
    (s.handler i = .absent ∧
      ((∃ st, s'.handler i = .returned st) ∨
       (s'.handler i).inHand = some [] ∧ ∃ filter c, s'.feeds i = .make filter c)) := by
  have same : s'.handler = s.handler → s'.feeds = s.feeds →
      s'.handler i = s.handler i ∧ (s.feeds i).Grew (s'.feeds i) := fun hh hf => by rw [hh, hf]; exact ⟨rfl, .refl _⟩
  cases a with
  | alloc n t => exact .inl (same (alloc_subscribers h).1.handler (alloc_subscribers h).1.feeds)
  | build n bytes => exact .inl (same (build_subscribers h).1.handler (build_subscribers h).1.feeds)
  | push n =>
    obtain ⟨_, _, _, hs, _⟩ := push_cases h
    exact .inl (same hs.handler hs.feeds)
  | count n => exact .inl (same (count_subscribers h).1.handler (count_subscribers h).1.feeds)
  | worker t => exact .inl ⟨by rw [(workerStep_sameBut h).handler], workerStep_grew h i⟩
  | subscribe j req =>
    obtain ⟨habs, ⟨st, rfl⟩ | ⟨filter, c, tiers, rfl⟩⟩ := subscribe_cases h
    · by_cases hij : i = j
      · subst hij
        exact .inr ⟨habs, .inl ⟨st, Function.update_self ..⟩⟩
      · exact .inl ⟨Function.update_of_ne hij .., .refl _⟩
    · by_cases hij : i = j
      · subst hij
        exact .inr ⟨habs, .inr ⟨by rw [inHand_update s i _ rfl]; rfl, filter, c, Function.update_self ..⟩⟩
      · exact .inl ⟨Function.update_of_ne hij .., by simp only [Function.update_of_ne hij]; exact .refl _⟩
  | addSubscriber j filter c =>
    obtain ⟨habs, -, rfl⟩ := addSubscriber_cases h
    by_cases hij : i = j
    · subst hij
      exact .inr ⟨habs, .inr ⟨by rw [inHand_update s i _ rfl]; rfl, filter, c, Function.update_self ..⟩⟩
    · exact .inl ⟨Function.update_of_ne hij .., by simp only [Function.update_of_ne hij]; exact .refl _⟩
  | handler j c =>
    have hij : i ≠ j := fun hij => ha c (hij ▸ rfl)
    exact .inl ⟨(handlerStep_ne h hij).1, by rw [(handlerStep_ne h hij).2]; exact .refl _⟩
  | requestClose n j r =>
    simp only [step, requestClose] at h
    split at h <;> cases h
    exact .inl ⟨rfl, .refl _⟩
  | closer n =>
    refine .inl ⟨by rw [(closerStep_calls h).handler], ?_⟩
    simp only [step, closerStep] at h
    split at h <;> cases h
    exact grew_update (Feed.closeStep_grew _ _) i
  | stop => exact .inl ⟨by rw [(stopStep_calls h).handler], stopStep_grew h i⟩

/-! ## The writer -/

/-- A move of a call that is still to come out of its writer loop and has `hand` in its hand. -/
inductive WriterMove (s s' : Plane) (i : Nat) (hand : List Bytes) : Prop
  | grow (hh : (s'.handler i).inHand = some hand) (hp : s.phase i = .streaming → s'.phase i = .streaming)
      (hf : (s.feeds i).Grew (s'.feeds i))
  | take (b : Bytes) (q : List Bytes) (he : hand = []) (hh : (s'.handler i).inHand = some [b])
      (hp : s'.phase i = .streaming) (hq : (s.feeds i).sub.queue.q = b :: q)
      (hf : s'.feeds i = { s.feeds i with sub := { (s.feeds i).sub with queue := { (s.feeds i).sub.queue with q := q } } })
  | write (b : Bytes) (he : hand = [b]) (hh : (s'.handler i).inHand = some []) (hp : s'.phase i = .streaming)
      (hf : s'.feeds i = { s.feeds i with written := (s.feeds i).written ++ [b] })
  | leave (he : hand = []) (hh : s.handler i = .gotNothing) (hc : (s.feeds i).sub.isClosed = true)
      (hp : s'.phase i = .leaving) (hf : s'.feeds i = s.feeds i)
  | withdraw (hp : s.phase i = .refused) (hp' : s'.phase i = .leaving)

theorem handlerStep_writer {c : Client} (h : s.handlerStep i c = some s') (hin : (s.handler i).inHand = some hand)
    (hgone : c ≠ .gone) (hbad : c = .badBytes → hand = []) : WriterMove s s' i hand := by
  cases turn_of_handlerStep h with
  | lock sinceSeq tiers hh =>
    rw [hh] at hin
    cases hin
    refine .grow ?_ (fun hp => by rw [phase, hh] at hp; cases hp) (.refl _)
    simp only [Function.update_self]
    split <;> rfl
  | replayed sinceSeq tiers hh =>
    rw [hh] at hin
    cases hin
    exact .grow (by rw [inHand_update s i _ rfl]; rfl) (fun hp => by rw [phase, hh] at hp; cases hp) (.refl _)
  | skip sinceSeq tiers t todo hh =>
    rw [hh] at hin
    cases hin
    exact .grow (by rw [inHand_update s i _ rfl]; rfl) (fun hp => by rw [phase, hh] at hp; cases hp) (.refl _)
  | replay sinceSeq tiers t todo r hh =>
    rw [hh] at hin
    cases hin
    refine .grow ?_ (fun hp => by rw [phase, hh] at hp; cases hp) (grew_update (replayTier_grew r t sinceSeq _) i)
    simp only [Function.update_self]
    split <;> rfl
  | join sinceSeq tiers replayOk hh =>
    rw [hh] at hin
    cases hin
    cases replayOk with
    | true =>
      exact .grow (by rw [inHand_update s i _ rfl]; rfl) (fun _ => by rw [phase_update s i _ rfl]; rfl) (.refl _)
    | false => exact .withdraw (by rw [phase, hh]; rfl) (by rw [phase_update s i _ rfl]; rfl)
  | take b q hh hq =>
    rw [hh] at hin
    cases hin
    exact .take b q rfl (by rw [inHand_update s i _ rfl]; rfl) (by rw [phase_update s i _ rfl]; rfl) hq
      (Function.update_self ..)
  | leave hh hc =>
    rw [hh] at hin
    cases hin
    exact .leave rfl hh hc (by rw [phase_update s i _ rfl]; rfl) rfl
  | wrote b hh =>
    rw [hh] at hin
    cases hin
    exact .write b rfl (by rw [inHand_update s i _ rfl]; rfl) (by rw [phase_update s i _ rfl]; rfl) (Function.update_self ..)
  | poll hh =>
    rw [hh] at hin
    cases hin
    rw [if_neg hgone]
    exact .grow (by rw [inHand_update s i _ rfl]; rfl) (fun _ => by rw [phase_update s i _ rfl]; rfl) (.refl _)
  | idle hh | again hh =>
    rw [hh] at hin
    cases hin
    exact .grow (by rw [inHand_update s i _ rfl]; rfl) (fun _ => by rw [phase_update s i _ rfl]; rfl) (.refl _)
  | unparsed b hh bad =>
    rw [hh] at hin
    cases hin
    cases hbad bad
  | lost _ _ gone => exact absurd gone hgone
  | cancel _ _ hh | cancelled _ hh | remove _ _ hh =>
    rw [hh] at hin
    cases hin

theorem left_step (h : s.step a = some s') (hl : s.left i) :
    s'.left i ∧ (s'.feeds i).written = (s.feeds i).written := by
  by_cases ha : ∃ c, a = .handler i c
  · obtain ⟨c, rfl⟩ := ha
    cases hh : s.handler i with
    | removing reason detail =>
      simp only [step, handlerStep, hh] at h
      split at h <;> cases h
      exact ⟨.inr (by rw [phase_update s i _ rfl]; rfl), rfl⟩
    | returned st =>
      simp only [step, handlerStep, hh] at h
      cases h
    | joining sinceSeq tiers replayOk => cases replayOk <;> (rw [left, phase, hh] at hl; rcases hl with hl | hl <;> cases hl)
    | _ => rw [left, phase, hh] at hl; rcases hl with hl | hl <;> cases hl
  · rcases step_grew h (fun c hc => ha ⟨c, hc⟩) with ⟨hh, hf⟩ | ⟨habs, _⟩
    · exact ⟨by rwa [left, phase, hh], hf.written_eq⟩
    · rw [left, phase, habs] at hl
      rcases hl with hl | hl <;> cases hl

/-- The client of call `i` stays connected, and no write to it fails. -/
def connected (i : Nat) (_ : Plane) : PlaneAct → Bool
  | .handler j c => decide (j = i → c ≠ .gone)
  | _ => true

/-- Every entry the writer of call `i` has popped parses. -/
def parses (i : Nat) (s : Plane) : PlaneAct → Bool
  | .handler j c => decide (j = i → c = .badBytes → (s.handler i).inHand.getD [] = [])
  | _ => true

/-- When the writer of call `i`, with nothing from its last wait, finds the subscriber closed, the queue is empty. -/
def leavesEmpty (i : Nat) (s : Plane) : PlaneAct → Bool
  | .handler j _ =>
    decide (j = i → s.handler i = .gotNothing → (s.feeds i).sub.isClosed = true → (s.feeds i).sub.queue.q = [])
  | _ => true

theorem WriterMove.keeps (hm : WriterMove s s' i hand) (hc : (s.feeds i).Conserved hand) :
    (∃ hand', (s'.handler i).inHand = some hand' ∧ (s'.feeds i).Conserved hand' ∧
      (s.feeds i).pushed <+: (s'.feeds i).pushed ∧ (s.phase i = .streaming → s'.phase i = .streaming)) ∨
    (s'.phase i = .leaving ∧
      (s.phase i = .refused ∨
       hand = [] ∧ s.handler i = .gotNothing ∧ (s.feeds i).sub.isClosed = true ∧ s'.feeds i = s.feeds i)) := by
  cases hm with
  | grow hh hp hf => exact .inl ⟨hand, hh, hc.grew hf, hf.pushed_prefix, hp⟩
  | take b q he hh hp hq hf =>
    subst he
    refine .inl ⟨[b], hh, ?_, by rw [hf]; exact List.prefix_rfl, fun _ => hp⟩
    rw [Feed.Conserved, hf]
    refine hc.trans ?_
    simp only [hq, List.append_nil, List.append_assoc, List.cons_append, List.nil_append]
  | write b he hh hp hf =>
    subst he
    refine .inl ⟨[], hh, ?_, by rw [hf]; exact List.prefix_rfl, fun _ => hp⟩
    rw [Feed.Conserved, hf]
    exact hc.trans (by rw [List.append_nil])
  | leave he hh hcl hp hf => exact .inr ⟨hp, .inr ⟨he, hh, hcl, hf⟩⟩
  | withdraw hp hp' => exact .inr ⟨hp', .inl hp⟩

/-- A call is out of its writer loop, or nothing pushed to it is lost. -/
def Flowing (i : Nat) (s : Plane) : Prop :=
  s.left i ∨ ∃ hand, (s.handler i).inHand = some hand ∧ (s.feeds i).Conserved hand

theorem flowing_init (m c : Nat) (capacity : Tier → Nat) (i : Nat) : Flowing i (init m c capacity) := .inr ⟨[], rfl, rfl⟩

/-- A handler step of call `i` under the two conditions on what its client and its entries do. -/
theorem writerMove_of_step {c : Client} (h : s.step (.handler i c) = some s') (hin : (s.handler i).inHand = some hand)
    (hconn : connected i s (.handler i c) = true) (hpar : parses i s (.handler i c) = true) :
    WriterMove s s' i hand := by
  refine handlerStep_writer h hin (of_decide_eq_true hconn rfl) (fun hbad => ?_)
  simpa only [hin, Option.getD_some] using of_decide_eq_true hpar rfl hbad

theorem Flowing.step (hs : Flowing i s) (hconn : connected i s a = true) (hpar : parses i s a = true)
    (h : s.step a = some s') : Flowing i s' := by
  rcases hs with hl | ⟨hand, hh, hc⟩
  · exact .inl (left_step h hl).1
  · by_cases ha : ∃ c, a = .handler i c
    · obtain ⟨c, rfl⟩ := ha
      rcases (writerMove_of_step h hh hconn hpar).keeps hc with ⟨hand', hh', hc', _⟩ | ⟨hp, _⟩
      · exact .inr ⟨hand', hh', hc'⟩
      · exact .inl (.inl hp)
    · rcases step_grew h (fun c hc => ha ⟨c, hc⟩) with ⟨hh', hf⟩ | ⟨-, ⟨st, hr⟩ | ⟨hh', filter, c, hf⟩⟩
      · exact .inr ⟨hand, by rw [hh', hh], hc.grew hf⟩
      · exact .inl (.inr (by rw [phase, hr]; rfl))
      · exact .inr ⟨[], hh', by rw [hf]; exact Feed.conserved_make ..⟩

/-- Call `i` is in its writer loop with `bs` among what was pushed to it, or is out of it with `bs` written. -/
def Drains (i : Nat) (bs : List Bytes) (s : Plane) : Prop :=
  (s.left i ∧ bs <+: (s.feeds i).written) ∨
  (s.phase i = .streaming ∧ bs <+: (s.feeds i).pushed ∧
    ∃ hand, (s.handler i).inHand = some hand ∧ (s.feeds i).Conserved hand)

theorem Drains.step {bs : List Bytes} (hs : Drains i bs s) (hconn : connected i s a = true) (hpar : parses i s a = true)
    (hempty : leavesEmpty i s a = true) (h : s.step a = some s') : Drains i bs s' := by
  rcases hs with ⟨hl, hbs⟩ | ⟨hp, hbs, hand, hh, hc⟩
  · obtain ⟨hl', hw⟩ := left_step h hl
    exact .inl ⟨hl', by rw [hw]; exact hbs⟩
  · by_cases ha : ∃ c, a = .handler i c
    · obtain ⟨c, rfl⟩ := ha
      rcases (writerMove_of_step h hh hconn hpar).keeps hc with ⟨hand', hh', hc', hpre, hp'⟩ | ⟨hp', hr | ⟨he, hgot, hcl, hf⟩⟩
      · exact .inr ⟨hp' hp, hbs.trans hpre, hand', hh', hc'⟩
      · rw [hp] at hr
        cases hr
      · -- nothing in the hand and nothing in the queue: all that was pushed is written
        have hq : (s.feeds i).sub.queue.q = [] := of_decide_eq_true hempty rfl hgot hcl
        rw [Feed.Conserved, he, hq, List.append_nil, List.append_nil] at hc
        exact .inl ⟨.inl hp', by rw [hf, ← hc]; exact hbs⟩
    · rcases step_grew h (fun c hc => ha ⟨c, hc⟩) with ⟨hh', hf⟩ | ⟨habs, _⟩
      · exact .inr ⟨by rw [phase, hh']; exact hp, hbs.trans hf.pushed_prefix, hand, by rw [hh', hh], hc.grew hf⟩
      · rw [phase, habs] at hp
        cases hp

/-- **Queued events are written before a stream ends**: when the client of a call stays connected and no write fails,
every popped entry parses, and the queue is empty whenever the writer finds the subscriber closed, everything pushed up
to any moment at which the call is in its writer loop has been written, in order, when the loop has returned. -/
theorem pushed_written (m c : Nat) (capacity : Tier → Nat) (i : Nat) (as bs : List PlaneAct) (s s' : Plane)
    (hrun : Run.exec step as (init m c capacity) = some s) (hrun' : Run.exec step bs s = some s')
    (hconnected : Run.along step (connected i) (as ++ bs) (init m c capacity) = true)
    (hparses : Run.along step (parses i) (as ++ bs) (init m c capacity) = true)
    (hempty : Run.along step (leavesEmpty i) (as ++ bs) (init m c capacity) = true)
    (hloop : s.phase i = .streaming) (hleft : s'.left i) : (s.feeds i).pushed <+: (s'.feeds i).written := by
  obtain ⟨hwrites, hwrites'⟩ := Run.along_append (Run.along_and hconnected hparses) hrun
  have hflow : Flowing i s := by
    refine Run.exec_inv_along ?_ as _ s (flowing_init m c capacity i) hwrites hrun
    intro s a s' hi hg hs
    obtain ⟨hconn, hpar⟩ := Bool.and_eq_true_iff.1 hg
    exact hi.step hconn hpar hs
  have hstart : Drains i (s.feeds i).pushed s := by
    rcases hflow with hl | hflow
    · rw [left, hloop] at hl
      rcases hl with hl | hl <;> cases hl
    · exact .inr ⟨hloop, List.prefix_rfl, hflow⟩
  have hend : Drains i (s.feeds i).pushed s' := by
    refine Run.exec_inv_along ?_ bs s s' hstart (Run.along_and hwrites' (Run.along_append hempty hrun).2) hrun'
    intro s a s' hi hg hs
    obtain ⟨hw, hemp⟩ := Bool.and_eq_true_iff.1 hg
    obtain ⟨hconn, hpar⟩ := Bool.and_eq_true_iff.1 hw
    exact hi.step hconn hpar hemp hs
  rcases hend with ⟨_, hbs⟩ | ⟨hp, _⟩
  · exact hbs
  · rw [left, hp] at hleft
    rcases hleft with hl | hl <;> cases hl

/-- The wait of a writer times out, and a worker pushes an event to its queue. -/
def pushAfterWait : List PlaneAct :=
  [.addSubscriber 0 ⟨[], [], [], []⟩ 4, .handler 0 .ok, .handler 0 .ok, .alloc 0 .critical, .build 0 (some [1]), .push 0,
    .count 0, .count 0] ++ List.replicate 5 (.worker .critical)

/-- The writer takes `n` steps, and then its next one after a `Stop` has closed the subscriber. -/
def stopAfterTurns (n : Nat) : List PlaneAct :=
  List.replicate n (.handler 0 .ok) ++
    [.stop, .worker .critical, .worker .critical, .worker .state, .worker .ephemeral] ++ List.replicate 8 .stop ++
    [.handler 0 .ok]

theorem pushed_written_pushAfterWait :
    (Run.exec step (pushAfterWait ++ stopAfterTurns 6) (init 0 0 (fun _ => 4))).map (fun s =>
        (s.phase 0, (s.feeds 0).written)) = some (.leaving, [[1]]) ∧
    ∀ s s', Run.exec step pushAfterWait (init 0 0 (fun _ => 4)) = some s → Run.exec step (stopAfterTurns 6) s = some s' →
      s.phase 0 = .streaming → s'.left 0 → (s.feeds 0).pushed <+: (s'.feeds 0).written :=
  ⟨by decide +kernel, fun s s' hs hs' hp hl => pushed_written 0 0 (fun _ => 4) 0 pushAfterWait (stopAfterTurns 6) s s' hs hs'
    (by decide +kernel) (by decide +kernel) (by decide +kernel) hp hl⟩

/-- The event is in the queue of an open subscriber before `Stop` begins, and is not written when the writer returns: it
is still queued where the writer looks at the flag next, and dropped where the writer popped it and it did not parse. -/
theorem pushAfterWait_stranded :
    (Run.exec step pushAfterWait (init 0 0 (fun _ => 4))).map (fun s =>
        (s.phase 0, (s.feeds 0).sub.isClosed, (s.feeds 0).pushed)) = some (.streaming, false, [[1]]) ∧
    (Run.exec step (pushAfterWait ++ stopAfterTurns 0) (init 0 0 (fun _ => 4))).map (fun s =>
        (s.phase 0, (s.feeds 0).sub.kickReason, (s.feeds 0).written, (s.feeds 0).sub.queue.q))
      = some (.leaving, .shutdown, [], [[1]]) ∧
    (Run.exec step (pushAfterWait ++ List.replicate 3 (.handler 0 .ok) ++ [.handler 0 .badBytes] ++ stopAfterTurns 2)
        (init 0 0 (fun _ => 4))).map (fun s =>
        (s.phase 0, (s.feeds 0).sub.kickReason, (s.feeds 0).written, (s.feeds 0).sub.queue.q))
      = some (.leaving, .shutdown, [], []) :=
  ⟨by decide +kernel, by decide +kernel, by decide +kernel⟩

end Plane
end Events
end Osw
