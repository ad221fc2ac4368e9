import OpenSwitch.GapFree
import OpenSwitch.SeqOrder
import OpenSwitch.WriterDrain
/-!
# Provenance — where the bytes on a subscriber's stream come from

Entries are made in one place only, by the `HandleEvent` call that builds them; from there they move along the line of
their tier, and out of it into the queues of the subscribers that want them.  So what holds of every entry when it is
built holds of whatever a subscriber is sent (`Provenance.step`), and a stream is written a subsequence of what entered
its queue, whatever the client does.
-/
namespace Osw
namespace Events

/-! ## What a replay adds -/

theorem mem_snapshotFromSeq {r : Ring} {sinceSeq : Nat} {e : RingEntry} (h : e ∈ (r.snapshotFromSeq sinceSeq).entries) :
    e ∈ r.q := by
  unfold Ring.snapshotFromSeq at h
  split at h
  · split at h <;> cases h
  · rename_i front rest hq
    dsimp only at h
    split at h
    · cases h
    · split at h
      · cases h
      · dsimp only at h
        rw [hq]
        exact List.mem_of_mem_filter h

/-- What a replay puts into a queue is of the snapshot, and passes the filter. -/
theorem replayEntries_log (t : Tier) : ∀ (es : List RingEntry) (f : Feed), ∀ d ∈ (replayEntries t es f).2.log,
    d ∈ f.log ∨ (d.tier = t ∧ d.entry ∈ es ∧ f.sub.filter.wants t d.entry = true)
  | [], _, d, hd => .inl hd
  | e :: es, f, d, hd => by
    unfold replayEntries at hd
    split at hd
    · rename_i hw
      cases hp : f.tryPush .replay t e with
      | none =>
        rw [hp] at hd
        exact .inl hd
      | some f' =>
        rw [hp] at hd
        obtain ⟨hfilter, _, _, hlog⟩ := Feed.tryPush_some hp
        rcases replayEntries_log t es f' d hd with hmem | ⟨ht, hmem, hw'⟩
        · rw [hlog, List.mem_append, List.mem_singleton] at hmem
          rcases hmem with hmem | rfl
          · exact .inl hmem
          · exact .inr ⟨rfl, List.mem_cons_self, hw⟩
        · exact .inr ⟨ht, List.mem_cons_of_mem _ hmem, hfilter ▸ hw'⟩
    · rcases replayEntries_log t es f d hd with hmem | ⟨ht, hmem, hw'⟩
      · exact .inl hmem
      · exact .inr ⟨ht, List.mem_cons_of_mem _ hmem, hw'⟩

theorem replayTier_log (r : Ring) (t : Tier) (sinceSeq : Nat) (f : Feed) : ∀ d ∈ (replayTier r t sinceSeq f).2.log,
    d ∈ f.log ∨ (d.tier = t ∧ d.entry ∈ r.q ∧ f.sub.filter.wants t d.entry = true) := by
  intro d hd
  unfold replayTier at hd
  dsimp only at hd
  split at hd
  · rcases replayEntries_log t _ f d hd with hmem | ⟨ht, hmem, hw⟩
    · exact .inl hmem
    · exact .inr ⟨ht, mem_snapshotFromSeq hmem, hw⟩
  · exact .inl hd

namespace Plane

variable {s s' : Plane} {i : Nat}

/-! ## From the queue to the client -/

/-- What the writer of a call has popped and may still write. -/
def hand (s : Plane) (i : Nat) : List Bytes := (s.handler i).inHand.getD []

/-- What was written to the client, and what may still be. -/
def onWay (s : Plane) (i : Nat) : List Bytes := (s.feeds i).written ++ s.hand i ++ (s.feeds i).sub.queue.q

/-- What a step does between the queue of a call and its client: pushes, a new subscriber, a pop, a write; or the writer
gives up what it has. -/
inductive WireMove (s s' : Plane) (i : Nat) : Prop
  | grow (hhand : s'.hand i = s.hand i) (hfeed : (s.feeds i).Grew (s'.feeds i))
  | make (hhand : s'.hand i = []) (filter : SubscriberFilter) (c : Nat) (hfeed : s'.feeds i = .make filter c)
  | take (b : Bytes) (q : List Bytes) (hhand : s.hand i = []) (hhand' : s'.hand i = [b])
      (hqueue : (s.feeds i).sub.queue.q = b :: q)
      (hfeed : s'.feeds i = { s.feeds i with sub := { (s.feeds i).sub with queue := { (s.feeds i).sub.queue with q := q } } })
  | write (b : Bytes) (hhand : s.hand i = [b]) (hhand' : s'.hand i = [])
      (hfeed : s'.feeds i = { s.feeds i with written := (s.feeds i).written ++ [b] })
  | drop (hhand : s'.hand i = []) (hfeed : (s.feeds i).Grew (s'.feeds i))

theorem hand_of_handler {h : Handler} (hh : s.handler i = h) : s.hand i = h.inHand.getD [] := by rw [hand, hh]

theorem hand_update {h : Handler} {bs : List Bytes} (H : s'.handler = Function.update s.handler i h)
    (hb : h.inHand.getD [] = bs) : s'.hand i = bs := by
  rw [hand, inHand_update s i h H, hb]

theorem handlerStep_wire {c : Client} (h : s.handlerStep i c = some s') : WireMove s s' i := by
  cases turn_of_handlerStep h with
  | take b q hh hq =>
    refine .take b q (hand_of_handler hh) (hand_update rfl rfl) hq ?_
    simp only [Function.update_self]
  | wrote b hh =>
    refine .write b (hand_of_handler hh) (hand_update rfl rfl) ?_
    simp only [Function.update_self]
  | replay sinceSeq tiers t todo r hh hr =>
    refine .drop (hand_update rfl ?_) ?_
    · split <;> rfl
    · simp only [Function.update_self]
      exact replayTier_grew ..
  | cancel st st2 hh hn =>
    refine .drop (hand_update rfl rfl) ?_
    simp only [Function.update_self]
    exact Feed.closeStep_grew _ _
  | cancelled st hh hn =>
    refine .drop (hand_update rfl rfl) ?_
    simp only [leave, Function.update_self]
    exact Feed.closeStep_grew _ _
  | join sinceSeq tiers replayOk hh =>
    refine .drop (hand_update rfl ?_) (.refl _)
    split <;> rfl
  | lock | poll =>
    refine .drop (hand_update rfl ?_) (.refl _)
    split <;> rfl
  | _ => exact .drop (hand_update rfl rfl) (.refl _)

/-- **What a step does between a queue and its client.** -/
theorem step_wire {a : PlaneAct} (h : s.step a = some s') (i : Nat) : WireMove s s' i := by
  have same : s'.handler i = s.handler i → (s.feeds i).Grew (s'.feeds i) → WireMove s s' i := fun hh hf =>
    .grow (by rw [hand, hand, hh]) hf
  by_cases ha : ∃ c, a = .handler i c
  · obtain ⟨c, rfl⟩ := ha
    exact handlerStep_wire h
  · rcases step_grew h (i := i) (fun c hc => ha ⟨c, hc⟩) with ⟨hh, hf⟩ | ⟨habs, ⟨st, hst⟩ | ⟨hin, filter, c, hf⟩⟩
    · exact same hh hf
    · -- a call that is refused at once has made no subscriber
      refine .drop (by rw [hand, hst]; rfl) ?_
      cases a with
      | subscribe j req =>
        obtain ⟨-, ⟨st', rfl⟩ | ⟨filter, c, tiers, rfl⟩⟩ := subscribe_cases h
        · exact .refl _
        · by_cases hij : i = j
          · subst hij
            simp at hst
          · simp [Function.update_of_ne hij, habs] at hst
      | addSubscriber j filter c =>
        obtain ⟨-, -, rfl⟩ := addSubscriber_cases h
        by_cases hij : i = j
        · subst hij
          simp at hst
        · simp [Function.update_of_ne hij, habs] at hst
      | handler j c =>
        have hij : i ≠ j := fun hij => ha ⟨c, hij ▸ rfl⟩
        rw [(handlerStep_ne h hij).1, habs] at hst
        cases hst
      | _ =>
        rw [(step_sameRegistrations h rfl).handler, habs] at hst
        cases hst
    · exact .make (by rw [hand, hin]; rfl) filter c hf

theorem WireMove.sublist (hm : WireMove s s' i) (hs : (s.onWay i).Sublist (s.feeds i).pushed) :
    (s'.onWay i).Sublist (s'.feeds i).pushed := by
  unfold onWay at hs ⊢
  cases hm with
  | grow hhand hfeed =>
    obtain ⟨bs, hp, hq, hw⟩ := hfeed
    rw [hhand, hp, hq, hw, ← List.append_assoc]
    exact hs.append_right bs
  | make hhand filter c hfeed =>
    rw [hhand, hfeed]
    exact List.Sublist.refl _
  | take b q hhand hhand' hq hfeed =>
    rw [hhand, hq] at hs
    rw [hhand', hfeed]
    simpa [Feed.pushed] using hs
  | write b hhand hhand' hfeed =>
    rw [hhand] at hs
    rw [hhand', hfeed]
    simpa [Feed.pushed] using hs
  | drop hhand hfeed =>
    obtain ⟨bs, hp, hq, hw⟩ := hfeed
    rw [hhand, hp, hq, hw, List.append_nil, ← List.append_assoc]
    refine List.Sublist.append_right (List.Sublist.trans ?_ hs) bs
    rw [List.append_assoc]
    exact List.Sublist.append_left (List.sublist_append_right _ _) _

/-! ## From the builder to the queue -/

/-- Where a `HandleEvent` call got to in a step of its own. -/
inductive CallMove (s : Plane) : PlaneAct → Nat → Call → Prop
  | alloc (n : Nat) (t : Tier) : CallMove s (.alloc n t) n (.allocated t ((s.nextSeq t + 1) % 2 ^ 64))
  | build (n : Nat) (t : Tier) (seq : Nat) (b : Bytes) (hc : s.calls.lookup n = some (.allocated t seq)) :
      CallMove s (.build n (some b)) n (.built t ⟨seq, some b⟩)
  | push (n : Nat) (t : Tier) (d : Nat) : CallMove s (.push n) n (.pushed t d)
  | count (n : Nat) : CallMove s (.count n) n .counted

theorem step_call {a : PlaneAct} (h : s.step a = some s') {n : Nat} {c : Call} (hc : s'.calls.lookup n = some c) :
    s.calls.lookup n = some c ∨ CallMove s a n c := by
  have erase : ∀ m, s'.calls = s.calls.erase m → s.calls.lookup n = some c := fun m hm => by
    rw [hm] at hc
    by_cases hnm : n = m
    · subst hnm
      rw [AList.lookup_erase] at hc
      cases hc
    · rwa [AList.lookup_erase_ne hnm] at hc
  have insert : ∀ m d, s'.calls = s.calls.insert m d → CallMove s a m d → s.calls.lookup n = some c ∨ CallMove s a n c :=
    fun m d hm hmove => by
    rw [hm] at hc
    by_cases hnm : n = m
    · subst hnm
      rw [AList.lookup_insert] at hc
      exact .inr (Option.some.inj hc ▸ hmove)
    · rw [AList.lookup_insert_ne hnm] at hc
      exact .inl hc
  have keep : s'.calls = s.calls → s.calls.lookup n = some c := fun hm => by rwa [hm] at hc
  cases a with
  | alloc m t =>
    simp only [step, alloc] at h
    split at h <;> cases h
    exact insert m _ rfl (.alloc m t)
  | build m bytes =>
    simp only [step, build] at h
    split at h
    · rename_i t seq hm
      split at h <;> cases h
      · exact .inl (erase m rfl)
      · exact insert m _ rfl (.build m t seq _ hm)
    · cases h
  | push m =>
    obtain ⟨_, _, _, _, _, _, _, _, hm⟩ := push_cases h
    exact insert m _ hm (.push m _ _)
  | count m =>
    simp only [step, count] at h
    split at h
    · cases h
      exact insert m _ rfl (.count m)
    · cases h
      exact .inl (erase m rfl)
    · cases h
  | worker t => exact .inl (keep (workerStep_sameBut h).calls)
  | stop => exact .inl (keep (stopStep_events h).1.calls)
  | _ => exact .inl (keep (step_sameEvents h rfl).calls)

/-- Every entry that is built, on its line or delivered meets `P`, what was delivered passed the filter, and what goes to
a client was delivered. -/
structure Provenance (P : Tier → RingEntry → Prop) (s : Plane) : Prop where
  built : ∀ n t e, s.calls.lookup n = some (.built t e) → P t e
  line  : ∀ t, ∀ e ∈ s.line t, P t e
  log   : ∀ i, ∀ d ∈ (s.feeds i).log, P d.tier d.entry ∧ (s.feeds i).sub.filter.wants d.tier d.entry = true
  out   : ∀ i, (s.onWay i).Sublist (s.feeds i).pushed

theorem provenance_init (P : Tier → RingEntry → Prop) (m c : Nat) (capacity : Tier → Nat) :
    Provenance P (init m c capacity) := by
  refine ⟨?_, ?_, ?_, fun i => List.Sublist.refl _⟩
  · intro n t e h
    cases h
  · intro t e he
    cases t <;> cases he
  · intro i d hd
    cases hd

/-- **What holds of an entry when it is built holds of it wherever it goes.** -/
theorem Provenance.step {P : Tier → RingEntry → Prop} {a : PlaneAct} (hv : Provenance P s) (hs : Sound s)
    (h : s.step a = some s')
    (hbuild : ∀ n b t seq, a = .build n (some b) → s.calls.lookup n = some (.allocated t seq) → P t ⟨seq, some b⟩) :
    Provenance P s' := by
  refine ⟨?_, ?_, ?_, fun i => (step_wire h i).sublist (hv.out i)⟩
  · intro n t e hc
    rcases step_call h hc with hc' | hm
    · exact hv.built n t e hc'
    · cases hm with
      | build _ _ seq b hc' => exact hbuild n b t seq rfl hc'
  · intro t e he
    rcases step_line h t with hl | ⟨n, e', rfl, hc, hsub⟩
    · exact hv.line t e (hl ▸ he)
    · rcases List.mem_append.1 (hsub.subset he) with he' | he'
      · exact hv.line t e he'
      · rw [List.mem_singleton.1 he']
        exact hv.built n t e' hc
  · intro i d hd
    rcases step_feed h i with hc | ⟨-, -, filter, c, hf⟩ | ⟨sinceSeq, _, t, _, r, _, hr, hf⟩ | ⟨t, _, e, _, _, -, hw, hp⟩
    · rw [hc.log] at hd
      rw [hc.filter]
      exact hv.log i d hd
    · rw [hf] at hd
      cases hd
    · rw [hf] at hd ⊢
      rw [(replayTier_spec r t sinceSeq (s.feeds i)).1]
      rcases replayTier_log r t sinceSeq _ d hd with hmem | ⟨rfl, hmem, hwants⟩
      · exact hv.log i d hmem
      · refine ⟨hv.line d.tier d.entry ?_, hwants⟩
        unfold ringOf at hr
        split at hr <;> cases hr
        exact List.mem_append_right _ hmem
    · obtain ⟨hfilter, -, -, hlog⟩ := Feed.tryPush_some hp
      rw [hfilter]
      rw [hlog, List.mem_append, List.mem_singleton] at hd
      rcases hd with hd | rfl
      · exact hv.log i d hd
      · refine ⟨hv.line t e ?_, (hs.serving t).push _ _ _ _ _ hw⟩
        obtain ⟨⟨D, hD⟩, -⟩ := (hs.serving t).last _ _ _ _ _ hw
        rw [Plane.line, hD]
        simp

end Plane
end Events
end Osw
