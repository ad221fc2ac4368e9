import OpenSwitch.Scene
/-!
# ChannelDestroy — what the destroy hook asks FreeSWITCH to remove

At `CS_DESTROY` the bugs of a channel are gone on FreeSWITCH's side, and the sweep that ends the hook (`DetachAll`) does
not ask for their removal.  Before the sweep the hook stops the bots of the channel and tears down its streams, and what
these own they detach through their handles, which do ask.  So FreeSWITCH is asked to remove exactly the registered bugs
with a handle in such an object (`mem_hookRemovals`).
-/
namespace Osw
namespace Control
namespace Scene

open Media (BugRecord)

/-- From one scene to the other exactly the bugs `S` are detached, each registered one with a removal. -/
structure Drops (p p' : Scene) (S : Nat → Prop) : Prop where
  gone    : ∀ id, S id → p'.bugs.byId id = none
  kept    : ∀ id, ¬ S id → p'.bugs.byId id = p.bugs.byId id
  removed : ∃ rs, p'.removed = p.removed ++ rs ∧ ∀ r, r ∈ rs ↔ ∃ id, S id ∧ p.bugs.byId id = some r

variable {S : Nat → Prop} {p p' : Scene}

theorem Drops.congr {T : Nat → Prop} (h : Drops p p' S) (hST : ∀ id, S id ↔ T id) : Drops p p' T := by
  have he : S = T := funext fun id => propext (hST id)
  exact he ▸ h

theorem Drops.none (hb : p'.bugs = p.bugs) (hr : p'.removed = p.removed) : Drops p p' (fun _ => False) := by
  refine ⟨fun _ h => h.elim, fun id _ => by rw [hb], [], by rw [hr, List.append_nil], ?_⟩
  intro r
  simp

theorem Drops.trans {q r : Scene} {T : Nat → Prop} (h : Drops p q S) (h' : Drops q r T) :
    Drops p r (fun id => S id ∨ T id) := by
  obtain ⟨rs, hrs, hmem⟩ := h.removed
  obtain ⟨ts, hts, hmem'⟩ := h'.removed
  refine ⟨?_, ?_, rs ++ ts, by rw [hts, hrs, List.append_assoc], ?_⟩
  · intro id hid
    by_cases hT : T id
    · exact h'.gone id hT
    · rw [h'.kept id hT]
      exact h.gone id (hid.resolve_right hT)
  · intro id hid
    rw [h'.kept id (fun hT => hid (.inr hT)), h.kept id (fun hS => hid (.inl hS))]
  · intro x
    rw [List.mem_append, hmem, hmem']
    constructor
    · rintro (⟨id, hS, hx⟩ | ⟨id, hT, hx⟩)
      · exact ⟨id, .inl hS, hx⟩
      · -- a bug the first part detached is not there for the second
        have hS : ¬ S id := fun hS => by
          rw [h.gone id hS] at hx
          cases hx
        exact ⟨id, .inr hT, by rw [← h.kept id hS]; exact hx⟩
    · rintro ⟨id, hST, hx⟩
      by_cases hS : S id
      · exact .inl ⟨id, hS, hx⟩
      · exact .inr ⟨id, hST.resolve_left hS, by rw [h.kept id hS]; exact hx⟩

theorem Drops.source {p₀ : Scene} (h : Drops p₀ p' S) (p : Scene) (hb : p₀.bugs = p.bugs)
    (hr : p₀.removed = p.removed) : Drops p p' S := by
  refine ⟨h.gone, fun id hid => by rw [h.kept id hid, hb], ?_⟩
  rw [← hr, ← hb]
  exact h.removed

theorem detach_drops (p : Scene) (id : Nat) : Drops p (p.detach id) (fun x => x = id) := by
  have hbugs : (p.detach id).bugs.byId = Function.update p.bugs.byId id none := by
    rw [detach, detachInternal_bugs, p.bugs.detach_byId]
  refine ⟨?_, ?_, ?_⟩
  · rintro x rfl
    rw [hbugs, Function.update_self]
  · intro x hx
    rw [hbugs, Function.update_of_ne hx]
  · unfold detach detachInternal
    cases hr : p.bugs.byId id with
    | none =>
      refine ⟨[], (List.append_nil _).symm, fun r => ?_⟩
      simp [hr]
    | some r₀ =>
      refine ⟨[r₀], rfl, fun r => ?_⟩
      simp only [List.mem_singleton, exists_eq_left, hr, Option.some.injEq]
      exact eq_comm

theorem detachEach_drops : ∀ (ids : List Nat) (p : Scene), Drops p (p.detachEach ids) (fun x => x ∈ ids)
  | [], _ => (Drops.none rfl rfl).congr (fun _ => by simp)
  | id :: ids, p => ((p.detach_drops id).trans (detachEach_drops ids (p.detach id))).congr (fun _ => List.mem_cons.symm)

theorem freeEach_same : ∀ (cs : List Nat) (p : Scene), (p.freeEach cs).bugs = p.bugs ∧ (p.freeEach cs).removed = p.removed ∧
    (p.freeEach cs).streams = p.streams ∧ (p.freeEach cs).bots = p.bots
  | [], _ => ⟨rfl, rfl, rfl, rfl⟩
  | c :: cs, p => freeEach_same cs (p.free c)

theorem Drops.freeEach (h : Drops p p' S) (cs : List Nat) : Drops p (p'.freeEach cs) S :=
  (h.trans (Drops.none (freeEach_same cs p').1 (freeEach_same cs p').2.1)).congr (fun _ => by simp)

/-- The maps of streams and bots are left alone. -/
def SameMaps (p p' : Scene) : Prop := p'.streams = p.streams ∧ p'.bots = p.bots

theorem SameMaps.trans {q r : Scene} (h : SameMaps p q) (h' : SameMaps q r) : SameMaps p r :=
  ⟨h'.1.trans h.1, h'.2.trans h.2⟩

theorem detachEach_maps : ∀ (ids : List Nat) (p : Scene), SameMaps p (p.detachEach ids)
  | [], _ => ⟨rfl, rfl⟩
  | id :: ids, p => by
    have hone : SameMaps p (p.detach id) := by
      refine ⟨detachInternal_streams true p id, ?_⟩
      unfold detach detachInternal
      split <;> rfl
    exact hone.trans (detachEach_maps ids (p.detach id))

theorem freeEach_maps (cs : List Nat) (p : Scene) : SameMaps p (p.freeEach cs) := (freeEach_same cs p).2.2

theorem tearDown_drops (p : Scene) (s : StreamObject) : Drops p (p.tearDown s) (fun x => x ∈ s.bugs) := by
  unfold tearDown
  split
  · exact (((detachEach_drops s.bugs p).freeEach [_]).freeEach _).freeEach _
  · exact ((detachEach_drops s.bugs p).freeEach _).freeEach _

theorem tearDown_maps (p : Scene) (s : StreamObject) : SameMaps p (p.tearDown s) := by
  unfold tearDown
  split
  · exact (((detachEach_maps s.bugs p).trans (freeEach_maps [_] _)).trans (freeEach_maps _ _)).trans (freeEach_maps _ _)
  · exact ((detachEach_maps s.bugs p).trans (freeEach_maps _ _)).trans (freeEach_maps _ _)

theorem foldl_tearDown_drops : ∀ (ss : List StreamObject) (p : Scene),
    Drops p (ss.foldl tearDown p) (fun x => ∃ s ∈ ss, x ∈ s.bugs) ∧ SameMaps p (ss.foldl tearDown p)
  | [], _ => ⟨(Drops.none rfl rfl).congr (fun _ => by simp), rfl, rfl⟩
  | s :: ss, p => by
    obtain ⟨hd, hm⟩ := foldl_tearDown_drops ss (p.tearDown s)
    exact ⟨((tearDown_drops p s).trans hd).congr (fun _ => by simp), (tearDown_maps p s).trans hm⟩

theorem removeWhere_drops (p : Scene) (f : StreamObject → Bool) :
    Drops p (p.removeWhere f) (fun x => ∃ s ∈ p.streams, f s = true ∧ x ∈ s.bugs) ∧
      (p.removeWhere f).streams = p.streams.filter (fun s => !f s) ∧ (p.removeWhere f).bots = p.bots := by
  unfold removeWhere
  obtain ⟨hd, hm⟩ := foldl_tearDown_drops (p.streams.filter f) { p with
    streams  := p.streams.filter (fun s => !f s)
    distinct := p.distinct.sublist (List.Sublist.map _ List.filter_sublist) }
  refine ⟨(hd.source p rfl rfl).congr (fun x => ?_), hm.1, hm.2⟩
  simp only [List.mem_filter, and_assoc]

theorem removeEach_drops : ∀ (ids : List Bytes) (p : Scene),
    Drops p (ids.foldl remove p) (fun x => ∃ s ∈ p.streams, s.streamId ∈ ids ∧ x ∈ s.bugs) ∧
      (∀ s, s ∈ (ids.foldl remove p).streams ↔ s ∈ p.streams ∧ s.streamId ∉ ids) ∧ (ids.foldl remove p).bots = p.bots
  | [], _ => ⟨(Drops.none rfl rfl).congr (fun _ => by simp), fun _ => by simp, rfl⟩
  | i :: ids, p => by
    obtain ⟨hd, hst, hbots⟩ := p.removeWhere_drops (fun s => s.streamId == i)
    obtain ⟨hd', hst', hbots'⟩ := removeEach_drops ids (p.remove i)
    have hmem : ∀ s, s ∈ (p.remove i).streams ↔ s ∈ p.streams ∧ s.streamId ≠ i := by
      intro s
      rw [remove, hst, List.mem_filter]
      simp
    refine ⟨(hd.trans hd').congr (fun x => ?_), fun s => ?_, hbots'.trans hbots⟩
    · constructor
      · rintro (⟨s, hs, hi, hx⟩ | ⟨s, hs, hi, hx⟩)
        · exact ⟨s, hs, by rw [beq_iff_eq.1 hi]; exact List.mem_cons_self, hx⟩
        · exact ⟨s, ((hmem s).1 hs).1, List.mem_cons_of_mem _ hi, hx⟩
      · rintro ⟨s, hs, hi, hx⟩
        by_cases he : s.streamId = i
        · exact .inl ⟨s, hs, beq_iff_eq.2 he, hx⟩
        · exact .inr ⟨s, (hmem s).2 ⟨hs, he⟩, (List.mem_cons.1 hi).resolve_left he, hx⟩
    · rw [List.foldl_cons, hst', hmem, List.mem_cons, not_or, and_assoc]

theorem endSession_drops (p : Scene) (b : BotSession) (streamIds : List Bytes) :
    Drops p ((streamIds.foldl remove (p.stopSession b).1).destroySession (p.stopSession b).2)
      (fun x => x ∈ b.handles ∨ ∃ s ∈ p.streams, s.streamId ∈ streamIds ∧ x ∈ s.bugs) ∧
    (∀ s, s ∈ ((streamIds.foldl remove (p.stopSession b).1).destroySession (p.stopSession b).2).streams ↔
      s ∈ p.streams ∧ s.streamId ∉ streamIds) ∧
    ((streamIds.foldl remove (p.stopSession b).1).destroySession (p.stopSession b).2).bots = p.bots := by
  by_cases hst : b.stopped = true
  · have hstop : p.stopSession b = (p, b) := by rw [stopSession, if_pos hst]
    obtain ⟨hd, hstr, hbots⟩ := removeEach_drops streamIds p
    have hdestroy : ∀ q : Scene, q.destroySession b = ((q.freeEach b.writeContexts).freeEach b.readContexts).detachEach
        b.handles := fun q => by rw [destroySession, stopSession, if_pos hst]
    rw [hstop, hdestroy]
    have hmaps := ((freeEach_maps b.writeContexts (streamIds.foldl remove p)).trans (freeEach_maps b.readContexts _)).trans
      (detachEach_maps b.handles _)
    refine ⟨(((hd.freeEach b.writeContexts).freeEach b.readContexts).trans (detachEach_drops b.handles _)).congr
      (fun x => or_comm), fun s => ?_, hmaps.2.trans hbots⟩
    rw [hmaps.1]
    exact hstr s
  · have hstop : p.stopSession b = (((p.detachEach b.handles).freeEach b.readContexts).freeEach b.writeContexts,
        ⟨b.request, [], [], [], true⟩) := by
      rw [stopSession, if_neg hst]
      rfl
    have hd₀ := ((detachEach_drops b.handles p).freeEach b.readContexts).freeEach b.writeContexts
    have hm₀ := ((detachEach_maps b.handles p).trans (freeEach_maps b.readContexts _)).trans
      (freeEach_maps b.writeContexts _)
    rw [hstop]
    obtain ⟨hd, hstr, hbots⟩ := removeEach_drops streamIds
      (((p.detachEach b.handles).freeEach b.readContexts).freeEach b.writeContexts)
    have hnothing : ∀ q : Scene, q.destroySession ⟨b.request, [], [], [], true⟩ = q := fun q => rfl
    rw [hnothing]
    refine ⟨(hd₀.trans hd).congr (fun x => by rw [hm₀.1]), fun s => ?_, hbots.trans hm₀.2⟩
    rw [hstr, hm₀.1]

/-- What a bot owns: its session's bugs, and those of the streams it lists. -/
def botHas (p : Scene) (b : ActiveBot BotSession) (id : Nat) : Prop :=
  id ∈ b.session.handles ∨ ∃ s ∈ p.streams, s.streamId ∈ b.streamIds ∧ id ∈ s.bugs

theorem stopBot_drops (p : Scene) (k : Bytes) :
    Drops p (p.stopBot k) (fun x => ∃ b, p.bots.byId k = some b ∧ p.botHas b x) ∧
      (∀ s, s ∈ (p.stopBot k).streams ↔ s ∈ p.streams ∧ ∀ b, p.bots.byId k = some b → s.streamId ∉ b.streamIds) ∧
      (p.stopBot k).bots.byId = Function.update p.bots.byId k none := by
  have hfst := p.bots.take_fst k
  have hsnd := p.bots.take_byId k
  unfold stopBot
  split
  · rename_i bots heq
    have hnone : p.bots.byId k = none := by rw [← hfst, heq]
    refine ⟨(Drops.none rfl rfl).congr (fun _ => by simp [hnone]), fun _ => by simp [hnone], ?_⟩
    rw [← hnone, Function.update_eq_self]
  · rename_i b bots heq
    have hb : p.bots.byId k = some b := by rw [← hfst, heq]
    obtain ⟨hd, hstr, hbots⟩ := endSession_drops { p with bots := bots } b.session b.streamIds
    refine ⟨(hd.source p rfl rfl).congr (fun x => ?_), fun s => ?_, ?_⟩
    · simp only [hb, Option.some.injEq, exists_eq_left', botHas]
    · rw [hstr]
      simp only [hb, Option.some.injEq, forall_eq']
    · dsimp only
      rw [hbots]
      rw [heq] at hsnd
      exact hsnd

theorem stopEach_drops : ∀ (ks : List Bytes) (p : Scene),
    Drops p (ks.foldl stopBot p) (fun x => ∃ k ∈ ks, ∃ b, p.bots.byId k = some b ∧ p.botHas b x) ∧
      ∀ s, s ∈ (ks.foldl stopBot p).streams ↔ s ∈ p.streams ∧ ∀ k ∈ ks, ∀ b, p.bots.byId k = some b → s.streamId ∉ b.streamIds
  | [], _ => ⟨(Drops.none rfl rfl).congr (fun _ => by simp), fun _ => by simp⟩
  | k :: ks, p => by
    obtain ⟨hd, hstr, hbots⟩ := p.stopBot_drops k
    obtain ⟨hd', hstr'⟩ := stopEach_drops ks (p.stopBot k)
    have hother : ∀ {j b}, (p.stopBot k).bots.byId j = some b ↔ j ≠ k ∧ p.bots.byId j = some b := by
      intro j b
      rw [hbots]
      by_cases hj : j = k
      · subst hj
        simp
      · simp [hj]
    refine ⟨(hd.trans hd').congr (fun x => ?_), fun s => ?_⟩
    · constructor
      · rintro (⟨b, hb, hx⟩ | ⟨j, hj, b, hb, hx⟩)
        · exact ⟨k, List.mem_cons_self, b, hb, hx⟩
        · refine ⟨j, List.mem_cons_of_mem _ hj, b, (hother.1 hb).2, ?_⟩
          rcases hx with hx | ⟨s, hs, hi, hx⟩
          · exact .inl hx
          · exact .inr ⟨s, ((hstr s).1 hs).1, hi, hx⟩
      · rintro ⟨j, hj, b, hb, hx⟩
        by_cases hjk : j = k
        · subst hjk
          exact .inl ⟨b, hb, hx⟩
        · have hj' : j ∈ ks := (List.mem_cons.1 hj).resolve_left hjk
          rcases hx with hx | ⟨s, hs, hi, hx⟩
          · exact .inr ⟨j, hj', b, hother.2 ⟨hjk, hb⟩, .inl hx⟩
          · -- its stream may have gone with the bot before it
            by_cases hgone : ∃ b', p.bots.byId k = some b' ∧ s.streamId ∈ b'.streamIds
            · obtain ⟨b', hb', hi'⟩ := hgone
              exact .inl ⟨b', hb', .inr ⟨s, hs, hi', hx⟩⟩
            · refine .inr ⟨j, hj', b, hother.2 ⟨hjk, hb⟩, .inr ⟨s, (hstr s).2 ⟨hs, ?_⟩, hi, hx⟩⟩
              exact fun b' hb' hi' => hgone ⟨b', hb', hi'⟩
    · rw [List.foldl_cons, hstr', hstr]
      constructor
      · rintro ⟨⟨hs, hk⟩, hks⟩
        refine ⟨hs, fun j hj b hb => ?_⟩
        by_cases hjk : j = k
        · subst hjk
          exact hk b hb
        · exact hks j ((List.mem_cons.1 hj).resolve_left hjk) b (hother.2 ⟨hjk, hb⟩)
      · rintro ⟨hs, hall⟩
        exact ⟨⟨hs, hall k List.mem_cons_self⟩, fun j hj b hb => hall j (List.mem_cons_of_mem _ hj) b (hother.1 hb).2⟩

/-! ## The hook -/

/-- The bug has a handle in what the hook tears down: a bot that targets the channel or a stream it lists, or a stream of
the channel. -/
def heldAt (p : Scene) (u : Bytes) (id : Nat) : Prop :=
  (∃ k b, p.bots.byId k = some b ∧ u ∈ b.targets ∧ p.botHas b id) ∨ ∃ s ∈ p.streams, s.channelUuid = u ∧ id ∈ s.bugs

theorem cleanup_drops (p : Scene) (u : Bytes) : Drops p ((p.stopByChannel u).removeForChannel u) (p.heldAt u) := by
  obtain ⟨hd, hstr⟩ := stopEach_drops (p.bots.channelBots u) p
  obtain ⟨hd', -⟩ := (p.stopByChannel u).removeWhere_drops (fun s => s.channelUuid == u)
  refine (hd.trans hd').congr (fun x => ?_)
  constructor
  · rintro (⟨k, hk, b, hb, hx⟩ | ⟨s, hs, hu, hx⟩)
    · obtain ⟨b', hb', hu⟩ := (p.bots.mem_channelBots).1 hk
      rw [hb] at hb'
      cases hb'
      exact .inl ⟨k, b, hb, hu, hx⟩
    · exact .inr ⟨s, ((hstr s).1 hs).1, beq_iff_eq.1 hu, hx⟩
  · rintro (⟨k, b, hb, hu, hx⟩ | ⟨s, hs, hu, hx⟩)
    · exact .inl ⟨k, (p.bots.mem_channelBots).2 ⟨b, hb, hu⟩, b, hb, hx⟩
    · by_cases hgone : ∃ k ∈ p.bots.channelBots u, ∃ b, p.bots.byId k = some b ∧ s.streamId ∈ b.streamIds
      · obtain ⟨k, hk, b, hb, hi⟩ := hgone
        exact .inl ⟨k, hk, b, hb, .inr ⟨s, hs, hi, hx⟩⟩
      · refine .inr ⟨s, (hstr s).2 ⟨hs, ?_⟩, beq_iff_eq.2 hu, hx⟩
        exact fun k hk b hb hi => hgone ⟨k, hk, b, hb, hi⟩

theorem sweep_removed : ∀ (ids : List Nat) (p : Scene), (ids.foldl (detachInternal false) p).removed = p.removed
  | [], _ => rfl
  | id :: ids, p => by
    have hone : (p.detachInternal false id).removed = p.removed := by
      unfold detachInternal
      split
      · rfl
      · exact List.append_nil _
    exact (sweep_removed ids _).trans hone

/-- The bugs the hook for a channel asks FreeSWITCH to remove. -/
def hookRemovals (p : Scene) (u : Bytes) : List BugRecord := (p.channelDestroy u).removed.drop p.removed.length

/-- **They are the registered bugs with a handle in what the hook tears down.** -/
theorem mem_hookRemovals (p : Scene) {u : Bytes} (hu : u ≠ []) (r : BugRecord) :
    r ∈ p.hookRemovals u ↔ ∃ id, p.heldAt u id ∧ p.bugs.byId id = some r := by
  obtain ⟨rs, hrs, hmem⟩ := (p.cleanup_drops u).removed
  have hall : (p.channelDestroy u).removed = p.removed ++ rs := by
    rw [channelDestroy, if_neg hu, detachAll, sweep_removed, hrs]
  rw [hookRemovals, hall, List.drop_left, hmem]

/-- **No removal for a bug of the channel, exactly when** no registered bug of the channel has its handle in a bot that
targets the channel, in a stream such a bot lists, or in a stream of the channel. -/
theorem no_removal_at_destroy_iff (p : Scene) (u : Bytes) :
    (∀ r ∈ p.hookRemovals u, r.channelUuid ≠ u) ↔
      u = [] ∨ ∀ id r, p.bugs.byId id = some r → r.channelUuid = u → ¬ p.heldAt u id := by
  by_cases hu : u = []
  · subst hu
    simp [hookRemovals, channelDestroy]
  · simp only [mem_hookRemovals p hu, hu, false_or]
    constructor
    · intro h id r hr hc hheld
      exact h r ⟨id, hheld, hr⟩ hc
    · rintro h r ⟨id, hheld, hr⟩ hc
      exact h id r hr hc hheld

/-- A TTS stream on channel `a`. -/
def ttsOnA : Call :=
  .startTts
    ⟨⟨true, some ⟨str "a", 8000, 8000⟩, .okay, some ⟨str "a", 8000, 8000⟩, ⟨[], true, true, 0, true⟩,
      ⟨[], true, true, 0, true⟩, str "s"⟩, [], [], []⟩
    ⟨str "a", str "tts:50051", 8000, str "t"⟩

/-- The hook for `a` tears the stream down, and its handle asks FreeSWITCH to remove bug 1. -/
theorem destroy_removes_tts :
    ((empty.calls [ttsOnA]).hookRemovals (str "a")).map (fun r => (r.id, r.channelUuid)) = [(1, str "a")] := by
  decide +kernel

end Scene
end Control
end Osw
