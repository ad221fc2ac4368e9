import OpenSwitch.AttachSteps
/-!
# RegistryAlone — a call of the registry that nobody interrupts

`AttachSteps` cuts the calls of the registry into the sections of its locks.  Put together again, a call that finds the
mutex of its channel free and runs while the others stand does to the two maps what `BugManager` does in one step.
-/
namespace Osw
namespace Media
namespace Registry

/-- Thread `i` runs while the others stand. -/
def Alone (i : Nat) : Registry → Registry → Prop := Run.Reaches step (fun a => a = .go i)

variable {s s' : Registry} {i l : Nat} {u : Bytes} {j : Job} {m : BugManager}

theorem Alone.go (h : s.go i = some s') : Alone i s s' := Run.Reaches.single rfl h

theorem Alone.trans {s'' : Registry} (h : Alone i s s') (h' : Alone i s' s'') : Alone i s s'' :=
  Run.Reaches.trans h h'

/-- A part of a call: where the thread is then, and the maps and the next id as they were. -/
structure Passes (i : Nat) (s : Registry) (p : Stage) (s' : Registry) : Prop where
  alone   : Alone i s s'
  stage   : s'.stage i = p
  records : s'.records = s.records
  nextId  : s'.nextId = s.nextId

theorem exists_locked (h : s.go i = some (s.take i j u)) (hfree : s.holder (s.lockFor u) = none) :
    ∃ s', Passes i s (.locked j u (s.lockFor u)) s' := by
  have hwait : (s.take i j u).stage i = .waiting j u (s.lockFor u) := goto_stage_self _ i _
  have hlock : (s.take i j u).go i = some (((s.take i j u).lock i (s.lockFor u)).goto i (.locked j u (s.lockFor u))) := by
    simp only [Registry.go, hwait]
    exact if_pos hfree
  exact ⟨_, (Alone.go h).trans (Alone.go hlock), goto_stage_self _ i _, rfl, rfl⟩

theorem finish_frame (s : Registry) (i : Nat) (j : Job) : (s.finish i j).stage i = .idle ∧
    (s.finish i j).records = s.records ∧ (s.finish i j).nextId = s.nextId := by
  unfold finish
  split <;> exact ⟨goto_stage_self _ i _, rfl, rfl⟩

theorem exists_returned (hi : s.stage i = .leaving j u l) : ∃ s', Passes i s .idle s' := by
  have hunlock : s.go i = some ((s.goto i (.unlocked j u l)).unlock l) := by
    simp only [Registry.go, hi]
  have hunref : ((s.goto i (.unlocked j u l)).unlock l).go i = some
      ((((s.goto i (.unlocked j u l)).unlock l).goto i (.dropped j u)).unref i l) := by
    simp [Registry.go, unlock]
  obtain ⟨t, ht⟩ : ∃ t, t = (((s.goto i (.unlocked j u l)).unlock l).goto i (.dropped j u)).unref i l := ⟨_, rfl⟩
  rw [← ht] at hunref
  have hdropped : t.stage i = .dropped j u := by
    rw [ht]
    exact goto_stage_self _ i _
  have hprune : t.go i = some ((t.prune u).finish i j) := by
    simp only [Registry.go, hdropped]
  obtain ⟨hidle, hrec, hnext⟩ := finish_frame (t.prune u) i j
  obtain ⟨-, hpruned, -, -, -, -, hdrawn⟩ := prune_frame t u
  refine ⟨_, ((Alone.go hunlock).trans (Alone.go hunref)).trans (Alone.go hprune), hidle, ?_, ?_⟩
  · rw [hrec, hpruned, ht]
    rfl
  · rw [hnext, hdrawn, ht]
    rfl

/-- A registry of `AttachSteps` that is one of `BugManager`. -/
structure Is (s : Registry) (m : BugManager) : Prop where
  records : s.records = .ofManager m
  nextId  : s.nextId = m.nextId

theorem Is.goto (hs : s.Is m) (i : Nat) (p : Stage) : (s.goto i p).Is m := ⟨hs.records, hs.nextId⟩

theorem Passes.is {p : Stage} (h : Passes i s p s') (hs : s.Is m) : s'.Is m :=
  ⟨h.records.trans hs.records, h.nextId.trans hs.nextId⟩

/-- The call comes back, and the registry is `m` then. -/
def Returns (i : Nat) (s : Registry) (m : BugManager) : Prop := ∃ t, Alone i s t ∧ t.stage i = .idle ∧ t.Is m

theorem Alone.returns (h : Alone i s s') : Returns i s' m → Returns i s m
  | ⟨t, ht, hi, hm⟩ => ⟨t, h.trans ht, hi, hm⟩

theorem returns_of_leaving (hi : s.stage i = .leaving j u l) (hs : s.Is m) : Returns i s m := by
  obtain ⟨t, ht⟩ := exists_returned hi
  exact ⟨t, ht.alone, ht.stage, ht.is hs⟩

/-! ## Attach -/

theorem returns_of_adding {cfg : BugConfig} {addRc : Nat} (hi : s.stage i = .adding u cfg addRc m.nextId l)
    (hs : s.Is m.skipId) :
    Returns i s (if addRc = 0 then m.register u (BugManager.effectiveConfig cfg) else m.skipId) := by
  split_ifs with hrc
  · have hadd : s.go i = some ({ s with inFs := s.inFs ++ [m.nextId] }.goto i (.added u cfg m.nextId l)) := by
      simp only [Registry.go, hi]
      exact if_pos hrc
    refine (Alone.go hadd).returns ?_
    obtain ⟨t, ht⟩ : ∃ t, t = { s with inFs := s.inFs ++ [m.nextId] }.goto i (.added u cfg m.nextId l) := ⟨_, rfl⟩
    have hadded : t.stage i = .added u cfg m.nextId l := by
      rw [ht]
      exact goto_stage_self _ i _
    have hput : t.go i = some ((t.goto i (.leaving (.attach u cfg 0) u l)).emplace m.nextId u
        (BugManager.effectiveConfig cfg)) := by
      simp only [Registry.go, hadded]
    rw [← ht]
    refine (Alone.go hput).returns (returns_of_leaving (goto_stage_self _ i _) ⟨?_, ?_⟩)
    · have hrec : t.records = .ofManager m := by
        rw [ht]
        exact hs.records
      rw [Records.ofManager_register, ← hrec]
      rfl
    · rw [ht]
      exact hs.nextId
  · have hfail : s.go i = some (s.goto i (.leaving (.attach u cfg addRc) u l)) := by
      simp only [Registry.go, hi]
      exact if_neg hrc
    exact (Alone.go hfail).returns (returns_of_leaving (goto_stage_self _ i _) (hs.goto i _))

/-- **An `Attach` that nobody interrupts is that of `BugManager`**, when it has the memory it asks for. -/
theorem attach_alone {m : BugManager} (hs : s.Is m) {u : Bytes} {cfg : BugConfig} {addRc : Nat}
    (hi : s.stage i = .called (.attach u cfg addRc)) (hfree : s.holder (s.lockFor u) = none) :
    Returns i s (m.attach cfg ⟨u, true, true, addRc, true⟩).1 := by
  by_cases hu : u = []
  · have hgo : s.go i = some (s.goto i .idle) := by
      simp only [Registry.go, hi]
      exact if_pos hu
    rw [BugManager.attach, if_pos hu]
    exact ⟨_, Alone.go hgo, goto_stage_self _ i _, hs.goto i _⟩
  have hgo : s.go i = some (s.take i (.attach u cfg addRc) u) := by
    simp only [Registry.go, hi]
    exact if_neg hu
  obtain ⟨t, ht⟩ := exists_locked hgo hfree
  have his := ht.is hs
  have hpurposes : t.records.purposesOn u = m.purposesOn u := by
    rw [his.records]
    rfl
  refine ht.alone.returns ?_
  cases hcheck : BugManager.checkAttach cfg (m.purposesOn u) with
  | some st =>
    have hrefuse : t.go i = some (t.goto i (.leaving (.attach u cfg addRc) u (s.lockFor u))) := by
      simp only [Registry.go, ht.stage, hpurposes, hcheck]
    have hatt : (m.attach cfg ⟨u, true, true, addRc, true⟩).1 = m := by
      simp [BugManager.attach, hu, hcheck]
    rw [hatt]
    exact (Alone.go hrefuse).returns (returns_of_leaving (goto_stage_self _ i _) (his.goto i _))
  | none =>
    have hdraw : t.go i = some (t.draw.goto i (.adding u cfg addRc m.nextId (s.lockFor u))) := by
      simp only [Registry.go, ht.stage, hpurposes, hcheck, his.nextId]
    have hatt : (m.attach cfg ⟨u, true, true, addRc, true⟩).1
        = if addRc = 0 then m.register u (BugManager.effectiveConfig cfg) else m.skipId := by
      by_cases hrc : addRc = 0 <;> simp [BugManager.attach, BugManager.AttachEnv.failure, hu, hcheck, hrc]
    rw [hatt]
    refine (Alone.go hdraw).returns (returns_of_adding (goto_stage_self _ i _) ⟨his.records, ?_⟩)
    exact congrArg Nat.succ his.nextId

theorem attach_alone_init : Returns 0 (init.goto 0 (.called (.attach [97] ⟨.ttsPlayback, 0, 8000, []⟩ 0)))
    (BugManager.empty.attach ⟨.ttsPlayback, 0, 8000, []⟩ ⟨[97], true, true, 0, true⟩).1 :=
  attach_alone ⟨rfl, rfl⟩ (goto_stage_self ..) rfl

/-! ## Detach -/

theorem Is.erase (hs : s.Is m) (id : Nat) : (s.erase id).Is (m.detach id) := by
  refine ⟨?_, ?_⟩
  · rw [Records.ofManager_detach, ← hs.records]
    rfl
  · rw [m.detach_nextId]
    exact hs.nextId

/-- **A `Detach` that nobody interrupts is that of `BugManager`**, of a handle as of a CLOSE callback. -/
theorem detach_alone (hs : s.Is m) {id : Nat} {closing : Bool} (hi : s.stage i = .called (.detach id closing))
    (hfree : ∀ l, s.holder l = none) : Returns i s (m.detach id) := by
  cases hr : m.byId id with
  | none =>
    have hgo : s.go i = some (s.finish i (.detach id closing)) := by
      simp only [Registry.go, hi, hs.records, Records.ofManager, hr]
    obtain ⟨hidle, hrec, hnext⟩ := finish_frame s i (.detach id closing)
    rw [m.detach_of_none hr]
    exact ⟨_, Alone.go hgo, hidle, hrec.trans hs.records, hnext.trans hs.nextId⟩
  | some r =>
    have hgo : s.go i = some (s.goto i (.found id closing r.channelUuid)) := by
      simp only [Registry.go, hi, hs.records, Records.ofManager, hr]
    refine (Alone.go hgo).returns ?_
    obtain ⟨t, ht⟩ : ∃ t, t = s.goto i (.found id closing r.channelUuid) := ⟨_, rfl⟩
    have hfound : t.stage i = .found id closing r.channelUuid := by
      rw [ht]
      exact goto_stage_self _ i _
    have htake : t.go i = some (t.take i (.detach id closing) r.channelUuid) := by
      simp only [Registry.go, hfound]
    rw [← ht]
    obtain ⟨t', ht'⟩ := exists_locked htake (by rw [ht]; exact hfree _)
    have his : t'.Is m := ht'.is (by rw [ht]; exact hs.goto i _)
    have herase : t'.go i = some
        ((t'.goto i (.leaving (.detach id closing) r.channelUuid (t.lockFor r.channelUuid))).erase id) := by
      simp only [Registry.go, ht'.stage]
    refine ht'.alone.returns ((Alone.go herase).returns (returns_of_leaving (goto_stage_self _ i _) ?_))
    exact (his.goto i _).erase id

/-- The loop of `DetachAll`. -/
theorem returns_of_sweeping : ∀ {ids : List Nat} {s : Registry} {m : BugManager}, s.Is m →
    s.stage i = .sweeping u ids l → Returns i s (m.detachEach ids)
  | [], s, m, hs, hi => by
    have hgo : s.go i = some (s.goto i (.leaving (.detachAll u) u l)) := by
      simp only [Registry.go, hi]
    exact (Alone.go hgo).returns (returns_of_leaving (goto_stage_self _ i _) (hs.goto i _))
  | id :: ids, s, m, hs, hi => by
    have hgo : s.go i = some ((s.goto i (.sweeping u ids l)).erase id) := by
      simp only [Registry.go, hi]
    have hrest : Returns i _ ((m.detach id).detachEach ids) :=
      returns_of_sweeping ((hs.goto i (.sweeping u ids l)).erase id) (goto_stage_self _ i _)
    exact (Alone.go hgo).returns hrest

/-- **A `DetachAll` that nobody interrupts** detaches the bugs of the channel. -/
theorem detachAll_alone (hs : s.Is m) (hi : s.stage i = .called (.detachAll u))
    (hfree : s.holder (s.lockFor u) = none) : Returns i s (m.detachEach (m.channelIds u)) := by
  have hgo : s.go i = some (s.take i (.detachAll u) u) := by
    simp only [Registry.go, hi]
  obtain ⟨t, ht⟩ := exists_locked hgo hfree
  have his := ht.is hs
  have hmap : t.records.byChannel u = m.byChannel u := by
    rw [his.records]
    rfl
  refine ht.alone.returns ?_
  cases hc : m.byChannel u with
  | none =>
    have hleave : t.go i = some (t.goto i (.leaving (.detachAll u) u (s.lockFor u))) := by
      simp only [Registry.go, ht.stage, hmap, hc]
    have hnil : m.channelIds u = [] := by simp [BugManager.channelIds, hc]
    rw [hnil]
    exact (Alone.go hleave).returns (returns_of_leaving (goto_stage_self _ i _) (his.goto i _))
  | some ids =>
    have hsweep : t.go i = some (t.goto i (.sweeping u ids (s.lockFor u))) := by
      simp only [Registry.go, ht.stage, hmap, hc]
    have hids : m.channelIds u = ids := by simp [BugManager.channelIds, hc]
    rw [hids]
    exact (Alone.go hsweep).returns (returns_of_sweeping (his.goto i _) (goto_stage_self _ i _))

end Registry
end Media
end Osw
