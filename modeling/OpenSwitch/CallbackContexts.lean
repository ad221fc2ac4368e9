import OpenSwitch.Scene
/-!
# CallbackContexts — a context outlives the bugs that call into it

Every object of the scene owns the bugs its contexts were passed for (`Owns`), so what it does when it goes, detach first
and free then, keeps the law of `Lifetime`.  The one place where a context is not in such an object is a handler between
two attaches: `StartVoicebot` has the read context in a local declared after the read handle, and returns when the second
attach fails.  The law holds in a run exactly as long as no call takes that path with the read bug still registered.
-/
namespace Osw
namespace Control
namespace Scene

open Media (BugManager BugConfig)
open Lifetime (Ev Fenced Outlives Keeps outlives_free_iff)

/-- The bug is registered, or its detach is over. -/
def Tracked (p : Scene) (id : Nat) : Prop := p.bugs.byId id ≠ none ∨ .released id ∈ p.events

/-- What the record of events says of the scene, and the law itself. -/
structure Ok (p : Scene) : Prop where
  passed   : ∀ c id, .passed c id ∈ p.events → c < p.nextCtx
  freed    : ∀ c, .freed c ∈ p.events → c < p.nextCtx
  released : ∀ id, .released id ∈ p.events → id < p.bugs.nextId
  outlives : Outlives p.events

/-- Handles and contexts with one owner: each bug a context was passed for has its handle here, or is detached. -/
structure Owns (p : Scene) (hs cs : List Nat) : Prop where
  tracked : ∀ id ∈ hs, p.Tracked id
  made    : ∀ c ∈ cs, c < p.nextCtx
  keeps   : Keeps p.events hs cs

/-- One scene comes after another: ids and contexts are drawn onwards, a bug is not lost without its detach, and what is
passed is a new context. -/
structure Later (p p' : Scene) : Prop where
  ids    : p.bugs.nextId ≤ p'.bugs.nextId
  ctxs   : p.nextCtx ≤ p'.nextCtx
  bugs   : ∀ id, p.bugs.byId id ≠ none → p'.Tracked id
  events : ∃ es, p'.events = p.events ++ es ∧ ∀ c id, .passed c id ∈ es → p.nextCtx ≤ c

/-- And no object is there that was not. -/
structure Follows (p p' : Scene) : Prop extends Later p p' where
  streams : ∀ s ∈ p'.streams, s ∈ p.streams
  bots    : ∀ k b, p'.bots.byId k = some b → p.bots.byId k = some b

variable {p p' : Scene}

theorem Later.tracked (h : Later p p') {id : Nat} (ht : p.Tracked id) : p'.Tracked id := by
  rcases ht with hb | he
  · exact h.bugs id hb
  · obtain ⟨es, hes, -⟩ := h.events
    exact .inr (by rw [hes]; exact List.mem_append_left _ he)

theorem Later.refl (p : Scene) : Later p p :=
  ⟨Nat.le_refl _, Nat.le_refl _, fun _ h => .inl h, [], (List.append_nil _).symm, nofun⟩

theorem Later.trans {q r : Scene} (h : Later p q) (h' : Later q r) : Later p r := by
  obtain ⟨es, hes, hnew⟩ := h.events
  obtain ⟨fs, hfs, hnew'⟩ := h'.events
  refine ⟨h.ids.trans h'.ids, h.ctxs.trans h'.ctxs, fun id hid => h'.tracked (h.bugs id hid), es ++ fs, ?_, ?_⟩
  · rw [hfs, hes, List.append_assoc]
  · intro c id hc
    rcases List.mem_append.1 hc with hc | hc
    · exact hnew c id hc
    · exact h.ctxs.trans (hnew' c id hc)

theorem Later.same (hb : p'.bugs = p.bugs) (hc : p'.nextCtx = p.nextCtx) (he : p'.events = p.events) : Later p p' := by
  refine ⟨by rw [hb], by rw [hc], fun id hid => .inl (by rw [hb]; exact hid), [], ?_, nofun⟩
  rw [he, List.append_nil]

theorem Ok.same (h : p.Ok) (hb : p'.bugs = p.bugs) (hc : p'.nextCtx = p.nextCtx) (he : p'.events = p.events) :
    p'.Ok := by
  refine ⟨?_, ?_, ?_, ?_⟩
  · rw [he, hc]
    exact h.passed
  · rw [he, hc]
    exact h.freed
  · rw [he, hb]
    exact h.released
  · rw [he]
    exact h.outlives

/-- **What an owner has stays its own.** -/
theorem Owns.later {hs cs : List Nat} (h : p.Owns hs cs) (hl : Later p p') : p'.Owns hs cs := by
  obtain ⟨es, hes, hnew⟩ := hl.events
  refine ⟨fun id hid => hl.tracked (h.tracked id hid), fun c hc => (h.made c hc).trans_le hl.ctxs, ?_⟩
  rw [hes]
  refine h.keeps.append ?_
  intro c hc id hp
  have hge := hnew c id hp
  have hlt := h.made c hc
  omega

theorem Owns.sub {hs cs cs' : List Nat} (h : p.Owns hs cs) (hsub : ∀ c ∈ cs', c ∈ cs) : p.Owns hs cs' :=
  ⟨h.tracked, fun c hc => h.made c (hsub c hc), fun c hc => h.keeps c (hsub c hc)⟩

theorem Owns.nil (p : Scene) : p.Owns [] [] := ⟨nofun, nofun, nofun⟩

/-- The scene is as it should be after what was done, and comes after the one before. -/
def Sound (p p' : Scene) : Prop := p'.Ok ∧ Follows p p'

theorem Sound.refl (h : p.Ok) : Sound p p := ⟨h, ⟨Later.refl p, fun _ hs => hs, fun _ _ hb => hb⟩⟩

theorem Sound.trans {q r : Scene} (h : Sound p q) (h' : Sound q r) : Sound p r :=
  ⟨h'.1, ⟨h.2.toLater.trans h'.2.toLater, fun s hs => h.2.streams s (h'.2.streams s hs),
    fun k b hb => h.2.bots k b (h'.2.bots k b hb)⟩⟩

/-- An operation that is sound from wherever it is called is sound for a list of them. -/
theorem Sound.foldl {α : Type} {f : Scene → α → Scene} :
    ∀ {xs : List α} {p : Scene}, p.Ok → (∀ q, Sound p q → ∀ x ∈ xs, Sound q (f q x)) → Sound p (xs.foldl f p)
  | [], _, h, _ => .refl h
  | x :: xs, p, h, hf => by
    have hx : Sound p (f p x) := hf p (.refl h) x List.mem_cons_self
    exact hx.trans (Sound.foldl hx.1 (fun q hq y hy => hf q (hx.trans hq) y (List.mem_cons_of_mem _ hy)))

/-! ## What each operation does -/

section operations

variable {p : Scene} {id : Nat} {cs hs : List Nat}

theorem detachInternal_sound (h : p.Ok) (remove : Bool) (id : Nat) : Sound p (p.detachInternal remove id) := by
  unfold detachInternal
  split
  · exact .refl h
  · rename_i r hr
    have hlt : id < p.bugs.nextId := p.bugs.fresh id r hr
    refine ⟨⟨?_, ?_, ?_, h.outlives.release id⟩, ⟨⟨?_, Nat.le_refl _, ?_, [.released id], rfl, ?_⟩, fun _ hs => hs,
      fun _ _ hb => hb⟩⟩
    · intro c x hc
      exact h.passed c x (by simpa using hc)
    · intro c hc
      exact h.freed c (by simpa using hc)
    · intro x hx
      rw [show (p.bugs.detach id).nextId = p.bugs.nextId from p.bugs.detach_nextId id]
      rcases List.mem_append.1 hx with hx | hx
      · exact h.released x hx
      · cases List.mem_singleton.1 hx
        exact hlt
    · exact (p.bugs.detach_nextId id).ge
    · intro x hx
      by_cases hxi : x = id
      · subst hxi
        exact .inr (List.mem_append_right _ List.mem_cons_self)
      · refine .inl ?_
        show (p.bugs.detach id).byId x ≠ none
        rw [p.bugs.detach_byId, Function.update_of_ne hxi]
        exact hx
    · intro c x hc
      cases List.mem_singleton.1 hc

/-- **After its detach a bug is released**, if it was ever registered. -/
theorem detachInternal_released {remove : Bool} (ht : p.Tracked id) :
    .released id ∈ (p.detachInternal remove id).events := by
  unfold detachInternal
  split
  · rename_i hnone
    exact ht.resolve_left (fun hb => hb hnone)
  · exact List.mem_append_right _ List.mem_cons_self

theorem detachEach_sound (h : p.Ok) (ids : List Nat) : Sound p (p.detachEach ids) :=
  Sound.foldl h (fun _ hq id _ => detachInternal_sound hq.1 true id)

theorem closeEach_sound (h : p.Ok) (ids : List Nat) : Sound p (p.closeEach ids) :=
  Sound.foldl h (fun _ hq id _ => detachInternal_sound hq.1 false id)

theorem detachAll_sound (h : p.Ok) (u : Bytes) : Sound p (p.detachAll u) :=
  Sound.foldl h (fun _ hq id _ => detachInternal_sound hq.1 false id)

theorem Later.released (h : Later p p') (hr : .released id ∈ p.events) : .released id ∈ p'.events := by
  obtain ⟨es, hes, -⟩ := h.events
  rw [hes]
  exact List.mem_append_left _ hr

theorem detachEach_released : ∀ {ids : List Nat} {p : Scene}, p.Ok → (∀ id ∈ ids, p.Tracked id) →
    ∀ id ∈ ids, .released id ∈ (p.detachEach ids).events
  | [], _, _, _, _, hid => absurd hid List.not_mem_nil
  | x :: ids, p, h, ht, id, hid => by
    have hx : Sound p (p.detach x) := detachInternal_sound h true x
    rcases List.mem_cons.1 hid with rfl | hid
    · exact (detachEach_sound hx.1 ids).2.toLater.released (detachInternal_released (ht id List.mem_cons_self))
    · exact detachEach_released hx.1
        (fun y hy => hx.2.toLater.tracked (ht y (List.mem_cons_of_mem _ hy))) id hid

theorem free_sound (h : p.Ok) {c : Nat} (hc : c < p.nextCtx) (hf : Fenced p.events c) : Sound p (p.free c) := by
  refine ⟨⟨?_, ?_, ?_, (outlives_free_iff h.outlives c).2 hf⟩, ⟨⟨Nat.le_refl _, Nat.le_refl _, fun _ hb => .inl hb,
    [.freed c], rfl, ?_⟩, fun _ hs => hs, fun _ _ hb => hb⟩⟩
  · intro x id hx
    exact h.passed x id (by simpa [free] using hx)
  · intro x hx
    rcases List.mem_append.1 hx with hx | hx
    · exact h.freed x hx
    · cases List.mem_singleton.1 hx
      exact hc
  · intro id hid
    exact h.released id (by simpa [free] using hid)
  · intro x id hx
    cases List.mem_singleton.1 hx

theorem Fenced.later (hl : Later p p') {c : Nat} (hc : c < p.nextCtx) (hf : Fenced p.events c) :
    Fenced p'.events c := by
  obtain ⟨es, hes, hnew⟩ := hl.events
  intro id hid
  rw [hes] at hid ⊢
  rcases List.mem_append.1 hid with hid | hid
  · exact List.mem_append_left _ (hf id hid)
  · exact absurd (hnew c id hid) (by omega)

theorem freeEach_sound (h : p.Ok) (hcs : ∀ c ∈ cs, c < p.nextCtx ∧ Fenced p.events c) : Sound p (p.freeEach cs) := by
  refine Sound.foldl h (fun q hq c hc => ?_)
  obtain ⟨hlt, hf⟩ := hcs c hc
  exact free_sound hq.1 (hlt.trans_le hq.2.ctxs) (Fenced.later hq.2.toLater hlt hf)

theorem withBugs_sound (h : p.Ok) {m : BugManager} (hid : p.bugs.nextId ≤ m.nextId)
    (hbugs : ∀ id, p.bugs.byId id ≠ none → m.byId id ≠ none) : Sound p { p with bugs := m } :=
  ⟨⟨h.passed, h.freed, fun id hr => (h.released id hr).trans_le hid, h.outlives⟩,
    ⟨⟨hid, Nat.le_refl _, fun id hb => .inl (hbugs id hb), [], (List.append_nil _).symm, nofun⟩, fun _ hs => hs,
      fun _ _ hb => hb⟩⟩

/-- **One attach, for an owner**: it fails and nothing is lost, or the next bug is registered and its handle joins. -/
theorem attach_spec (h : p.Ok) (ho : p.Owns hs cs) (cfg : BugConfig) (env : BugManager.AttachEnv) :
    (∃ st p₁, BugManager.attachError cfg env (p.bugs.purposesOn env.uuid) = some st ∧
      p.attach cfg env = (p₁, .error st) ∧ Sound p p₁ ∧ p₁.events = p.events) ∨
    (∃ p₁, BugManager.attachError cfg env (p.bugs.purposesOn env.uuid) = none ∧
      p.attach cfg env = (p₁, .ok p.bugs.nextId) ∧ Sound p p₁ ∧ p₁.Owns (hs ++ [p.bugs.nextId]) cs ∧
      p₁.events = p.events ∧ p₁.bugs = p.bugs.register env.uuid (BugManager.effectiveConfig cfg)) := by
  unfold attach
  rcases p.bugs.attach_cases cfg env with ⟨st, herr, hres, hsame⟩ | ⟨herr, hres⟩
  · refine .inl ⟨st, _, herr, by rw [hres], withBugs_sound h (p.bugs.attach_nextId cfg env) ?_, rfl⟩
    intro id hid
    rw [hsame.1]
    exact hid
  · refine .inr ⟨_, herr, by rw [hres], ?_⟩
    have hs' : Sound p { p with bugs := p.bugs.register env.uuid (BugManager.effectiveConfig cfg) } := by
      refine withBugs_sound h (Nat.le_succ _) (fun id hid => ?_)
      by_cases hnew : id = p.bugs.nextId
      · rw [hnew, p.bugs.register_byId_self]
        exact nofun
      · rw [p.bugs.register_byId_of_ne hnew]
        exact hid
    have ho' := ho.later hs'.2.toLater
    refine ⟨hs', ⟨?_, ho'.made, fun c hc id hid => (ho'.keeps c hc id hid).imp_left (List.mem_append_left _)⟩, rfl, rfl⟩
    intro id hid
    rcases List.mem_append.1 hid with hid | hid
    · exact ho'.tracked id hid
    · rw [List.mem_singleton.1 hid]
      refine .inl ?_
      show (p.bugs.register _ _).byId p.bugs.nextId ≠ none
      rw [p.bugs.register_byId_self]
      exact nofun

theorem passEach_spec (h : p.Ok) {ids : List Nat} (ho : p.Owns hs cs) (hids : ∀ id ∈ ids, id ∈ hs) :
    Sound p (ids.foldl (fun q i => q.pass p.nextCtx i) p.newCtx) ∧
      (ids.foldl (fun q i => q.pass p.nextCtx i) p.newCtx).Owns hs (cs ++ [p.nextCtx]) := by
  have hfold : ∀ (xs : List Nat) (q : Scene), xs.foldl (fun q i => q.pass p.nextCtx i) q
      = { q with events := q.events ++ xs.map (Ev.passed p.nextCtx) } := by
    intro xs
    induction xs with
    | nil => intro q; simp
    | cons x xs ih => intro q; rw [List.foldl_cons, ih]; simp [pass]
  have hold : ∀ {id}, .passed p.nextCtx id ∉ p.events := fun hp => Nat.lt_irrefl _ (h.passed _ _ hp)
  rw [hfold]
  have hlater : Later p { p.newCtx with events := p.newCtx.events ++ ids.map (Ev.passed p.nextCtx) } := by
    refine ⟨Nat.le_refl _, Nat.le_succ _, fun _ hb => .inl hb, ids.map (Ev.passed p.nextCtx), rfl, ?_⟩
    intro c id hc
    obtain ⟨x, -, hx⟩ := List.mem_map.1 hc
    cases hx
    exact Nat.le_refl _
  have hunfreed : .freed p.nextCtx ∉ p.events := fun hf => Nat.lt_irrefl _ (h.freed _ hf)
  refine ⟨⟨⟨?_, ?_, ?_, h.outlives.passEach hunfreed⟩, ⟨hlater, fun _ hs => hs, fun _ _ hb => hb⟩⟩, ?_⟩
  · intro c id hc
    rcases List.mem_append.1 hc with hc | hc
    · exact (h.passed c id hc).trans (Nat.lt_succ_self _)
    · obtain ⟨x, -, hx⟩ := List.mem_map.1 hc
      cases hx
      exact Nat.lt_succ_self _
  · intro c hc
    have hc' : .freed c ∈ p.events := by simpa [newCtx] using hc
    exact (h.freed c hc').trans (Nat.lt_succ_self _)
  · intro id hid
    exact h.released id (by simpa [newCtx] using hid)
  · have ho' := ho.later hlater
    refine ⟨ho'.tracked, ?_, ?_⟩
    · intro c hc
      rcases List.mem_append.1 hc with hc | hc
      · exact ho'.made c hc
      · rw [List.mem_singleton.1 hc]
        exact Nat.lt_succ_self _
    · intro c hc id hp
      rcases List.mem_append.1 hc with hc | hc
      · exact ho'.keeps c hc id hp
      · rw [List.mem_singleton.1 hc] at hp
        rcases List.mem_append.1 hp with hp | hp
        · exact absurd hp hold
        · obtain ⟨x, hx, he⟩ := List.mem_map.1 hp
          cases he
          exact .inl (hids id hx)

theorem pass_spec (h : p.Ok) (ho : p.Owns hs cs) (hid : id ∈ hs) :
    Sound p (p.newCtx.pass p.nextCtx id) ∧ (p.newCtx.pass p.nextCtx id).Owns hs (cs ++ [p.nextCtx]) :=
  passEach_spec h ho (fun x (hx : x ∈ [id]) => by rw [List.mem_singleton.1 hx]; exact hid)

/-- **An owner that detaches its bugs and then frees its contexts keeps the law.** -/
theorem Owns.release (h : p.Ok) (ho : p.Owns hs cs) {cs' : List Nat} (hcs : ∀ c ∈ cs', c ∈ cs) :
    Sound p ((p.detachEach hs).freeEach cs') := by
  have hd := detachEach_sound h hs
  have ho' := ho.later hd.2.toLater
  have hfence := ho'.keeps.fenced (detachEach_released h ho.tracked)
  exact hd.trans (freeEach_sound hd.1 (fun c hc => ⟨ho'.made c (hcs c hc), hfence c (hcs c hc)⟩))

theorem freeEach_append (p : Scene) (cs cs' : List Nat) : (p.freeEach cs).freeEach cs' = p.freeEach (cs ++ cs') :=
  (List.foldl_append ..).symm

theorem mem_freeEach {e : Ev Nat Nat} : ∀ {p : Scene}, e ∈ p.events → e ∈ (p.freeEach cs).events := by
  induction cs with
  | nil => exact id
  | cons c cs ih => exact fun he => ih (List.mem_append_left _ he)

theorem tearDown_sound (h : p.Ok) {s : StreamObject} (ho : p.Owns s.bugs s.ctxs) : Sound p (p.tearDown s) := by
  unfold tearDown
  split
  · rename_i relay hr
    rw [show (p.detachEach s.bugs).free relay = (p.detachEach s.bugs).freeEach [relay] from rfl, freeEach_append,
      freeEach_append]
    refine ho.release h (fun c hc => ?_)
    simp only [StreamObject.ctxs, hr]
    simp only [List.mem_append, List.mem_singleton, Option.mem_toList, Option.toList_some] at hc ⊢
    tauto
  · rw [freeEach_append]
    refine ho.release h (fun c hc => ?_)
    simp only [StreamObject.ctxs, List.mem_append] at hc ⊢
    tauto

theorem unwind_sound (h : p.Ok) {b : BotSession} (ho : p.Owns b.handles b.ctxs) : Sound p (p.unwind b).1 := by
  unfold unwind
  rw [freeEach_append]
  exact ho.release h (fun c hc => hc)

theorem unwind_released (h : p.Ok) {b : BotSession} (ht : ∀ id ∈ b.handles, p.Tracked id) :
    ∀ id ∈ b.handles, .released id ∈ (p.unwind b).1.events := by
  intro id hid
  exact mem_freeEach (mem_freeEach (detachEach_released h ht id hid))

end operations

/-! ## The invariant -/

/-- Every stream and every bot owns what it has; an active bot has not been stopped. -/
structure Inv (p : Scene) : Prop extends Ok p where
  streams : ∀ s ∈ p.streams, p.Owns s.bugs s.ctxs
  bots    : ∀ k b, p.bots.byId k = some b → b.session.stopped = false ∧ p.Owns b.session.handles b.session.ctxs

theorem Inv.empty : empty.Inv :=
  ⟨⟨nofun, nofun, nofun, Lifetime.outlives_nil⟩, nofun, nofun⟩

section invariant

variable {p : Scene} {id : Nat} {b : BotSession}

theorem Inv.sound (h : p.Inv) (hs : Sound p p') : p'.Inv :=
  ⟨hs.1, fun s hm => (h.streams s (hs.2.streams s hm)).later hs.2.toLater, fun k b hb =>
    ⟨(h.bots k b (hs.2.bots k b hb)).1, (h.bots k b (hs.2.bots k b hb)).2.later hs.2.toLater⟩⟩

theorem removeWhere_sound (h : p.Inv) (f : StreamObject → Bool) : Sound p (p.removeWhere f) := by
  unfold removeWhere
  have hout : Sound p { p with
      streams  := p.streams.filter (fun s => !f s)
      distinct := p.distinct.sublist (List.Sublist.map _ List.filter_sublist) } :=
    ⟨h.toOk.same rfl rfl rfl, ⟨.same rfl rfl rfl, fun s hs => (List.mem_filter.1 hs).1, fun _ _ hb => hb⟩⟩
  refine hout.trans (Sound.foldl hout.1 (fun q hq s hs => ?_))
  exact tearDown_sound hq.1 ((h.streams s (List.mem_filter.1 hs).1).later (hout.trans hq).2.toLater)

theorem Inv.registerStream (h : p.Inv) {s : StreamObject} (ho : p.Owns s.bugs s.ctxs) :
    (p.registerStream s).1.Inv := by
  unfold Scene.registerStream
  split
  · exact h.sound (tearDown_sound h.toOk ho)
  · refine ⟨h.toOk.same rfl rfl rfl, fun s' hs' => Owns.later (p := p) ?_ (.same rfl rfl rfl), fun k b hb => ?_⟩
    case refine_2 => exact ⟨(h.bots k b hb).1, (h.bots k b hb).2.later (.same rfl rfl rfl)⟩
    rcases List.mem_append.1 hs' with hs' | hs'
    · exact h.streams s' hs'
    · rw [List.mem_singleton.1 hs']
      exact ho

/-- FreeSWITCH closes bugs, then a new context is passed for one of the owner's. -/
theorem closePass_spec (h : p.Ok) {hs cs : List Nat} (ho : p.Owns hs cs) (closed : List Nat) (hid : id ∈ hs) :
    Sound p ((p.closeEach closed).newCtx.pass (p.closeEach closed).nextCtx id) ∧
      ((p.closeEach closed).newCtx.pass (p.closeEach closed).nextCtx id).Owns hs (cs ++ [(p.closeEach closed).nextCtx]) := by
  have hc := closeEach_sound h closed
  have hp := pass_spec hc.1 (ho.later hc.2.toLater) hid
  exact ⟨hc.trans hp.1, hp.2⟩

theorem Inv.attachTts (h : p.Inv) (env : Env) (req : StartMediaRequest) : (attachTts env req p).1.Inv := by
  unfold Scene.attachTts
  rcases attach_spec h.toOk (Owns.nil p) (ttsConfig req) (attachEnv env.second env.write) with
    ⟨st, p₁, -, hr, hs, -⟩ | ⟨p₁, -, hr, hs, ho, -, -⟩
  · rw [hr]
    exact h.sound hs
  · rw [hr]
    obtain ⟨hs', ho'⟩ := closePass_spec hs.1 ho env.afterWrite List.mem_cons_self
    exact (h.sound (hs.trans hs')).registerStream (ho'.sub (fun c hc => hc))

theorem Inv.attachStt (h : p.Inv) (env : Env) (req : StartMediaRequest) : (attachStt env req p).1.Inv := by
  unfold Scene.attachStt
  rcases attach_spec h.toOk (Owns.nil p) (sttConfig req) (attachEnv env.second env.read) with
    ⟨st, p₁, -, hr, hs, -⟩ | ⟨p₁, -, hr, hs, ho, -, -⟩
  · rw [hr]
    exact h.sound hs
  · rw [hr]
    obtain ⟨hs', ho'⟩ := closePass_spec hs.1 ho env.afterRead List.mem_cons_self
    exact (h.sound (hs.trans hs')).registerStream (ho'.sub (fun c hc => hc))

/-- The relay's handles are all detached when its second attach fails: there is no context yet. -/
theorem leave_handles_sound (h : p.Ok) (ids : List Nat) : Sound p (p.leave (ids.map .handle)) := by
  rw [leave, List.foldl_map]
  exact detachEach_sound h ids

theorem Inv.attachRelay (h : p.Inv) (env : Env) (req : StartMediaRequest) {readId : Option Nat}
    (ho : p.Owns readId.toList []) : (attachRelay env req readId p).1.Inv := by
  unfold Scene.attachRelay
  rcases attach_spec h.toOk ho (recordingConfig req smbfWriteStream) (attachEnv env.second env.write) with
    ⟨st, p₁, -, hr, hs, -⟩ | ⟨p₁, -, hr, hs, ho₁, -, -⟩
  · rw [hr]
    exact h.sound (hs.trans (leave_handles_sound hs.1 readId.toList))
  · rw [hr]
    have hc := closeEach_sound hs.1 env.afterWrite
    obtain ⟨hs', ho'⟩ := passEach_spec hc.1 (ho₁.later hc.2.toLater) (fun _ hid => hid)
    exact (h.sound ((hs.trans hc).trans hs')).registerStream (ho'.sub (fun c hc => hc))

theorem Inv.startRecordingRelay (h : p.Inv) (env : Env) (req : StartMediaRequest) (stereo : Bool) :
    (p.startRecordingRelay env req stereo).1.Inv := by
  unfold Scene.startRecordingRelay
  split
  · rcases attach_spec h.toOk (Owns.nil p) (recordingConfig req Media.smbfReadStream) (attachEnv env.second env.read) with
      ⟨st, p₁, -, hr, hs, -⟩ | ⟨p₁, -, hr, hs, ho, -, -⟩
    · rw [hr]
      exact h.sound hs
    · rw [hr]
      have hc := closeEach_sound hs.1 env.afterRead
      exact (h.sound (hs.trans hc)).attachRelay env req (ho.later hc.2.toLater)
  · exact h.attachRelay env req (Owns.nil p)

/-! ## Bots -/

/-- A session that has been cleared. -/
def Cleared (b : BotSession) : Prop := b.handles = [] ∧ b.readContexts = [] ∧ b.writeContexts = []

theorem push_owns {c : Nat} (side : BugSide) (ho : p.Owns (b.handles ++ [id]) (b.ctxs ++ [c])) :
    p.Owns (b.push id c side).handles (b.push id c side).ctxs := by
  cases side with
  | read =>
    refine ho.sub (fun x hx => ?_)
    simp only [BotSession.ctxs, BotSession.push, List.mem_append] at hx ⊢
    tauto
  | write =>
    refine ho.sub (fun x hx => ?_)
    simp only [BotSession.ctxs, BotSession.push, List.mem_append] at hx ⊢
    tauto

/-- What an attach of a session leaves: the session with what it owns, or nothing. -/
def SessionSpec (p : Scene) (b : BotSession) (r : Scene × BotSession × Option Status) : Prop :=
  Sound p r.1 ∧ r.2.1.stopped = b.stopped ∧ r.2.1.request = b.request ∧
    if r.2.2 = none then r.1.Owns r.2.1.handles r.2.1.ctxs else Cleared r.2.1

theorem attachBug_spec (h : p.Ok) (ho : p.Owns b.handles b.ctxs) (env : BugEnv) (side : BugSide) (cfg : BugConfig) :
    SessionSpec p b (attachBug env side cfg p b) := by
  unfold attachBug
  rcases attach_spec h ho cfg env.attach with ⟨st, p₁, -, hr, hs, -⟩ | ⟨p₁, -, hr, hs, ho₁, -, -⟩
  · rw [hr]
    refine ⟨hs.trans (unwind_sound hs.1 (ho.later hs.2.toLater)), rfl, rfl, ?_⟩
    exact ⟨rfl, rfl, rfl⟩
  · rw [hr]
    have hmem : p.bugs.nextId ∈ b.handles ++ [p.bugs.nextId] := List.mem_append_right _ List.mem_cons_self
    obtain ⟨hs', ho'⟩ := closePass_spec hs.1 ho₁ env.closed hmem
    dsimp only
    split
    · refine ⟨hs.trans hs', ?_, ?_, ?_⟩
      · cases side <;> rfl
      · cases side <;> rfl
      · exact push_owns side ho'
    · rename_i hw
      -- the callback was not set, because the record had gone: the bug is released before its context is
      have hgone : (p₁.closeEach env.closed).bugs.byId p.bugs.nextId = none := by simpa [wired] using hw
      have hrel : .released p.bugs.nextId ∈ (p₁.closeEach env.closed).events :=
        ((closeEach_sound hs.1 env.closed).2.toLater.tracked (ho₁.tracked _ hmem)).resolve_left (fun hb => hb hgone)
      have hob : Owns _ b.handles b.ctxs := ho.later (hs.trans hs').2.toLater
      have hu := unwind_sound hs'.1 hob
      have hou := ho'.later hu.2.toLater
      have hall : ∀ id ∈ b.handles ++ [p.bugs.nextId], .released id ∈
          ((((p₁.closeEach env.closed).newCtx.pass (p₁.closeEach env.closed).nextCtx p.bugs.nextId).unwind b).1).events := by
        intro id hid
        rcases List.mem_append.1 hid with hid | hid
        · exact unwind_released hs'.1 hob.tracked id hid
        · rw [List.mem_singleton.1 hid]
          exact hu.2.toLater.released (List.mem_append_left _ hrel)
      have hlast : (p₁.closeEach env.closed).nextCtx ∈ b.ctxs ++ [(p₁.closeEach env.closed).nextCtx] :=
        List.mem_append_right _ List.mem_cons_self
      have hf := free_sound hu.1 (hou.made _ hlast) (hou.keeps.fenced hall _ hlast)
      exact ⟨((hs.trans hs').trans hu).trans (hf.trans (detachInternal_sound hf.1 true _)), rfl, rfl, ⟨rfl, rfl, rfl⟩⟩

theorem attachBugs_spec (env : BugSide → BugEnv) : ∀ (bs : List (BugSide × BugConfig)) {p : Scene} {b : BotSession},
    p.Ok → p.Owns b.handles b.ctxs → SessionSpec p b (attachBugs env bs p b)
  | [], p, b, h, ho => ⟨.refl h, rfl, rfl, ho⟩
  | (side, cfg) :: rest, p, b, h, ho => by
    obtain ⟨hs, hst, hreq, hres⟩ := attachBug_spec h ho (env side) side cfg
    unfold attachBugs
    split
    · rename_i p₁ b₁ st heq
      rw [heq] at hs hst hreq hres
      exact ⟨hs, hst, hreq, hres⟩
    · rename_i p₁ b₁ heq
      rw [heq] at hs hst hreq hres
      obtain ⟨hs', hst', hreq', hres'⟩ := attachBugs_spec env rest hs.1 hres
      exact ⟨hs.trans hs', hst'.trans hst, hreq'.trans hreq, hres'⟩

theorem attachTargets_spec (env : Nat → TargetEnv) (req : StartBotRequest) : ∀ (n : Nat) (us : List Bytes) {p : Scene}
    {b : BotSession}, p.Ok → p.Owns b.handles b.ctxs → SessionSpec p b (attachTargets env req n us p b)
  | _, [], p, b, h, ho => ⟨.refl h, rfl, rfl, ho⟩
  | n, u :: us, p, b, h, ho => by
    unfold attachTargets
    split
    · exact ⟨unwind_sound h ho, rfl, rfl, ⟨rfl, rfl, rfl⟩⟩
    · obtain ⟨hs, hst, hreq, hres⟩ := attachBugs_spec (env n).bug (botBugs req u) h ho
      split
      · rename_i p₁ b₁ st heq
        rw [heq] at hs hst hreq hres
        exact ⟨hs, hst, hreq, hres⟩
      · rename_i p₁ b₁ heq
        rw [heq] at hs hst hreq hres
        obtain ⟨hs', hst', hreq', hres'⟩ := attachTargets_spec env req (n + 1) us hs.1 hres
        exact ⟨hs.trans hs', hst'.trans hst, hreq'.trans hreq, hres'⟩

theorem destroySession_sound (h : p.Ok) (ho : p.Owns b.handles b.ctxs) (hst : b.stopped = true → Cleared b) :
    Sound p (p.destroySession b) := by
  unfold destroySession stopSession
  split
  · rename_i hstopped
    obtain ⟨h₁, h₂, h₃⟩ := hst hstopped
    simp only [h₁, h₂, h₃]
    exact .refl h
  · exact unwind_sound h ho

theorem stopSession_spec (h : p.Ok) (ho : p.Owns b.handles b.ctxs) (hst : b.stopped = false) :
    Sound p (p.stopSession b).1 ∧ Cleared (p.stopSession b).2 := by
  unfold stopSession
  rw [hst]
  exact ⟨unwind_sound h ho, ⟨rfl, rfl, rfl⟩⟩

theorem Cleared.owns (h : Cleared b) (p : Scene) : p.Owns b.handles b.ctxs := by
  obtain ⟨h₁, h₂, h₃⟩ := h
  rw [BotSession.ctxs, h₁, h₂, h₃]
  exact Owns.nil p

theorem Inv.startBot (h : p.Inv) (env : BotEnv) (lim : BotLimits) (req : StartBotRequest) :
    (p.startBot env lim req).1.Inv := by
  have hnew : Cleared (BotSession.new req) := ⟨rfl, rfl, rfl⟩
  unfold Scene.startBot
  split
  · exact h
  split
  · exact h.sound (destroySession_sound h.toOk (hnew.owns p) nofun)
  have hspec : SessionSpec p (.new req) (p.attachSession env.targets (.new req)) :=
    attachTargets_spec env.targets req 0 req.targets h.toOk (hnew.owns p)
  obtain ⟨hs, hst, -, hres⟩ := hspec
  split
  · rename_i p₁ b st heq
    rw [heq] at hs hst hres
    have hclear : Cleared b := hres
    obtain ⟨hs', hclear'⟩ := stopSession_spec hs.1 (hclear.owns p₁) hst
    exact h.sound ((hs.trans hs').trans (destroySession_sound hs'.1 (hclear'.owns _) (fun _ => hclear')))
  · rename_i p₁ b heq
    rw [heq] at hs hst hres
    have ho : p₁.Owns b.handles b.ctxs := hres
    have hdestroy := destroySession_sound hs.1 ho (fun hstopped => by rw [hst] at hstopped; cases hstopped)
    split
    · rename_i bots hins
      have h₁ := h.sound hs
      refine ⟨h₁.toOk.same rfl rfl rfl, fun s hm => (h₁.streams s hm).later (.same rfl rfl rfl), fun k b' hb' => ?_⟩
      obtain ⟨-, -, -, hid, -⟩ := ActiveBots.insert_inserted hins
      have hb₁ : Function.update p₁.bots.byId env.botId (some ⟨env.botId, req.targets, [], b⟩) k = some b' := by
        rw [← hid]
        exact hb'
      by_cases hk : k = env.botId
      · subst hk
        rw [Function.update_self] at hb₁
        cases hb₁
        exact ⟨hst, ho.later (.same rfl rfl rfl)⟩
      · rw [Function.update_of_ne hk] at hb₁
        exact ⟨(h₁.bots k b' hb₁).1, (h₁.bots k b' hb₁).2.later (.same rfl rfl rfl)⟩
    · exact h.sound (hs.trans hdestroy)
    · exact h.sound (hs.trans hdestroy)


theorem stopBot_sound (h : p.Inv) (k : Bytes) : Sound p (p.stopBot k) := by
  unfold stopBot
  split
  · exact .refl h.toOk
  · rename_i b bots heq
    have hb : p.bots.byId k = some b := by rw [← p.bots.take_fst k, heq]
    have hout : Sound p { p with bots := bots } := by
      exact ⟨h.toOk.same rfl rfl rfl, ⟨.same rfl rfl rfl, fun _ hs => hs, fun j b' hj => (ActiveBots.of_take heq hj).2⟩⟩
    obtain ⟨hst, ho⟩ := h.bots k b hb
    obtain ⟨hs, hclear⟩ := stopSession_spec hout.1 (ho.later hout.2.toLater) hst
    have hrem := Sound.foldl (f := remove) hs.1 (fun q hq k (_ : k ∈ b.streamIds) =>
      removeWhere_sound (h.sound ((hout.trans hs).trans hq)) _)
    exact ((hout.trans hs).trans hrem).trans (destroySession_sound hrem.1 (hclear.owns _) (fun _ => hclear))

theorem stopByChannel_sound (h : p.Inv) (u : Bytes) : Sound p (p.stopByChannel u) :=
  Sound.foldl h.toOk (fun _ hq k _ => stopBot_sound (h.sound hq) k)

theorem channelDestroy_sound (h : p.Inv) (u : Bytes) : Sound p (p.channelDestroy u) := by
  unfold channelDestroy
  split
  · exact .refl h.toOk
  have hs := stopByChannel_sound h u
  have hr := removeWhere_sound (h.sound hs) (fun s => s.channelUuid == u)
  exact (hs.trans hr).trans (detachAll_sound hr.1 u)

/-! ## The read context of a voicebot -/

/-- A registered bug is released by then if it was before, or if FreeSWITCH closed it. -/
theorem released_closeEach_iff : ∀ {ids : List Nat} {p : Scene}, p.Ok → ∀ {id : Nat}, p.Tracked id →
    (.released id ∈ (p.closeEach ids).events ↔ .released id ∈ p.events ∨ id ∈ ids)
  | [], p, _, id, _ => by simp [closeEach]
  | x :: ids, p, h, id, ht => by
    have hx := detachInternal_sound h false x
    have ih : .released id ∈ ((p.detachInternal false x).closeEach ids).events ↔ _ :=
      released_closeEach_iff hx.1 (hx.2.toLater.tracked ht)
    have hone : .released id ∈ (p.detachInternal false x).events ↔ .released id ∈ p.events ∨ id = x := by
      constructor
      · intro hr
        unfold detachInternal at hr
        split at hr
        · exact .inl hr
        · rcases List.mem_append.1 hr with hr | hr
          · exact .inl hr
          · cases List.mem_singleton.1 hr
            exact .inr rfl
      · rintro (hr | rfl)
        · exact hx.2.toLater.released hr
        · exact detachInternal_released ht
    rw [show p.closeEach (x :: ids) = (p.detachInternal false x).closeEach ids from rfl, ih, hone, List.mem_cons, or_assoc]

/-- **The path that frees too early**, from the second session lookup on: the read attach succeeds, the write attach
fails, and FreeSWITCH has not closed the read bug before the handler returns. -/
def readAlone (env : Env) (req : StartMediaRequest) (p : Scene) : Bool :=
  let readEnv := attachEnv env.second env.read
  let writeEnv := attachEnv env.second env.write
  let withRead := p.bugs.register readEnv.uuid (BugManager.effectiveConfig (voicebotReadConfig req))
  (BugManager.attachError (voicebotReadConfig req) readEnv (p.bugs.purposesOn readEnv.uuid)).isNone &&
    (BugManager.attachError (voicebotWriteConfig req) writeEnv
      (((withRead.detachEach env.afterRead).detachEach env.afterWired).purposesOn writeEnv.uuid)).isSome &&
    !(env.afterRead ++ env.afterWired ++ env.afterWrite).contains p.bugs.nextId

/-- A call that takes it. -/
def freesEarly (p : Scene) : Call → Bool
  | .startVoicebot env req =>
    (refusal checkVoicebotSession env req).isNone && (lateRefusal checkVoicebotSession env req).isNone &&
      readAlone env req (p.removeWriteReplaceForChannel req.channelUuid)
  | _ => false

theorem leaveRead_spec (h : p.Ok) {c : Nat} (ho : p.Owns [id] [c]) (hp : .passed c id ∈ p.events) :
    (.released id ∈ p.events → Sound p (p.leave [.ctx c, .handle id])) ∧
      (.released id ∉ p.events → ¬ Outlives (p.leave [.ctx c, .handle id]).events) := by
  constructor
  · intro hrel
    have hf : Fenced p.events c := ho.keeps.fenced
      (fun x hx => by rw [List.mem_singleton.1 hx]; exact hrel) c List.mem_cons_self
    have hs := free_sound h (ho.made c List.mem_cons_self) hf
    exact hs.trans (detachInternal_sound hs.1 true id)
  · intro hrel hout
    have hgrow : ∃ es, (p.leave [.ctx c, .handle id]).events = (p.events ++ [.freed c]) ++ es := by
      show ∃ es, ((p.free c).detachInternal true id).events = (p.events ++ [.freed c]) ++ es
      unfold detachInternal
      split
      · exact ⟨[], (List.append_nil _).symm⟩
      · exact ⟨_, rfl⟩
    obtain ⟨es, hes⟩ := hgrow
    rw [hes] at hout
    exact hrel ((outlives_free_iff h.outlives c).1 hout.of_append id hp)

theorem attachVoicebot_spec (h : p.Inv) (env : Env) (req : StartMediaRequest) :
    if readAlone env req p then ¬ Outlives (attachVoicebot env req p).1.events
    else (attachVoicebot env req p).1.Inv := by
  unfold attachVoicebot readAlone
  rcases attach_spec h.toOk (Owns.nil p) (voicebotReadConfig req) (attachEnv env.second env.read) with
    ⟨st, p₁, herr, hr, hs₁, -⟩ | ⟨p₁, herr, hr, hs₁, ho₁, hev₁, hb₁⟩
  · rw [hr]
    simp only [herr, Option.isNone_some, Bool.false_and, Bool.false_eq_true, if_false]
    exact h.sound hs₁
  rw [hr]
  have hs₂ := closeEach_sound hs₁.1 env.afterRead
  have ho₂ := ho₁.later hs₂.2.toLater
  obtain ⟨hsp, hop⟩ := pass_spec hs₂.1 ho₂ List.mem_cons_self
  have hs₃ := closeEach_sound hsp.1 env.afterWired
  have ho₃ := hop.later hs₃.2.toLater
  have hsound₃ := ((hs₁.trans hs₂).trans hsp).trans hs₃
  have hbugs₃ : (((p₁.closeEach env.afterRead).newCtx.pass (p₁.closeEach env.afterRead).nextCtx p.bugs.nextId).closeEach
      env.afterWired).bugs = (p₁.bugs.detachEach env.afterRead).detachEach env.afterWired := by
    rw [closeEach_bugs, ← closeEach_bugs env.afterRead]
    rfl
  dsimp only
  rcases attach_spec hs₃.1 ho₃ (voicebotWriteConfig req) (attachEnv env.second env.write) with
    ⟨st, p₄, herr', hr', hs₄, hev₄⟩ | ⟨p₄, herr', hr', hs₄, ho₄, -, -⟩
  · rw [hr']
    rw [hbugs₃, hb₁] at herr'
    have hs₅ := closeEach_sound hs₄.1 env.afterWrite
    have ho₅ := (ho₃.later hs₄.2.toLater).later hs₅.2.toLater
    have hpassed : .passed (p₁.closeEach env.afterRead).nextCtx p.bugs.nextId ∈ (p₄.closeEach env.afterWrite).events := by
      obtain ⟨es, hes, -⟩ := (hs₃.trans (hs₄.trans hs₅)).2.events
      rw [hes]
      exact List.mem_append_left _ (List.mem_append_right _ List.mem_cons_self)
    -- the read bug is released by then exactly when FreeSWITCH closed it
    have hrel : .released p.bugs.nextId ∈ (p₄.closeEach env.afterWrite).events ↔
        (env.afterRead ++ env.afterWired ++ env.afterWrite).contains p.bugs.nextId = true := by
      have hfresh : .released p.bugs.nextId ∉ p.events := fun hr => Nat.lt_irrefl _ (h.released _ hr)
      rw [released_closeEach_iff hs₄.1 ((ho₃.later hs₄.2.toLater).tracked _ List.mem_cons_self), hev₄,
        released_closeEach_iff hsp.1 (hop.tracked _ List.mem_cons_self)]
      have hpass : .released p.bugs.nextId ∈ ((p₁.closeEach env.afterRead).newCtx.pass
          (p₁.closeEach env.afterRead).nextCtx p.bugs.nextId).events ↔
          .released p.bugs.nextId ∈ (p₁.closeEach env.afterRead).events := by
        simp [pass, newCtx]
      rw [hpass, released_closeEach_iff hs₁.1 (ho₁.tracked _ List.mem_cons_self), hev₁]
      simp only [hfresh, false_or, List.contains_iff_mem, List.mem_append]
    obtain ⟨hgood, hbad⟩ := leaveRead_spec hs₅.1 ho₅ hpassed
    simp only [herr, herr', Option.isNone_none, Option.isSome_some, Bool.true_and, Bool.not_eq_true']
    split
    · rename_i hc
      exact hbad (fun hr => by rw [hrel.1 hr] at hc; cases hc)
    · rename_i hc
      rw [Bool.not_eq_false] at hc
      have hr := hrel.2 hc
      exact h.sound (((hsound₃.trans hs₄).trans hs₅).trans (hgood hr))
  · rw [hr']
    rw [hbugs₃, hb₁] at herr'
    simp only [herr', Option.isSome_none, Bool.and_false, Bool.false_and, Bool.false_eq_true, if_false]
    obtain ⟨hs₅, ho₅⟩ := closePass_spec hs₄.1 ho₄ env.afterWrite (List.mem_append_right _ List.mem_cons_self)
    refine (h.sound ((hsound₃.trans hs₄).trans hs₅)).registerStream (ho₅.sub (fun c hc => ?_))
    simp only [StreamObject.ctxs, Option.toList_some, Option.toList_none, List.append_nil, List.mem_append] at hc ⊢
    tauto

/-- **One call**: it takes that path and breaks the law, or leaves the scene as it should be. -/
theorem call_spec (h : p.Inv) (c : Call) :
    if p.freesEarly c then ¬ Outlives (p.call c).events else (p.call c).Inv := by
  have hrem : ∀ u, (p.removeWriteReplaceForChannel u).Inv := fun u => h.sound (removeWhere_sound h _)
  cases c with
  | startTts env req =>
    show (p.startTts env req).1.Inv
    unfold startTts
    split
    · exact h
    split
    · exact hrem _
    · exact (hrem _).attachTts env req
  | startVoicebot env req =>
    have hguard : p.freesEarly (.startVoicebot env req) = ((refusal checkVoicebotSession env req).isNone &&
        (lateRefusal checkVoicebotSession env req).isNone &&
        readAlone env req (p.removeWriteReplaceForChannel req.channelUuid)) := rfl
    have hcall : p.call (.startVoicebot env req) = (p.startVoicebot env req).1 := rfl
    rw [hguard, hcall]
    unfold startVoicebot
    cases refusal checkVoicebotSession env req with
    | some st =>
      simp only [Option.isNone_some, Bool.false_and, Bool.false_eq_true, if_false]
      exact h
    | none =>
      cases lateRefusal checkVoicebotSession env req with
      | some st =>
        simp only [Option.isNone_some, Bool.and_false, Bool.false_and, Bool.false_eq_true, if_false]
        exact hrem _
      | none =>
        simp only [Option.isNone_none, Bool.true_and]
        exact attachVoicebot_spec (hrem _) env req
  | startStt env req =>
    show (p.startStt env req).1.Inv
    unfold startStt
    split
    · exact h
    · exact h.attachStt env req
  | startRecordingRelay env req stereo => exact h.startRecordingRelay env req stereo
  | startBot env lim req => exact h.startBot env lim req
  | stopBot k => exact h.sound (stopBot_sound h k)
  | stopStream id => exact h.sound (removeWhere_sound h _)
  | close id => exact h.sound (detachInternal_sound h.toOk false id)
  | destroy u => exact h.sound (channelDestroy_sound h u)

end invariant

theorem calls_concat (p : Scene) (cs : List Call) (c : Call) : p.calls (cs ++ [c]) = (p.calls cs).call c := by
  rw [calls, List.foldl_append]
  rfl

/-- The invariant is carried along a sequence of calls none of which breaks it. -/
theorem calls_inv {l : List Call} (hl : ∀ before c after, l = before ++ c :: after → (empty.calls before).Inv →
    ((empty.calls before).call c).Inv) : ∀ before after, l = before ++ after → (empty.calls before).Inv := by
  intro before
  generalize hn : before.length = n
  induction n generalizing before with
  | zero =>
    intro _ _
    rw [List.eq_nil_of_length_eq_zero hn]
    exact .empty
  | succ n ih =>
    intro after hsplit
    obtain rfl | ⟨init, c, rfl⟩ := List.eq_nil_or_concat' before
    · cases hn
    · have hinit := ih init (by simpa using hn) (c :: after) (by rw [hsplit]; simp)
      rw [calls_concat]
      exact hl init c after (by rw [hsplit]; simp) hinit

/-- **Callback contexts outlive their bugs**: in every sequence of calls, the law holds after each of them exactly when
none is a `StartVoicebot` that returns with its read bug attached and its write bug refused. -/
theorem contexts_outlive_bugs_iff (cs : List Call) :
    (∀ before after, cs = before ++ after → Outlives (empty.calls before).events) ↔
      ∀ before c after, cs = before ++ c :: after → (empty.calls before).freesEarly c = false := by
  constructor
  · intro hlaw
    -- as long as the law holds no call has freed early
    have hquiet : ∀ before c after, cs = before ++ c :: after → (empty.calls before).Inv →
        (empty.calls before).freesEarly c = false := by
      intro before c after hsplit hinv
      refine Bool.eq_false_iff.2 (fun hearly => ?_)
      have hspec := call_spec hinv c
      rw [if_pos hearly, ← calls_concat] at hspec
      exact hspec (hlaw (before ++ [c]) after (by rw [hsplit]; simp))
    have hinv := calls_inv (l := cs) (fun before c after hsplit hi => by
      have hspec := call_spec hi c
      rw [hquiet before c after hsplit hi] at hspec
      exact hspec)
    exact fun before c after hsplit => hquiet before c after hsplit (hinv before (c :: after) hsplit)
  · intro hguard before after hsplit
    refine (calls_inv (l := cs) (fun b c a hs hi => ?_) before after hsplit).outlives
    have hspec := call_spec hi c
    rw [hguard b c a hs] at hspec
    exact hspec

/-- The read attach succeeds, `switch_core_media_bug_add` fails for the write bug. -/
def refusedWrite : Call :=
  .startVoicebot
    ⟨⟨true, some ⟨str "a", 8000, 8000⟩, .okay, some ⟨str "a", 8000, 8000⟩, ⟨[], true, true, 0, true⟩,
      ⟨[], true, true, 1, true⟩, str "s"⟩, [], [], []⟩
    ⟨str "a", str "bot:50051", 8000, str "t"⟩

/-- The read context, passed for bug 1, is freed while the bug is attached. -/
theorem refusedWrite_frees_early :
    (empty.call refusedWrite).events = [.passed 0 1, .freed 0, .released 1] ∧
      ¬ Outlives (empty.call refusedWrite).events := by
  have hev : (empty.call refusedWrite).events = [.passed 0 1, .freed 0, .released 1] := by decide +kernel
  refine ⟨hev, fun hout => ?_⟩
  rw [hev] at hout
  have hrel := hout [.passed 0 1] 0 [.released 1] rfl 1 List.mem_cons_self
  cases List.mem_singleton.1 hrel

end Scene
end Control
end Osw
