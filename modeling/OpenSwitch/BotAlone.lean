import OpenSwitch.BotSteps
import OpenSwitch.ChannelDestroy
/-!
# BotAlone — the handlers for bots that nobody interrupts

`Scene` has the handlers for bots and the destroy hook in one piece, with their callback contexts; `BotSteps` has them
step by step, with the marks on the targets.  A state of the one shows a scene of the other when registry, streams and
bots are the same.  Put together, the steps of a call that runs while the others stand, and of the closes FreeSWITCH
makes meanwhile, are the handler of the scene.
-/
namespace Osw
namespace Control

open Media (BugManager BugConfig)

/-! ## Maps of bots with different sessions -/

/-- A bot with what `f` makes of its session. -/
def ActiveBot.map {σ τ : Type} (f : σ → τ) (b : ActiveBot σ) : ActiveBot τ := ⟨b.botId, b.targets, b.streamIds, f b.session⟩

namespace ActiveBots

variable {σ τ ρ : Type} {f : σ → ρ} {g : τ → ρ} {a : ActiveBots σ} {c : ActiveBots τ}

/-- The same bots, up to what `f` and `g` make of their sessions. -/
structure Alike (f : σ → ρ) (g : τ → ρ) (a : ActiveBots σ) (c : ActiveBots τ) : Prop where
  byId      : ∀ k, (a.byId k).map (·.map f) = (c.byId k).map (·.map g)
  byChannel : a.byChannel = c.byChannel

theorem Alike.channelBots (h : Alike f g a c) (u : Bytes) : a.channelBots u = c.channelBots u := by
  simp only [ActiveBots.channelBots, h.byChannel]

theorem Alike.channelAtCapacity (h : Alike f g a c) (u : Bytes) (max : Nat) :
    a.channelAtCapacity u max = c.channelAtCapacity u max := by
  simp only [ActiveBots.channelAtCapacity, h.byChannel]

theorem Alike.byId_none (h : Alike f g a c) (k : Bytes) : a.byId k = none ↔ c.byId k = none := by
  rw [← Option.map_eq_none_iff (f := (·.map f)), h.byId k, Option.map_eq_none_iff]

theorem Alike.emplace (h : Alike f g a c) {b : ActiveBot σ} {b' : ActiveBot τ} (hb : b.map f = b'.map g)
    (hnew : a.byId b.botId = none) (hnew' : c.byId b'.botId = none) : Alike f g (a.emplace b hnew) (c.emplace b' hnew') := by
  obtain ⟨hid, ht, -, -⟩ := ActiveBot.mk.inj hb
  refine ⟨fun k => ?_, ?_⟩
  · change (Function.update a.byId b.botId (some b) k).map _ = (Function.update c.byId b'.botId (some b') k).map _
    rw [hid]
    by_cases hk : k = b'.botId
    · rw [hk, Function.update_self, Function.update_self]
      exact congrArg some hb
    · rw [Function.update_of_ne hk, Function.update_of_ne hk]
      exact h.byId k
  · change pushEach b.botId a.byChannel b.targets = pushEach b'.botId c.byChannel b'.targets
    rw [hid, ht, h.byChannel]

theorem Alike.insert (h : Alike f g a c) {b : ActiveBot σ} {b' : ActiveBot τ} (hb : b.map f = b'.map g) (max : Nat) :
    (a.insert b max).2 = (c.insert b' max).2 ∧ Alike f g (a.insert b max).1 (c.insert b' max).1 := by
  obtain ⟨hid, ht, -, -⟩ := ActiveBot.mk.inj hb
  have hcap : b.targets.any (fun u => max ≤ (a.channelBots u).length)
      = b'.targets.any (fun u => max ≤ (c.channelBots u).length) := by
    rw [ht]
    simp only [h.channelBots]
  unfold ActiveBots.insert
  by_cases hnil : b'.botId = []
  · rw [if_pos (hid.trans hnil), if_pos hnil]
    exact ⟨rfl, h⟩
  have hnil' : b.botId ≠ [] := fun he => hnil (hid.symm.trans he)
  rw [if_neg hnil', if_neg hnil]
  by_cases hnew : c.byId b'.botId = none
  · have hnew' : a.byId b.botId = none := by
      rw [hid]
      exact (h.byId_none _).2 hnew
    rw [dif_pos hnew', dif_pos hnew, hcap]
    split
    · exact ⟨rfl, h⟩
    · exact ⟨rfl, h.emplace hb hnew' hnew⟩
  · have hnew' : a.byId b.botId ≠ none := by
      rw [hid]
      exact fun he => hnew ((h.byId_none _).1 he)
    rw [dif_neg hnew', dif_neg hnew]
    exact ⟨rfl, h⟩

theorem Alike.take (h : Alike f g a c) (k : Bytes) :
    (a.take k).1.map (·.map f) = (c.take k).1.map (·.map g) ∧ Alike f g (a.take k).2 (c.take k).2 := by
  refine ⟨by rw [take_fst, take_fst, h.byId k], fun j => ?_, ?_⟩
  · rw [take_byId, take_byId]
    by_cases hj : j = k
    · rw [hj, Function.update_self, Function.update_self]
      rfl
    · rw [Function.update_of_ne hj, Function.update_of_ne hj]
      exact h.byId j
  · cases hb : a.byId k with
    | none => rw [take_of_none hb, take_of_none ((h.byId_none k).1 hb), h.byChannel]
    | some b =>
      have hk := h.byId k
      rw [hb] at hk
      obtain ⟨b', hb', he⟩ := Option.map_eq_some_iff.1 hk.symm
      obtain ⟨hid, ht, -, -⟩ := ActiveBot.mk.inj he
      rw [take_byChannel hb, take_byChannel hb', h.byChannel, hid, ht]

end ActiveBots

/-! ## What shows of a scene -/

namespace Scene

/-- Two scenes that differ in nothing but contexts and records. -/
def SameView (p q : Scene) : Prop := q.toPlane = p.toPlane ∧ q.bots = p.bots

variable {p q : Scene}

theorem SameView.refl (p : Scene) : SameView p p := ⟨rfl, rfl⟩

theorem SameView.trans {r : Scene} (h : SameView p q) (h' : SameView q r) : SameView p r :=
  ⟨h'.1.trans h.1, h'.2.trans h.2⟩

theorem SameView.symm (h : SameView p q) : SameView q p := ⟨h.1.symm, h.2.symm⟩

theorem freeEach_view (cs : List Nat) (p : Scene) : SameView p (p.freeEach cs) :=
  ⟨freeEach_toPlane cs p, (freeEach_same cs p).2.2.2⟩

theorem SameView.detachEach (h : SameView p q) (ids : List Nat) : SameView (p.detachEach ids) (q.detachEach ids) := by
  have hbugs : q.bugs = p.bugs := congrArg MediaPlane.bugs h.1
  refine ⟨?_, ?_⟩
  · rw [detachEach_toPlane, detachEach_toPlane, h.1, hbugs]
  · rw [(detachEach_maps ids q).2, (detachEach_maps ids p).2, h.2]

/-- The lambda `unwind` shows as the end of the handles. -/
theorem unwind_view (p : Scene) (b : BotSession) : SameView (p.detachEach b.handles) (p.unwind b).1 :=
  (freeEach_view b.readContexts _).trans (freeEach_view b.writeContexts _)

/-- A bug that could not be wired: the session is unwound, then the locals of the loop go. -/
theorem unwire_view (p : Scene) (b : BotSession) (c id : Nat) :
    SameView (p.detachEach (b.handles ++ [id]))
      ((((p.newCtx.pass c id).unwind b).1.leave [.ctx c, .handle id])) := by
  have hctx : SameView p (p.newCtx.pass c id) := ⟨rfl, rfl⟩
  have hall := ((hctx.detachEach b.handles).trans (unwind_view _ b)).trans (freeEach_view [c] _)
  rw [show p.detachEach (b.handles ++ [id]) = (p.detachEach b.handles).detachEach [id] from List.foldl_append ..]
  exact hall.detachEach [id]

theorem destroySession_view (p : Scene) (b : BotSession) : SameView (p.detachEach b.handles) (p.destroySession b) := by
  unfold destroySession stopSession
  by_cases hst : b.stopped = true
  · rw [if_pos hst]
    exact ((freeEach_view b.writeContexts p).trans (freeEach_view b.readContexts _)).detachEach b.handles
  · rw [if_neg hst]
    exact unwind_view p b

theorem endSession_view (p : Scene) (b : BotSession) :
    SameView (p.detachEach b.handles) ((p.stopSession b).1.destroySession (p.stopSession b).2) := by
  unfold stopSession
  by_cases hst : b.stopped = true
  · rw [if_pos hst]
    exact destroySession_view p b
  · rw [if_neg hst]
    exact (unwind_view p b).trans (destroySession_view _ _)

theorem removeForChannel_view (p : Scene) (u : Bytes) :
    SameView
      (detachEach
        { p with
          streams  := p.streams.filter (fun x => !(x.channelUuid == u))
          distinct := p.distinct.sublist (List.Sublist.map _ List.filter_sublist) }
        ((p.streams.filter (fun x => x.channelUuid == u)).flatMap (·.bugs)))
      (p.removeForChannel u) := by
  refine ⟨?_, ?_⟩
  · unfold removeForChannel removeWhere
    rw [foldl_tearDown_toPlane, detachEach_toPlane]
  · rw [(detachEach_maps _ _).2]
    exact (removeWhere_drops p _).2.2

end Scene

namespace BotPlane

open Scene (SameView)

/-- The state shows the scene: the same registry and streams, and bots with the same handles. -/
structure Shows (s : BotPlane) (p : Scene) : Prop where
  plane : s.plane = p.toPlane
  bots  : ActiveBots.Alike (fun o => o.handles) (fun b => b.handles) s.bots p.bots

variable {s : BotPlane} {p : Scene}

theorem Shows.frame (h : s.Shows p) {t : BotPlane} (hp : t.plane = s.plane) (hb : t.bots = s.bots) : t.Shows p :=
  ⟨hp.trans h.plane, hb ▸ h.bots⟩

theorem Shows.view (h : s.Shows p) {q : Scene} (hq : SameView p q) : s.Shows q :=
  ⟨h.plane.trans hq.1.symm, hq.2 ▸ h.bots⟩

theorem Shows.bugs (h : s.Shows p) : s.plane.bugs = p.bugs := congrArg MediaPlane.bugs h.plane

theorem Shows.withBugs (h : s.Shows p) (m : BugManager) : (s.withBugs m).Shows { p with bugs := m } :=
  ⟨congrArg (·.withBugs m) h.plane, h.bots⟩

theorem Shows.detachInternal (h : s.Shows p) (remove : Bool) (id : Nat) :
    (s.detach id).Shows (p.detachInternal remove id) := by
  refine ⟨?_, ?_⟩
  · refine (Scene.toPlane_eq ?_ ?_).symm
    · rw [Scene.detachInternal_bugs]
      exact congrArg (·.detach id) h.bugs.symm
    · rw [Scene.detachInternal_streams]
      exact congrArg MediaPlane.streams h.plane.symm
  · have hbots : (p.detachInternal remove id).bots = p.bots := by
      unfold Scene.detachInternal
      split <;> rfl
    rw [hbots]
    exact h.bots

/-! ## A call by itself -/

/-- A step of thread `i`, or a close by FreeSWITCH. -/
def ofThread (i : Nat) (a : BotAct) : Prop := (∃ j, a = .call i j) ∨ (∃ o, a = .go i o) ∨ ∃ id, a = .close id

/-- Thread `i` runs while the others stand. -/
def Alone (M : BotModule) (i : Nat) : BotPlane → BotPlane → Prop := Run.Reaches (fun s a => step s M a) (ofThread i)

/-- The thread comes to `ph`, where the state shows `p`; no hook has run and no variable was set. -/
def Leads (M : BotModule) (i : Nat) (s : BotPlane) (ph : BotPhase) (p : Scene) : Prop :=
  ∃ t, Alone M i s t ∧ t.phase i = ph ∧ t.Shows p ∧ t.hook = s.hook ∧ t.channels = s.channels

section leads

variable {M : BotModule} {i : Nat} {ph : BotPhase} {t : BotPlane} {env : Nat → Scene.TargetEnv}
  {channels : Bytes → Channel}

theorem Leads.here (hi : s.phase i = ph) (hs : s.Shows p) : Leads M i s ph p :=
  ⟨s, Run.Reaches.refl _ _ s, hi, hs, rfl, rfl⟩

theorem Leads.view (h : Leads M i s ph p) {q : Scene} (hq : SameView p q) : Leads M i s ph q := by
  obtain ⟨t, ht, hph, hs, hh, hc⟩ := h
  exact ⟨t, ht, hph, hs.view hq, hh, hc⟩

theorem Leads.after (ht : Alone M i s t) (hh : t.hook = s.hook) (hc : t.channels = s.channels) (h : Leads M i t ph p) :
    Leads M i s ph p := by
  obtain ⟨t', ht', hph, hs, hh', hc'⟩ := h
  exact ⟨t', ht.trans ht', hph, hs, hh'.trans hh, hc'.trans hc⟩

theorem Leads.go (o : Answers) (hgo : s.go M i o = some t) (hh : t.hook = s.hook) (hc : t.channels = s.channels)
    (h : Leads M i t ph p) : Leads M i s ph p :=
  h.after (Run.Reaches.single (.inr (.inl ⟨o, rfl⟩)) hgo) hh hc

theorem Leads.trans {q : Scene} {ph' : BotPhase} (h : Leads M i s ph p)
    (h' : ∀ t, t.phase i = ph → t.Shows p → t.hook = s.hook → Leads M i t ph' q) : Leads M i s ph' q := by
  obtain ⟨t, ht, hph, hs, hh, hc⟩ := h
  exact (h' t hph hs hh).after ht hh hc

/-- The next step of a `StartBot`. -/
theorem go_starting {b : BotStart} {sp : StartPhase} (hi : s.phase i = .starting b sp) (o : Answers) :
    s.go M i o = some (s.advance M i b o sp) := by
  simp only [BotPlane.go, hi]

theorem Shows.goto (h : s.Shows p) (i : Nat) (ph : BotPhase) : (s.goto i ph).Shows p := h.frame rfl rfl

theorem leads_of_ending {lock : Option Bytes} {st : Status} : ∀ {ids : List Nat} {s : BotPlane} {p : Scene}, s.Shows p →
    s.phase i = .ending lock ids st → Leads M i s (.returned st) (p.detachEach ids)
  | [], s, p, hs, hi => by
    have hgo : s.go M i willing = some ((s.release lock).goto i (.returned st)) := by
      simp only [BotPlane.go, hi]
    cases lock with
    | none => exact .go willing hgo rfl rfl (.here (goto_phase_self ..) (hs.frame rfl rfl))
    | some u => exact .go willing hgo rfl rfl (.here (goto_phase_self ..) (hs.frame rfl rfl))
  | id :: ids, s, p, hs, hi => by
    have hgo : s.go M i willing = some ((s.detach id).goto i (.ending lock ids st)) := by
      simp only [BotPlane.go, hi]
    have hrest : Leads M i _ (.returned st) ((p.detach id).detachEach ids) :=
      leads_of_ending ((hs.detachInternal true id).goto i (.ending lock ids st)) (goto_phase_self ..)
    exact .go willing hgo rfl rfl hrest

theorem leads_closeEach : ∀ (ids : List Nat) {s : BotPlane} {p : Scene}, s.Shows p → s.phase i = ph →
    Leads M i s ph (p.closeEach ids)
  | [], _, _, hs, hi => .here hi hs
  | id :: ids, _, _, hs, hi =>
    .after (Run.Reaches.single (.inr (.inr ⟨id, rfl⟩)) rfl) rfl rfl (leads_closeEach ids (hs.detachInternal false id) hi)

/-! ### Attaching -/

/-- Where a part of `BotSession::Attach` brings the call: on to `next` with the handles of its session, or, when it
fails, back to the caller with none. -/
def Comes (M : BotModule) (i : Nat) (s : BotPlane) (b : BotStart) (next : StartPhase)
    (r : Scene × BotSession × Option Status) : Prop :=
  match r.2.2 with
  | none    => Leads M i s (.starting { b with handles := r.2.1.handles } next) r.1
  | some st => Leads M i s (.returned st) r.1 ∧ r.2.1.handles = []

theorem Comes.after {b : BotStart} {handles : List Nat} {ph : StartPhase} {next : StartPhase}
    {r : Scene × BotSession × Option Status} (h : Leads M i s (.starting { b with handles := handles } ph) p)
    (h' : ∀ t, t.phase i = .starting { b with handles := handles } ph → t.Shows p → t.hook = s.hook →
      Comes M i t { b with handles := handles } next r) : Comes M i s b next r := by
  obtain ⟨p', b', _ | st⟩ := r
  · exact h.trans h'
  · obtain ⟨t, ht, hph, hs, hh, hc⟩ := h
    obtain ⟨hret, hnil⟩ := h' t hph hs hh
    exact ⟨hret.after ht hh hc, hnil⟩

variable {b : BotStart} {bs : BotSession} {u : Bytes} {rest : List Bytes}

theorem comes_attachBug (hs : s.Shows p) (hb : bs.handles = b.handles) {side : BugSide} {cfg : BugConfig}
    {todo : List (BugSide × BugConfig)} (hi : s.phase i = .starting b (.holding u ((side, cfg) :: todo) rest))
    (env : Scene.BugEnv) (hu : env.attach.uuid = cStr u) :
    Comes M i s b (.holding u todo rest) (Scene.attachBug env side cfg p bs) := by
  have hatt : s.plane.bugs.attach cfg { env.attach with uuid := cStr u } = p.bugs.attach cfg env.attach := by
    rw [hs.bugs, ← hu]
  have hgo := go_starting (M := M) hi { willing with attach := env.attach }
  simp only [advance, hatt] at hgo
  unfold Scene.attachBug Scene.attach
  rcases hat : p.bugs.attach cfg env.attach with ⟨m, st | id⟩
  · rw [hat] at hgo
    dsimp only at hgo ⊢
    have hshow := (hs.withBugs m).goto i (.ending (some u) b.handles (attachFailureStatus st))
    have hend := leads_of_ending (M := M) hshow (goto_phase_self ..)
    refine ⟨.go _ hgo rfl rfl (hend.view ?_), rfl⟩
    rw [← hb]
    exact Scene.unwind_view _ bs
  · rw [hat] at hgo
    dsimp only at hgo ⊢
    obtain ⟨p₂, hp₂⟩ : ∃ p₂, p₂ = Scene.closeEach { p with bugs := m } env.closed := ⟨_, rfl⟩
    rw [← hp₂]
    -- the attach, and what FreeSWITCH closes before the callback is set
    have hwiring : Leads M i s (.starting b (.wiring u side id todo rest)) p₂ := by
      refine .go _ hgo rfl rfl ?_
      rw [hp₂]
      exact leads_closeEach env.closed ((hs.withBugs m).frame rfl rfl) (goto_phase_self ..)
    have hwired : ∀ t : BotPlane, t.Shows p₂ → (t.plane.bugs.byId id).isSome = p₂.wired id := by
      intro t ht
      rw [ht.bugs]
      rfl
    by_cases hw : p₂.wired id = true
    · rw [if_pos hw]
      refine hwiring.trans (fun t ht hts _ => ?_)
      have hgo' := go_starting (M := M) ht willing
      simp only [advance, hwired t hts, if_pos hw] at hgo'
      have hhandles : (bs.push id p₂.nextCtx side).handles = b.handles ++ [id] := by
        rw [← hb]
        cases side <;> rfl
      refine .go _ hgo' rfl rfl (.here ?_ ((hts.goto i _).view ⟨rfl, rfl⟩))
      rw [goto_phase_self, hhandles]
    · rw [if_neg hw]
      refine ⟨hwiring.trans (fun t ht hts _ => ?_), rfl⟩
      have hgo' := go_starting (M := M) ht willing
      simp only [advance, hwired t hts, if_neg hw] at hgo'
      have hend := leads_of_ending (M := M) (hts.goto i (.ending (some u) (b.handles ++ [id]) (failedToWire side)))
        (goto_phase_self ..)
      exact .go _ hgo' rfl rfl (hend.view (hb ▸ Scene.unwire_view p₂ bs p₂.nextCtx id))

theorem comes_attachBugs {env : BugSide → Scene.BugEnv} (hu : ∀ side, (env side).attach.uuid = cStr u) :
    ∀ {todo : List (BugSide × BugConfig)} {s : BotPlane} {p : Scene} {b : BotStart} {bs : BotSession}, s.Shows p →
      bs.handles = b.handles → s.phase i = .starting b (.holding u todo rest) →
      Comes M i s b (.attaching rest) (Scene.attachBugs env todo p bs)
  | [], s, p, b, bs, hs, hb, hi => by
    have hgo := go_starting (M := M) hi willing
    refine Leads.go _ hgo rfl rfl (.here ?_ (hs.frame rfl rfl))
    rw [show (Scene.attachBugs env [] p bs).2.1 = bs from rfl, hb]
    exact goto_phase_self ..
  | (side, cfg) :: todo, s, p, b, bs, hs, hb, hi => by
    have hone := comes_attachBug (M := M) hs hb hi (env side) (hu side)
    unfold Scene.attachBugs
    rcases hr : Scene.attachBug (env side) side cfg p bs with ⟨p₁, b₁, _ | st⟩
    · rw [hr] at hone
      dsimp only
      have hrest : ∀ t : BotPlane, t.phase i = .starting { b with handles := b₁.handles } (.holding u todo rest) →
          t.Shows p₁ → t.hook = s.hook →
          Comes M i t { b with handles := b₁.handles } (.attaching rest) (Scene.attachBugs env todo p₁ b₁) :=
        fun t ht hts _ => comes_attachBugs hu hts rfl ht
      exact Comes.after hone hrest
    · rw [hr] at hone
      exact hone

theorem alive_congr (hh : t.hook = s.hook) (u : Bytes) : t.alive u = s.alive u := by
  rw [alive, alive, hh]

/-- Every target is located, and the attaches on it are made on its session. -/
structure Located (s : BotPlane) (env : Nat → Scene.TargetEnv) (us : List Bytes) : Prop where
  alive : ∀ u ∈ us, s.alive u = true
  uuid  : ∀ n u, us[n]? = some u → ∀ side, ((env n).bug side).attach.uuid = cStr u

theorem Located.congr {us : List Bytes} (h : Located s env us) (hh : t.hook = s.hook) : Located t env us :=
  ⟨fun v hv => (alive_congr hh v).trans (h.alive v hv), h.uuid⟩

theorem Located.tail {us : List Bytes} (h : Located s env (u :: us)) : Located s (fun n => env (n + 1)) us :=
  ⟨fun v hv => h.alive v (List.mem_cons_of_mem _ hv), fun n v hv => h.uuid (n + 1) v hv⟩

/-- The loop of `BotSession::Attach`. -/
theorem comes_attachTargets : ∀ {us : List Bytes} {n : Nat} {s : BotPlane} {p : Scene}
    {b : BotStart} {bs : BotSession}, s.Shows p → bs.handles = b.handles → s.phase i = .starting b (.attaching us) →
      Located s (fun k => env (n + k)) us → Comes M i s b (.marking b.req.targets) (Scene.attachTargets env b.req n us p bs)
  | [], n, s, p, b, bs, hs, hb, hi, _ => by
    have hgo := go_starting (M := M) hi willing
    refine Leads.go _ hgo rfl rfl (.here ?_ (hs.frame rfl rfl))
    rw [show (Scene.attachTargets env b.req n [] p bs).2.1 = bs from rfl, hb]
    exact goto_phase_self ..
  | u :: us, n, s, p, b, bs, hs, hb, hi, hloc => by
    have halive : s.alive u = true := hloc.alive u List.mem_cons_self
    unfold Scene.attachTargets
    by_cases hf : (env n).found = true
    · have hgo := go_starting (M := M) hi willing
      simp only [advance, halive, willing, Bool.and_self, if_true] at hgo
      have hhold : Leads M i s (.starting { b with handles := b.handles } (.holding u (botBugs b.req u) us)) p :=
        .go _ hgo rfl rfl (.here (goto_phase_self ..) (hs.frame rfl rfl))
      rw [hf]
      refine Comes.after hhold (fun t ht hts hth => ?_)
      have hbugs := comes_attachBugs (M := M) (hloc.uuid 0 u rfl) hts hb ht
      rw [Nat.add_zero] at hbugs
      simp only [Bool.not_true, Bool.false_eq_true, if_false]
      rcases hr : Scene.attachBugs (env n).bug (botBugs b.req u) p bs with ⟨p₁, b₁, _ | st⟩
      · rw [hr] at hbugs
        refine Comes.after hbugs (fun t' ht' hts' hth' => comes_attachTargets hts' rfl ht' ?_)
        have hnext : (fun k => env (n + 1 + k)) = fun k => env (n + (k + 1)) := by
          funext k
          rw [Nat.add_assoc, Nat.add_comm 1 k]
        rw [hnext]
        exact hloc.tail.congr (hth'.trans hth)
      · rw [hr] at hbugs
        exact hbugs
    · have hgo := go_starting (M := M) hi { willing with found := false }
      simp only [advance, Bool.and_false, Bool.false_eq_true, if_false] at hgo
      have hend := leads_of_ending (M := M) (hs.goto i (.ending none b.handles (StartBotRequest.targetNotFound u)))
        (goto_phase_self ..)
      rw [Bool.not_eq_true] at hf
      rw [hf]
      refine ⟨.go _ hgo rfl rfl (hend.view ?_), rfl⟩
      rw [← hb]
      exact Scene.unwind_view p bs

/-! ### Before and after -/

theorem leads_checkBotTargets {env : Scene.BotEnv} : ∀ {us : List Bytes} {n : Nat} {s : BotPlane}, s.Shows p →
    s.phase i = .starting b (.checking us) → (∀ u ∈ us, s.alive u = true) →
    match p.checkBotTargets env M.limits b.req n us with
    | some st => Leads M i s (.returned st) p
    | none    => Leads M i s (.starting b .opening) p
  | [], n, s, hs, hi, _ => .go _ (go_starting hi willing) rfl rfl (.here (goto_phase_self ..) (hs.frame rfl rfl))
  | u :: us, n, s, hs, hi, halive => by
    have hcap := hs.bots.channelAtCapacity u M.limits.maxBotsPerChannel
    have hgo := go_starting (M := M) hi willing
    simp only [advance, hcap] at hgo
    unfold Scene.checkBotTargets
    by_cases hfull : p.bots.channelAtCapacity u M.limits.maxBotsPerChannel = true
    · rw [if_pos hfull] at hgo ⊢
      exact .go _ hgo rfl rfl (.here (goto_phase_self ..) (hs.goto i _))
    rw [if_neg hfull] at hgo ⊢
    have hprobe : Leads M i s (.starting b (.probing u us)) p := .go _ hgo rfl rfl (.here (goto_phase_self ..) (hs.goto i _))
    have hview : ∀ t : BotPlane, t.phase i = .starting b (.probing u us) → t.hook = s.hook →
        t.go M i { willing with view := env.views n } = some
          (match b.req.checkSession u (env.views n) with
           | some st => t.goto i (.returned st)
           | none    => t.goto i (.starting b (.checking us))) := by
      intro t ht hth
      have hal : t.alive u = true := (alive_congr hth u).trans (halive u List.mem_cons_self)
      have hgo' := go_starting (M := M) ht { willing with view := env.views n }
      simp only [advance, hal, if_true] at hgo'
      exact hgo'
    cases hc : b.req.checkSession u (env.views n) with
    | some st =>
      refine hprobe.trans (fun t ht hts hth => ?_)
      have hgo' := hview t ht hth
      rw [hc] at hgo'
      exact .go _ hgo' rfl rfl (.here (goto_phase_self ..) (hts.goto i _))
    | none =>
      simp only [Option.none_or]
      have hnext : Leads M i s (.starting b (.checking us)) p := by
        refine hprobe.trans (fun t ht hts hth => ?_)
        have hgo' := hview t ht hth
        rw [hc] at hgo'
        exact .go _ hgo' rfl rfl (.here (goto_phase_self ..) (hts.goto i _))
      have hrest : ∀ t : BotPlane, t.phase i = .starting b (.checking us) → t.Shows p → t.hook = s.hook →
          match p.checkBotTargets env M.limits b.req (n + 1) us with
          | some st => Leads M i t (.returned st) p
          | none    => Leads M i t (.starting b .opening) p := by
        intro t ht hts hth
        exact leads_checkBotTargets hts ht (fun v hv => (alive_congr hth v).trans (halive v (List.mem_cons_of_mem _ hv)))
      split
      · rename_i st hst
        refine hnext.trans (fun t ht hts hth => ?_)
        have h := hrest t ht hts hth
        rw [hst] at h
        exact h
      · rename_i hst
        refine hnext.trans (fun t ht hts hth => ?_)
        have h := hrest t ht hts hth
        rw [hst] at h
        exact h

/-- The marks on one target. -/
def markTarget (M : BotModule) (req : StartBotRequest) (channels : Bytes → Channel) (u : Bytes) : Bytes → Channel :=
  Function.update channels (cStr u) (Security.markBotSession req.purpose.name
    (Security.resolveEffectivePolicy M.policy req.tenantId) req.tenantId (channels (cStr u)))

/-- The thread comes to `ph` and has set these variables. -/
def Writes (M : BotModule) (i : Nat) (s : BotPlane) (ph : BotPhase) (channels : Bytes → Channel) : Prop :=
  ∃ t, Alone M i s t ∧ t.phase i = ph ∧ t.plane = s.plane ∧ t.bots = s.bots ∧ t.hook = s.hook ∧ t.channels = channels

theorem Writes.go (hgo : s.go M i willing = some t) (hp : t.plane = s.plane) (hb : t.bots = s.bots)
    (hh : t.hook = s.hook) (h : Writes M i t ph channels) : Writes M i s ph channels := by
  obtain ⟨t', ht', hph, hp', hb', hh', hc'⟩ := h
  exact ⟨t', (Run.Reaches.single (.inr (.inl ⟨willing, rfl⟩)) hgo).trans ht', hph, hp'.trans hp, hb'.trans hb,
    hh'.trans hh, hc'⟩

theorem Writes.trans {ph' : BotPhase} {channels' : Bytes → Channel} (h : Writes M i s ph channels)
    (h' : ∀ t, t.phase i = ph → t.hook = s.hook → t.channels = channels → Writes M i t ph' channels') :
    Writes M i s ph' channels' := by
  obtain ⟨t, ht, hph, hp, hb, hh, hc⟩ := h
  obtain ⟨t', ht', hph', hp', hb', hh', hc'⟩ := h' t hph hh hc
  exact ⟨t', ht.trans ht', hph', hp'.trans hp, hb'.trans hb, hh'.trans hh, hc'⟩

theorem writes_variables : ∀ {vars : List (Bytes × Bytes)} {s : BotPlane}, s.phase i = .starting b (.writing u vars rest) →
    Writes M i s (.starting b (.marking rest)) (Function.update s.channels (cStr u)
      ((s.channels (cStr u)).setVariables (vars.map (fun kv => (kv.1, cStr kv.2)))))
  | [], s, hi => by
    refine .go (go_starting hi willing) rfl rfl rfl ⟨_, Run.Reaches.refl _ _ _, goto_phase_self .., rfl, rfl, rfl, ?_⟩
    exact (Function.update_eq_self ..).symm
  | (n, v) :: vars, s, hi => by
    have hrest : Writes M i _ _ _ :=
      writes_variables (s := (s.write ⟨some i, cStr u, n, cStr v⟩).goto i (.starting b (.writing u vars rest)))
        (goto_phase_self ..)
    have hch : ((s.write ⟨some i, cStr u, n, cStr v⟩).goto i (.starting b (.writing u vars rest))).channels
        = Function.update s.channels (cStr u) ((s.channels (cStr u)).setVariable n (cStr v)) := rfl
    rw [hch, Function.update_self, Function.update_idem] at hrest
    exact .go (go_starting hi willing) rfl rfl rfl hrest

theorem writes_marks : ∀ {us : List Bytes} {s : BotPlane}, s.phase i = .starting b (.marking us) →
    (∀ u ∈ us, s.alive u = true) →
    Writes M i s (.starting b .inserting) (us.foldl (markTarget M b.req) s.channels)
  | [], s, hi, _ => .go (go_starting hi willing) rfl rfl rfl ⟨_, Run.Reaches.refl _ _ _, goto_phase_self .., rfl, rfl, rfl, rfl⟩
  | u :: us, s, hi, halive => by
    have hgo : s.go M i willing = some ((s.lock u).goto i (.starting b (.writing u (Security.markWrites b.req.purpose.name
        (Security.resolveEffectivePolicy M.policy b.req.tenantId) b.req.tenantId) us))) := by
      rw [go_starting hi]
      simp only [advance, halive u List.mem_cons_self, willing, Bool.and_self, if_true]
    refine .go hgo rfl rfl rfl ((writes_variables (goto_phase_self ..)).trans (fun t ht hth htc => ?_))
    have hrest : Writes M i t _ _ :=
      writes_marks ht (fun v hv => (alive_congr hth v).trans (halive v (List.mem_cons_of_mem _ hv)))
    rw [htc] at hrest
    exact hrest

theorem leads_insert (hs : s.Shows p) (hb : bs.handles = b.handles) (hi : s.phase i = .starting b .inserting) :
    let r : Scene × Status :=
      match p.bots.insert ⟨b.botId, b.req.targets, [], bs⟩ M.limits.maxBotsPerChannel with
      | (bots, .inserted)             => ({ p with bots := bots }, .okay)
      | (_, .channelCapacityExceeded) => (p.destroySession bs, StartBotRequest.atCapacity)
      | (_, .duplicateBotId)          => (p.destroySession bs, StartBotRequest.botIdCollision)
    Leads M i s (.returned r.2) r.1 := by
  have hgo := go_starting (M := M) hi willing
  have hmap : ActiveBot.map (fun o : BotOwner => o.handles) ⟨b.botId, b.req.targets, [], ⟨i, b.handles⟩⟩
      = ActiveBot.map (fun c : BotSession => c.handles) ⟨b.botId, b.req.targets, [], bs⟩ := by
    simp only [ActiveBot.map, hb]
  obtain ⟨hsame, halike⟩ := hs.bots.insert hmap M.limits.maxBotsPerChannel
  -- a session that is refused goes with its handles
  have hrefused : ∀ st, s.go M i willing = some (s.goto i (.ending none b.handles st)) →
      Leads M i s (.returned st) (p.destroySession bs) := by
    intro st hend
    have hended := leads_of_ending (M := M) (hs.goto i (.ending none b.handles st)) (goto_phase_self ..)
    exact .go _ hend rfl rfl (hended.view (hb ▸ Scene.destroySession_view p bs))
  simp only [advance] at hgo
  rcases hins : p.bots.insert ⟨b.botId, b.req.targets, [], bs⟩ M.limits.maxBotsPerChannel with ⟨bots, r⟩
  rcases hins' : s.bots.insert ⟨b.botId, b.req.targets, [], ⟨i, b.handles⟩⟩ M.limits.maxBotsPerChannel with ⟨bots', r'⟩
  rw [hins, hins'] at hsame halike
  rw [hins'] at hgo
  cases hsame
  cases r with
  | inserted => exact .go _ hgo rfl rfl (.here (goto_phase_self ..) ⟨hs.plane, halike⟩)
  | channelCapacityExceeded => exact hrefused _ hgo
  | duplicateBotId => exact hrefused _ hgo

/-! ### StartBot -/

/-- The call returns with this scene and status, and the variables are `channels` then. -/
def Ends (M : BotModule) (i : Nat) (s : BotPlane) (r : Scene × Status) (channels : Bytes → Channel) : Prop :=
  ∃ t, Alone M i s t ∧ t.phase i = .returned r.2 ∧ t.Shows r.1 ∧ t.channels = channels

theorem Ends.after {r : Scene × Status} (ht : Alone M i s t) (h : Ends M i t r channels) : Ends M i s r channels := by
  obtain ⟨t', ht', hph, hs, hc⟩ := h
  exact ⟨t', ht.trans ht', hph, hs, hc⟩

theorem Leads.ends {r : Scene × Status} (h : Leads M i s (.returned r.2) r.1) : Ends M i s r s.channels := by
  obtain ⟨t, ht, hph, hs, -, hc⟩ := h
  exact ⟨t, ht, hph, hs, hc⟩

theorem ends_marking (hs : s.Shows p) (hb : bs.handles = b.handles) (hi : s.phase i = .starting b (.marking b.req.targets))
    (halive : ∀ u ∈ b.req.targets, s.alive u = true) :
    Ends M i s
      (match p.bots.insert ⟨b.botId, b.req.targets, [], bs⟩ M.limits.maxBotsPerChannel with
        | (bots, .inserted)             => ({ p with bots := bots }, .okay)
        | (_, .channelCapacityExceeded) => (p.destroySession bs, StartBotRequest.atCapacity)
        | (_, .duplicateBotId)          => (p.destroySession bs, StartBotRequest.botIdCollision))
      (b.req.targets.foldl (markTarget M b.req) s.channels) := by
  obtain ⟨t, ht, hph, hp, hbots, -, hc⟩ := writes_marks (M := M) hi halive
  have hend := (leads_insert (M := M) (hs.frame hp hbots) hb hph).ends
  rw [hc] at hend
  exact hend.after ht

/-- `StartBot` once its checks have passed. -/
theorem ends_opening {env : Scene.BotEnv} (hs : s.Shows p) (hb : b.handles = []) (hid : b.botId = env.botId)
    (hi : s.phase i = .starting b .opening) (hloc : Located s env.targets b.req.targets) :
    Ends M i s
      (if env.opened.code ≠ .ok then (p.destroySession (.new b.req), env.opened)
       else
        match p.attachSession env.targets (.new b.req) with
        | (p₁, b₁, some st) => ((p₁.stopSession b₁).1.destroySession (p₁.stopSession b₁).2, st)
        | (p₁, b₁, none) =>
          match p₁.bots.insert ⟨env.botId, b.req.targets, [], b₁⟩ M.limits.maxBotsPerChannel with
          | (bots, .inserted)             => ({ p₁ with bots := bots }, .okay)
          | (_, .channelCapacityExceeded) => (p₁.destroySession b₁, StartBotRequest.atCapacity)
          | (_, .duplicateBotId)          => (p₁.destroySession b₁, StartBotRequest.botIdCollision))
      (if env.opened.code = .ok ∧ (p.attachSession env.targets (.new b.req)).2.2 = none then
        b.req.targets.foldl (markTarget M b.req) s.channels else s.channels) := by
  have hgo := go_starting (M := M) hi { willing with opened := env.opened }
  simp only [advance] at hgo
  by_cases hopen : env.opened.code = .ok
  · simp only [hopen, ne_eq, not_true_eq_false, if_false, true_and] at hgo ⊢
    have hatt : Leads M i s (.starting { b with handles := b.handles } (.attaching b.req.targets)) p :=
      .go _ hgo rfl rfl (.here (goto_phase_self ..) (hs.goto i _))
    have hcomes : Comes M i s b (.marking b.req.targets) (p.attachSession env.targets (.new b.req)) := by
      refine Comes.after hatt (fun t ht hts hth => ?_)
      refine comes_attachTargets hts hb.symm ht ?_
      simp only [Nat.zero_add]
      exact hloc.congr hth
    rcases hr : p.attachSession env.targets (.new b.req) with ⟨p₁, b₁, _ | st⟩
    · rw [hr] at hcomes
      obtain ⟨t, ht, hph, hts, hth, htc⟩ := hcomes
      have hend : Ends M i t _ _ :=
        ends_marking hts (b := { b with handles := b₁.handles }) rfl hph (hloc.congr hth).alive
      rw [htc] at hend
      simp only [if_true]
      rw [← hid]
      exact hend.after ht
    · rw [hr] at hcomes
      obtain ⟨hret, hnil⟩ := hcomes
      have hview := Scene.endSession_view p₁ b₁
      rw [hnil] at hview
      simp only [reduceCtorEq, if_false]
      exact Leads.ends (hret.view hview)
  · simp only [hopen, ne_eq, not_false_eq_true, if_true, false_and, if_false] at hgo ⊢
    exact Leads.ends (.go _ hgo rfl rfl (.here (goto_phase_self ..) (hs.goto i _)))

end leads

/-- **A `StartBot` that nobody interrupts is the handler of the scene**, and has marked its targets if it got past its
attaches. -/
theorem startBot_alone (M : BotModule) (i : Nat) (env : Scene.BotEnv) (req : StartBotRequest) (hs : s.Shows p)
    (hi : s.phase i = .idle) (hplane : env.plane = true) (hloc : Located s env.targets req.targets) :
    Ends M i s (p.startBot env M.limits req)
      (if p.botRefusal env M.limits req = none ∧ env.opened.code = .ok ∧
          (p.attachSession env.targets (.new req)).2.2 = none then
        req.targets.foldl (markTarget M req) s.channels else s.channels) := by
  have hcall : Alone M i s (s.begin M i (.start env.botId req)) := by
    refine Run.Reaches.single (a := .call i (.start env.botId req)) (.inl ⟨_, rfl⟩) ?_
    simp only [step, hi]
  have hrefusal : p.botRefusal env M.limits req
      = (req.validate M.limits).or (p.checkBotTargets env M.limits req 0 req.targets) := by
    simp [Scene.botRefusal, hplane]
  unfold Scene.startBot
  rw [hrefusal]
  refine Ends.after hcall ?_
  simp only [begin]
  cases hval : req.validate M.limits with
  | some st =>
    simp only [Option.some_or, reduceCtorEq, false_and, if_false]
    exact Leads.ends (r := (p, st)) (.here (goto_phase_self ..) (hs.goto i _))
  | none =>
    simp only [Option.none_or]
    have hcheck : match p.checkBotTargets env M.limits req 0 req.targets with
        | some st => Leads M i _ (.returned st) p
        | none    => Leads M i _ (.starting ⟨env.botId, req, []⟩ .opening) p :=
      leads_checkBotTargets (hs.goto i (.starting ⟨env.botId, req, []⟩ (.checking req.targets))) (goto_phase_self ..) hloc.alive
    cases hc : p.checkBotTargets env M.limits req 0 req.targets with
    | some st =>
      rw [hc] at hcheck
      simp only [reduceCtorEq, false_and, if_false]
      exact Leads.ends (r := (p, st)) hcheck
    | none =>
      rw [hc] at hcheck
      obtain ⟨t, ht, hph, hts, hth, htc⟩ := hcheck
      have hloc' : Located t env.targets req.targets := hloc.congr hth
      have hend := ends_opening (M := M) hts rfl rfl hph hloc'
      simp only [true_and]
      rw [htc] at hend
      exact hend.after ht

/-- A bot for channel `a`, and every call succeeds. -/
def soloEnv : Scene.BotEnv :=
  ⟨true, fun _ => some ⟨str "a", 8000, 8000⟩, .okay, fun _ => ⟨true, fun _ => ⟨⟨str "a", true, true, 0, true⟩, []⟩⟩, str "b"⟩

def soloRequest : StartBotRequest := ⟨[str "a"], [], str "bot:50051", .sttListen, 8000, []⟩

theorem startBot_alone_solo :
    (Scene.empty.startBot soloEnv oneBot.limits soloRequest).2 = .okay ∧
    ∃ channels, Ends oneBot 0 (init fun _ => .up fun _ => none) (Scene.empty.startBot soloEnv oneBot.limits soloRequest) channels := by
  refine ⟨by decide +kernel, _, startBot_alone oneBot 0 soloEnv soloRequest ⟨rfl, fun _ => rfl, rfl⟩ rfl rfl
    ⟨fun _ _ => rfl, ?_⟩⟩
  rintro (_ | n) u hu side <;> cases hu
  cases side <;> decide +kernel

/-! ## StopBot and the destroy hook -/

theorem stopBot_view {k : Bytes} {b : ActiveBot BotSession} {bots : ActiveBots BotSession}
    (ht : p.bots.take k = (some b, bots)) (hst : b.streamIds = []) :
    SameView (Scene.detachEach { p with bots := bots } b.session.handles) (p.stopBot k) := by
  have hstop : p.stopBot k = ((Scene.stopSession { p with bots := bots } b.session).1.destroySession
      (Scene.stopSession { p with bots := bots } b.session).2) := by
    simp only [Scene.stopBot, ht, hst, List.foldl_nil]
  rw [hstop]
  exact Scene.endSession_view _ _

theorem Shows.take (hs : s.Shows p) (k : Bytes) :
    (∃ bots bots', s.bots.take k = (none, bots) ∧ p.bots.take k = (none, bots')) ∨
      ∃ b bots b' bots', s.bots.take k = (some b, bots) ∧ p.bots.take k = (some b', bots') ∧
        b.session.handles = b'.session.handles ∧ Shows { s with bots := bots } { p with bots := bots' } := by
  obtain ⟨hfst, halike⟩ := hs.bots.take k
  rcases hp : p.bots.take k with ⟨_ | b', bots'⟩ <;> rcases hq : s.bots.take k with ⟨_ | b, bots⟩ <;>
    rw [hp, hq] at hfst halike
  · exact .inl ⟨bots, bots', rfl, rfl⟩
  · cases hfst
  · cases hfst
  · obtain ⟨-, -, -, hh⟩ := ActiveBot.mk.inj (Option.some.inj hfst)
    exact .inr ⟨b, bots, b', bots', rfl, rfl, hh, hs.plane, halike⟩

theorem stopBot_of_none {k : Bytes} {bots : ActiveBots BotSession} (ht : p.bots.take k = (none, bots)) :
    p.stopBot k = p := by
  simp only [Scene.stopBot, ht]

/-- **A `StopBot` that nobody interrupts is that of the scene.** -/
theorem stopBot_alone (M : BotModule) (i : Nat) (hs : s.Shows p) (hi : s.phase i = .idle) {k : Bytes} (hk : k ≠ [])
    (hst : ∀ b, p.bots.byId k = some b → b.streamIds = []) : Ends M i s (p.stopBot k, .okay) s.channels := by
  have hcall : Alone M i s (s.begin M i (.stop k)) := by
    refine Run.Reaches.single (a := .call i (.stop k)) (.inl ⟨_, rfl⟩) ?_
    simp only [step, hi]
  refine Ends.after hcall ?_
  simp only [begin, if_neg hk]
  rcases hs.take k with ⟨bots, bots', hq, hp⟩ | ⟨b, bots, b', bots', hq, hp, hh, hshow⟩
  · rw [hq, stopBot_of_none hp]
    exact Leads.ends (r := (p, .okay)) (.here (goto_phase_self ..) (hs.goto i _))
  · rw [hq]
    have hb' : p.bots.byId k = some b' := by rw [← p.bots.take_fst k, hp]
    have hend := leads_of_ending (M := M) (hshow.goto i (.ending none b.session.handles .okay)) (goto_phase_self ..)
    refine Leads.ends (r := (p.stopBot k, .okay)) (hend.view ?_)
    rw [hh]
    exact stopBot_view hp (hst b' hb')

/-- The hook of channel `u` comes to `h`, where the state shows `p`. -/
def HookLeads (M : BotModule) (u : Bytes) (s : BotPlane) (h : Hook) (p : Scene) : Prop :=
  ∃ t, Run.Reaches (fun s a => step s M a) (fun a => a = .hook u) s t ∧ t.hook u = h ∧ t.Shows p

section hook

variable {M : BotModule} {u : Bytes}

theorem HookLeads.next {t : BotPlane} {h : Hook} (hrun : s.runHook u = some t) (ht : HookLeads M u t h p) :
    HookLeads M u s h p := by
  obtain ⟨t', ht', hh, hs⟩ := ht
  have hone : Run.Reaches (fun s a => step s M a) (fun a => a = .hook u) s t := .single rfl hrun
  exact ⟨t', hone.trans ht', hh, hs⟩

theorem HookLeads.trans {h h' : Hook} {q : Scene} (hp : HookLeads M u s h p)
    (hq : ∀ t, t.hook u = h → t.Shows p → HookLeads M u t h' q) : HookLeads M u s h' q := by
  obtain ⟨t, ht, hh, hs⟩ := hp
  obtain ⟨t', ht', hh', hs'⟩ := hq t hh hs
  exact ⟨t', ht.trans ht', hh', hs'⟩

theorem Shows.hookTo (hs : s.Shows p) (u : Bytes) (h : Hook) : (s.hookTo u h).Shows p := hs.frame rfl rfl

theorem hookTo_hook (s : BotPlane) (u : Bytes) (h : Hook) : (s.hookTo u h).hook u = h := Function.update_self ..

theorem hookLeads_drain (remove : Bool) {c : List Nat → Hook}
    (hc : ∀ (s : BotPlane) id ids, s.hook u = c (id :: ids) → s.runHook u = some ((s.detach id).hookTo u (c ids))) :
    ∀ {ids : List Nat} {s : BotPlane} {p : Scene}, s.Shows p → s.hook u = c ids →
      HookLeads M u s (c []) (ids.foldl (Scene.detachInternal remove) p)
  | [], s, _, hs, hh => ⟨s, Run.Reaches.refl _ _ s, hh, hs⟩
  | id :: ids, s, p, hs, hh => by
    have hrest : HookLeads M u _ (c []) (ids.foldl (Scene.detachInternal remove) (p.detachInternal remove id)) :=
      hookLeads_drain remove hc ((hs.detachInternal remove id).hookTo u (c ids)) (hookTo_hook ..)
    exact .next (hc s id ids hh) hrest

/-- `StopByChannel`. -/
theorem hookLeads_stopping : ∀ {ks : List Bytes} {s : BotPlane} {p : Scene}, s.Shows p → s.hook u = .stopping ks →
    (∀ k b, p.bots.byId k = some b → b.streamIds = []) → HookLeads M u s (.stopping []) (ks.foldl Scene.stopBot p)
  | [], s, _, hs, hh, _ => ⟨s, Run.Reaches.refl _ _ s, hh, hs⟩
  | k :: ks, s, p, hs, hh, hst => by
    rcases hs.take k with ⟨bots, bots', hq, hp⟩ | ⟨b, bots, b', bots', hq, hp, hhandles, hshow⟩
    · have hrun : s.runHook u = some (s.hookTo u (.stopping ks)) := by
        simp only [runHook, hh, hq]
      rw [List.foldl_cons, stopBot_of_none hp]
      exact .next hrun (hookLeads_stopping (hs.hookTo u _) (hookTo_hook ..) hst)
    · have hrun : s.runHook u = some ({ s with bots := bots }.hookTo u (.tearing b.session.handles ks)) := by
        simp only [runHook, hh, hq]
      have hb' : p.bots.byId k = some b' := by rw [← p.bots.take_fst k, hp]
      have hview := stopBot_view hp (hst k b' hb')
      refine .next hrun (HookLeads.trans (p := p.stopBot k) (h := .tearing [] ks) ?_ (fun t hth hts => ?_))
      · obtain ⟨t, ht, hth, hts⟩ := hookLeads_drain (M := M) (u := u) (c := fun ids => .tearing ids ks) true
          (fun s id ids h => by simp only [runHook, h]) (hshow.hookTo u (.tearing b.session.handles ks))
          (hookTo_hook ..)
        rw [hhandles] at hts
        exact ⟨t, ht, hth, hts.view hview⟩
      · have hback : t.runHook u = some (t.hookTo u (.stopping ks)) := by
          simp only [runHook, hth]
        -- the bots that are left were there before
        have hleft : ∀ j c, (p.stopBot k).bots.byId j = some c → c.streamIds = [] := by
          intro j c hj
          rw [hview.2, (Scene.detachEach_maps _ _).2] at hj
          exact hst j c (ActiveBots.of_take hp hj).2
        have hrest : HookLeads M u _ (.stopping []) (ks.foldl Scene.stopBot (p.stopBot k)) :=
          hookLeads_stopping (hts.hookTo u (.stopping ks)) (hookTo_hook ..) hleft
        exact .next hback hrest

/-- The streams leave the map, as at the start of `RemoveForChannel`. -/
theorem Shows.takeForChannel (hs : s.Shows p) (u : Bytes) :
    Shows { s with plane := s.plane.takeForChannel u }
      { p with
        streams  := p.streams.filter (fun x => !(x.channelUuid == u))
        distinct := p.distinct.sublist (List.Sublist.map _ List.filter_sublist) } := by
  refine ⟨(Scene.toPlane_eq ?_ ?_).symm, hs.bots⟩
  · exact hs.bugs.symm
  · simp only [MediaPlane.takeForChannel, hs.plane, Scene.toPlane, List.filter_map]
    rfl

theorem Shows.bugsForChannel (hs : s.Shows p) (u : Bytes) :
    s.plane.bugsForChannel u = (p.streams.filter (fun x => x.channelUuid == u)).flatMap (·.bugs) := by
  simp only [MediaPlane.bugsForChannel, hs.plane, Scene.toPlane, List.filter_map, List.flatMap_map]
  rfl

/-- **The hook is that of the scene**, when no bot has streams of its own. -/
theorem channelDestroy_alone (M : BotModule) (hs : s.Shows p) (hu : u ≠ []) (hh : s.hook u = .begun)
    (hst : ∀ k b, p.bots.byId k = some b → b.streamIds = []) : HookLeads M u s .done (p.channelDestroy u) := by
  have hbegin : s.runHook u = some (s.hookTo u (.stopping (p.bots.channelBots u))) := by
    simp only [runHook, hh, hs.bots.channelBots]
  unfold Scene.channelDestroy
  rw [if_neg hu]
  refine .next hbegin (HookLeads.trans (hookLeads_stopping (hs.hookTo u _) (hookTo_hook ..) hst) (fun t hth hts => ?_))
  obtain ⟨q, hq⟩ : ∃ q, q = p.stopByChannel u := ⟨_, rfl⟩
  rw [← hq]
  have hts : t.Shows q := hq ▸ hts
  have htake : t.runHook u = some ({ t with plane := t.plane.takeForChannel u }.hookTo u
      (.draining (t.plane.bugsForChannel u))) := by
    simp only [runHook, hth]
  have hdrain : HookLeads M u t (.draining []) (q.removeForChannel u) := by
    refine .next htake ?_
    obtain ⟨t', ht', hth', hts'⟩ := hookLeads_drain (M := M) (u := u) (c := .draining) true
      (fun s id ids h => by simp only [runHook, h])
      ((hts.takeForChannel u).hookTo u (.draining (t.plane.bugsForChannel u))) (hookTo_hook ..)
    rw [hts.bugsForChannel u] at hts'
    exact ⟨t', ht', hth', hts'.view (Scene.removeForChannel_view q u)⟩
  refine hdrain.trans (fun t hth hts => ?_)
  have hsweep : t.runHook u = some (t.hookTo u (.sweeping ((q.removeForChannel u).bugs.channelIds u))) := by
    simp only [runHook, hth, hts.bugs]
  refine .next hsweep (HookLeads.trans (hookLeads_drain (c := .sweeping) false
    (fun s id ids h => by simp only [runHook, h]) (hts.hookTo u _) (hookTo_hook ..)) (fun t hth hts => ?_))
  have hdone : t.runHook u = some (t.hookTo u .done) := by
    simp only [runHook, hth]
  exact .next hdone ⟨_, Run.Reaches.refl _ _ _, hookTo_hook .., hts.hookTo u _⟩

end hook

end BotPlane
end Control
end Osw
