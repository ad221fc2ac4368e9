import OpenSwitch.BotAlone
/-!
# BotAttach — a bot is on all of its targets or on none (`BotSession::Attach`)

The loop over the targets attaches one or two bugs on each and passes a context for every one.  Whatever fails, the lookup
of a target, an attach, or the wiring of a callback because FreeSWITCH has closed the bug meanwhile, the lambda `unwind`
drops the handles, which detaches their bugs, and then the contexts; the locals of the loop go last.

`Scene` has this function with the bugs and the contexts as numbers.  Here each context also has what it was made with, and
each bug the context that `SetBugCallback` has given it.
-/
namespace Osw
namespace Control

open Media (BugManager BugConfig)

/-- `BotReadTapCtx` and `BotWriteReplaceCtx`; only the first has the rate of the stream. -/
structure BotContext where
  side         : BugSide
  channelUuid  : Bytes
  streamRateHz : Option Nat
  fsRateHz     : Nat
  deriving DecidableEq, Repr

/-- The scene, what each context was made with, and the context each bug calls back with. -/
structure BotScene where
  scene    : Scene
  contexts : Nat → Option BotContext
  userData : Nat → Option Nat

/-- What becomes of one bug: whether its session has a uuid, the outcomes of `Attach`, whether FreeSWITCH closes the bug
before its callback is set, and the rate of the session on this side. -/
structure BugOutcome where
  named    : Bool
  lock     : Bool
  ctx      : Bool
  addRc    : Nat
  record   : Bool
  closed   : Bool
  fsRateHz : Nat
  deriving DecidableEq, Repr

/-- The session lock takes the target as a C string, and the session it finds has that for a uuid. -/
def BugOutcome.attachEnv (o : BugOutcome) (u : Bytes) : BugManager.AttachEnv :=
  ⟨if o.named then cStr u else [], o.lock, o.ctx, o.addRc, o.record⟩

structure TargetOutcome where
  found : Bool
  bug   : BugSide → BugOutcome

def BotSession.contextsOf (b : BotSession) : BugSide → List Nat
  | .read  => b.readContexts
  | .write => b.writeContexts

def newContext (req : StartBotRequest) (u : Bytes) (fsRateHz : Nat) : BugSide → BotContext
  | .read  => ⟨.read, u, some req.rate, fsRateHz⟩
  | .write => ⟨.write, u, none, fsRateHz⟩

namespace BotScene

/-- One bug of target `u`. -/
def attachBug (o : BugOutcome) (u : Bytes) (side : BugSide) (cfg : BugConfig) (w : BotScene) (b : BotSession) :
    BotScene × BotSession × Option Status :=
  match w.scene.attach cfg (o.attachEnv u) with
  | (p₁, .error st) => ({ w with scene := (p₁.unwind b).1 }, (p₁.unwind b).2, some (attachFailureStatus st))
  | (p₁, .ok id) =>
    let p₂ := if o.closed then p₁.close id else p₁
    let p₃ := p₂.newCtx.pass p₂.nextCtx id
    let contexts := Function.update w.contexts p₂.nextCtx (some (newContext b.request u o.fsRateHz side))
    if p₂.wired id then
      (⟨p₃, contexts, Function.update w.userData id (some p₂.nextCtx)⟩, b.push id p₂.nextCtx side, none)
    else
      (⟨(p₃.unwind b).1.leave [.ctx p₂.nextCtx, .handle id], contexts, w.userData⟩, (p₃.unwind b).2,
        some (failedToWire side))

/-- A status that is not OK ends the call. -/
def andThen (k : BotScene → BotSession → BotScene × BotSession × Option Status) :
    BotScene × BotSession × Option Status → BotScene × BotSession × Option Status
  | (w, b, some st) => (w, b, some st)
  | (w, b, none)    => k w b

def attachBugs (o : BugSide → BugOutcome) (u : Bytes) :
    List (BugSide × BugConfig) → BotScene → BotSession → BotScene × BotSession × Option Status
  | [], w, b => (w, b, none)
  | (side, cfg) :: rest, w, b => andThen (attachBugs o u rest) (attachBug (o side) u side cfg w b)

/-- The loop over the targets. -/
def attachTargets (os : Nat → TargetOutcome) (req : StartBotRequest) :
    Nat → List Bytes → BotScene → BotSession → BotScene × BotSession × Option Status
  | _, [], w, b => (w, b, none)
  | n, u :: us, w, b =>
    if !(os n).found then
      ({ w with scene := (w.scene.unwind b).1 }, (w.scene.unwind b).2, some (StartBotRequest.targetNotFound u))
    else andThen (attachTargets os req (n + 1) us) (attachBugs (os n).bug u (botBugs req u) w b)

/-- `BotSession::Attach`; `write` and `read` tell whether the caller has given the callbacks. -/
def attach (os : Nat → TargetOutcome) (write read : Bool) (w : BotScene) (b : BotSession) :
    BotScene × BotSession × Option Status :=
  if b.stopped then (w, b, some ⟨.failedPrecondition, str "bot session stopped"⟩)
  else if b.request.purpose.supportsWrite && !write then
    (w, b, some ⟨.invalidArgument, str "write callback required"⟩)
  else if b.request.purpose.supportsRead && !read then
    (w, b, some ⟨.invalidArgument, str "read callback required"⟩)
  else attachTargets os b.request 0 b.request.targets w b

/-! ## What has been attached so far -/

/-- A bug of the session, with the context that was passed for it. -/
structure Attachment where
  id       : Nat
  ctx      : Nat
  target   : Bytes
  side     : BugSide
  cfg      : BugConfig
  fsRateHz : Nat

/-- The bug is on the channel of its target and calls back with a context of that target, which the session keeps. -/
structure Wired (w : BotScene) (b : BotSession) (e : Attachment) : Prop where
  record   : w.scene.bugs.byId e.id = some ⟨e.id, cStr e.target, BugManager.effectiveConfig e.cfg⟩
  handle   : e.id ∈ b.handles
  userData : w.userData e.id = some e.ctx
  context  : w.contexts e.ctx = some (newContext b.request e.target e.fsRateHz e.side)
  kept     : e.ctx ∈ b.contextsOf e.side

/-- The registry has the bugs of `m`, as they were, and after them those of the log. -/
structure Attached (m : BugManager) (log : List Attachment) (w : BotScene) (b : BotSession) : Prop where
  handles  : b.handles = log.map (·.id)
  nextId   : m.nextId ≤ w.scene.bugs.nextId
  fresh    : ∀ e ∈ log, m.nextId ≤ e.id ∧ e.ctx < w.scene.nextCtx
  others   : ∀ x, x ∉ b.handles → w.scene.bugs.byId x = m.byId x
  lists    : ∀ v, w.scene.bugs.channelIds v = m.channelIds v ++ (log.filter (fun e => cStr e.target == v)).map (·.id)
  wired    : ∀ e ∈ log, Wired w b e
  purposes : log.Pairwise (fun e f => cStr e.target = cStr f.target → e.cfg.purpose ≠ f.cfg.purpose)

/-- A session that has nothing. -/
def Bare (b : BotSession) : Prop := b.handles = [] ∧ b.readContexts = [] ∧ b.writeContexts = []

theorem Attached.init (w : BotScene) {b : BotSession} (hb : Bare b) : Attached w.scene.bugs [] w b where
  handles := hb.1
  nextId := Nat.le_refl _
  fresh := by simp
  others _ _ := rfl
  lists v := by simp
  wired := by simp
  purposes := List.Pairwise.nil

theorem byId_of_nextId_le {m : BugManager} {x : Nat} (h : m.nextId ≤ x) : m.byId x = none := by
  cases hx : m.byId x with
  | none => rfl
  | some r => exact absurd (m.fresh x r hx) (Nat.not_lt.2 h)

section attached

variable {m : BugManager} {log : List Attachment} {w : BotScene} {b : BotSession} {cfg : BugConfig} {side : BugSide}
  {p : Scene}

theorem Attached.le_of_mem (h : Attached m log w b) {x : Nat} (hx : x ∈ b.handles) : m.nextId ≤ x := by
  rw [h.handles] at hx
  obtain ⟨e, he, rfl⟩ := List.mem_map.1 hx
  exact (h.fresh e he).1

/-- **Dropping the handles leaves the bugs that were there before, in their order.** -/
theorem Attached.undo (h : Attached m log w b) : BugManager.SameBugs m (w.scene.bugs.detachEach b.handles) := by
  refine BugManager.sameBugs_of_maps (funext fun x => ?_) (fun v => ?_)
  · rw [BugManager.detachEach_byId]
    split
    · rename_i hx
      exact (byId_of_nextId_le (h.le_of_mem hx)).symm
    · rename_i hx
      exact h.others x hx
  · rw [BugManager.detachEach_channelIds, h.lists, List.filter_append]
    have hold : (m.channelIds v).filter (fun x => !b.handles.contains x) = m.channelIds v := by
      refine List.filter_eq_self.2 (fun x hx => ?_)
      have hlt := m.channelIds_lt hx
      simp only [Bool.not_eq_true', List.contains_eq_mem, decide_eq_false_iff_not]
      intro hmem
      have hle := h.le_of_mem hmem
      omega
    have hnew : ((log.filter (fun e => cStr e.target == v)).map (·.id)).filter (fun x => !b.handles.contains x) = [] := by
      refine List.filter_eq_nil_iff.2 (fun x hx => ?_)
      obtain ⟨e, he, rfl⟩ := List.mem_map.1 hx
      have hmem : e.id ∈ b.handles := by
        rw [h.handles]
        exact List.mem_map_of_mem (List.mem_filter.1 he).1
      simp [hmem]
    rw [hold, hnew, List.append_nil]

theorem push_handles (b : BotSession) (id c : Nat) (side : BugSide) : (b.push id c side).handles = b.handles ++ [id] := by
  cases side <;> rfl

theorem push_request (b : BotSession) (id c : Nat) (side : BugSide) : (b.push id c side).request = b.request := by
  cases side <;> rfl

theorem push_contextsOf (b : BotSession) (id c : Nat) (side side' : BugSide) :
    (b.push id c side).contextsOf side' = if side' = side then b.contextsOf side' ++ [c] else b.contextsOf side' := by
  cases side <;> cases side' <;> rfl

theorem Wired.push {e : Attachment} (h : Wired w b e) {v : Bytes} {ctx : BotContext}
    (hbugs : p.bugs = w.scene.bugs.register v cfg) (hctx : e.ctx < w.scene.nextCtx) :
    Wired ⟨p, Function.update w.contexts w.scene.nextCtx (some ctx),
        Function.update w.userData w.scene.bugs.nextId (some w.scene.nextCtx)⟩
      (b.push w.scene.bugs.nextId w.scene.nextCtx side) e := by
  have hid : e.id ≠ w.scene.bugs.nextId := Nat.ne_of_lt (w.scene.bugs.fresh _ _ h.record)
  refine ⟨?_, ?_, ?_, ?_, ?_⟩
  · rw [hbugs, BugManager.register_byId_of_ne _ hid]
    exact h.record
  · rw [push_handles]
    exact List.mem_append_left _ h.handle
  · show Function.update w.userData _ _ e.id = _
    rw [Function.update_of_ne hid]
    exact h.userData
  · show Function.update w.contexts _ _ e.ctx = _
    rw [Function.update_of_ne (Nat.ne_of_lt hctx), push_request]
    exact h.context
  · rw [push_contextsOf]
    split
    · exact List.mem_append_left _ h.kept
    · exact h.kept

theorem wired_push (w : BotScene) (b : BotSession) {u : Bytes} {fsRateHz : Nat}
    (hbugs : p.bugs = w.scene.bugs.register (cStr u) (BugManager.effectiveConfig cfg)) :
    Wired ⟨p, Function.update w.contexts w.scene.nextCtx (some (newContext b.request u fsRateHz side)),
        Function.update w.userData w.scene.bugs.nextId (some w.scene.nextCtx)⟩
      (b.push w.scene.bugs.nextId w.scene.nextCtx side)
      ⟨w.scene.bugs.nextId, w.scene.nextCtx, u, side, cfg, fsRateHz⟩ := by
  refine ⟨?_, ?_, Function.update_self .., ?_, ?_⟩
  · rw [hbugs]
    exact BugManager.register_byId_self ..
  · rw [push_handles]
    exact List.mem_append_right _ List.mem_cons_self
  · rw [push_request]
    exact Function.update_self ..
  · rw [push_contextsOf, if_pos rfl]
    exact List.mem_append_right _ List.mem_cons_self

theorem Attached.push (h : Attached m log w b) {u : Bytes} {fsRateHz : Nat}
    (hnew : cfg.purpose ∉ w.scene.bugs.purposesOn (cStr u))
    (hbugs : p.bugs = w.scene.bugs.register (cStr u) (BugManager.effectiveConfig cfg))
    (hctx : p.nextCtx = w.scene.nextCtx + 1) :
    Attached m (log ++ [⟨w.scene.bugs.nextId, w.scene.nextCtx, u, side, cfg, fsRateHz⟩])
      ⟨p, Function.update w.contexts w.scene.nextCtx (some (newContext b.request u fsRateHz side)),
        Function.update w.userData w.scene.bugs.nextId (some w.scene.nextCtx)⟩
      (b.push w.scene.bugs.nextId w.scene.nextCtx side) := by
  refine ⟨?_, ?_, fun e he => ?_, fun x hx => ?_, fun v => ?_, fun e he => ?_, ?_⟩
  · rw [push_handles, h.handles, List.map_append]
    rfl
  · rw [hbugs]
    exact Nat.le_succ_of_le h.nextId
  · rw [hctx]
    rcases List.mem_append.1 he with he | he
    · exact ⟨(h.fresh e he).1, Nat.lt_succ_of_lt (h.fresh e he).2⟩
    · rw [List.mem_singleton.1 he]
      exact ⟨h.nextId, Nat.lt_succ_self _⟩
  · rw [push_handles, List.mem_append, not_or, List.mem_singleton] at hx
    rw [hbugs, BugManager.register_byId_of_ne _ hx.2]
    exact h.others x hx.1
  · rw [hbugs, List.filter_append, List.map_append, ← List.append_assoc, ← h.lists v]
    by_cases hv : cStr u = v
    · subst hv
      rw [BugManager.register_channelIds_self]
      simp
    · rw [BugManager.register_channelIds_of_ne _ _ (fun he => hv he.symm)]
      simp [hv]
  · rcases List.mem_append.1 he with he | he
    · exact (h.wired e he).push hbugs (h.fresh e he).2
    · rw [List.mem_singleton.1 he]
      exact wired_push w b hbugs
  · refine List.pairwise_append.2 ⟨h.purposes, List.pairwise_singleton .., fun e he f hf => ?_⟩
    rw [List.mem_singleton.1 hf]
    intro hchan hpurpose
    refine hnew ((w.scene.bugs.mem_purposesOn).2 ⟨e.id, _, (h.wired e he).record, hchan, ?_⟩)
    rw [BugManager.effectiveConfig_purpose]
    exact hpurpose

end attached

/-! ## The loops -/

/-- The bugs the loop has to attach for a list of targets, each with its target. -/
def required (req : StartBotRequest) (us : List Bytes) : List (Bytes × BugSide × BugConfig) :=
  us.flatMap (fun u => (botBugs req u).map (fun x => (u, x)))

def Attachment.key (e : Attachment) : Bytes × BugSide × BugConfig := (e.target, e.side, e.cfg)

/-- How a part of `Attach` ends: nothing is left, or the bugs of the list are attached after those of the log. -/
inductive Ends (m : BugManager) (log : List Attachment) (keys : List (Bytes × BugSide × BugConfig)) (req : StartBotRequest) :
    BotScene × BotSession × Option Status → Prop
  | failed {w : BotScene} {b : BotSession} {st : Status} (hst : st.code ≠ .ok)
      (hsame : BugManager.SameBugs m w.scene.bugs) (hbare : Bare b) : Ends m log keys req (w, b, some st)
  | attached {w : BotScene} {b : BotSession} (es : List Attachment) (hes : es.map Attachment.key = keys)
      (hreq : b.request = req) (h : Attached m (log ++ es) w b) : Ends m log keys req (w, b, none)

section ends

variable {m : BugManager} {log : List Attachment} {w : BotScene} {b : BotSession}

theorem unwind_bugs (p : Scene) (b : BotSession) : (p.unwind b).1.bugs = p.bugs.detachEach b.handles := by
  have h := congrArg MediaPlane.bugs (Scene.unwind_view p b).1
  rw [Scene.detachEach_toPlane] at h
  exact h

theorem unwire_bugs (p : Scene) (b : BotSession) (c id : Nat) :
    (((p.newCtx.pass c id).unwind b).1.leave [.ctx c, .handle id]).bugs = (p.bugs.detachEach b.handles).detach id := by
  have h := congrArg MediaPlane.bugs (Scene.unwire_view p b c id).1
  rw [Scene.detachEach_toPlane] at h
  refine h.trans ?_
  exact List.foldl_append ..

theorem close_wired (p : Scene) (id : Nat) : (p.close id).wired id = false := by
  unfold Scene.wired Scene.close
  rw [Scene.detachInternal_bugs, BugManager.detach_byId, Function.update_self]
  rfl

theorem attachFailureStatus_code {st : Status} (h : st.code ≠ .ok) : (attachFailureStatus st).code ≠ .ok := by
  unfold attachFailureStatus
  split
  · simp
  · exact h

/-- **One bug is attached and wired, or everything is undone.** -/
theorem attachBug_ends (h : Attached m log w b) (o : BugOutcome) (u : Bytes) (side : BugSide) (cfg : BugConfig)
    (hcfg : cfg.purpose ≠ .recordingRelay) :
    Ends m log [(u, side, cfg)] b.request (attachBug o u side cfg w b) := by
  have hbare : ∀ p : Scene, Bare (p.unwind b).2 := fun p => ⟨rfl, rfl, rfl⟩
  unfold attachBug Scene.attach
  rcases w.scene.bugs.attach_cases cfg (o.attachEnv u) with ⟨st, herr, hres, hsame⟩ | ⟨herr, hres⟩
  · rw [hres]
    refine .failed (attachFailureStatus_code (attachError_code herr)) ?_ (hbare _)
    rw [unwind_bugs]
    exact h.undo.trans (.detachEach b.handles hsame)
  · obtain ⟨huuid, hnew⟩ := BugManager.not_mem_of_attachError herr hcfg
    have hnamed : (o.attachEnv u).uuid = cStr u := by
      unfold BugOutcome.attachEnv at huuid ⊢
      simp only at huuid ⊢
      split at huuid
      · rename_i hn
        rw [if_pos hn]
      · exact absurd rfl huuid
    rw [hnamed] at hnew hres
    rw [hres]
    have hnone : m.byId w.scene.bugs.nextId = none := byId_of_nextId_le h.nextId
    cases hclosed : o.closed with
    | true =>
      -- the bug is gone when its callback is to be set: the handles go, and then the handle of a bug nobody knows
      simp only [if_true, close_wired, Bool.false_eq_true, if_false]
      refine .failed ?_ ?_ (hbare _)
      · cases side <;> simp [failedToWire]
      · rw [unwire_bugs]
        unfold Scene.close
        rw [Scene.detachInternal_bugs]
        have hsame := (h.undo.trans (.detachEach b.handles (w.scene.bugs.detach_register (cStr u)
          (BugManager.effectiveConfig cfg)))).detach w.scene.bugs.nextId
        rwa [m.detach_of_none hnone] at hsame
    | false =>
      have hwired : Scene.wired { w.scene with bugs := w.scene.bugs.register (cStr u) (BugManager.effectiveConfig cfg) }
          w.scene.bugs.nextId = true := by
        unfold Scene.wired
        rw [BugManager.register_byId_self]
        rfl
      simp only [Bool.false_eq_true, if_false, hwired, if_true]
      exact .attached [⟨w.scene.bugs.nextId, w.scene.nextCtx, u, side, cfg, o.fsRateHz⟩] rfl (push_request ..)
        (h.push hnew rfl rfl)

theorem Ends.bind {keys keys' : List (Bytes × BugSide × BugConfig)} {req : StartBotRequest}
    {r : BotScene × BotSession × Option Status} {k : BotScene → BotSession → BotScene × BotSession × Option Status}
    (h : Ends m log keys req r)
    (hk : ∀ es w b, b.request = req → Attached m (log ++ es) w b → Ends m (log ++ es) keys' req (k w b)) :
    Ends m log (keys ++ keys') req (andThen k r) := by
  cases h with
  | failed hst hsame hbare => exact .failed hst hsame hbare
  | attached es hes hreq h =>
    have hend := hk es _ _ hreq h
    rw [andThen]
    generalize k _ _ = r at hend ⊢
    cases hend with
    | failed hst hsame hbare => exact .failed hst hsame hbare
    | attached fs hfs hreq h =>
      refine .attached (es ++ fs) ?_ hreq ?_
      · rw [List.map_append, hes, hfs]
      · rw [← List.append_assoc]
        exact h

theorem attachBugs_ends (o : BugSide → BugOutcome) (u : Bytes) : ∀ (bs : List (BugSide × BugConfig)) {log : List Attachment}
    {w : BotScene} {b : BotSession}, Attached m log w b → (∀ x ∈ bs, x.2.purpose ≠ .recordingRelay) →
    Ends m log (bs.map (fun x => (u, x))) b.request (attachBugs o u bs w b)
  | [], log, w, b, h, _ => .attached [] rfl rfl (by rw [List.append_nil]; exact h)
  | (side, cfg) :: rest, log, w, b, h, hbs => by
    refine (attachBug_ends h (o side) u side cfg (hbs _ List.mem_cons_self)).bind ?_
    intro es w' b' hreq h'
    rw [← hreq]
    exact attachBugs_ends o u rest h' (fun x hx => hbs x (List.mem_cons_of_mem _ hx))

theorem botBugs_purpose (req : StartBotRequest) (u : Bytes) : ∀ x ∈ botBugs req u, x.2.purpose ≠ .recordingRelay := by
  intro x hx
  rcases List.mem_append.1 hx with hx | hx
  · split at hx
    · rw [List.mem_singleton.1 hx]
      unfold botReadConfig
      simp only
      split <;> simp
    · cases hx
  · split at hx
    · rw [List.mem_singleton.1 hx]
      unfold botWriteConfig
      simp only
      split <;> simp
    · cases hx

theorem attachTargets_ends (os : Nat → TargetOutcome) : ∀ (us : List Bytes) (n : Nat) {log : List Attachment}
    {w : BotScene} {b : BotSession}, Attached m log w b →
    Ends m log (required b.request us) b.request (attachTargets os b.request n us w b)
  | [], n, log, w, b, h => .attached [] rfl rfl (by rw [List.append_nil]; exact h)
  | u :: us, n, log, w, b, h => by
    rw [attachTargets]
    split
    · refine .failed (by simp [StartBotRequest.targetNotFound]) ?_ ⟨rfl, rfl, rfl⟩
      rw [unwind_bugs]
      exact h.undo
    · refine (attachBugs_ends (os n).bug u (botBugs b.request u) h (botBugs_purpose b.request u)).bind ?_
      intro es w' b' hreq h'
      rw [← hreq]
      exact attachTargets_ends os us (n + 1) h'

end ends

/-! ## The bugs of one target -/

theorem botBugs_head (req : StartBotRequest) :
    (∀ u, botBugs req u = []) ∨ ∃ x, ∀ u, ∃ rest, botBugs req u = x :: rest := by
  by_cases hread : req.purpose.supportsRead = true
  · exact .inr ⟨(.read, botReadConfig req), fun u => ⟨_, by unfold botBugs; rw [if_pos hread]; rfl⟩⟩
  · have hwhisper : req.purpose ≠ .whisper := by
      intro hp
      rw [hp] at hread
      exact hread rfl
    have hsame : ∀ u, req.shouldWriteTarget u = req.purpose.supportsWrite := by
      intro u
      simp [StartBotRequest.shouldWriteTarget, hwhisper]
    by_cases hwrite : req.purpose.supportsWrite = true
    · exact .inr ⟨(.write, botWriteConfig req), fun u => ⟨[], by simp [botBugs, hread, hsame, hwrite]⟩⟩
    · exact .inl (fun u => by simp [botBugs, hread, hsame, hwrite])

variable {req : StartBotRequest}

theorem mem_required {us : List Bytes} {u : Bytes} {x : BugSide × BugConfig} :
    (u, x) ∈ required req us ↔ u ∈ us ∧ x ∈ botBugs req u := by
  simp only [required, List.mem_flatMap, List.mem_map, Prod.mk.injEq]
  constructor
  · rintro ⟨v, hv, y, hy, rfl, rfl⟩
    exact ⟨hv, hy⟩
  · rintro ⟨hu, hx⟩
    exact ⟨u, hu, x, hx, rfl, rfl⟩

/-- **A channel has the bugs of one target only**: those of another on the same channel would have the same purpose. -/
theorem filter_required : ∀ {us : List Bytes} {log : List Attachment},
    log.map Attachment.key = required req us →
    log.Pairwise (fun e f => cStr e.target = cStr f.target → e.cfg.purpose ≠ f.cfg.purpose) → ∀ u ∈ us,
    (log.filter (fun e => cStr e.target == cStr u)).map Attachment.key = (botBugs req u).map (fun x => (u, x))
  | [], _, _, _, u, hu => by cases hu
  | v :: vs, log, hlog, hpair, u, hu => by
    rcases botBugs_head req with hempty | ⟨x, hhead⟩
    · have hnil : log = [] := by
        have : required req (v :: vs) = [] := by simp [required, hempty]
        rw [this] at hlog
        exact List.map_eq_nil_iff.1 hlog
      rw [hnil, hempty]
      rfl
    · obtain ⟨l₁, l₂, rfl, hl₁, hl₂⟩ := List.map_eq_append_iff.1 hlog
      replace hl₁ : l₁.map Attachment.key = (botBugs req v).map (fun x => (v, x)) := hl₁
      replace hl₂ : l₂.map Attachment.key = required req vs := hl₂
      obtain ⟨-, hpair₂, hacross⟩ := List.pairwise_append.1 hpair
      have hx : ∀ u, x ∈ botBugs req u := by
        intro u
        obtain ⟨rest, hrest⟩ := hhead u
        rw [hrest]
        exact List.mem_cons_self
      have hown : ∀ e ∈ l₁, e.target = v := by
        intro e he
        have hkey : e.key ∈ (botBugs req v).map (fun x => (v, x)) := hl₁ ▸ List.mem_map_of_mem he
        obtain ⟨y, -, hy⟩ := List.mem_map.1 hkey
        exact (congrArg Prod.fst hy).symm
      have hother : ∀ u ∈ vs, cStr u ≠ cStr v := by
        intro u hu hchan
        have hf : (u, x) ∈ l₂.map Attachment.key := hl₂ ▸ mem_required.2 ⟨hu, hx u⟩
        have hg : (v, x) ∈ l₁.map Attachment.key := hl₁ ▸ List.mem_map_of_mem (hx v)
        obtain ⟨f, hf, hfk⟩ := List.mem_map.1 hf
        obtain ⟨g, hg, hgk⟩ := List.mem_map.1 hg
        obtain ⟨hft, hfx⟩ := Prod.mk.inj hfk
        obtain ⟨hgt, hgx⟩ := Prod.mk.inj hgk
        refine hacross g hg f hf ?_ ?_
        · rw [hgt, hft, hchan]
        · exact congrArg (fun y => y.2.purpose) (hgx.trans hfx.symm)
      have hlater : ∀ e ∈ l₂, cStr e.target ≠ cStr v := by
        intro e he
        have hkey : e.key ∈ required req vs := hl₂ ▸ List.mem_map_of_mem he
        exact hother e.target (mem_required.1 hkey).1
      rw [List.filter_append, List.map_append]
      rcases List.mem_cons.1 hu with rfl | hu
      · rw [List.filter_eq_self.2 (fun e he => by simp [hown e he]),
          List.filter_eq_nil_iff.2 (fun e he => by simpa using hlater e he), hl₁]
        exact List.append_nil _
      · rw [List.filter_eq_nil_iff.2 (fun e he => by simpa [hown e he] using (hother u hu).symm),
          filter_required hl₂ hpair₂ u hu]
        rfl

/-- The bugs of a target: on its channel, after those that were there, one for each that the purpose requires, in order,
and each with a context of this target. -/
def Served (m : BugManager) (w : BotScene) (b : BotSession) (u : Bytes) : Prop :=
  ∃ log : List Attachment, w.scene.bugs.channelIds (cStr u) = m.channelIds (cStr u) ++ log.map (·.id) ∧
    log.map Attachment.key = (botBugs b.request u).map (fun x => (u, x)) ∧ ∀ e ∈ log, Wired w b e

theorem attach_ends (os : Nat → TargetOutcome) (write read : Bool) (w : BotScene) {b : BotSession} (hb : Bare b) :
    Ends w.scene.bugs [] (required b.request b.request.targets) b.request (attach os write read w b) := by
  unfold attach
  split
  · exact .failed (by simp) (.rfl' _) hb
  split
  · exact .failed (by simp) (.rfl' _) hb
  split
  · exact .failed (by simp) (.rfl' _) hb
  · exact attachTargets_ends os b.request.targets 0 (.init w hb)

/-- **Bot attach is all or nothing**, for every request and registry and whatever fails: a status that is not OK leaves the
same bugs in the same order and a session without handles and contexts; with OK every target has exactly its bugs, and
nothing else has changed. -/
theorem bot_attach_all_or_nothing (os : Nat → TargetOutcome) (write read : Bool) (w : BotScene) (b : BotSession)
    (hb : Bare b) :
    (∀ w' b' st, attach os write read w b = (w', b', some st) →
      st.code ≠ .ok ∧ BugManager.SameBugs w.scene.bugs w'.scene.bugs ∧ Bare b') ∧
    (∀ w' b', attach os write read w b = (w', b', none) →
      b'.request = b.request ∧ (∀ u ∈ b.request.targets, Served w.scene.bugs w' b' u) ∧
      (∀ v, (∀ u ∈ b.request.targets, cStr u ≠ v) → w'.scene.bugs.channelIds v = w.scene.bugs.channelIds v) ∧
      ∀ id, id ∉ b'.handles → w'.scene.bugs.byId id = w.scene.bugs.byId id) := by
  have hends := attach_ends os write read w hb
  refine ⟨fun w' b' st hres => ?_, fun w' b' hres => ?_⟩
  · rw [hres] at hends
    cases hends with
    | failed hst hsame hbare => exact ⟨hst, hsame, hbare⟩
  · rw [hres] at hends
    cases hends with
    | attached es hes hreq h =>
      rw [List.nil_append] at h
      refine ⟨hreq, fun u hu => ?_, fun v hv => ?_, h.others⟩
      · refine ⟨es.filter (fun e => cStr e.target == cStr u), h.lists _, ?_, fun e he => h.wired e (List.mem_filter.1 he).1⟩
        rw [hreq]
        exact filter_required hes h.purposes u hu
      · have hnil : es.filter (fun e => cStr e.target == v) = [] := by
          refine List.filter_eq_nil_iff.2 (fun e he => ?_)
          have hkey : e.key ∈ required b.request b.request.targets := hes ▸ List.mem_map_of_mem he
          simpa using hv e.target (mem_required.1 hkey).1
        rw [h.lists, hnil, List.map_nil, List.append_nil]

def twoTargets : StartBotRequest := ⟨[[97], [98]], [], [], .voicebotDuplex, 16000, []⟩

/-- FreeSWITCH closes the last bug before its callback is set. -/
def closesLast (n : Nat) : TargetOutcome := ⟨true, fun side => ⟨true, true, true, 0, true, n = 1 ∧ side = .write, 8000⟩⟩

/-- Three bugs are attached and wired and the fourth is not: none is left. -/
theorem bot_attach_all_or_nothing_lastClosed :
    (attach closesLast true true ⟨.empty, fun _ => none, fun _ => none⟩ (.new twoTargets)).2.2 = some (failedToWire .write) ∧
    BugManager.SameBugs .empty
      (attach closesLast true true ⟨.empty, fun _ => none, fun _ => none⟩ (.new twoTargets)).1.scene.bugs :=
  have hst : (attach closesLast true true ⟨.empty, fun _ => none, fun _ => none⟩ (.new twoTargets)).2.2
      = some (failedToWire .write) := by decide +kernel
  ⟨hst, ((bot_attach_all_or_nothing closesLast true true _ _ ⟨rfl, rfl, rfl⟩).1 _ _ _
    (Prod.ext rfl (Prod.ext rfl hst))).2.1⟩

/-! ## The same function on the scene alone -/

/-- Only bugs and contexts by number. -/
def forget (r : BotScene × BotSession × Option Status) : Scene × BotSession × Option Status := (r.1.scene, r.2.1, r.2.2)

theorem attachBugs_congr {env env' : BugSide → Scene.BugEnv} : ∀ {bs : List (BugSide × BugConfig)} (p : Scene)
    (b : BotSession), (∀ x ∈ bs, env x.1 = env' x.1) → Scene.attachBugs env bs p b = Scene.attachBugs env' bs p b
  | [], _, _, _ => rfl
  | (side, cfg) :: rest, p, b, h => by
    rw [Scene.attachBugs, Scene.attachBugs, h _ List.mem_cons_self]
    rcases Scene.attachBug (env' side) side cfg p b with ⟨p₁, b₁, _ | st⟩
    · exact attachBugs_congr p₁ b₁ (fun x hx => h x (List.mem_cons_of_mem _ hx))
    · rfl

theorem attachTargets_congr {env env' : Nat → Scene.TargetEnv} : ∀ (us : List Bytes) {n : Nat}
    (p : Scene) (b : BotSession), (∀ k, n ≤ k → env k = env' k) →
    Scene.attachTargets env req n us p b = Scene.attachTargets env' req n us p b
  | [], _, _, _, _ => rfl
  | u :: us, n, p, b, h => by
    rw [Scene.attachTargets, Scene.attachTargets, h n (Nat.le_refl n)]
    rcases Scene.attachBugs (env' n).bug (botBugs req u) p b with ⟨p₁, b₁, _ | st⟩
    · exact congrArg (ite _ _) (attachTargets_congr us p₁ b₁ (fun k hk => h k (Nat.le_of_succ_le hk)))
    · rfl

/-- A bug that is closed before its callback is set has the number the registry gives next. -/
theorem attachBug_scene (o : BugOutcome) (u : Bytes) (side : BugSide) (cfg : BugConfig) (w : BotScene) (b : BotSession) :
    forget (attachBug o u side cfg w b) = Scene.attachBug
      ⟨o.attachEnv u, if o.closed then [w.scene.bugs.nextId] else []⟩ side cfg w.scene b := by
  unfold attachBug Scene.attachBug Scene.attach
  rcases w.scene.bugs.attach_cases cfg (o.attachEnv u) with ⟨st, -, hres, -⟩ | ⟨-, hres⟩
  · rw [hres]
    rfl
  · rw [hres]
    cases o.closed <;> exact apply_ite forget _ _ _

theorem attachBugs_scene (o : BugSide → BugOutcome) (u : Bytes) : ∀ (bs : List (BugSide × BugConfig)) (w : BotScene)
    (b : BotSession), (bs.map Prod.fst).Nodup →
    ∃ env, forget (attachBugs o u bs w b) = Scene.attachBugs env bs w.scene b
  | [], _, _, _ => ⟨fun _ => ⟨⟨[], true, true, 0, true⟩, []⟩, rfl⟩
  | (side, cfg) :: rest, w, b, hnodup => by
    obtain ⟨hside, hrest⟩ := List.nodup_cons.1 hnodup
    obtain ⟨e, hbug⟩ : ∃ e, forget (attachBug (o side) u side cfg w b) = Scene.attachBug e side cfg w.scene b :=
      ⟨_, attachBug_scene (o side) u side cfg w b⟩
    rw [attachBugs]
    rcases hr : attachBug (o side) u side cfg w b with ⟨w₁, b₁, _ | st⟩
    · obtain ⟨env, henv⟩ := attachBugs_scene o u rest w₁ b₁ hrest
      refine ⟨Function.update env side e, ?_⟩
      rw [hr] at hbug
      rw [Scene.attachBugs, Function.update_self, ← hbug]
      refine henv.trans (attachBugs_congr _ _ fun x hx => ?_)
      have hne : x.1 ≠ side := fun he => hside (List.mem_map.2 ⟨x, hx, he⟩)
      rw [Function.update_of_ne hne]
    · refine ⟨fun _ => e, ?_⟩
      rw [hr] at hbug
      rw [Scene.attachBugs, ← hbug]
      rfl

theorem botBugs_nodup (req : StartBotRequest) (u : Bytes) : ((botBugs req u).map Prod.fst).Nodup := by
  unfold botBugs
  split <;> split <;> simp

theorem attachTargets_scene (os : Nat → TargetOutcome) (req : StartBotRequest) : ∀ (us : List Bytes) (n : Nat) (w : BotScene)
    (b : BotSession), ∃ env, forget (attachTargets os req n us w b) = Scene.attachTargets env req n us w.scene b
  | [], _, _, _ => ⟨fun _ => ⟨true, fun _ => ⟨⟨[], true, true, 0, true⟩, []⟩⟩, rfl⟩
  | u :: us, n, w, b => by
    obtain ⟨bug, hbugs⟩ := attachBugs_scene (os n).bug u (botBugs req u) w b (botBugs_nodup req u)
    rw [attachTargets]
    rcases hr : attachBugs (os n).bug u (botBugs req u) w b with ⟨w₁, b₁, _ | st⟩
    · obtain ⟨env, henv⟩ := attachTargets_scene os req us (n + 1) w₁ b₁
      refine ⟨Function.update env n ⟨(os n).found, bug⟩, ?_⟩
      rw [hr] at hbugs
      rw [Scene.attachTargets, Function.update_self, ← hbugs]
      split
      · rfl
      · refine henv.trans (attachTargets_congr us _ _ fun k hk => ?_)
        rw [Function.update_of_ne (Nat.ne_of_gt hk)]
    · refine ⟨fun _ => ⟨(os n).found, bug⟩, ?_⟩
      rw [hr] at hbugs
      rw [Scene.attachTargets, ← hbugs]
      split <;> rfl

/-- **With both callbacks this is the function of the scene**, in surroundings that give the same failures. -/
theorem attach_scene (os : Nat → TargetOutcome) (w : BotScene) (b : BotSession) :
    ∃ env, forget (attach os true true w b) = w.scene.attachSession env b := by
  obtain ⟨env, henv⟩ := attachTargets_scene os b.request b.request.targets 0 w b
  refine ⟨env, ?_⟩
  unfold attach Scene.attachSession
  simp only [Bool.not_true, Bool.and_false, Bool.false_eq_true, if_false]
  rw [apply_ite forget, henv]
  rfl

end BotScene
end Control
end Osw
