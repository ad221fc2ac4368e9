import OpenSwitch.BotSteps
/-!
# StartBotFailure — a failed StartBot leaves no trace

A call that fails drops the handles of its session, whichever step it failed at, and only one that returns OK has entered
`ActiveBots`.  What it does not take back are the marks on its targets: they are written before the insertion, and the
insertion may be refused.  In a run whose insertions all find room and a new id, no call that has marked fails, and the
variables are then as if the failed calls had not been made.
-/
namespace Osw
namespace Control

open Media (BugManager BugConfig)
open Starts (NoRevival noRevival_detachEach keepsInject_attach keepsInject_refl)

/-- Neither an attach nor what the call still does to the registry when it fails brings a bug back. -/
theorem noRevival_attachOr {p : MediaPlane} {r : MediaPlane × CallPhase} (cfg : BugConfig) (env : BugManager.AttachEnv)
    (undo : List Nat) (ph : Nat → CallPhase)
    (h : (match p.bugs.attach cfg env with
        | (m, .error st) => some (p.withBugs (m.detachEach undo), CallPhase.returned st)
        | (m, .ok id)    => some (p.withBugs m, ph id)) = some r) : NoRevival p.bugs r.1.bugs := by
  have hm := (keepsInject_attach p.bugs cfg env).toNoRevival
  rcases hat : p.bugs.attach cfg env with ⟨m, st | id⟩
  · rw [hat] at h hm
    cases h
    exact hm.trans (noRevival_detachEach m undo)
  · rw [hat] at h hm
    cases h
    exact hm

/-- A step of `StartTts` or `StartVoicebot` brings no bug back. -/
theorem next_noRevival (c : Call) (p : MediaPlane) (ph : CallPhase) {r : MediaPlane × CallPhase}
    (hr : c.next p ph = some r) : NoRevival p.bugs r.1.bugs := by
  have hsame : NoRevival p.bugs p.bugs := (keepsInject_refl _).toNoRevival
  cases ph with
  | idle =>
    simp only [Call.next] at hr
    split at hr
    · cases hr
      exact hsame
    · cases hr
      exact noRevival_detachEach p.bugs _
  | cleared =>
    simp only [Call.next] at hr
    split at hr
    · cases hr
      exact hsame
    · split at hr <;> cases hr <;> exact hsame
  | opened =>
    simp only [Call.next] at hr
    split at hr
    · exact noRevival_attachOr _ _ [] _ hr
    · exact noRevival_attachOr _ _ [] _ hr
  | tapped readId => exact noRevival_attachOr _ _ [readId] _ hr
  | armed ids =>
    cases hr
    change NoRevival p.bugs (registerStream p (c.stream ids)).1.bugs
    unfold registerStream MediaPlane.insert
    by_cases hcol : p.collides (c.stream ids)
    · rw [dif_pos hcol]
      exact noRevival_detachEach _ _
    · rw [dif_neg hcol]
      exact hsame
  | returned st => cases hr

theorem attach_lt_nextId {m m' : BugManager} {cfg : BugConfig} {env : BugManager.AttachEnv} {id : Nat}
    (h : m.attach cfg env = (m', .ok id)) : id < m'.nextId := by
  rcases m.attach_cases cfg env with ⟨st, -, hr, -⟩ | ⟨-, hr⟩
  · rw [h] at hr
    cases hr
  · rw [h] at hr
    cases hr
    exact Nat.lt_succ_self _

namespace BotPlane

variable {s s' t : BotPlane} {M : BotModule} {a : BotAct} {i : Nat}

/-- **What a step can do**: nothing but to take things away, to move a thread that has not marked, a step of a
`StartBot`, or a write by somebody else. -/
inductive Effect (s : BotPlane) (M : BotModule) : BotAct → BotPlane → Prop
  | quiet {a : BotAct} {t : BotPlane} (ht : s.Quiet t) : Effect s M a t
  | move {a : BotAct} {i : Nat} {t : BotPlane} {p : BotPhase} (ht : s.Quiet t) (hi : ∀ st, s.phase i ≠ .returned st)
      (howns : ∀ id, (s.phase i).owns id → t.plane.bugs.byId id ≠ none → p.owns id) (hmarks : (s.phase i).marks = false) :
      Effect s M a (t.goto i p)
  | advance {i : Nat} {o : Answers} {b : BotStart} {ph : StartPhase} {t : BotPlane} {p : BotPhase}
      (hi : s.phase i = .starting b ph) (h : s.Advances M i b ph t p) : Effect s M (.go i o) (t.goto i p)
  | write (channel name value : Bytes) :
      Effect s M (.write channel name value) (s.write ⟨none, channel, name, value⟩)

theorem Quiet.detach (s : BotPlane) (id : Nat) : s.Quiet (s.detach id) :=
  .withBugs s (noRevival_detachEach s.plane.bugs [id])

theorem Quiet.release (s : BotPlane) (lock : Option Bytes) : s.Quiet (s.release lock) := by
  cases lock <;> exact .of_plane rfl rfl rfl rfl rfl rfl

theorem Quiet.hookTo (ht : s.Quiet t) (u : Bytes) (h : Hook) : s.Quiet (t.hookTo u h) :=
  ⟨ht.bugs, ht.bots, ht.phase, ht.attachedBy, ht.channels, ht.writes⟩

theorem Quiet.take {k : Bytes} {ob : Option (ActiveBot BotOwner)} {bots : ActiveBots BotOwner}
    (ht : s.bots.take k = (ob, bots)) : s.Quiet { s with bots := bots } :=
  ⟨(keepsInject_refl _).toNoRevival, fun _ _ hj => (ActiveBots.of_take ht hj).2, rfl, rfl, rfl, rfl⟩

theorem runHook_quiet {u : Bytes} (hs : s.runHook u = some s') : s.Quiet s' := by
  unfold runHook at hs
  split at hs
  · cases hs
  · cases hs
    exact (Quiet.refl s).hookTo ..
  · split at hs
    · cases hs
      exact (Quiet.refl s).hookTo ..
    · rename_i ht
      cases hs
      exact (Quiet.take ht).hookTo ..
  · cases hs
    exact (Quiet.detach s _).hookTo ..
  · cases hs
    exact (Quiet.refl s).hookTo ..
  · cases hs
    exact ⟨(keepsInject_refl _).toNoRevival, fun _ _ h => h, rfl, rfl, rfl, rfl⟩
  · cases hs
    exact (Quiet.detach s _).hookTo ..
  · cases hs
    exact (Quiet.refl s).hookTo ..
  · cases hs
    exact (Quiet.detach s _).hookTo ..
  · cases hs
    exact (Quiet.refl s).hookTo ..
  · cases hs

theorem Effect.idle {p : BotPhase} (hi : s.phase i = .idle) (ht : s.Quiet t) : Effect s M a (t.goto i p) := by
  refine .move ht ?_ ?_ ?_
  · rw [hi]
    exact nofun
  · rw [hi]
    exact nofun
  · rw [hi]
    rfl

theorem begin_effect (hi : s.phase i = .idle) (j : BotJob) : Effect s M a (s.begin M i j) := by
  cases j with
  | start botId req =>
    simp only [begin]
    split <;> exact .idle hi (.refl s)
  | stop botId =>
    simp only [begin]
    split
    · exact .idle hi (.refl s)
    split
    · exact .idle hi (.refl s)
    · rename_i b bots ht
      exact .idle hi (.take ht)
  | media c => exact .idle hi (.refl s)

theorem go_effect {o : Answers} (hs : s.go M i o = some s') : Effect s M (.go i o) s' := by
  unfold go at hs
  split at hs
  · cases hs
  · rename_i b ph hi
    cases hs
    obtain ⟨t, p, hstep, hadv⟩ := s.advance_cases M i b o ph
    rw [hstep]
    exact .advance hi hadv
  · rename_i lock st hi
    cases hs
    exact .move (.release s lock) (by simp [hi]) (by simp [hi, BotPhase.owns]) (by rw [hi]; rfl)
  · rename_i lock id ids st hi
    cases hs
    refine .move (.detach s id) (by simp [hi]) (fun x hx hreg => ?_) (by rw [hi]; rfl)
    -- the bug that has just gone is not answered for any more
    rw [hi] at hx
    refine (List.mem_cons.1 hx).resolve_left ?_
    rintro rfl
    exact hreg (by simp [detach, withBugs, MediaPlane.withBugs, BugManager.detach_byId])
  · rename_i c ph hi
    obtain ⟨r, hr, rfl⟩ := Option.map_eq_some_iff.1 hs
    have ht : s.Quiet { s with plane := r.1 } :=
      ⟨next_noRevival c s.plane ph hr, fun _ _ h => h, rfl, rfl, rfl, rfl⟩
    exact .move ht (by simp [hi]) (by simp [hi, BotPhase.owns]) (by rw [hi]; rfl)
  · cases hs

theorem step_effect (hs : s.step M a = some s') : Effect s M a s' := by
  cases a with
  | call i j =>
    simp only [step] at hs
    split at hs
    · rename_i hi
      cases hs
      exact begin_effect hi j
    · cases hs
  | go i o => exact go_effect hs
  | destroy u =>
    simp only [step] at hs
    split at hs
    · cases hs
      exact .quiet ((Quiet.refl s).hookTo ..)
    · cases hs
  | hook u => exact .quiet (runHook_quiet hs)
  | close id =>
    cases hs
    exact .quiet (.detach s id)
  | write channel name value =>
    cases hs
    exact .write channel name value

/-! ## What a call leaves -/

/-- In every run, a bug that a call attached and that is still there is one the call answers for, the bots that are there
are those of calls that returned OK, and the variables are what the recorded writes make of them. -/
structure Accounted (channels : Bytes → Channel) (s : BotPlane) : Prop where
  drawn    : ∀ i, ∀ id ∈ s.attachedBy i, id < s.plane.bugs.nextId
  bugs     : ∀ i, ∀ id ∈ s.attachedBy i, s.plane.bugs.byId id ≠ none → (s.phase i).owns id
  entries  : ∀ k b, s.bots.byId k = some b → s.phase b.session.call = .returned .okay
  replayed : s.channels = replay channels s.writes

section accounted

variable {channels : Bytes → Channel} {p : BotPhase} {i : Nat}

theorem Accounted.quiet (h : s.Accounted channels) (ht : s.Quiet t) : t.Accounted channels := by
  refine ⟨fun i id hid => ?_, fun i id hid hreg => ?_, fun k b hk => ?_, ?_⟩
  · rw [ht.attachedBy] at hid
    exact (h.drawn i id hid).trans_le ht.bugs.grows
  · rw [ht.attachedBy] at hid
    rw [ht.phase]
    obtain ⟨r, hr⟩ := Option.ne_none_iff_exists'.1 hreg
    exact h.bugs i id hid (by rw [ht.bugs.old id r (h.drawn i id hid) hr]; exact nofun)
  · rw [ht.phase]
    exact h.entries k b (ht.bots k b hk)
  · rw [ht.channels, ht.writes]
    exact h.replayed

/-- A thread that has not returned moves on, and answers for what it did before. -/
theorem Accounted.goto (h : s.Accounted channels) (hi : ∀ st, s.phase i ≠ .returned st)
    (hp : ∀ id, (s.phase i).owns id → s.plane.bugs.byId id ≠ none → p.owns id) : (s.goto i p).Accounted channels := by
  refine ⟨h.drawn, fun j id hid hreg => ?_, fun k b hk => ?_, h.replayed⟩
  · by_cases hj : j = i
    · subst hj
      rw [goto_phase_self]
      exact hp id (h.bugs j id hid hreg) hreg
    · rw [goto_phase_of_ne s hj]
      exact h.bugs j id hid hreg
  · have hne : b.session.call ≠ i := fun he => hi .okay (he ▸ h.entries k b hk)
    rw [goto_phase_of_ne s hne]
    exact h.entries k b hk

theorem Accounted.write (h : s.Accounted channels) (w : VarWrite) : (s.write w).Accounted channels := by
  refine ⟨h.drawn, h.bugs, h.entries, ?_⟩
  change w.apply s.channels = replay channels (s.writes ++ [w])
  rw [h.replayed, replay, replay, List.foldl_append]
  rfl

theorem mem_attached {j id x : Nat} (h : x ∈ (s.attached i id).attachedBy j) :
    x ∈ s.attachedBy j ∨ (j = i ∧ x = id) := by
  by_cases hj : j = i
  · subst hj
    simp only [attached, Function.update_self] at h
    exact (List.mem_append.1 h).imp_right (fun hx => ⟨rfl, List.mem_singleton.1 hx⟩)
  · simp only [attached, Function.update_of_ne hj] at h
    exact .inl h

theorem Accounted.attach (h : s.Accounted channels) {cfg : BugConfig} {env : BugManager.AttachEnv} {m : BugManager}
    {id : Nat} (hat : s.plane.bugs.attach cfg env = (m, .ok id)) (hi : ∀ st, s.phase i ≠ .returned st) (hid : p.owns id)
    (hp : ∀ x, (s.phase i).owns x → p.owns x) : (((s.withBugs m).attached i id).goto i p).Accounted channels := by
  have hm := (keepsInject_attach s.plane.bugs cfg env).toNoRevival
  rw [hat] at hm
  have hnew : id < m.nextId := attach_lt_nextId hat
  have hold := (h.quiet (Quiet.withBugs s hm)).goto hi (fun x hx _ => hp x hx)
  refine ⟨fun j x hx => ?_, fun j x hx hreg => ?_, hold.entries, hold.replayed⟩
  · rcases mem_attached hx with hx | ⟨-, rfl⟩
    · exact hold.drawn j x hx
    · exact hnew
  · rcases mem_attached hx with hx | ⟨rfl, rfl⟩
    · exact hold.bugs j x hx hreg
    · rw [goto_phase_self]
      exact hid

theorem Accounted.insert (h : s.Accounted channels) {max : Nat} {b : ActiveBot BotOwner} {bots : ActiveBots BotOwner}
    (hins : s.bots.insert b max = (bots, .inserted)) (hb : b.session.call = i) (hi : ∀ st, s.phase i ≠ .returned st) :
    ({ s with bots := bots }.goto i (.returned .okay)).Accounted channels := by
  have hold := h.goto (p := .returned .okay) hi (fun _ _ _ => rfl)
  obtain ⟨-, -, -, hid, -⟩ := ActiveBots.insert_inserted hins
  refine ⟨hold.drawn, hold.bugs, fun k b' hk => ?_, hold.replayed⟩
  change bots.byId k = some b' at hk
  rw [hid] at hk
  by_cases hkb : k = b.botId
  · subst hkb
    rw [Function.update_self] at hk
    cases hk
    rw [hb]
    exact goto_phase_self _ i _
  · rw [Function.update_of_ne hkb] at hk
    exact hold.entries k b' hk

theorem Accounted.advance (h : s.Accounted channels) {b : BotStart} {ph : StartPhase} (hi : s.phase i = .starting b ph)
    (hadv : s.Advances M i b ph t p) : (t.goto i p).Accounted channels := by
  have hnot : ∀ st, s.phase i ≠ .returned st := by
    rw [hi]
    exact nofun
  have howns : ∀ x, (s.phase i).owns x = b.live ph x := by
    rw [hi]
    exact fun _ => rfl
  cases hadv with
  | quiet ht _ _ hown _ =>
    refine (h.quiet ht).goto (ht.phase ▸ hnot) (fun x hx _ => ?_)
    rw [ht.phase, howns] at hx
    exact hown x hx
  | attach hat =>
    refine h.attach hat hnot (.inr rfl) (fun x hx => ?_)
    rw [howns] at hx
    exact .inl hx
  | write u n v ws rest =>
    refine (h.write _).goto hnot (fun x hx _ => ?_)
    exact (howns x).mp hx
  | insert hins => exact h.insert hins rfl hnot
  | refuse st _ _ =>
    refine h.goto hnot (fun x hx _ => ?_)
    exact (howns x).mp hx

theorem Accounted.step (h : s.Accounted channels) (a : BotAct) (s' : BotPlane) (hs : s.step M a = some s') :
    s'.Accounted channels := by
  cases step_effect hs with
  | quiet ht => exact h.quiet ht
  | move ht hi howns _ =>
    refine (h.quiet ht).goto (ht.phase ▸ hi) (fun x hx hreg => ?_)
    rw [ht.phase] at hx
    exact howns x hx hreg
  | advance hi hadv => exact h.advance hi hadv
  | write channel name value => exact h.write _

theorem accounted_init (channels : Bytes → Channel) : (init channels).Accounted channels :=
  ⟨nofun, nofun, nofun, rfl⟩

end accounted

/-! ## The marks -/

/-- **The step inserts a bot only under a new id, and on channels that have room for it.** -/
def insertFits (M : BotModule) (s : BotPlane) : BotAct → Bool
  | .go i _ =>
    match s.phase i with
    | .starting b .inserting =>
      b.botId != [] && (s.bots.byId b.botId).isNone &&
        b.req.targets.all (fun u => decide ((s.bots.channelBots u).length < M.limits.maxBotsPerChannel))
    | _ => true
  | _ => true

/-- Who has written a variable is past its attaches, or has returned OK. -/
def MarksKept (s : BotPlane) : Prop := ∀ w ∈ s.writes, ∀ i, w.writer = some i → (s.phase i).marks = true

theorem MarksKept.quiet (h : s.MarksKept) (ht : s.Quiet t) : t.MarksKept := by
  intro w hw i hi
  rw [ht.phase]
  exact h w (ht.writes ▸ hw) i hi

theorem MarksKept.goto (h : s.MarksKept) {p : BotPhase} (hp : (s.phase i).marks = true → p.marks = true) :
    (s.goto i p).MarksKept := by
  intro w hw j hj
  by_cases hji : j = i
  · subst hji
    rw [goto_phase_self]
    exact hp (h w hw j hj)
  · rw [goto_phase_of_ne s hji]
    exact h w hw j hj

theorem MarksKept.write (h : s.MarksKept) {w : VarWrite} (hw : ∀ i, w.writer = some i → (s.phase i).marks = true) :
    (s.write w).MarksKept := by
  intro w' hw' i hi
  rcases List.mem_append.1 hw' with hold | hnew
  · exact h w' hold i hi
  · cases List.mem_singleton.1 hnew
    exact hw i hi

theorem MarksKept.step (h : s.MarksKept) (a : BotAct) (s' : BotPlane) (hg : insertFits M s a = true)
    (hs : s.step M a = some s') : s'.MarksKept := by
  cases step_effect hs with
  | quiet ht => exact h.quiet ht
  | move ht _ _ hmarks =>
    refine (h.quiet ht).goto (fun hm => ?_)
    rw [ht.phase, hmarks] at hm
    cases hm
  | @advance i o b ph t p hi hadv =>
    have hmarks : (s.phase i).marks = ph.marks := by
      rw [hi]
      rfl
    cases hadv with
    | quiet ht _ _ _ hkeep =>
      refine (h.quiet ht).goto (fun hm => hkeep ?_)
      rwa [ht.phase, hmarks] at hm
    | @attach _ _ _ _ _ _ m id _ =>
      have hkept : ((s.withBugs m).attached i id).MarksKept := h
      refine hkept.goto (fun hm => ?_)
      cases hmarks.symm.trans hm
    | write u n v ws rest =>
      refine (h.write (fun j hj => ?_)).goto (fun _ => rfl)
      cases hj
      exact hmarks
    | @insert bots hins =>
      have hkept : MarksKept { s with bots := bots } := h
      exact hkept.goto (fun _ => rfl)
    | refuse st hins hr =>
      -- the insertion finds what the guard promises
      exfalso
      simp only [insertFits, hi, Bool.and_eq_true, bne_iff_ne, Option.isNone_iff_eq_none, List.all_eq_true,
        decide_eq_true_eq] at hg
      obtain ⟨⟨hne, hnew⟩, hroom⟩ := hg
      rcases (ActiveBots.insert_refused hins hr).2 with hid | hid | ⟨u, hu, hfull⟩
      · exact hne hid
      · exact hid hnew
      · exact absurd (hroom u hu) (Nat.not_lt.2 hfull)
  | write channel name value => exact h.write nofun

/-- **A failed StartBot leaves no trace**, in any run whose insertions find room and a new id: when a call has returned
a status other than OK, none of the bugs it attached is registered, no bot in `ActiveBots` is its own, and the variables
of every channel are what the writes of the others make of them. -/
theorem failed_startBot_no_trace (M : BotModule) (channels : Bytes → Channel) (as : List BotAct) (s : BotPlane)
    (hrun : Run.exec (fun s a => step s M a) as (init channels) = some s)
    (hguard : Run.along (fun s a => step s M a) (insertFits M) as (init channels) = true) (i : Nat) (st : Status)
    (hi : s.phase i = .returned st) (hst : st.code ≠ .ok) :
    (∀ id ∈ s.attachedBy i, s.plane.bugs.byId id = none) ∧ (∀ k b, s.bots.byId k = some b → b.session.call ≠ i) ∧
      s.channels = replay channels (s.writes.filter (fun w => w.writer ≠ some i)) := by
  have hacc : s.Accounted channels := Run.exec_inv (I := Accounted channels)
    (fun _ a s' h hs => h.step a s' hs) as _ s (accounted_init channels) hrun
  have hmarks : s.MarksKept := Run.exec_inv_along (I := MarksKept) (fun _ a s' h hg hs => h.step a s' hg hs) as _ s
    (fun _ hw => by cases hw) hguard hrun
  refine ⟨fun id hid => ?_, fun k b hk hcall => ?_, ?_⟩
  · by_contra hreg
    have howns := hacc.bugs i id hid hreg
    rw [hi] at howns
    exact hst howns
  · have hok := hacc.entries k b hk
    rw [hcall, hi] at hok
    cases hok
    exact hst rfl
  · have hother : ∀ w ∈ s.writes, w.writer ≠ some i := by
      intro w hw he
      have hm := hmarks w hw i he
      rw [hi] at hm
      exact hst (eq_of_beq hm)
    rw [hacc.replayed, List.filter_eq_self.2 (fun w hw => decide_eq_true (hother w hw))]

/-- What a call returned. -/
def result (s : BotPlane) (i : Nat) : Option Status :=
  match s.phase i with
  | .returned st => some st
  | _            => none

theorem phase_of_result {st : Status} (h : s.result i = some st) : s.phase i = .returned st := by
  unfold result at h
  split at h
  · rename_i st' hi
    cases h
    exact hi
  · cases h

/-- Thread 0 starts a listener on `a`, and thread 1 a broadcast to `a` and to `b`, whose session is not found. -/
def broadcastFails : List BotAct :=
  [.call 0 (startOn [str "a"] .sttListen (str "x")), .call 1 (startOn [str "a", str "b"] .ttsBroadcast (str "y"))]
    ++ goes 0 8 ++ goes 1 10 ++ goes 0 9 ++ [.go 1 { willing with found := false }] ++ goes 1 2

theorem failed_startBot_no_trace_secondTarget :
    ∃ s, Run.exec (fun s a => step s oneBot a) broadcastFails (init fun _ => .up fun _ => none) = some s ∧
      s.result 1 = some (StartBotRequest.targetNotFound (str "b")) ∧ s.attachedBy 1 ≠ [] ∧
      (∀ id ∈ s.attachedBy 1, s.plane.bugs.byId id = none) ∧ (∀ k b, s.bots.byId k = some b → b.session.call ≠ 1) ∧
      s.channels = replay (fun _ => .up fun _ => none) (s.writes.filter (fun w => w.writer ≠ some 1)) := by
  have hm : (Run.exec (fun s a => step s oneBot a) broadcastFails (init fun _ => .up fun _ => none)).map
      (fun s => (s.result 1, s.attachedBy 1)) = some (some (StartBotRequest.targetNotFound (str "b")), [2]) := by
    decide +kernel
  obtain ⟨s, hs, hf⟩ := Option.map_eq_some_iff.1 hm
  obtain ⟨hres, hatt⟩ := Prod.mk.inj hf
  refine ⟨s, hs, hres, by rw [hatt]; exact nofun, ?_⟩
  exact failed_startBot_no_trace oneBot _ _ s hs (by decide +kernel) 1 _ (phase_of_result hres) (by decide)

/-- A listener and a broadcast on `a` pass the check of the capacity together.  Both mark the channel, the listener
enters, and the broadcast is refused: its marks stay. -/
theorem refused_startBot_leaves_marks :
    (Run.exec (fun s a => step s oneBot a)
      ([.call 0 (startOn [str "a"] .sttListen (str "x")), .call 1 (startOn [str "a"] .ttsBroadcast (str "y"))]
        ++ goes 0 8 ++ goes 1 8 ++ goes 0 8 ++ goes 1 8 ++ goes 0 1 ++ goes 1 3) (init fun _ => .up fun _ => none)).map
      (fun s => (s.result 1, (s.channels (str "a")).vars Security.botPurposeVar,
        (replay (fun _ => .up fun _ => none) (s.writes.filter (fun w => w.writer ≠ some 1)) (str "a")).vars
          Security.botPurposeVar))
      = some (some StartBotRequest.atCapacity, some (str "tts_broadcast"), some (str "stt_listen")) := by
  decide +kernel

end BotPlane
end Control
end Osw
