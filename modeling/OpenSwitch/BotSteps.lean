import OpenSwitch.Run
import OpenSwitch.OneInjector
import OpenSwitch.EavesdropPolicy
import OpenSwitch.Bots
/-!
# BotSteps — StartBot, StopBot and the destroy hook, step by step

A `StartBot` looks at its targets, opens the upstream, attaches its bugs under the session lock of one target after the
other, marks the targets, and only then enters `ActiveBots`.  Between these steps other calls take theirs, FreeSWITCH
closes bugs, and a channel may be destroyed, which runs the hook: stop the bots of the channel, remove its streams, sweep
its bugs.  Destruction waits for the session locks that are held; a lookup fails from then on.

A step is one section of a lock, one call of FreeSWITCH, or the end of one handle.  Beside the state stand two records:
the bugs each call attached, and the writes of channel variables, each with the call that made it.
-/
namespace Osw
namespace Control

open Media (BugManager BugConfig)

/-- What the module is configured with. -/
structure BotModule where
  limits : BotLimits
  policy : Security.PolicyConfig

/-- What stands for a session in `ActiveBots`: the call that made it, and its handles. -/
structure BotOwner where
  call    : Nat
  handles : List Nat

/-- The call of a thread: the handlers for bots, or one of `StartTts` and `StartVoicebot`. -/
inductive BotJob
  | start (botId : Bytes) (req : StartBotRequest)
  | stop (botId : Bytes)
  | media (c : Call)

/-- A `StartBot` under way: the id drawn for it, and the handles of its session. -/
structure BotStart where
  botId   : Bytes
  req     : StartBotRequest
  handles : List Nat
  deriving DecidableEq

/-- Where it is.  In `holding`, `wiring` and `writing` it has the session lock of its target. -/
inductive StartPhase
  | checking (rest : List Bytes)
  | probing (u : Bytes) (rest : List Bytes)
  | opening
  | attaching (rest : List Bytes)
  | holding (u : Bytes) (todo : List (BugSide × BugConfig)) (rest : List Bytes)
  | wiring (u : Bytes) (side : BugSide) (id : Nat) (todo : List (BugSide × BugConfig)) (rest : List Bytes)
  | marking (rest : List Bytes)
  | writing (u : Bytes) (vars : List (Bytes × Bytes)) (rest : List Bytes)
  | inserting
  deriving DecidableEq

/-- Where a thread is.  In `ending` the handles of a session go, one by one, before the call returns. -/
inductive BotPhase
  | idle
  | starting (b : BotStart) (ph : StartPhase)
  | ending (lock : Option Bytes) (ids : List Nat) (st : Status)
  | serving (c : Call) (ph : CallPhase)
  | returned (st : Status)

/-- Where the destroy hook of a channel is. -/
inductive Hook
  | alive
  | begun
  | stopping (botIds : List Bytes)
  | tearing (ids : List Nat) (botIds : List Bytes)
  | draining (ids : List Nat)
  | sweeping (ids : List Nat)
  | done
  deriving DecidableEq

/-- A variable of a channel was set, by a call of the module's or by somebody else. -/
structure VarWrite where
  writer  : Option Nat
  channel : Bytes
  name    : Bytes
  value   : Bytes
  deriving DecidableEq

/-- The variables after a write, and after a list of them. -/
def VarWrite.apply (channels : Bytes → Channel) (w : VarWrite) : Bytes → Channel :=
  Function.update channels w.channel ((channels w.channel).setVariable w.name w.value)

def replay (channels : Bytes → Channel) (ws : List VarWrite) : Bytes → Channel := ws.foldl VarWrite.apply channels

structure BotPlane where
  plane      : MediaPlane
  bots       : ActiveBots BotOwner
  channels   : Bytes → Channel
  locks      : Bytes → Nat
  phase      : Nat → BotPhase
  hook       : Bytes → Hook
  attachedBy : Nat → List Nat
  writes     : List VarWrite

/-- What a step is answered: by the session lookup, the upstream, the attach and the channel. -/
structure Answers where
  found   : Bool
  view    : Option SessionView
  opened  : Status
  attach  : BugManager.AttachEnv
  channel : Bool
  carried : Bool

inductive BotAct
  | call (i : Nat) (j : BotJob)
  | go (i : Nat) (o : Answers)
  | destroy (u : Bytes)
  | hook (u : Bytes)
  | close (id : Nat)
  | write (channel name value : Bytes)

/-- The first half of `RemoveForChannel`: the streams leave the map. -/
def MediaPlane.takeForChannel (p : MediaPlane) (u : Bytes) : MediaPlane where
  bugs := p.bugs
  streams := p.streams.filter (fun s => s.channelUuid != u)
  distinct := p.distinct.sublist (List.Sublist.map _ List.filter_sublist)

/-- And their bugs. -/
def MediaPlane.bugsForChannel (p : MediaPlane) (u : Bytes) : List Nat :=
  (p.streams.filter (fun s => s.channelUuid == u)).flatMap (·.bugs)

namespace BotPlane

def init (channels : Bytes → Channel) : BotPlane :=
  ⟨.empty, .empty, channels, fun _ => 0, fun _ => .idle, fun _ => .alive, fun _ => [], []⟩

variable (s : BotPlane)

def goto (i : Nat) (p : BotPhase) : BotPlane := { s with phase := Function.update s.phase i p }

def hookTo (u : Bytes) (h : Hook) : BotPlane := { s with hook := Function.update s.hook u h }

def withBugs (m : BugManager) : BotPlane := { s with plane := s.plane.withBugs m }

def detach (id : Nat) : BotPlane := s.withBugs (s.plane.bugs.detach id)

/-- The bug a call has attached. -/
def attached (i id : Nat) : BotPlane := { s with attachedBy := Function.update s.attachedBy i (s.attachedBy i ++ [id]) }

def write (w : VarWrite) : BotPlane := { s with channels := w.apply s.channels, writes := s.writes ++ [w] }

/-- A session is located by the C string of its uuid, until its channel is destroyed. -/
def alive (u : Bytes) : Bool := s.hook (cStr u) == .alive

def lock (u : Bytes) : BotPlane := { s with locks := Function.update s.locks (cStr u) (s.locks (cStr u) + 1) }

def unlock (u : Bytes) : BotPlane := { s with locks := Function.update s.locks (cStr u) (s.locks (cStr u) - 1) }

def release : Option Bytes → BotPlane
  | some u => s.unlock u
  | none   => s

/-- The next step of a `StartBot`. -/
def advance (M : BotModule) (i : Nat) (b : BotStart) (o : Answers) : StartPhase → BotPlane
  | .checking [] => s.goto i (.starting b .opening)
  | .checking (u :: rest) =>
    if s.bots.channelAtCapacity u M.limits.maxBotsPerChannel then s.goto i (.returned StartBotRequest.atCapacity)
    else s.goto i (.starting b (.probing u rest))
  | .probing u rest =>
    match b.req.checkSession u (if s.alive u then o.view else none) with
    | some st => s.goto i (.returned st)
    | none    => s.goto i (.starting b (.checking rest))
  | .opening =>
    if o.opened.code ≠ .ok then s.goto i (.returned o.opened)
    else s.goto i (.starting b (.attaching b.req.targets))
  | .attaching [] => s.goto i (.starting b (.marking b.req.targets))
  | .attaching (u :: rest) =>
    if s.alive u && o.found then (s.lock u).goto i (.starting b (.holding u (botBugs b.req u) rest))
    else s.goto i (.ending none b.handles (StartBotRequest.targetNotFound u))
  | .holding u [] rest => (s.unlock u).goto i (.starting b (.attaching rest))
  | .holding u ((side, cfg) :: todo) rest =>
    match s.plane.bugs.attach cfg { o.attach with uuid := cStr u } with
    | (m, .error st) => (s.withBugs m).goto i (.ending (some u) b.handles (attachFailureStatus st))
    | (m, .ok id)    => ((s.withBugs m).attached i id).goto i (.starting b (.wiring u side id todo rest))
  | .wiring u side id todo rest =>
    if (s.plane.bugs.byId id).isSome then
      s.goto i (.starting { b with handles := b.handles ++ [id] } (.holding u todo rest))
    else s.goto i (.ending (some u) (b.handles ++ [id]) (failedToWire side))
  | .marking [] => s.goto i (.starting b .inserting)
  | .marking (u :: rest) =>
    -- a target that is no longer found is passed over
    if s.alive u && o.found then
      (s.lock u).goto i (.starting b (.writing u
        (if o.channel then
          Security.markWrites b.req.purpose.name (Security.resolveEffectivePolicy M.policy b.req.tenantId) b.req.tenantId
         else []) rest))
    else s.goto i (.starting b (.marking rest))
  | .writing u [] rest => (s.unlock u).goto i (.starting b (.marking rest))
  | .writing u ((n, v) :: ws) rest =>
    (if o.carried then s.write ⟨some i, cStr u, n, cStr v⟩ else s).goto i (.starting b (.writing u ws rest))
  | .inserting =>
    match s.bots.insert ⟨b.botId, b.req.targets, [], ⟨i, b.handles⟩⟩ M.limits.maxBotsPerChannel with
    | (bots, .inserted)             => { s with bots := bots }.goto i (.returned .okay)
    | (_, .channelCapacityExceeded) => s.goto i (.ending none b.handles StartBotRequest.atCapacity)
    | (_, .duplicateBotId)          => s.goto i (.ending none b.handles StartBotRequest.botIdCollision)

def begin (M : BotModule) (i : Nat) : BotJob → BotPlane
  | .start botId req =>
    match req.validate M.limits with
    | some st => s.goto i (.returned st)
    | none    => s.goto i (.starting ⟨botId, req, []⟩ (.checking req.targets))
  | .stop botId =>
    if botId = [] then s.goto i (.returned ⟨.invalidArgument, str "bot_id required"⟩)
    else
      match s.bots.take botId with
      | (none, _)      => s.goto i (.returned .okay)
      | (some b, bots) => { s with bots := bots }.goto i (.ending none b.session.handles .okay)
  | .media c => s.goto i (.serving c .idle)

/-- The next step of a thread. -/
def go (M : BotModule) (i : Nat) (o : Answers) : Option BotPlane :=
  match s.phase i with
  | .idle                     => none
  | .starting b ph            => some (s.advance M i b o ph)
  | .ending lock [] st        => some ((s.release lock).goto i (.returned st))
  | .ending lock (id :: ids) st => some ((s.detach id).goto i (.ending lock ids st))
  | .serving c ph             => (c.next s.plane ph).map (fun r => { s with plane := r.1 }.goto i (.serving c r.2))
  | .returned _               => none

/-- The next step of the hook of a channel. -/
def runHook (u : Bytes) : Option BotPlane :=
  match s.hook u with
  | .alive => none
  | .begun => some (s.hookTo u (.stopping (s.bots.channelBots u)))
  | .stopping (k :: ks) =>
    match s.bots.take k with
    | (none, _)      => some (s.hookTo u (.stopping ks))
    | (some b, bots) => some ({ s with bots := bots }.hookTo u (.tearing b.session.handles ks))
  | .tearing (id :: ids) ks => some ((s.detach id).hookTo u (.tearing ids ks))
  | .tearing [] ks          => some (s.hookTo u (.stopping ks))
  | .stopping []            =>
    some ({ s with plane := s.plane.takeForChannel u }.hookTo u (.draining (s.plane.bugsForChannel u)))
  | .draining (id :: ids)   => some ((s.detach id).hookTo u (.draining ids))
  | .draining []            => some (s.hookTo u (.sweeping (s.plane.bugs.channelIds u)))
  | .sweeping (id :: ids)   => some ((s.detach id).hookTo u (.sweeping ids))
  | .sweeping []            => some (s.hookTo u .done)
  | .done                   => none

def step (M : BotModule) : BotAct → Option BotPlane
  | .call i j =>
    match s.phase i with
    | .idle => some (s.begin M i j)
    | _     => none
  | .go i o => s.go M i o
  | .destroy u => if u ≠ [] ∧ s.hook u = .alive ∧ s.locks u = 0 then some (s.hookTo u .begun) else none
  | .hook u => s.runHook u
  | .close id => some (s.detach id)
  | .write channel name value => some (s.write ⟨none, channel, name, value⟩)

end BotPlane

/-! ## What a step of a call can do -/

/-- The bugs a `StartBot` has to answer for: the handles of its session, and the bug that is not wired yet. -/
def BotStart.live (b : BotStart) : StartPhase → Nat → Prop
  | .checking _, _ | .probing .., _ | .opening, _ => False
  | .wiring _ _ new _ _, id => id ∈ b.handles ∨ id = new
  | _, id => id ∈ b.handles

/-- The call is past its attaches. -/
def StartPhase.marks : StartPhase → Bool
  | .marking _ | .writing .. | .inserting => true
  | _ => false

namespace BotPhase

/-- The bugs a thread has to answer for; a call that has returned OK has given its own away. -/
def owns : BotPhase → Nat → Prop
  | .starting b ph, id  => b.live ph id
  | .ending _ ids _, id => id ∈ ids
  | .returned st, _     => st.code = .ok
  | _, _                => False

/-- The call may have marked a target. -/
def marks : BotPhase → Bool
  | .starting _ ph => ph.marks
  | .returned st   => st.code == .ok
  | _              => false

end BotPhase

namespace BotPlane

variable (s : BotPlane)

theorem goto_phase_self (i : Nat) (p : BotPhase) : (s.goto i p).phase i = p := Function.update_self ..

theorem goto_phase_of_ne {i j : Nat} (h : j ≠ i) (p : BotPhase) : (s.goto i p).phase j = s.phase j :=
  Function.update_of_ne h _ _

/-- Bugs and bots may have gone, and locks and hooks have changed; the rest is as it was. -/
structure Quiet (s t : BotPlane) : Prop where
  bugs       : Starts.NoRevival s.plane.bugs t.plane.bugs
  bots       : ∀ k b, t.bots.byId k = some b → s.bots.byId k = some b
  phase      : t.phase = s.phase
  attachedBy : t.attachedBy = s.attachedBy
  channels   : t.channels = s.channels
  writes     : t.writes = s.writes

theorem Quiet.of_plane {s t : BotPlane} (hplane : t.plane = s.plane) (hbots : t.bots = s.bots)
    (hphase : t.phase = s.phase) (hatt : t.attachedBy = s.attachedBy) (hch : t.channels = s.channels)
    (hw : t.writes = s.writes) : s.Quiet t :=
  ⟨hplane ▸ (Starts.keepsInject_refl _).toNoRevival, fun _ _ h => hbots ▸ h, hphase, hatt, hch, hw⟩

theorem Quiet.refl : s.Quiet s := .of_plane rfl rfl rfl rfl rfl rfl

theorem Quiet.withBugs {m : BugManager} (hm : Starts.NoRevival s.plane.bugs m) : s.Quiet (s.withBugs m) :=
  ⟨hm, fun _ _ h => h, rfl, rfl, rfl, rfl⟩

/-- **One step of a `StartBot`**: the state before the thread moves on, and where it moves to. -/
inductive Advances (M : BotModule) (i : Nat) (b : BotStart) : StartPhase → BotPlane → BotPhase → Prop
  | quiet {ph : StartPhase} {t : BotPlane} {p : BotPhase} (ht : s.Quiet t) (hbots : t.bots = s.bots)
      (hhook : t.hook = s.hook) (howns : ∀ id, b.live ph id → p.owns id) (hmarks : ph.marks = true → p.marks = true) :
      Advances M i b ph t p
  | attach {u : Bytes} {side : BugSide} {cfg : BugConfig} {todo : List (BugSide × BugConfig)} {rest : List Bytes}
      {env : BugManager.AttachEnv} {m : BugManager} {id : Nat} (h : s.plane.bugs.attach cfg env = (m, .ok id)) :
      Advances M i b (.holding u ((side, cfg) :: todo) rest) ((s.withBugs m).attached i id)
        (.starting b (.wiring u side id todo rest))
  | write (u n v : Bytes) (ws : List (Bytes × Bytes)) (rest : List Bytes) :
      Advances M i b (.writing u ((n, v) :: ws) rest) (s.write ⟨some i, cStr u, n, cStr v⟩)
        (.starting b (.writing u ws rest))
  | insert {bots : ActiveBots BotOwner}
      (h : s.bots.insert ⟨b.botId, b.req.targets, [], ⟨i, b.handles⟩⟩ M.limits.maxBotsPerChannel = (bots, .inserted)) :
      Advances M i b .inserting { s with bots := bots } (.returned .okay)
  | refuse {bots : ActiveBots BotOwner} {r : InsertResult} (st : Status)
      (h : s.bots.insert ⟨b.botId, b.req.targets, [], ⟨i, b.handles⟩⟩ M.limits.maxBotsPerChannel = (bots, r))
      (hr : r ≠ .inserted) :
      Advances M i b .inserting s (.ending none b.handles st)

theorem Advances.same {s : BotPlane} {M : BotModule} {i : Nat} {b : BotStart} {ph : StartPhase} {p : BotPhase}
    (howns : ∀ id, b.live ph id → p.owns id) (hmarks : ph.marks = true → p.marks = true) : s.Advances M i b ph s p :=
  .quiet (.refl s) rfl rfl howns hmarks

theorem advance_cases (M : BotModule) (i : Nat) (b : BotStart) (o : Answers) (ph : StartPhase) :
    ∃ t p, s.advance M i b o ph = t.goto i p ∧ s.Advances M i b ph t p := by
  cases ph with
  | checking rest =>
    cases rest with
    | nil => exact ⟨s, _, rfl, .same nofun nofun⟩
    | cons u rest =>
      simp only [advance]
      split <;> exact ⟨s, _, rfl, .same nofun nofun⟩
  | probing u rest =>
    simp only [advance]
    split <;> exact ⟨s, _, rfl, .same nofun nofun⟩
  | opening =>
    simp only [advance]
    split <;> exact ⟨s, _, rfl, .same nofun nofun⟩
  | attaching rest =>
    cases rest with
    | nil => exact ⟨s, _, rfl, .same (fun _ h => h) nofun⟩
    | cons u rest =>
      simp only [advance]
      split
      · exact ⟨s.lock u, _, rfl, .quiet (.of_plane rfl rfl rfl rfl rfl rfl) rfl rfl (fun _ h => h) nofun⟩
      · exact ⟨s, _, rfl, .same (fun _ h => h) nofun⟩
  | holding u todo rest =>
    cases todo with
    | nil => exact ⟨s.unlock u, _, rfl, .quiet (.of_plane rfl rfl rfl rfl rfl rfl) rfl rfl (fun _ h => h) nofun⟩
    | cons sc todo =>
      obtain ⟨side, cfg⟩ := sc
      simp only [advance]
      split
      · rename_i m st hat
        have hm := (Starts.keepsInject_attach s.plane.bugs cfg { o.attach with uuid := cStr u }).toNoRevival
        rw [hat] at hm
        exact ⟨s.withBugs m, _, rfl, .quiet (.withBugs s hm) rfl rfl (fun _ h => h) nofun⟩
      · rename_i m id hat
        exact ⟨_, _, rfl, .attach hat⟩
  | wiring u side id todo rest =>
    simp only [advance]
    split
    · refine ⟨s, _, rfl, .same (fun x h => List.mem_append.2 ?_) nofun⟩
      exact h.imp_right List.mem_singleton.2
    · refine ⟨s, _, rfl, .same (fun x h => List.mem_append.2 ?_) nofun⟩
      exact h.imp_right List.mem_singleton.2
  | marking rest =>
    cases rest with
    | nil => exact ⟨s, _, rfl, .same (fun _ h => h) (fun _ => rfl)⟩
    | cons u rest =>
      simp only [advance]
      split
      · exact ⟨s.lock u, _, rfl, .quiet (.of_plane rfl rfl rfl rfl rfl rfl) rfl rfl (fun _ h => h) (fun _ => rfl)⟩
      · exact ⟨s, _, rfl, .same (fun _ h => h) (fun _ => rfl)⟩
  | writing u ws rest =>
    cases ws with
    | nil =>
      exact ⟨s.unlock u, _, rfl, .quiet (.of_plane rfl rfl rfl rfl rfl rfl) rfl rfl (fun _ h => h) (fun _ => rfl)⟩
    | cons nv ws =>
      simp only [advance]
      split
      · exact ⟨_, _, rfl, .write u nv.1 nv.2 ws rest⟩
      · exact ⟨s, _, rfl, .same (fun _ h => h) (fun _ => rfl)⟩
  | inserting =>
    simp only [advance]
    split
    · rename_i bots hins
      exact ⟨_, _, rfl, .insert hins⟩
    · rename_i bots hins
      exact ⟨s, _, rfl, .refuse _ hins nofun⟩
    · rename_i bots hins
      exact ⟨s, _, rfl, .refuse _ hins nofun⟩

/-! ## A small switch -/

/-- One bot on a channel at a time. -/
def oneBot : BotModule := ⟨⟨8, 1, by decide, by decide⟩, ⟨str "deny", []⟩⟩

/-- Every lookup finds its session, every call succeeds. -/
def willing : Answers :=
  ⟨true, some ⟨str "a", 8000, 8000⟩, .okay, ⟨[], true, true, 0, true⟩, true, true⟩

def startOn (targets : List Bytes) (purpose : BotPurpose) (botId : Bytes) : BotJob :=
  .start botId ⟨targets, [], str "bot:50051", purpose, 8000, str "t"⟩

/-- Thread `i` takes `n` steps, and all goes well. -/
def goes (i n : Nat) : List BotAct := List.replicate n (.go i willing)

end BotPlane
end Control
end Osw
