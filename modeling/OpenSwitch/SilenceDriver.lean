import OpenSwitch.AttachSteps
/-!
# SilenceDriver — the silence drivers beside the bug registry (`silence_driver.cc`)

A channel that something is injected into gets a silence driver, so that FreeSWITCH writes to it at all.  `Attach` starts
one after it has registered a write-replace bug, and the section that erases the last such bug of a channel decides that
the driver has to go; both happen outside the registry's mutex, under the mutex of the channel.  The drivers have a map
and a mutex of their own: one is taken out of the map first and stopped then.  `RemoveSilenceDriverForChannel` takes no
channel mutex at all, so between its two halves a driver runs that is in no map, whatever becomes of the channel's bugs.

When no memory is left for the mutex of a channel, `Detach` and `DetachAll` go on without one.
-/
namespace Osw
namespace Media

/-! ## The map of the drivers -/

/-- The settings of the driver registry. -/
structure SilenceConfig where
  enabled    : Bool
  maxDrivers : Nat
  deriving DecidableEq, Repr

/-- What `AttachOpportunistic` finds: the channel of the session, two of its flags and `current_application`; whether there
is memory for a driver, and what `switch_ivr_broadcast` answers. -/
structure SilenceView where
  attached    : Bool
  broadcast   : Bool
  bridged     : Bool
  application : Option Bytes
  allocated   : Bool
  broadcastRc : Nat
  deriving DecidableEq, Repr

/-- The channels that have a driver in the map, once `AttachOpportunistic` has run for the session of `uuid`. -/
def attachOpportunistic (cfg : SilenceConfig) (uuid : Bytes) (v : SilenceView) (drivers : List Bytes) : List Bytes :=
  if !cfg.enabled || uuid = [] || !v.attached || v.broadcast || v.bridged then drivers
  else if v.application = some (str "playback") then drivers
  else if uuid ∈ drivers then drivers
  else if cfg.maxDrivers ≤ drivers.length then drivers
  -- a driver whose broadcast fails does not run and is dropped
  else if v.allocated && v.broadcastRc == 0 then drivers ++ [uuid]
  else drivers

theorem attachOpportunistic_cases (cfg : SilenceConfig) (uuid : Bytes) (v : SilenceView) (drivers : List Bytes) :
    attachOpportunistic cfg uuid v drivers = drivers ∨
    (uuid ∉ drivers ∧ drivers.length < cfg.maxDrivers ∧ attachOpportunistic cfg uuid v drivers = drivers ++ [uuid]) := by
  unfold attachOpportunistic
  split
  · exact .inl rfl
  split
  · exact .inl rfl
  split
  · exact .inl rfl
  rename_i hnew
  split
  · exact .inl rfl
  rename_i hroom
  split
  · exact .inr ⟨hnew, Nat.lt_of_not_le hroom, rfl⟩
  · exact .inl rfl

/-! ## Write-replace bugs -/

def BugRecord.writeReplace (r : BugRecord) : Bool := decide (r.config.fsFlags &&& smbfWriteReplace ≠ 0)

namespace Records

/-- `HasWriteReplaceBug`. -/
def hasWriteReplaceBug (m : Records) (u : Bytes) : Bool := (m.ids u).any (fun id => (m.byId id).any BugRecord.writeReplace)

/-- A registered write-replace bug of the channel. -/
def Injected (m : Records) (u : Bytes) : Prop :=
  ∃ id r, m.byId id = some r ∧ r.channelUuid = u ∧ r.writeReplace = true

variable {m : Records} {u : Bytes}

theorem Ok.hasWriteReplaceBug_iff (h : m.Ok) (u : Bytes) : m.hasWriteReplaceBug u = true ↔ m.Injected u := by
  simp only [hasWriteReplaceBug, List.any_eq_true, Option.any_eq_true]
  constructor
  · rintro ⟨id, hid, r, hr, hw⟩
    obtain ⟨r', hr', hu⟩ := h.known u id hid
    rw [hr] at hr'
    cases hr'
    exact ⟨id, r, hr, hu, hw⟩
  · rintro ⟨id, r, hr, rfl, hw⟩
    exact ⟨id, (h.listed id r hr).2, r, hr, hw⟩

/-- The channel whose driver has to go when the bug `id` is erased (`stop_silence_driver`): the bug was its last
write-replace bug.  The list of the channel has been cut when the section looks. -/
def orphaned (m : Records) (id : Nat) : Option Bytes :=
  match m.byId id with
  | none   => none
  | some r => if r.writeReplace && !(m.erase id).hasWriteReplaceBug r.channelUuid then some r.channelUuid else none

theorem channel_of_orphaned {id : Nat} (h : m.orphaned id = some u) : ∃ r, m.byId id = some r ∧ r.channelUuid = u := by
  unfold orphaned at h
  split at h
  · cases h
  · rename_i r hr
    split at h
    · cases h
      exact ⟨r, hr, rfl⟩
    · cases h

/-- **A channel that something is injected into still is after a section, or the section orphans its driver.** -/
theorem Ok.injected_erase (h : m.Ok) (hu : m.Injected u) (id : Nat) :
    (m.erase id).Injected u ∨ m.orphaned id = some u := by
  obtain ⟨a, ra, ha, rfl, hwa⟩ := hu
  by_cases hid : a = id
  · subst hid
    cases hw : (m.erase a).hasWriteReplaceBug ra.channelUuid with
    | true => exact .inl (((h.erase a).hasWriteReplaceBug_iff _).1 hw)
    | false => exact .inr (by simp [orphaned, ha, hwa, hw])
  · exact .inl ⟨a, ra, by rw [erase_byId, Function.update_of_ne hid]; exact ha, rfl, hwa⟩

theorem Injected.emplace (hu : m.Injected u) {id : Nat} (hnew : m.byId id = none) (v : Bytes) (cfg : BugConfig) :
    (m.emplace id v cfg).Injected u := by
  obtain ⟨a, ra, ha, hua, hwa⟩ := hu
  have hne : a ≠ id := by
    rintro rfl
    rw [hnew] at ha
    cases ha
  exact ⟨a, ra, by rw [emplace_byId hnew, Function.update_of_ne hne]; exact ha, hua, hwa⟩

end Records

/-! ## The threads -/

/-- What a thread has to do with the drivers before it goes on: `AttachOpportunistic`, `StopAndErase`, or the `Stop` of a
driver it has taken out of the map. -/
inductive Chore
  | none
  | start (u : Bytes)
  | stopAndErase (u : Bytes)
  | stop (u : Bytes)
  deriving DecidableEq, Repr

/-- A `DetachAll` before its list, or the bugs a call has still to erase, when the call has no channel mutex; `prunes` tells
a `DetachAll`. -/
inductive Loose
  | none
  | listing (u : Bytes)
  | erasing (u : Bytes) (ids : List Nat) (prunes : Bool)
  deriving DecidableEq, Repr

namespace Loose

def channel : Loose → Option Bytes
  | .none          => Option.none
  | .listing u     => some u
  | .erasing u _ _ => some u

/-- The bugs such a call has still to erase, with their channel. -/
def aims : Loose → Bytes × List Nat
  | .erasing u ids _ => (u, ids)
  | _                => ([], [])

/-- They were registered, and are bugs of that channel. -/
def Aimed (l : Loose) (r : Registry) : Prop :=
  ∀ id ∈ l.aims.2, id ∈ r.attached ∧ ∀ b, r.records.byId id = some b → b.channelUuid = l.aims.1

end Loose

structure Driven where
  reg     : Registry
  loose   : Nat → Loose
  chore   : Nat → Chore
  drivers : List Bytes

inductive DrivenAct
  | call (i : Nat) (j : Job)
  | go (i : Nat)
  | chore (i : Nat) (v : SilenceView)
  | removeSilenceDriver (i : Nat) (u : Bytes)
  | noLock (i : Nat)
  | goLoose (i : Nat)
  deriving DecidableEq, Repr

namespace Driven

def init : Driven := ⟨.init, fun _ => .none, fun _ => .none, []⟩

def setChore (s : Driven) (i : Nat) (c : Chore) : Driven := { s with chore := Function.update s.chore i c }

def setLoose (s : Driven) (i : Nat) (l : Loose) : Driven := { s with loose := Function.update s.loose i l }

variable {i : Nat} {cfg : SilenceConfig} {s s' : Driven}

theorem setChore_self (s : Driven) (i : Nat) (c : Chore) : (s.setChore i c).chore i = c := Function.update_self ..

theorem setChore_of_ne (s : Driven) {j : Nat} (h : j ≠ i) (c : Chore) : (s.setChore i c).chore j = s.chore j :=
  Function.update_of_ne h ..

/-- The chore of a section that has erased a bug. -/
def afterErase (m : Records) (id : Nat) : Chore :=
  match m.orphaned id with
  | none   => .none
  | some u => .stopAndErase u

/-- The chore the next step of thread `i` leaves it with. -/
def choreAfter (r : Registry) (i : Nat) : Chore :=
  match r.stage i with
  | .added u cfg _ _ =>
    if (BugManager.effectiveConfig cfg).fsFlags &&& smbfWriteReplace ≠ 0 then .start u else .none
  | .locked (.detach id _) _ _ => afterErase r.records id
  | .sweeping _ (id :: _) _    => afterErase r.records id
  | _ => .none

/-- The thread goes on with its call: it has no chore, and its call goes by the channel mutex. -/
def ready (s : Driven) (i : Nat) : Bool := s.chore i == .none && s.loose i == .none

/-- An entry whose object could not be made. -/
def deadLock (r : Registry) (u : Bytes) : Registry :=
  { r with channelLocks := Function.update r.channelLocks u (some r.nextLock), nextLock := r.nextLock + 1 }

/-- `ChannelLockFor` would have to make an object and cannot: `Attach` fails, `Detach` and `DetachAll` go on without. -/
def noLock (s : Driven) (i : Nat) : Option Driven :=
  match s.reg.stage i with
  | .called (.attach u _ _) =>
    if u ≠ [] ∧ s.reg.lockFor u = s.reg.nextLock then some { s with reg := (deadLock s.reg u).goto i .idle } else none
  | .called (.detachAll u) =>
    if s.reg.lockFor u = s.reg.nextLock then
      some ({ s with reg := (deadLock s.reg u).goto i .idle }.setLoose i (.listing u))
    else none
  | .found id _ u =>
    if s.reg.lockFor u = s.reg.nextLock then
      some ({ s with reg := (deadLock s.reg u).goto i .idle }.setLoose i (.erasing u [id] false))
    else none
  | _ => none

/-- The next section of a call without a channel mutex. -/
def goLoose (s : Driven) (i : Nat) : Option Driven :=
  match s.loose i with
  | .none => none
  | .listing u =>
    match s.reg.records.byChannel u with
    | none     => some ({ s with reg := s.reg.prune u }.setLoose i .none)
    | some ids => some (s.setLoose i (.erasing u ids true))
  | .erasing u [] prunes => some ({ s with reg := if prunes then s.reg.prune u else s.reg }.setLoose i .none)
  | .erasing u (id :: ids) prunes =>
    some (({ s with reg := s.reg.erase id }.setLoose i (.erasing u ids prunes)).setChore i (afterErase s.reg.records id))

def doChore (cfg : SilenceConfig) (s : Driven) (i : Nat) (v : SilenceView) : Option Driven :=
  match s.chore i with
  | .none => none
  | .start u => some ({ s with drivers := attachOpportunistic cfg u v s.drivers }.setChore i .none)
  | .stopAndErase u =>
    if u ∈ s.drivers then some ({ s with drivers := s.drivers.erase u }.setChore i (.stop u)) else some (s.setChore i .none)
  | .stop _ => some (s.setChore i .none)

def step (cfg : SilenceConfig) (s : Driven) : DrivenAct → Option Driven
  | .call i j => if s.ready i then (s.reg.step (.call i j)).map (fun r => { s with reg := r }) else none
  | .go i =>
    if s.ready i then (s.reg.go i).map (fun r => { s with reg := r }.setChore i (choreAfter s.reg i)) else none
  | .chore i v => doChore cfg s i v
  | .removeSilenceDriver i u =>
    if s.ready i && s.reg.stage i == .idle then some (s.setChore i (.stopAndErase u)) else none
  | .noLock i => if s.ready i then s.noLock i else none
  | .goLoose i => if s.chore i = .none then s.goLoose i else none

/-! ## The map -/

/-- One driver for a channel, and no more than the cap. -/
def Capped (cfg : SilenceConfig) (drivers : List Bytes) : Prop := drivers.Nodup ∧ drivers.length ≤ cfg.maxDrivers

theorem Capped.attachOpportunistic {drivers : List Bytes} (h : Capped cfg drivers) (uuid : Bytes) (v : SilenceView) :
    Capped cfg (attachOpportunistic cfg uuid v drivers) := by
  rcases attachOpportunistic_cases cfg uuid v drivers with heq | ⟨hnew, hroom, heq⟩
  · rw [heq]
    exact h
  · rw [heq]
    refine ⟨List.nodup_append.2 ⟨h.1, by simp, ?_⟩, ?_⟩
    · rintro a ha b hb rfl
      exact hnew (List.mem_singleton.1 hb ▸ ha)
    · rw [List.length_append]
      exact hroom

theorem Capped.erase {drivers : List Bytes} (h : Capped cfg drivers) (u : Bytes) : Capped cfg (drivers.erase u) :=
  ⟨h.1.erase u, Nat.le_trans (List.length_erase_le) h.2⟩

theorem noLock_drivers (hs : s.noLock i = some s') : s'.drivers = s.drivers := by
  unfold noLock at hs
  split at hs
  iterate 3
    · split at hs <;> cases hs
      rfl
  · cases hs

theorem goLoose_drivers (hs : s.goLoose i = some s') : s'.drivers = s.drivers := by
  unfold goLoose at hs
  split at hs
  · cases hs
  · split at hs <;> cases hs <;> rfl
  · cases hs
    rfl
  · cases hs
    rfl

theorem step_drivers {a : DrivenAct} (hs : s.step cfg a = some s') :
    s'.drivers = s.drivers ∨ (∃ i u v, s.chore i = .start u ∧ s'.drivers = attachOpportunistic cfg u v s.drivers) ∨
    ∃ i u, s.chore i = .stopAndErase u ∧ s'.drivers = s.drivers.erase u := by
  cases a with
  | call i j =>
    simp only [step] at hs
    split at hs
    · obtain ⟨r, -, rfl⟩ := Option.map_eq_some_iff.1 hs
      exact .inl rfl
    · cases hs
  | go i =>
    simp only [step] at hs
    split at hs
    · obtain ⟨r, -, rfl⟩ := Option.map_eq_some_iff.1 hs
      exact .inl rfl
    · cases hs
  | chore i v =>
    simp only [step, doChore] at hs
    split at hs
    · cases hs
    · rename_i u hu
      cases hs
      exact .inr (.inl ⟨i, u, v, hu, rfl⟩)
    · rename_i u hu
      split at hs
      · cases hs
        exact .inr (.inr ⟨i, u, hu, rfl⟩)
      · cases hs
        exact .inl rfl
    · cases hs
      exact .inl rfl
  | removeSilenceDriver i u =>
    simp only [step] at hs
    split at hs
    · cases hs
      exact .inl rfl
    · cases hs
  | noLock i =>
    simp only [step] at hs
    split at hs
    · exact .inl (noLock_drivers hs)
    · cases hs
  | goLoose i =>
    simp only [step] at hs
    split at hs
    · exact .inl (goLoose_drivers hs)
    · cases hs

theorem Capped.step {a : DrivenAct} (h : Capped cfg s.drivers) (hs : s.step cfg a = some s') :
    Capped cfg s'.drivers := by
  rcases step_drivers hs with heq | ⟨i, u, v, -, heq⟩ | ⟨i, u, -, heq⟩
  · rw [heq]
    exact h
  · rw [heq]
    exact h.attachOpportunistic u v
  · rw [heq]
    exact h.erase u

/-! ## Drivers and bugs -/

/-- The step is not one of a `Detach` or `DetachAll` of channel `u` that goes on without the mutex of the channel. -/
def goesByLock (u : Bytes) (s : Driven) : DrivenAct → Bool
  | .noLock i =>
    match s.reg.stage i with
    | .called (.detachAll v) => v != u
    | .found _ _ v           => v != u
    | _                      => true
  | _ => true

/-- The thread is to stop the driver of the channel, which is in its hand once it is out of the map. -/
def stops (s : Driven) (u : Bytes) (i : Nat) : Prop := s.chore i = .stopAndErase u ∨ s.chore i = .stop u

/-- The thread has the mutex of the channel, or is in no call of the registry, as in `RemoveSilenceDriverForChannel`. -/
def mayStop (s : Driven) (u : Bytes) (i : Nat) : Prop :=
  (∃ l, (s.reg.stage i).holds = some (u, l)) ∨ (s.reg.stage i = .idle ∧ s.loose i = .none)

/-- What the runs keep in which no call goes without the mutex of channel `u`: its driver has a bug it is for, or a thread
that is about to take it out of the map under the mutex. -/
structure Inv (u : Bytes) (s : Driven) : Prop where
  reg    : s.reg.Inv
  nodup  : s.drivers.Nodup
  loose  : ∀ i, (s.loose i).channel ≠ some u
  aimed  : ∀ i, (s.loose i).Aimed s.reg
  start  : ∀ i, s.chore i = .start u → (∃ l, (s.reg.stage i).holds = some (u, l)) ∧ s.reg.records.Injected u
  driver : u ∈ s.drivers → s.reg.records.Injected u ∨
    ∃ i l, s.chore i = .stopAndErase u ∧ (s.reg.stage i).holds = some (u, l)
  stops  : ∀ i, s.stops u i → s.mayStop u i

theorem Inv.init (u : Bytes) : init.Inv u where
  reg := .init
  nodup := List.nodup_nil
  loose _ h := by cases h
  aimed _ _ h := by cases h
  start _ h := by cases h
  driver h := by cases h
  stops _ h := by rcases h with h | h <;> cases h

section inv

variable {cfg : SilenceConfig} {u v : Bytes} {s s' : Driven} {i : Nat} {r : Registry}

/-- A step of the registry, of a thread without a chore.  Other threads keep what they hold; if something is still injected
into the channel, or the new chore is about its driver, the driver is accounted for. -/
theorem Inv.registry (h : s.Inv u) {c : Chore} (hr : r.Inv) (hi : s.chore i = .none)
    (hother : ∀ j, j ≠ i → r.stage j = s.reg.stage j)
    (hstays : ∀ id ∈ s.reg.attached, id ∈ r.attached ∧ ∀ b, r.records.byId id = some b → s.reg.records.byId id = some b)
    (hinj : s.reg.records.Injected u → r.records.Injected u ∨
      (c = .stopAndErase u ∧ ∃ l, (s.reg.stage i).holds = some (u, l) ∧ (r.stage i).holds = some (u, l)))
    (hstart : c = .start u → (∃ l, (r.stage i).holds = some (u, l)) ∧ r.records.Injected u)
    (hstop : c ≠ .stop u ∧ (c = .stopAndErase u → ∃ l, (r.stage i).holds = some (u, l))) :
    ({ s with reg := r }.setChore i c).Inv u := by
  refine ⟨hr, h.nodup, h.loose, fun j id hid => ?_, fun j hj => ?_, fun hu => ?_, fun j hj => ?_⟩
  · obtain ⟨hatt, hchan⟩ := h.aimed j id hid
    obtain ⟨hatt, hsame⟩ := hstays id hatt
    exact ⟨hatt, fun b hb => hchan b (hsame b hb)⟩
  · by_cases hji : j = i
    · subst hji
      exact hstart ((setChore_self ..).symm.trans hj)
    · rw [setChore_of_ne _ hji] at hj
      obtain ⟨⟨l, hl⟩, hin⟩ := h.start j hj
      refine ⟨⟨l, ?_⟩, ?_⟩
      · show (r.stage j).holds = _
        rw [hother j hji]
        exact hl
      · rcases hinj hin with hin | ⟨-, l', hl', -⟩
        · exact hin
        -- thread `j` holds the mutex of the channel, so it is not the other one's
        · exact absurd (h.reg.exclusive hl hl') hji
  · rcases h.driver hu with hin | ⟨j, l, hj, hl⟩
    · rcases hinj hin with hin | ⟨hc, l, -, hl⟩
      · exact .inl hin
      · exact .inr ⟨i, l, (setChore_self ..).trans hc, hl⟩
    · have hji : j ≠ i := by
        rintro rfl
        rw [hi] at hj
        cases hj
      refine .inr ⟨j, l, (setChore_of_ne _ hji _).trans hj, ?_⟩
      show (r.stage j).holds = _
      rw [hother j hji]
      exact hl
  · by_cases hji : j = i
    · subst hji
      rw [Driven.stops, setChore_self] at hj
      exact .inl (hstop.2 (hj.resolve_right hstop.1))
    · rw [Driven.stops, setChore_of_ne _ hji] at hj
      have hmay := h.stops j hj
      unfold mayStop at hmay ⊢
      rw [← hother j hji] at hmay
      exact hmay

theorem Inv.quiet (h : s.Inv u) (hr : r.Inv) (hi : s.chore i = .none) (hother : ∀ j, j ≠ i → r.stage j = s.reg.stage j)
    (hrec : r.records = s.reg.records) (hatt : r.attached = s.reg.attached) : ({ s with reg := r } : Driven).Inv u := by
  have hmoved : ({ s with reg := r }.setChore i .none).Inv u := by
    refine h.registry hr hi hother (fun id hid => ?_) (fun hin => .inl ?_) nofun ⟨nofun, nofun⟩
    · rw [hrec, hatt]
      exact ⟨hid, fun _ hb => hb⟩
    · rw [hrec]
      exact hin
  rwa [setChore, ← hi, Function.update_eq_self] at hmoved

theorem afterErase_spec (m : Records) (id : Nat) (u : Bytes) :
    (afterErase m id = .stopAndErase u ↔ m.orphaned id = some u) ∧ afterErase m id ≠ .start u ∧
      afterErase m id ≠ .stop u := by
  unfold afterErase
  cases m.orphaned id with
  | none => exact ⟨⟨nofun, nofun⟩, nofun, nofun⟩
  | some v => exact ⟨by simp, nofun, nofun⟩

/-- A section that erases a bug of channel `v`.  The thread goes on under the mutex of the channel, or it is another
channel. -/
theorem Inv.erase (h : s.Inv u) {id : Nat} (hr : r.Inv) (hi : s.chore i = .none)
    (hother : ∀ j, j ≠ i → r.stage j = s.reg.stage j) (hrec : r.records = s.reg.records.erase id)
    (hatt : r.attached = s.reg.attached) (hid : ∀ b, s.reg.records.byId id = some b → b.channelUuid = v)
    (hlock : v = u → ∃ l, (s.reg.stage i).holds = some (u, l) ∧ (r.stage i).holds = some (u, l)) :
    ({ s with reg := r }.setChore i (afterErase s.reg.records id)).Inv u := by
  obtain ⟨horphan, hnostart, hnostop⟩ := afterErase_spec s.reg.records id u
  have hheld : s.reg.records.orphaned id = some u →
      ∃ l, (s.reg.stage i).holds = some (u, l) ∧ (r.stage i).holds = some (u, l) := by
    intro hout
    obtain ⟨b, hb, hbu⟩ := Records.channel_of_orphaned hout
    exact hlock ((hid b hb).symm.trans hbu)
  refine h.registry hr hi hother (fun a ha => ?_) (fun hin => ?_) (fun hc => absurd hc hnostart)
    ⟨hnostop, fun hc => ?_⟩
  · rw [hrec, hatt]
    exact ⟨ha, fun b hb => (Records.erase_byId_some hb).2⟩
  · rcases h.reg.ok.injected_erase hin id with hin | hout
    · exact .inl (hrec ▸ hin)
    · exact .inr ⟨horphan.2 hout, hheld hout⟩
  · obtain ⟨l, -, hl⟩ := hheld (horphan.1 hc)
    exact ⟨l, hl⟩

theorem Inv.go (h : s.Inv u) (hi : s.chore i = .none) (hgo : s.reg.go i = some r) :
    ({ s with reg := r }.setChore i (choreAfter s.reg i)).Inv u := by
  have hr := h.reg.go hgo
  have hother := (Registry.go_effect hgo).others
  have haim := h.reg.aimed i
  have hquiet : choreAfter s.reg i = .none → r.records = s.reg.records → r.attached = s.reg.attached →
      ({ s with reg := r }.setChore i (choreAfter s.reg i)).Inv u := by
    intro hc hrec hatt
    have hmoved := h.quiet hr hi hother hrec hatt
    rwa [hc, setChore, ← hi, Function.update_eq_self]
  cases Registry.turn_of_go hgo with
  | refused hp | attachAsks hp | detachAllAsks hp | detachAsks hp | invalid hp | clean hp | adds hp | addFails hp | swept hp
  | unlocks hp | drops hp => exact hquiet (by simp only [choreAfter, hp]) rfl rfl
  | finds hp _ | enters hp _ | draws hp _ | lists hp _ => exact hquiet (by simp only [choreAfter, hp]) rfl rfl
  | unknown hp _ => refine hquiet (by simp only [choreAfter, hp]) ?_ ?_ <;> (unfold Registry.finish; split <;> rfl)
  | @prunes j v hp =>
    obtain ⟨-, hrec, hatt, -⟩ := s.reg.prune_frame v
    refine hquiet (by simp only [choreAfter, hp]) ?_ ?_
    · unfold Registry.finish
      split <;> exact hrec
    · unfold Registry.finish
      split <;> exact hatt
  | @detaches id closing v l hp =>
    rw [show choreAfter s.reg i = afterErase s.reg.records id by simp only [choreAfter, hp]]
    rw [hp] at haim
    refine h.erase hr hi hother rfl rfl (haim id List.mem_cons_self).2 ?_
    rintro rfl
    exact ⟨l, by rw [hp]; rfl, congrArg Stage.holds (Registry.goto_stage_self ..)⟩
  | @sweeps v id ids l hp =>
    rw [show choreAfter s.reg i = afterErase s.reg.records id by simp only [choreAfter, hp]]
    rw [hp] at haim
    refine h.erase hr hi hother rfl rfl (haim id List.mem_cons_self).2 ?_
    rintro rfl
    exact ⟨l, by rw [hp]; rfl, congrArg Stage.holds (Registry.goto_stage_self ..)⟩
  | @registers v cfg id l hp =>
    have hpend : (s.reg.stage i).pending = some (v, BugManager.effectiveConfig cfg, id) := by rw [hp]; rfl
    have hnew : s.reg.records.byId id = none := by
      cases hb : s.reg.records.byId id with
      | none => rfl
      | some b => exact absurd (h.reg.known id b hb) (h.reg.fresh i _ _ _ hpend).2.1
    have hstarts : choreAfter s.reg i = .start v ∨ choreAfter s.reg i = .none := by
      simp only [choreAfter, hp]
      split
      · exact .inl rfl
      · exact .inr rfl
    refine h.registry hr hi hother (fun a ha => h.reg.stays ha (a := .go i) hgo)
      (fun hin => .inl (hin.emplace hnew v _)) (fun hc => ?_)
      ⟨by rcases hstarts with hc | hc <;> rw [hc] <;> exact nofun,
        by rcases hstarts with hc | hc <;> rw [hc] <;> exact nofun⟩
    simp only [choreAfter, hp] at hc
    split at hc
    · rename_i hflag
      cases hc
      refine ⟨⟨l, congrArg Stage.holds (Registry.goto_stage_self ..)⟩, id, ⟨id, _, BugManager.effectiveConfig cfg⟩, ?_, rfl, ?_⟩
      · show (s.reg.records.emplace id _ _).byId id = _
        rw [Records.emplace_byId hnew, Function.update_self]
      · exact decide_eq_true hflag
    · cases hc

/-- A thread's chore changes, and the map with it; if the driver is left, something is injected into its channel, or it is
as it was and does not wait for this thread. -/
theorem Inv.chored (h : s.Inv u) {c : Chore} {drivers : List Bytes} (hnodup : drivers.Nodup) (hc : c ≠ .start u)
    (hleft : u ∈ drivers → s.reg.records.Injected u ∨ (u ∈ s.drivers ∧ s.chore i ≠ .stopAndErase u))
    (hstop : c = .stopAndErase u ∨ c = .stop u → s.mayStop u i) :
    ({ s with drivers := drivers }.setChore i c).Inv u := by
  refine ⟨h.reg, hnodup, h.loose, h.aimed, fun j hj => ?_, fun hu => ?_, fun j hj => ?_⟩
  · by_cases hji : j = i
    · subst hji
      exact absurd ((setChore_self ..).symm.trans hj) hc
    · rw [setChore_of_ne _ hji] at hj
      exact h.start j hj
  · rcases hleft hu with hin | ⟨hold, hne⟩
    · exact .inl hin
    · rcases h.driver hold with hin | ⟨j, l, hj, hl⟩
      · exact .inl hin
      · have hji : j ≠ i := by
          rintro rfl
          exact hne hj
        exact .inr ⟨j, l, (setChore_of_ne _ hji _).trans hj, hl⟩
  · by_cases hji : j = i
    · subst hji
      rw [Driven.stops, setChore_self] at hj
      exact hstop hj
    · rw [Driven.stops, setChore_of_ne _ hji] at hj
      exact h.stops j hj

theorem Inv.doChore (h : s.Inv u) {v : SilenceView} (hs : s.doChore cfg i v = some s') : s'.Inv u := by
  unfold Driven.doChore at hs
  split at hs
  · cases hs
  · rename_i w hi
    cases hs
    have hkeep : u ∈ s.drivers → s.reg.records.Injected u ∨ (u ∈ s.drivers ∧ s.chore i ≠ .stopAndErase u) :=
      fun hu => .inr ⟨hu, by rw [hi]; exact nofun⟩
    rcases attachOpportunistic_cases cfg w v s.drivers with heq | ⟨hnew, -, heq⟩
    · rw [heq]
      exact h.chored h.nodup nofun hkeep (by simp)
    · rw [heq]
      refine h.chored ?_ nofun (fun hu => ?_) (by simp)
      · refine List.nodup_append.2 ⟨h.nodup, by simp, ?_⟩
        rintro a ha b hb rfl
        exact hnew (List.mem_singleton.1 hb ▸ ha)
      · rcases List.mem_append.1 hu with hu | hu
        · exact hkeep hu
        · rw [← List.mem_singleton.1 hu] at hi
          exact .inl (h.start i hi).2
  · rename_i w hi
    have hother : u ≠ w → s.chore i ≠ .stopAndErase u := by
      intro hne hc
      rw [hi] at hc
      cases hc
      exact hne rfl
    split at hs
    · cases hs
      refine h.chored (h.nodup.erase w) nofun (fun hu => .inr ?_) (fun hc => ?_)
      · obtain ⟨hne, hold⟩ := (h.nodup.mem_erase_iff).1 hu
        exact ⟨hold, hother hne⟩
      · obtain rfl : w = u := by simpa using hc
        exact h.stops i (.inl hi)
    · rename_i hnone
      cases hs
      exact h.chored h.nodup nofun (fun hu => .inr ⟨hu, hother (fun he => hnone (he ▸ hu))⟩) (by simp)
  · rename_i w hi
    cases hs
    exact h.chored h.nodup nofun (fun hu => .inr ⟨hu, by rw [hi]; exact nofun⟩) (by simp)

theorem Inv.setLoose (h : s.Inv u) {l : Loose} (hl : l.channel ≠ some u) (haimed : l.Aimed s.reg)
    (hstop : ¬ s.stops u i) : (s.setLoose i l).Inv u := by
  have hforall : ∀ {P : Loose → Prop}, P l → (∀ j, P (s.loose j)) → ∀ j, P ((s.setLoose i l).loose j) := by
    intro P hp hall j
    by_cases hji : j = i
    · subst hji
      show P (Function.update s.loose j l j)
      rwa [Function.update_self]
    · show P (Function.update s.loose i l j)
      rw [Function.update_of_ne hji]
      exact hall j
  refine ⟨h.reg, h.nodup, hforall (P := fun l => l.channel ≠ some u) hl h.loose,
    hforall (P := fun l => l.Aimed s.reg) haimed h.aimed, h.start, h.driver, fun j hj => ?_⟩
  have hji : j ≠ i := by
    rintro rfl
    exact hstop hj
  have hmay := h.stops j hj
  unfold mayStop at hmay ⊢
  rwa [show (s.setLoose i l).loose j = s.loose j from Function.update_of_ne hji ..]

theorem not_stops_of_none (hi : s.chore i = .none) : ¬ s.stops u i := by
  simp [Driven.stops, hi]

theorem deadLock_inv (h : r.Inv) (hnone : r.lockFor v = r.nextLock) : (deadLock r v).Inv := by
  refine ⟨h.ok, fun j w l hj => ?_, h.held, h.drawn, h.once, h.known, h.order, h.fresh, h.single, h.aimed⟩
  obtain ⟨hmem, htab⟩ := h.refs j w l hj
  refine ⟨hmem, ?_⟩
  show Function.update r.channelLocks v (some r.nextLock) w = some l
  by_cases hw : w = v
  · subst hw
    rw [Function.update_self, ← hnone, h.lockFor_eq hj]
  · rw [Function.update_of_ne hw]
    exact htab

theorem Inv.deadLock (h : s.Inv u) (hi : s.chore i = .none) (hnone : s.reg.lockFor v = s.reg.nextLock) :
    ({ s with reg := (deadLock s.reg v).goto i .idle } : Driven).Inv u :=
  h.quiet ((deadLock_inv h.reg hnone).bare i rfl rfl) hi (fun _ hj => Registry.goto_stage_of_ne _ hj _) rfl rfl

theorem Inv.noLock (h : s.Inv u) (hi : s.chore i = .none) (hlock : s.goesByLock u (.noLock i) = true)
    (hs : s.noLock i = some s') : s'.Inv u := by
  have haim := h.reg.aimed i
  unfold Driven.noLock at hs
  split at hs
  · split at hs
    · rename_i hnone
      cases hs
      exact h.deadLock hi hnone.2
    · cases hs
  · rename_i v hp
    simp only [goesByLock, hp, bne_iff_ne] at hlock
    split at hs
    · rename_i hnone
      cases hs
      exact (h.deadLock hi hnone).setLoose (fun he => hlock (Option.some.inj he)) nofun (not_stops_of_none hi)
    · cases hs
  · rename_i id closing v hp
    simp only [goesByLock, hp, bne_iff_ne] at hlock
    rw [hp] at haim
    split at hs
    · rename_i hnone
      cases hs
      exact (h.deadLock hi hnone).setLoose (fun he => hlock (Option.some.inj he)) haim (not_stops_of_none hi)
    · cases hs
  · cases hs

theorem Inv.goLoose (h : s.Inv u) (hi : s.chore i = .none) (hs : s.goLoose i = some s') : s'.Inv u := by
  have hprune : ∀ v, ({ s with reg := s.reg.prune v } : Driven).Inv u := by
    intro v
    obtain ⟨hstage, hrec, hatt, -⟩ := s.reg.prune_frame v
    exact h.quiet (h.reg.prune v) hi (fun j _ => congrFun hstage j) hrec hatt
  have hloose := h.loose i
  have haimed := h.aimed i
  unfold Driven.goLoose at hs
  split at hs
  · cases hs
  · rename_i v hl
    rw [hl] at hloose
    split at hs
    · cases hs
      exact (hprune v).setLoose nofun nofun (not_stops_of_none hi)
    · rename_i ids hids
      cases hs
      refine h.setLoose hloose (fun id hid => ?_) (not_stops_of_none hi)
      have hlist : s.reg.records.ids v = ids := by simp [Records.ids, hids]
      have hmem : id ∈ s.reg.records.ids v := hlist ▸ hid
      refine ⟨(h.reg.order v).subset hmem, fun b hb => ?_⟩
      obtain ⟨b', hb', hv⟩ := h.reg.ok.known v id hmem
      rw [hb] at hb'
      cases hb'
      exact hv
  · rename_i v prunes hl
    cases hs
    cases prunes with
    | true => exact (hprune v).setLoose nofun nofun (not_stops_of_none hi)
    | false => exact h.setLoose nofun nofun (not_stops_of_none hi)
  · rename_i v id ids prunes hl
    rw [hl] at hloose haimed
    cases hs
    have herased : ({ s with reg := s.reg.erase id }.setChore i (afterErase s.reg.records id)).Inv u := by
      refine h.erase (h.reg.erase id) hi (fun _ _ => rfl) rfl rfl (haimed id List.mem_cons_self).2 ?_
      rintro rfl
      exact absurd rfl hloose
    have hmine : ¬ ({ s with reg := s.reg.erase id }.setChore i (afterErase s.reg.records id)).stops u i := by
      obtain ⟨horphan, -, hnostop⟩ := afterErase_spec s.reg.records id u
      rw [Driven.stops, setChore_self, horphan]
      rintro (hout | hc)
      · -- the bugs of such a call are bugs of its own channel
        obtain ⟨b, hb, hbu⟩ := Records.channel_of_orphaned hout
        exact hloose (congrArg some (((haimed id List.mem_cons_self).2 b hb).symm.trans hbu))
      · exact hnostop hc
    refine herased.setLoose (l := .erasing v ids prunes) hloose (fun a ha => ?_) hmine
    obtain ⟨hatt, hchan⟩ := haimed a (List.mem_cons_of_mem _ ha)
    exact ⟨hatt, fun b hb => hchan b (Records.erase_byId_some hb).2⟩

theorem ready_iff : s.ready i = true ↔ s.chore i = .none ∧ s.loose i = .none := by
  simp [ready]

theorem Inv.step (h : s.Inv u) (a : DrivenAct) (s' : Driven) (hlock : s.goesByLock u a = true)
    (hs : s.step cfg a = some s') : s'.Inv u := by
  cases a with
  | call i j =>
    simp only [Driven.step] at hs
    split at hs
    · rename_i hready
      obtain ⟨r, hr, rfl⟩ := Option.map_eq_some_iff.1 hs
      have heq := Registry.step_call hr
      subst heq
      exact h.quiet (h.reg.step _ _ hr) (ready_iff.1 hready).1 (fun k hk => Registry.goto_stage_of_ne s.reg hk _) rfl rfl
    · cases hs
  | go i =>
    simp only [Driven.step] at hs
    split at hs
    · rename_i hready
      obtain ⟨r, hr, rfl⟩ := Option.map_eq_some_iff.1 hs
      exact h.go (ready_iff.1 hready).1 hr
    · cases hs
  | chore i v => exact h.doChore hs
  | removeSilenceDriver i v =>
    simp only [Driven.step, Bool.and_eq_true] at hs
    split at hs
    · rename_i hready
      cases hs
      obtain ⟨hi, hloose⟩ := ready_iff.1 hready.1
      exact h.chored h.nodup nofun (fun hu => .inr ⟨hu, by rw [hi]; exact nofun⟩)
        (fun _ => .inr ⟨by simpa using hready.2, hloose⟩)
    · cases hs
  | noLock i =>
    simp only [Driven.step] at hs
    split at hs
    · rename_i hready
      exact h.noLock (ready_iff.1 hready).1 hlock hs
    · cases hs
  | goLoose i =>
    simp only [Driven.step] at hs
    split at hs
    · rename_i hi
      exact h.goLoose hi hs
    · cases hs

end inv

/-- **Silence drivers do not outlive injection**, in every interleaving: the map has one driver for a channel at most and
never more than the cap; and if no `Detach` or `DetachAll` of a channel has had to go without its mutex, then as long as
nobody holds the mutex, the channel's driver is one of a channel with a registered write-replace bug.  A driver that runs
outside the map is then in the hand of a thread in `RemoveSilenceDriverForChannel`, which stops it in its next step. -/
theorem silence_driver_injected (cfg : SilenceConfig) (acts : List DrivenAct) (s : Driven)
    (hrun : Run.exec (step cfg) acts init = some s) :
    s.drivers.Nodup ∧ s.drivers.length ≤ cfg.maxDrivers ∧
    ∀ u, Run.along (step cfg) (goesByLock u) acts init = true →
      (∀ i l, (s.reg.stage i).holds ≠ some (u, l)) →
        (u ∈ s.drivers → s.reg.records.Injected u) ∧
        ∀ i, s.chore i = .stop u → s.reg.stage i = .idle ∧ s.loose i = .none := by
  have hcapped : Capped cfg s.drivers :=
    Run.exec_inv (I := fun s => Capped cfg s.drivers) (fun _ _ _ hi hs => hi.step hs) acts _ s
      ⟨List.nodup_nil, Nat.zero_le _⟩ hrun
  refine ⟨hcapped.1, hcapped.2, fun u hlock hfree => ?_⟩
  have h : s.Inv u := Run.exec_inv_along (fun _ a s' hi hg hs => hi.step a s' hg hs) acts _ s (.init u) hlock hrun
  refine ⟨fun hu => ?_, fun i hi => ?_⟩
  · rcases h.driver hu with hin | ⟨i, l, -, hl⟩
    · exact hin
    · exact absurd hl (hfree i l)
  · rcases h.stops i (.inr hi) with ⟨l, hl⟩ | hidle
    · exact absurd hl (hfree i l)
    · exact hidle

/-- A channel that is not broadcast to, with memory for a driver. -/
def quietChannel : SilenceView := ⟨true, false, false, none, true, 0⟩

/-- Thread 0 attaches a write-replace bug to channel `a` and leaves. -/
def injects : List DrivenAct :=
  [[.call 0 (.attach [97] ⟨.ttsPlayback, smbfWriteReplace, 8000, []⟩ 0)], List.replicate 5 (.go 0),
    [.chore 0 quietChannel], List.replicate 3 (.go 0)].flatten

theorem silence_driver_injected_alone :
    ∃ s, Run.exec (step ⟨true, 4⟩) injects init = some s ∧ s.drivers = [[97]] ∧ s.reg.records.Injected [97] := by
  refine ⟨_, rfl, rfl, ?_⟩
  refine ((silence_driver_injected ⟨true, 4⟩ injects _ rfl).2.2 [97] (by decide +kernel) (fun i l => ?_)).1 (by decide)
  cases i <;> exact nofun

/-- `DetachAll` of channel `a` gets no mutex while the channel is being attached to.  It erases the bug before the `Attach`
has started its driver, and finds none to stop. -/
def detachesWithoutLock : List DrivenAct :=
  [[.call 1 (.detachAll [97]), .noLock 1, .call 0 (.attach [97] ⟨.ttsPlayback, smbfWriteReplace, 8000, []⟩ 0)],
    List.replicate 5 (.go 0), [.goLoose 1, .goLoose 1, .chore 1 quietChannel, .goLoose 1, .chore 0 quietChannel],
    List.replicate 3 (.go 0)].flatten

/-- Thread 1 takes the driver of channel `a` out of the map, and thread 0 detaches its bug before thread 1 has stopped it. -/
def detachesBeforeStop : List DrivenAct :=
  [injects, [.removeSilenceDriver 1 [97], .chore 1 quietChannel, .call 0 (.detachAll [97])], List.replicate 4 (.go 0),
    [.chore 0 quietChannel], List.replicate 4 (.go 0)].flatten

/-- **A driver that outlives injection**, with every thread idle, where a `DetachAll` got no mutex.  A driver out of the map
outlives it too, until `RemoveSilenceDriverForChannel` stops it; and when the channel is injected into again before that,
two drivers of the channel run where the cap is one. -/
theorem driver_outlives_injection :
    (∃ s, Run.exec (step ⟨true, 4⟩) detachesWithoutLock init = some s ∧ s.drivers = [[97]] ∧
      (∀ i, s.reg.stage i = .idle ∧ s.loose i = .none ∧ s.chore i = .none) ∧ ∀ id, s.reg.records.byId id = none) ∧
    (∃ s, Run.exec (step ⟨true, 1⟩) detachesBeforeStop init = some s ∧ s.chore 1 = .stop [97] ∧
      (∀ i, s.reg.stage i = .idle ∧ s.loose i = .none) ∧ ∀ id, s.reg.records.byId id = none) ∧
    (Run.exec (step ⟨true, 1⟩) (detachesBeforeStop ++ injects) init).map (fun s => (s.drivers, s.chore 1))
      = some ([[97]], .stop [97]) := by
  refine ⟨⟨_, rfl, rfl, fun i => ?_, fun id => ?_⟩, ⟨_, rfl, rfl, fun i => ?_, fun id => ?_⟩, by decide +kernel⟩
  · match i with
    | 0 | 1 | _ + 2 => exact ⟨rfl, rfl, rfl⟩
  · match id with
    | 0 | 1 | _ + 2 => rfl
  · match i with
    | 0 | 1 | _ + 2 => exact ⟨rfl, rfl⟩
  · match id with
    | 0 | 1 | _ + 2 => rfl

end Driven
end Media
end Osw
