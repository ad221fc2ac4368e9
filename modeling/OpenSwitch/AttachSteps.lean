import OpenSwitch.Run
import OpenSwitch.BugRegistry
/-!
# AttachSteps — the bug registry under its locks

Any number of threads call `Attach`, `Detach`, `DetachAll` and, from FreeSWITCH, the CLOSE branch of the trampoline.
The registry has one mutex (`mu_`), held for one section at a time, and one mutex per channel, held around the sections
that belong together.  The channel mutexes are objects of their own: a thread asks for the one of its channel under
`mu_`, which finds it through a weak pointer or makes a new one, and the table forgets an object nobody refers to.

A step is one section of `mu_`, one call of FreeSWITCH, or one operation on a channel mutex.  Beside the state the code
keeps stand three records: the bugs FreeSWITCH has added, the ids in the order they were registered, and the ids whose
CLOSE callback has returned.
-/
namespace Osw
namespace Media

/-- A call of the manager.  `addRc` is what `switch_core_media_bug_add` will answer; a `Detach` is that of a handle or
that of the CLOSE callback. -/
inductive Job
  | attach (uuid : Bytes) (cfg : BugConfig) (addRc : Nat)
  | detach (id : Nat) (closing : Bool)
  | detachAll (uuid : Bytes)
  deriving DecidableEq, Repr

/-- Where a thread is: what it has done of its job, for which channel, and the channel mutex it refers to. -/
inductive Stage
  | idle
  | called (j : Job)
  | found (id : Nat) (closing : Bool) (uuid : Bytes)
  | waiting (j : Job) (uuid : Bytes) (lock : Nat)
  | locked (j : Job) (uuid : Bytes) (lock : Nat)
  | adding (uuid : Bytes) (cfg : BugConfig) (addRc id lock : Nat)
  | added (uuid : Bytes) (cfg : BugConfig) (id lock : Nat)
  | sweeping (uuid : Bytes) (ids : List Nat) (lock : Nat)
  | leaving (j : Job) (uuid : Bytes) (lock : Nat)
  | unlocked (j : Job) (uuid : Bytes) (lock : Nat)
  | dropped (j : Job) (uuid : Bytes)
  deriving DecidableEq, Repr

namespace Stage

/-- The channel mutex the thread has a pointer to. -/
def ref : Stage → Option (Bytes × Nat)
  | .waiting _ u l | .locked _ u l | .adding u _ _ _ l | .added u _ _ l | .sweeping u _ l | .leaving _ u l
  | .unlocked _ u l => some (u, l)
  | _ => none

/-- The channel mutex the thread holds. -/
def holds : Stage → Option (Bytes × Nat)
  | .locked _ u l | .adding u _ _ _ l | .added u _ _ l | .sweeping u _ l | .leaving _ u l => some (u, l)
  | _ => none

/-- The bug an `Attach` has an id for and has not registered. -/
def pending : Stage → Option (Bytes × BugConfig × Nat)
  | .adding u cfg _ id _ | .added u cfg id _ => some (u, BugManager.effectiveConfig cfg, id)
  | _ => none

/-- The bugs a `Detach` or `DetachAll` is about to erase, and their channel. -/
def aims : Stage → Bytes × List Nat
  | .found id _ u | .waiting (.detach id _) u _ | .locked (.detach id _) u _ => (u, [id])
  | .sweeping u ids _ => (u, ids)
  | _ => ([], [])

/-- The bug whose `Detach` the thread runs. -/
def detaching : Stage → Option Nat
  | .called (.detach id _) | .found id _ _ | .waiting (.detach id _) _ _ | .locked (.detach id _) _ _
  | .leaving (.detach id _) _ _ | .unlocked (.detach id _) _ _ | .dropped (.detach id _) _ => some id
  | _ => none

/-- The bug whose `Detach` has been through its section. -/
def detached : Stage → Option Nat
  | .leaving (.detach id _) _ _ | .unlocked (.detach id _) _ _ | .dropped (.detach id _) _ => some id
  | _ => none

theorem ref_of_holds {p : Stage} {x : Bytes × Nat} (h : p.holds = some x) : p.ref = some x := by
  cases p <;> first | exact h | cases h

theorem holds_of_pending {p : Stage} {u : Bytes} {cfg : BugConfig} {id : Nat} (h : p.pending = some (u, cfg, id)) :
    ∃ l, p.holds = some (u, l) := by
  cases p <;> cases h <;> exact ⟨_, rfl⟩

end Stage

/-- The manager, its threads, and what is recorded of them. -/
structure Registry where
  records      : Records
  nextId       : Nat
  channelLocks : Bytes → Option Nat
  nextLock     : Nat
  refs         : Nat → List Nat
  holder       : Nat → Option Nat
  stage        : Nat → Stage
  inFs         : List Nat
  attached     : List Nat
  closed       : List Nat

inductive RegistryAct
  | call (i : Nat) (j : Job)
  | go (i : Nat)
  deriving DecidableEq, Repr

namespace Registry

def init : Registry :=
  ⟨.empty, 1, fun _ => none, 0, fun _ => [], fun _ => none, fun _ => .idle, [], [], []⟩

def goto (s : Registry) (i : Nat) (p : Stage) : Registry := { s with stage := Function.update s.stage i p }

/-- The object `ChannelLockFor` returns: the one the weak pointer leads to, if somebody still refers to it. -/
def lockFor (s : Registry) (u : Bytes) : Nat :=
  match s.channelLocks u with
  | some l => if s.refs l = [] then s.nextLock else l
  | none   => s.nextLock

/-- `ChannelLockFor`, of thread `i`. -/
def refer (s : Registry) (i : Nat) (u : Bytes) : Registry :=
  { s with
    channelLocks := Function.update s.channelLocks u (some (s.lockFor u))
    nextLock     := if s.lockFor u = s.nextLock then s.nextLock + 1 else s.nextLock
    refs         := Function.update s.refs (s.lockFor u) (i :: s.refs (s.lockFor u)) }

/-- `PruneExpiredChannelLock`. -/
def prune (s : Registry) (u : Bytes) : Registry :=
  match s.channelLocks u with
  | some l => if s.refs l = [] then { s with channelLocks := Function.update s.channelLocks u none } else s
  | none   => s

/-- The call returns; a CLOSE callback is recorded. -/
def finish (s : Registry) (i : Nat) : Job → Registry
  | .detach id true => { s with closed := s.closed ++ [id] }.goto i .idle
  | _               => s.goto i .idle

def take (s : Registry) (i : Nat) (j : Job) (u : Bytes) : Registry := (s.refer i u).goto i (.waiting j u (s.lockFor u))

def lock (s : Registry) (i l : Nat) : Registry := { s with holder := Function.update s.holder l (some i) }

def unlock (s : Registry) (l : Nat) : Registry := { s with holder := Function.update s.holder l none }

def unref (s : Registry) (i l : Nat) : Registry := { s with refs := Function.update s.refs l ((s.refs l).erase i) }

def draw (s : Registry) : Registry := { s with nextId := s.nextId + 1 }

def erase (s : Registry) (id : Nat) : Registry := { s with records := s.records.erase id }

def emplace (s : Registry) (id : Nat) (uuid : Bytes) (cfg : BugConfig) : Registry :=
  { s with records := s.records.emplace id uuid cfg, attached := s.attached ++ [id] }

/-- The next step of thread `i`. -/
def go (s : Registry) (i : Nat) : Option Registry :=
  match s.stage i with
  | .idle => none
  | .called (.attach uuid cfg addRc) =>
    -- a session without a uuid is refused before any lock
    if uuid = [] then some (s.goto i .idle) else some (s.take i (.attach uuid cfg addRc) uuid)
  | .called (.detach id closing) =>
    match s.records.byId id with
    | none   => some (s.finish i (.detach id closing))
    | some r => some (s.goto i (.found id closing r.channelUuid))
  | .called (.detachAll uuid) => some (s.take i (.detachAll uuid) uuid)
  | .found id closing uuid => some (s.take i (.detach id closing) uuid)
  | .waiting j uuid l =>
    if s.holder l = none then some ((s.lock i l).goto i (.locked j uuid l)) else none
  | .locked (.attach u cfg addRc) uuid l =>
    match BugManager.checkAttach cfg (s.records.purposesOn uuid) with
    | some _ => some (s.goto i (.leaving (.attach u cfg addRc) uuid l))
    | none   => some (s.draw.goto i (.adding uuid cfg addRc s.nextId l))
  | .locked (.detach id closing) uuid l => some ((s.goto i (.leaving (.detach id closing) uuid l)).erase id)
  | .locked (.detachAll u) uuid l =>
    match s.records.byChannel uuid with
    | none     => some (s.goto i (.leaving (.detachAll u) uuid l))
    | some ids => some (s.goto i (.sweeping uuid ids l))
  | .adding uuid cfg addRc id l =>
    if addRc = 0 then some ({ s with inFs := s.inFs ++ [id] }.goto i (.added uuid cfg id l))
    else some (s.goto i (.leaving (.attach uuid cfg addRc) uuid l))
  | .added uuid cfg id l =>
    some ((s.goto i (.leaving (.attach uuid cfg 0) uuid l)).emplace id uuid (BugManager.effectiveConfig cfg))
  | .sweeping uuid [] l => some (s.goto i (.leaving (.detachAll uuid) uuid l))
  | .sweeping uuid (id :: ids) l => some ((s.goto i (.sweeping uuid ids l)).erase id)
  | .leaving j uuid l => some ((s.goto i (.unlocked j uuid l)).unlock l)
  | .unlocked j uuid l => some ((s.goto i (.dropped j uuid)).unref i l)
  | .dropped j uuid => some ((s.prune uuid).finish i j)

/-- FreeSWITCH calls the CLOSE branch for a bug only once it has added it. -/
def step (s : Registry) : RegistryAct → Option Registry
  | .call i j =>
    match s.stage i, j with
    | .idle, .detach id true => if id ∈ s.inFs then some (s.goto i (.called j)) else none
    | .idle, _ => some (s.goto i (.called j))
    | _, _ => none
  | .go i => s.go i

/-! ## The invariant -/

structure Inv (s : Registry) : Prop where
  ok      : s.records.Ok
  refs    : ∀ i u l, (s.stage i).ref = some (u, l) → i ∈ s.refs l ∧ s.channelLocks u = some l
  held    : ∀ i u l, (s.stage i).holds = some (u, l) → s.holder l = some i
  drawn   : ∀ id ∈ s.attached, id < s.nextId
  once    : s.attached.Nodup
  known   : ∀ id r, s.records.byId id = some r → id ∈ s.attached
  order   : ∀ c, (s.records.ids c).Sublist s.attached
  fresh   : ∀ i u cfg id, (s.stage i).pending = some (u, cfg, id) → id < s.nextId ∧ id ∉ s.attached ∧
    s.records.Clear u id cfg
  single  : ∀ i j u v cfg cfg' id, (s.stage i).pending = some (u, cfg, id) → (s.stage j).pending = some (v, cfg', id) →
    i = j
  aimed   : ∀ i, ∀ id ∈ (s.stage i).aims.2, id ∈ s.attached ∧
    ∀ r, s.records.byId id = some r → r.channelUuid = (s.stage i).aims.1

theorem Inv.init : init.Inv where
  ok := .empty
  refs _ _ _ h := by cases h
  held _ _ _ h := by cases h
  drawn _ h := by cases h
  once := .nil
  known _ _ h := by cases h
  order _ := List.Sublist.refl _
  fresh _ _ _ _ h := by cases h
  single _ _ _ _ _ _ _ h := by cases h
  aimed _ _ h := by cases h

variable {i id : Nat} {s s' : Registry}

@[simp] theorem goto_stage_self (s : Registry) (i : Nat) (p : Stage) : (s.goto i p).stage i = p := by
  simp only [goto, Function.update_self]

theorem goto_stage_of_ne (s : Registry) {j : Nat} (h : j ≠ i) (p : Stage) : (s.goto i p).stage j = s.stage j := by
  simp only [goto, Function.update_of_ne h]

section locks

variable {s : Registry} {u : Bytes} {l : Nat}

/-- **A channel mutex excludes**: two threads that hold the mutex of one channel are the same. -/
theorem Inv.exclusive (h : s.Inv) {j : Nat} {l' : Nat} (hi : (s.stage i).holds = some (u, l))
    (hj : (s.stage j).holds = some (u, l')) : i = j := by
  -- both pointers lead where the table does, so it is one object
  have hli := (h.refs i u l (Stage.ref_of_holds hi)).2
  have hlj := (h.refs j u l' (Stage.ref_of_holds hj)).2
  rw [hli] at hlj
  cases hlj
  have heq := (h.held i u l hi).symm.trans (h.held j u l hj)
  exact Option.some.inj heq

theorem Inv.goto (h : s.Inv) (i : Nat) (p : Stage)
    (href : ∀ u l, p.ref = some (u, l) → i ∈ s.refs l ∧ s.channelLocks u = some l)
    (hheld : ∀ u l, p.holds = some (u, l) → s.holder l = some i)
    (hfresh : ∀ u cfg id, p.pending = some (u, cfg, id) → id < s.nextId ∧ id ∉ s.attached ∧ s.records.Clear u id cfg ∧
      ∀ j v cfg', j ≠ i → (s.stage j).pending ≠ some (v, cfg', id))
    (haims : ∀ id ∈ p.aims.2, id ∈ s.attached ∧ ∀ r, s.records.byId id = some r → r.channelUuid = p.aims.1) :
    (s.goto i p).Inv := by
  refine ⟨h.ok, ?_, ?_, h.drawn, h.once, h.known, h.order, ?_, ?_, ?_⟩
  · intro j u l hj
    by_cases hji : j = i
    · subst hji
      rw [goto_stage_self] at hj
      exact href u l hj
    · rw [goto_stage_of_ne s hji] at hj
      exact h.refs j u l hj
  · intro j u l hj
    by_cases hji : j = i
    · subst hji
      rw [goto_stage_self] at hj
      exact hheld u l hj
    · rw [goto_stage_of_ne s hji] at hj
      exact h.held j u l hj
  · intro j u cfg id hj
    by_cases hji : j = i
    · subst hji
      rw [goto_stage_self] at hj
      obtain ⟨hlt, hnot, hclear, -⟩ := hfresh u cfg id hj
      exact ⟨hlt, hnot, hclear⟩
    · rw [goto_stage_of_ne s hji] at hj
      exact h.fresh j u cfg id hj
  · intro j k u v cfg cfg' id hj hk
    by_cases hji : j = i <;> by_cases hki : k = i
    · rw [hji, hki]
    · subst hji
      rw [goto_stage_self] at hj
      rw [goto_stage_of_ne s hki] at hk
      exact absurd hk ((hfresh u cfg id hj).2.2.2 k v cfg' hki)
    · subst hki
      rw [goto_stage_self] at hk
      rw [goto_stage_of_ne s hji] at hj
      exact absurd hj ((hfresh v cfg' id hk).2.2.2 j u cfg hji)
    · rw [goto_stage_of_ne s hji] at hj
      rw [goto_stage_of_ne s hki] at hk
      exact h.single j k u v cfg cfg' id hj hk
  · intro j
    by_cases hji : j = i
    · subst hji
      rw [goto_stage_self]
      exact haims
    · rw [goto_stage_of_ne s hji]
      exact h.aimed j

theorem Inv.bare (h : s.Inv) (i : Nat) {p : Stage} (href : p.ref = none) (haims : p.aims.2 = []) : (s.goto i p).Inv := by
  have hheld : ∀ x, p.holds ≠ some x := fun x hx => by
    rw [Stage.ref_of_holds hx] at href
    cases href
  refine h.goto i p ?_ (fun u l hp => absurd hp (hheld _)) ?_ (by rw [haims]; exact nofun)
  · intro u l hp
    rw [href] at hp
    cases hp
  · intro u cfg id hp
    obtain ⟨l, hl⟩ := Stage.holds_of_pending hp
    exact absurd hl (hheld _)

/-- A thread that goes on under its channel mutex, or lets go of it, with the bug it has pending. -/
theorem Inv.under (h : s.Inv) (i : Nat) {p : Stage} (hi : (s.stage i).holds = some (u, l)) (href : p.ref = some (u, l))
    (hpend : ∀ x, p.pending = some x → (s.stage i).pending = some x)
    (haims : ∀ id ∈ p.aims.2, id ∈ s.attached ∧ ∀ r, s.records.byId id = some r → r.channelUuid = p.aims.1) :
    (s.goto i p).Inv := by
  refine h.goto i p ?_ ?_ ?_ haims
  · intro v l' hp
    exact h.refs i v l' (by rw [Stage.ref_of_holds hi, ← href, hp])
  · intro v l' hp
    rw [Stage.ref_of_holds hp] at href
    cases href
    exact h.held i u l hi
  · intro v cfg id hp
    obtain ⟨hlt, hnot, hclear⟩ := h.fresh i v cfg id (hpend _ hp)
    exact ⟨hlt, hnot, hclear, fun j w cfg' hji hj => hji (h.single j i w v cfg' cfg id hj (hpend _ hp))⟩

theorem Inv.record (h : s.Inv) (inFs closed : List Nat) : Inv { s with inFs := inFs, closed := closed } :=
  ⟨h.ok, h.refs, h.held, h.drawn, h.once, h.known, h.order, h.fresh, h.single, h.aimed⟩

theorem Inv.finish (h : s.Inv) (i : Nat) (j : Job) : (s.finish i j).Inv := by
  unfold Registry.finish
  split
  · exact (h.record s.inFs _).bare i rfl rfl
  · exact h.bare i rfl rfl

/-- A thread that refers to a mutex of the channel refers to the one that `ChannelLockFor` returns. -/
theorem Inv.lockFor_eq (h : s.Inv) (hi : (s.stage i).ref = some (u, l)) : s.lockFor u = l := by
  obtain ⟨hmem, htab⟩ := h.refs i u l hi
  simp only [lockFor, htab]
  rw [if_neg (List.ne_nil_of_mem hmem)]

/-- `ChannelLockFor` gives an object that others refer to, or one the table leads to from now on. -/
theorem Inv.refer (h : s.Inv) (i : Nat) (u : Bytes) : (s.refer i u).Inv := by
  refine ⟨h.ok, ?_, h.held, h.drawn, h.once, h.known, h.order, h.fresh, h.single, h.aimed⟩
  intro j v l hj
  obtain ⟨hmem, htab⟩ := h.refs j v l hj
  refine ⟨?_, ?_⟩
  · show j ∈ Function.update s.refs (s.lockFor u) _ l
    by_cases hl : l = s.lockFor u
    · subst hl
      rw [Function.update_self]
      exact List.mem_cons_of_mem _ hmem
    · rw [Function.update_of_ne hl]
      exact hmem
  · show Function.update s.channelLocks u _ v = _
    by_cases hv : v = u
    · subst hv
      rw [Function.update_self, h.lockFor_eq hj]
    · rw [Function.update_of_ne hv]
      exact htab

theorem Inv.take (h : s.Inv) (i : Nat) (j : Job) (u : Bytes)
    (haims : ∀ id ∈ (Stage.waiting j u (s.lockFor u)).aims.2, id ∈ s.attached ∧
      ∀ r, s.records.byId id = some r → r.channelUuid = (Stage.waiting j u (s.lockFor u)).aims.1) :
    (s.take i j u).Inv := by
  refine (h.refer i u).goto i _ ?_ nofun nofun haims
  intro v l hp
  cases hp
  refine ⟨?_, ?_⟩
  · show i ∈ Function.update s.refs (s.lockFor u) _ (s.lockFor u)
    rw [Function.update_self]
    exact List.mem_cons_self
  · exact Function.update_self ..

theorem Inv.lock (h : s.Inv) (i : Nat) (hfree : s.holder l = none) : (s.lock i l).Inv := by
  refine ⟨h.ok, h.refs, ?_, h.drawn, h.once, h.known, h.order, h.fresh, h.single, h.aimed⟩
  intro j u l' hj
  have hl := h.held j u l' hj
  have hne : l' ≠ l := by
    rintro rfl
    rw [hfree] at hl
    cases hl
  show Function.update s.holder l (some i) l' = _
  rw [Function.update_of_ne hne]
  exact hl

theorem Inv.unlock (h : s.Inv) (hfree : ∀ j u, (s.stage j).holds ≠ some (u, l)) : (s.unlock l).Inv := by
  refine ⟨h.ok, h.refs, ?_, h.drawn, h.once, h.known, h.order, h.fresh, h.single, h.aimed⟩
  intro j u l' hj
  have hne : l' ≠ l := fun he => hfree j u (he ▸ hj)
  show Function.update s.holder l none l' = _
  rw [Function.update_of_ne hne]
  exact h.held j u l' hj

theorem Inv.unref (h : s.Inv) (i l : Nat) (hi : (s.stage i).ref = none) : (s.unref i l).Inv := by
  refine ⟨h.ok, ?_, h.held, h.drawn, h.once, h.known, h.order, h.fresh, h.single, h.aimed⟩
  intro j u l' hj
  obtain ⟨hmem, htab⟩ := h.refs j u l' hj
  refine ⟨?_, htab⟩
  have hji : j ≠ i := by
    rintro rfl
    exact absurd (hi.symm.trans hj) nofun
  show j ∈ Function.update s.refs l ((s.refs l).erase i) l'
  by_cases hl : l' = l
  · subst hl
    rw [Function.update_self]
    exact (List.mem_erase_of_ne hji).2 hmem
  · rw [Function.update_of_ne hl]
    exact hmem

theorem Inv.prune (h : s.Inv) (u : Bytes) : (s.prune u).Inv := by
  unfold Registry.prune
  split
  · rename_i l hl
    split
    · rename_i hnil
      refine ⟨h.ok, ?_, h.held, h.drawn, h.once, h.known, h.order, h.fresh, h.single, h.aimed⟩
      intro j v l' hj
      obtain ⟨hmem, htab⟩ := h.refs j v l' hj
      refine ⟨hmem, ?_⟩
      have hv : v ≠ u := by
        rintro rfl
        rw [hl] at htab
        cases htab
        rw [hnil] at hmem
        cases hmem
      show Function.update s.channelLocks u none v = _
      rw [Function.update_of_ne hv]
      exact htab
    · exact h
  · exact h

end locks

section records

variable {s : Registry}

theorem Inv.draw (h : s.Inv) : s.draw.Inv := by
  refine ⟨h.ok, h.refs, h.held, ?_, h.once, h.known, h.order, ?_, h.single, h.aimed⟩
  · intro id hid
    exact Nat.lt_succ_of_lt (h.drawn id hid)
  · intro i u cfg id hi
    obtain ⟨hlt, hrest⟩ := h.fresh i u cfg id hi
    exact ⟨Nat.lt_succ_of_lt hlt, hrest⟩

theorem Inv.erase (h : s.Inv) (id : Nat) : (s.erase id).Inv := by
  refine ⟨h.ok.erase id, h.refs, h.held, h.drawn, h.once, ?_, ?_, ?_, h.single, ?_⟩
  · intro a r hr
    exact h.known a r (Records.erase_byId_some hr).2
  · intro c
    show ((s.records.erase id).ids c).Sublist s.attached
    rw [h.ok.erase_ids]
    exact (List.filter_sublist).trans (h.order c)
  · intro j v cfg id' hj
    obtain ⟨hlt, hnot, hclear⟩ := h.fresh j v cfg id' hj
    exact ⟨hlt, hnot, h.ok.clear_erase hclear id⟩
  · intro j a ha
    obtain ⟨hmem, hchan⟩ := h.aimed j a ha
    exact ⟨hmem, fun r hr => hchan r (Records.erase_byId_some hr).2⟩

/-- The section that registers a bug that is clear of the others, while no other `Attach` is under way on its channel. -/
theorem Inv.emplace (h : s.Inv) {u : Bytes} {cfg : BugConfig} (hlt : id < s.nextId) (hnot : id ∉ s.attached)
    (hclear : s.records.Clear u id cfg) (hquiet : ∀ j cfg' id', (s.stage j).pending ≠ some (u, cfg', id'))
    (hother : ∀ j v cfg', (s.stage j).pending ≠ some (v, cfg', id)) : (s.emplace id u cfg).Inv := by
  have hnew : s.records.byId id = none := by
    cases hr : s.records.byId id with
    | none => rfl
    | some r => exact absurd (h.known id r hr) hnot
  refine ⟨h.ok.emplace hnew hclear, h.refs, h.held, ?_, ?_, ?_, ?_, ?_, h.single, ?_⟩
  · intro a ha
    rcases List.mem_append.1 ha with ha | ha
    · exact h.drawn a ha
    · rw [List.mem_singleton.1 ha]
      exact hlt
  · refine List.nodup_append.2 ⟨h.once, by simp, ?_⟩
    rintro a ha b hb rfl
    rw [List.mem_singleton.1 hb] at ha
    exact hnot ha
  · intro a r hr
    show a ∈ s.attached ++ [id]
    by_cases hai : a = id
    · simp [hai]
    · have hr' : (s.records.emplace id u cfg).byId a = some r := hr
      rw [Records.emplace_byId hnew, Function.update_of_ne hai] at hr'
      exact List.mem_append_left _ (h.known a r hr')
  · intro c
    show ((s.records.emplace id u cfg).ids c).Sublist (s.attached ++ [id])
    by_cases hc : c = u
    · subst hc
      rw [Records.emplace_ids_self]
      exact (h.order c).append (List.Sublist.refl _)
    · rw [Records.emplace_ids_of_ne hc]
      exact (h.order c).trans (List.sublist_append_left _ _)
  · intro j v cfg' id' hj
    obtain ⟨hlt', hnot', hclear'⟩ := h.fresh j v cfg' id' hj
    refine ⟨hlt', ?_, hclear'.of_sameOn (h.ok.emplace_sameOn hnew ?_)⟩
    · intro hm
      rcases List.mem_append.1 hm with hm | hm
      · exact hnot' hm
      · exact hother j v cfg' (List.mem_singleton.1 hm ▸ hj)
    · rintro rfl
      exact hquiet j cfg' id' hj
  · intro j a ha
    obtain ⟨hmem, hchan⟩ := h.aimed j a ha
    refine ⟨List.mem_append_left _ hmem, fun r hr => ?_⟩
    have hai : a ≠ id := fun he => hnot (he ▸ hmem)
    have hr' : (s.records.emplace id u cfg).byId a = some r := hr
    rw [Records.emplace_byId hnew, Function.update_of_ne hai] at hr'
    exact hchan r hr'

end records

/-- **What the next step of thread `i` can be.** -/
inductive Turn (s : Registry) (i : Nat) : Registry → Prop
  | refused {cfg addRc} (hp : s.stage i = .called (.attach [] cfg addRc)) : Turn s i (s.goto i .idle)
  | attachAsks {u cfg addRc} (hp : s.stage i = .called (.attach u cfg addRc)) :
      Turn s i (s.take i (.attach u cfg addRc) u)
  | unknown {id closing} (hp : s.stage i = .called (.detach id closing)) (hnone : s.records.byId id = none) :
      Turn s i (s.finish i (.detach id closing))
  | finds {id closing r} (hp : s.stage i = .called (.detach id closing)) (hr : s.records.byId id = some r) :
      Turn s i (s.goto i (.found id closing r.channelUuid))
  | detachAllAsks {u} (hp : s.stage i = .called (.detachAll u)) : Turn s i (s.take i (.detachAll u) u)
  | detachAsks {id closing u} (hp : s.stage i = .found id closing u) : Turn s i (s.take i (.detach id closing) u)
  | enters {j u l} (hp : s.stage i = .waiting j u l) (hfree : s.holder l = none) :
      Turn s i ((s.lock i l).goto i (.locked j u l))
  | invalid {v cfg addRc u l} (hp : s.stage i = .locked (.attach v cfg addRc) u l) :
      Turn s i (s.goto i (.leaving (.attach v cfg addRc) u l))
  | draws {v cfg addRc u l} (hp : s.stage i = .locked (.attach v cfg addRc) u l)
      (hcheck : BugManager.checkAttach cfg (s.records.purposesOn u) = none) :
      Turn s i (s.draw.goto i (.adding u cfg addRc s.nextId l))
  | detaches {id closing u l} (hp : s.stage i = .locked (.detach id closing) u l) :
      Turn s i ((s.goto i (.leaving (.detach id closing) u l)).erase id)
  | clean {v u l} (hp : s.stage i = .locked (.detachAll v) u l) : Turn s i (s.goto i (.leaving (.detachAll v) u l))
  | lists {v u l ids} (hp : s.stage i = .locked (.detachAll v) u l) (hids : s.records.byChannel u = some ids) :
      Turn s i (s.goto i (.sweeping u ids l))
  | adds {u cfg addRc id l} (hp : s.stage i = .adding u cfg addRc id l) :
      Turn s i ({ s with inFs := s.inFs ++ [id] }.goto i (.added u cfg id l))
  | addFails {u cfg addRc id l} (hp : s.stage i = .adding u cfg addRc id l) :
      Turn s i (s.goto i (.leaving (.attach u cfg addRc) u l))
  | registers {u cfg id l} (hp : s.stage i = .added u cfg id l) :
      Turn s i ((s.goto i (.leaving (.attach u cfg 0) u l)).emplace id u (BugManager.effectiveConfig cfg))
  | swept {u l} (hp : s.stage i = .sweeping u [] l) : Turn s i (s.goto i (.leaving (.detachAll u) u l))
  | sweeps {u id ids l} (hp : s.stage i = .sweeping u (id :: ids) l) : Turn s i ((s.goto i (.sweeping u ids l)).erase id)
  | unlocks {j u l} (hp : s.stage i = .leaving j u l) : Turn s i ((s.goto i (.unlocked j u l)).unlock l)
  | drops {j u l} (hp : s.stage i = .unlocked j u l) : Turn s i ((s.goto i (.dropped j u)).unref i l)
  | prunes {j u} (hp : s.stage i = .dropped j u) : Turn s i ((s.prune u).finish i j)

theorem turn_of_go (hs : s.go i = some s') : Turn s i s' := by
  unfold Registry.go at hs
  split at hs
  · cases hs
  · rename_i hp
    split at hs
    · rename_i hu
      cases hs
      exact .refused (hu ▸ hp)
    · cases hs
      exact .attachAsks hp
  · rename_i hp
    split at hs
    · rename_i hnone
      cases hs
      exact .unknown hp hnone
    · rename_i r hr
      cases hs
      exact .finds hp hr
  · rename_i hp
    cases hs
    exact .detachAllAsks hp
  · rename_i hp
    cases hs
    exact .detachAsks hp
  · rename_i hp
    split at hs
    · rename_i hfree
      cases hs
      exact .enters hp hfree
    · cases hs
  · rename_i hp
    split at hs
    · cases hs
      exact .invalid hp
    · rename_i hcheck
      cases hs
      exact .draws hp hcheck
  · rename_i hp
    cases hs
    exact .detaches hp
  · rename_i hp
    split at hs
    · cases hs
      exact .clean hp
    · rename_i ids hids
      cases hs
      exact .lists hp hids
  · rename_i hp
    split at hs
    · cases hs
      exact .adds hp
    · cases hs
      exact .addFails hp
  · rename_i hp
    cases hs
    exact .registers hp
  · rename_i hp
    cases hs
    exact .swept hp
  · rename_i hp
    cases hs
    exact .sweeps hp
  · rename_i hp
    cases hs
    exact .unlocks hp
  · rename_i hp
    cases hs
    exact .drops hp
  · rename_i hp
    cases hs
    exact .prunes hp

/-- While thread `i` holds the mutex of a channel, no other thread has a bug pending on it. -/
theorem Inv.quiet (h : s.Inv) {u : Bytes} {l : Nat} (hi : (s.stage i).holds = some (u, l)) {p : Stage}
    (hp : p.pending = none) (j : Nat) (cfg : BugConfig) (id : Nat) :
    ((s.goto i p).stage j).pending ≠ some (u, cfg, id) := by
  intro hj
  by_cases hji : j = i
  · subst hji
    rw [goto_stage_self, hp] at hj
    cases hj
  · rw [goto_stage_of_ne s hji] at hj
    obtain ⟨l', hl'⟩ := Stage.holds_of_pending hj
    exact hji (h.exclusive hl' hi)

theorem Inv.go (h : s.Inv) (hs : s.go i = some s') : s'.Inv := by
  have haim := h.aimed i
  cases turn_of_go hs with
  | refused hp => exact h.bare i rfl rfl
  | attachAsks hp => exact h.take i _ _ nofun
  | unknown hp hnone => exact h.finish i _
  | @finds id closing r hp hr =>
    refine h.goto i (.found id closing r.channelUuid) nofun nofun nofun ?_
    intro a ha
    rw [List.mem_singleton.1 ha]
    refine ⟨h.known id r hr, fun r' hr' => ?_⟩
    rw [hr] at hr'
    cases hr'
    rfl
  | detachAllAsks hp => exact h.take i _ _ nofun
  | detachAsks hp =>
    rw [hp] at haim
    exact h.take i _ _ haim
  | @enters j u l hp hfree =>
    rw [hp] at haim
    refine (h.lock i hfree).goto i (.locked j u l) ?_ ?_ nofun ?_
    · intro v l' hr
      exact h.refs i v l' (by rw [hp]; exact hr)
    · intro v l' hr
      cases hr
      exact Function.update_self ..
    · intro a ha
      cases j <;> exact haim a ha
  | @invalid v cfg addRc u l hp =>
    exact h.under i (p := .leaving (.attach v cfg addRc) u l) (by rw [hp]; rfl) rfl nofun nofun
  | @draws v cfg addRc u l hp hcheck =>
    have hlt : ∀ a ∈ s.records.ids u, a < s.nextId := fun a ha => h.drawn a ((h.order u).subset ha)
    refine h.draw.goto i (.adding u cfg addRc s.nextId l) ?_ ?_ ?_ nofun
    · intro v l' hr
      exact h.refs i v l' (by rw [hp]; exact hr)
    · intro v l' hr
      exact h.held i v l' (by rw [hp]; exact hr)
    · intro v cfg' id hpend
      cases hpend
      refine ⟨Nat.lt_succ_self _, fun hm => Nat.lt_irrefl _ (h.drawn _ hm), Records.clear_of_checkAttach hcheck hlt, ?_⟩
      intro j w cfg'' _ hj
      exact Nat.lt_irrefl _ (h.fresh j w cfg'' _ hj).1
  | @detaches id closing u l hp =>
    exact (h.under i (p := .leaving (.detach id closing) u l) (by rw [hp]; rfl) rfl nofun nofun).erase id
  | @clean v u l hp => exact h.under i (p := .leaving (.detachAll v) u l) (by rw [hp]; rfl) rfl nofun nofun
  | @lists v u l ids hp hids =>
    refine h.under i (p := .sweeping u ids l) (by rw [hp]; rfl) rfl nofun ?_
    intro a ha
    have hlist : s.records.ids u = ids := by simp [Records.ids, hids]
    have hmem : a ∈ s.records.ids u := hlist ▸ ha
    refine ⟨(h.order u).subset hmem, fun r hr => ?_⟩
    obtain ⟨r', hr', hu⟩ := h.ok.known u a hmem
    rw [hr] at hr'
    cases hr'
    exact hu
  | @adds u cfg addRc id l hp =>
    refine (h.record _ s.closed).under i (p := .added u cfg id l) (by rw [hp]; rfl) rfl ?_ nofun
    intro x hx
    show (s.stage i).pending = some x
    rw [hp]
    exact hx
  | @addFails u cfg addRc id l hp =>
    exact h.under i (p := .leaving (.attach u cfg addRc) u l) (by rw [hp]; rfl) rfl nofun nofun
  | @registers u cfg id l hp =>
    have hheld : (s.stage i).holds = some (u, l) := by rw [hp]; rfl
    have hpend : (s.stage i).pending = some (u, BugManager.effectiveConfig cfg, id) := by rw [hp]; rfl
    obtain ⟨hlt, hnot, hclear⟩ := h.fresh i _ _ _ hpend
    have hmoved := h.under i (p := .leaving (.attach u cfg 0) u l) hheld rfl nofun nofun
    refine hmoved.emplace hlt hnot hclear (h.quiet hheld rfl) ?_
    intro j v cfg' hj
    by_cases hji : j = i
    · subst hji
      rw [goto_stage_self] at hj
      cases hj
    · rw [goto_stage_of_ne s hji] at hj
      exact hji (h.single j i v u cfg' _ id hj hpend)
  | @swept u l hp => exact h.under i (p := .leaving (.detachAll u) u l) (by rw [hp]; rfl) rfl nofun nofun
  | @sweeps u id ids l hp =>
    rw [hp] at haim
    have hmoved := h.under i (p := .sweeping u ids l) (by rw [hp]; rfl) rfl nofun
      (fun a ha => haim a (List.mem_cons_of_mem _ ha))
    exact hmoved.erase id
  | @unlocks j u l hp =>
    have hheld : (s.stage i).holds = some (u, l) := by rw [hp]; rfl
    have hmoved := h.under i (p := .unlocked j u l) hheld rfl nofun nofun
    refine hmoved.unlock ?_
    intro k v hk
    by_cases hki : k = i
    · subst hki
      rw [goto_stage_self] at hk
      cases hk
    · rw [goto_stage_of_ne s hki] at hk
      exact hki (Option.some.inj ((h.held k v l hk).symm.trans (h.held i u l hheld)))
  | @drops j u l hp =>
    have hmoved := h.bare i (p := .dropped j u) rfl rfl
    exact hmoved.unref i l (by rw [goto_stage_self]; rfl)
  | prunes hp => exact (h.prune _).finish i _

theorem step_call {j : Job} (hs : s.step (.call i j) = some s') : s' = s.goto i (.called j) := by
  simp only [Registry.step] at hs
  split at hs
  · split at hs
    · exact (Option.some.inj hs).symm
    · cases hs
  · exact (Option.some.inj hs).symm
  · cases hs

theorem Inv.step (h : s.Inv) (a : RegistryAct) (s' : Registry) (hs : s.step a = some s') : s'.Inv := by
  cases a with
  | go i => exact h.go hs
  | call i j =>
    rw [step_call hs]
    exact h.bare i rfl rfl

/-! ## What a step does to the bugs -/

/-- The effect of a step of thread `i` on the records: none, one bug of its aims erased, or its pending bug registered;
and how it comes to have detached a bug or to have finished a CLOSE callback. -/
structure Effect (s : Registry) (i : Nat) (s' : Registry) : Prop where
  others   : ∀ j, j ≠ i → s'.stage j = s.stage j
  records  : (s'.records = s.records ∧ s'.attached = s.attached) ∨
    (∃ id ∈ (s.stage i).aims.2, s'.records = s.records.erase id ∧ s'.attached = s.attached) ∨
    ∃ u cfg id, (s.stage i).pending = some (u, cfg, id) ∧ s'.records = s.records.emplace id u cfg ∧
      s'.attached = s.attached ++ [id]
  detached : ∀ id, (s'.stage i).detached = some id →
    (s.stage i).detached = some id ∨ (id ∈ (s.stage i).aims.2 ∧ s'.records.byId id = none)
  closed   : s'.closed = s.closed ∨ ∃ id, s'.closed = s.closed ++ [id] ∧
    ((s.stage i).detached = some id ∨ (s.stage i = .called (.detach id true) ∧ s.records.byId id = none))

theorem Effect.move (p : Stage) (hstage : s'.stage = Function.update s.stage i p) (hrec : s'.records = s.records)
    (hatt : s'.attached = s.attached) (hcl : s'.closed = s.closed)
    (hp : ∀ id, p.detached = some id → (s.stage i).detached = some id) : Effect s i s' := by
  refine ⟨?_, .inl ⟨hrec, hatt⟩, ?_, .inl hcl⟩
  · intro j hj
    rw [hstage, Function.update_of_ne hj]
  · intro id hid
    rw [hstage, Function.update_self] at hid
    exact .inl (hp id hid)

theorem Effect.finish {s₀ : Registry} {j : Job} (hstage : s₀.stage = s.stage) (hrec : s₀.records = s.records)
    (hatt : s₀.attached = s.attached) (hcl : s₀.closed = s.closed)
    (hj : ∀ id, j = .detach id true →
      (s.stage i).detached = some id ∨ (s.stage i = .called (.detach id true) ∧ s.records.byId id = none)) :
    Effect s i (s₀.finish i j) := by
  have hmove : ∀ s' : Registry, s'.stage = Function.update s.stage i .idle → s'.records = s.records →
      s'.attached = s.attached → s'.closed = s.closed → Effect s i s' :=
    fun s' h₁ h₂ h₃ h₄ => .move .idle h₁ h₂ h₃ h₄ nofun
  unfold Registry.finish
  split
  · rename_i id
    refine ⟨?_, .inl ⟨hrec, hatt⟩, ?_, .inr ⟨id, by rw [← hcl]; rfl, hj id rfl⟩⟩
    · intro k hk
      rw [goto_stage_of_ne _ hk]
      exact congrFun hstage k
    · intro id' hid'
      rw [goto_stage_self] at hid'
      cases hid'
  · exact hmove _ (by rw [← hstage]; rfl) hrec hatt hcl

theorem prune_frame (s : Registry) (u : Bytes) : (s.prune u).stage = s.stage ∧ (s.prune u).records = s.records ∧
    (s.prune u).attached = s.attached ∧ (s.prune u).closed = s.closed ∧ (s.prune u).nextLock = s.nextLock ∧
    (s.prune u).refs = s.refs ∧ (s.prune u).nextId = s.nextId := by
  unfold prune
  split
  · split <;> exact ⟨rfl, rfl, rfl, rfl, rfl, rfl, rfl⟩
  · exact ⟨rfl, rfl, rfl, rfl, rfl, rfl, rfl⟩

theorem go_effect (hs : s.go i = some s') : Effect s i s' := by
  cases turn_of_go hs with
  | refused hp => exact .move .idle rfl rfl rfl rfl nofun
  | attachAsks hp => exact .move (.waiting _ _ _) rfl rfl rfl rfl nofun
  | unknown hp hnone =>
    refine .finish rfl rfl rfl rfl ?_
    intro id' hid'
    cases hid'
    exact .inr ⟨hp, hnone⟩
  | finds hp hr => exact .move (.found _ _ _) rfl rfl rfl rfl nofun
  | detachAllAsks hp => exact .move (.waiting _ _ _) rfl rfl rfl rfl nofun
  | detachAsks hp => exact .move (.waiting _ _ _) rfl rfl rfl rfl nofun
  | enters hp hfree => exact .move (.locked _ _ _) rfl rfl rfl rfl nofun
  | invalid hp => exact .move (.leaving (.attach _ _ _) _ _) rfl rfl rfl rfl nofun
  | draws hp hcheck => exact .move (.adding _ _ _ _ _) rfl rfl rfl rfl nofun
  | @detaches id closing u l hp =>
    refine ⟨fun j hj => goto_stage_of_ne s hj _, .inr (.inl ⟨id, by rw [hp]; simp [Stage.aims], rfl, rfl⟩), ?_, .inl rfl⟩
    intro id' hid'
    have hst : ((s.goto i (.leaving (.detach id closing) u l)).stage i).detached = some id' := hid'
    rw [goto_stage_self] at hst
    cases hst
    refine .inr ⟨by rw [hp]; simp [Stage.aims], ?_⟩
    show (s.records.erase id).byId id = none
    rw [Records.erase_byId, Function.update_self]
  | clean hp => exact .move (.leaving (.detachAll _) _ _) rfl rfl rfl rfl nofun
  | lists hp hids => exact .move (.sweeping _ _ _) rfl rfl rfl rfl nofun
  | adds hp => exact .move (.added _ _ _ _) rfl rfl rfl rfl nofun
  | addFails hp => exact .move (.leaving (.attach _ _ _) _ _) rfl rfl rfl rfl nofun
  | @registers u cfg id l hp =>
    refine ⟨fun j hj => goto_stage_of_ne s hj _, .inr (.inr ⟨_, _, id, by rw [hp]; rfl, rfl, rfl⟩), ?_, .inl rfl⟩
    intro id' hid'
    have hst : ((s.goto i (.leaving (.attach u cfg 0) u l)).stage i).detached = some id' := hid'
    rw [goto_stage_self] at hst
    cases hst
  | swept hp => exact .move (.leaving (.detachAll _) _ _) rfl rfl rfl rfl nofun
  | @sweeps u id ids l hp =>
    refine ⟨fun j hj => goto_stage_of_ne s hj _, .inr (.inl ⟨id, by rw [hp]; simp [Stage.aims], rfl, rfl⟩), ?_, .inl rfl⟩
    intro id' hid'
    have hst : ((s.goto i (.sweeping u ids l)).stage i).detached = some id' := hid'
    rw [goto_stage_self] at hst
    cases hst
  | @unlocks j u l hp =>
    exact .move (.unlocked j u l) rfl rfl rfl rfl (fun id hid => by rw [hp]; cases j <;> exact hid)
  | @drops j u l hp =>
    exact .move (.dropped j u) rfl rfl rfl rfl (fun id hid => by rw [hp]; cases j <;> exact hid)
  | @prunes j u hp =>
    obtain ⟨h₁, h₂, h₃, h₄, -⟩ := s.prune_frame u
    refine .finish h₁ h₂ h₃ h₄ ?_
    rintro id rfl
    exact .inl (by rw [hp]; rfl)

theorem Inv.stays (h : s.Inv) (hid : id ∈ s.attached) {a : RegistryAct} (hs : s.step a = some s') :
    id ∈ s'.attached ∧ ∀ r, s'.records.byId id = some r → s.records.byId id = some r := by
  cases a with
  | call i j =>
    rw [step_call hs]
    exact ⟨hid, fun _ hr => hr⟩
  | go i =>
    rcases (go_effect hs).records with ⟨hr, ha⟩ | ⟨id', -, hr, ha⟩ | ⟨u, cfg, id', hp, hr, ha⟩
    · rw [hr, ha]
      exact ⟨hid, fun _ hr => hr⟩
    · rw [hr, ha]
      exact ⟨hid, fun _ hr => (Records.erase_byId_some hr).2⟩
    · obtain ⟨-, hnot, -⟩ := h.fresh i u cfg id' hp
      have hne : id ≠ id' := fun he => hnot (he ▸ hid)
      have hnew : s.records.byId id' = none := by
        cases hb : s.records.byId id' with
        | none => rfl
        | some r => exact absurd (h.known id' r hb) hnot
      rw [hr, ha, Records.emplace_byId hnew, Function.update_of_ne hne]
      exact ⟨List.mem_append_left _ hid, fun _ hr => hr⟩

/-- The bug was registered and is gone. -/
def Gone (s : Registry) (id : Nat) : Prop := id ∈ s.attached ∧ s.records.byId id = none

/-- **An id is never registered again.** -/
theorem Gone.step (h : s.Inv) (hg : s.Gone id) {a : RegistryAct} (hs : s.step a = some s') : s'.Gone id := by
  obtain ⟨hid, hsame⟩ := h.stays hg.1 hs
  refine ⟨hid, Option.eq_none_iff_forall_ne_some.2 (fun r hr => ?_)⟩
  rw [hg.2] at hsame
  cases hsame r hr

theorem Gone.run {as : List RegistryAct} {t : Registry} (h : s.Inv) (hg : s.Gone id)
    (hrun : Run.exec Registry.step as s = some t) : t.Gone id :=
  (Run.exec_inv (I := fun s => s.Inv ∧ s.Gone id)
    (fun _ a s' hi hs => ⟨hi.1.step a s' hs, Gone.step hi.1 hi.2 hs⟩) as s t ⟨h, hg⟩ hrun).2

/-- **A `Detach` of a bug that is gone changes nothing.** -/
theorem stale_detach (hi : (s.stage i).detaching = some id) (hnone : s.records.byId id = none)
    (hs : s.step (.go i) = some s') : s'.records = s.records := by
  have haims : ∀ a ∈ (s.stage i).aims.2, a = id := by
    intro a ha
    cases hp : s.stage i with
    | waiting j u l => cases j <;> simp_all [Stage.aims, Stage.detaching]
    | locked j u l => cases j <;> simp_all [Stage.aims, Stage.detaching]
    | _ => simp_all [Stage.aims, Stage.detaching]
  have hpend : (s.stage i).pending = none := by
    cases hp : s.stage i <;> first | rfl | (rw [hp] at hi; cases hi)
  rcases (go_effect hs).records with ⟨hr, -⟩ | ⟨a, ha, hr, -⟩ | ⟨u, cfg, a, hp, -, -⟩
  · exact hr
  · rw [hr, haims a ha, Records.erase_of_none hnone]
  · rw [hpend] at hp
    cases hp

/-! ## The registry invariant -/

/-- The bugs of a channel attached without `SMBF_FIRST`, in the order of its list. -/
def plainBugs (s : Registry) (c : Bytes) : List BugRecord :=
  ((s.records.ids c).filterMap s.records.byId).filter (fun r => decide (r.config.fsFlags &&& smbfFirst = 0))

theorem Inv.plainBugs_order (h : s.Inv) (c : Bytes) :
    (s.plainBugs c).Pairwise (fun a b => a.id < b.id ∧ stageRank a.config.purpose ≤ stageRank b.config.purpose) := by
  have hall : ((s.records.ids c).filterMap s.records.byId).Pairwise (fun a b => a.id < b.id ∧ Records.MayFollow a b) := by
    rw [List.pairwise_filterMap]
    refine (h.ok.order c).imp ?_
    intro a b hab ra hra rb hrb
    have ha := (h.ok.listed a ra hra).1
    have hb := (h.ok.listed b rb hrb).1
    refine ⟨by rw [ha, hb]; exact hab.1, hab.2 ra rb hra hrb⟩
  refine (hall.filter _).imp_of_mem ?_
  intro a b _ hb hab
  refine ⟨hab.1, hab.2.rank ?_⟩
  simpa using (List.mem_filter.1 hb).2

/-- **The bug registry invariant**, in every interleaving of `Attach`, `Detach`, CLOSE callbacks and `DetachAll`: the two
maps are inverse to each other with no empty list and no id twice; an id is registered once, one that is gone stays gone
and its `Detach` changes nothing; two bugs of one channel have different purposes unless they are recording relays; and
the list of a channel is in attach order, its bugs without `SMBF_FIRST` with nondecreasing stage rank. -/
theorem registry_invariant (as : List RegistryAct) (s : Registry) (hrun : Run.exec step as init = some s) :
    (∀ id r, s.records.byId id = some r →
      r.id = id ∧ ∃ ids, s.records.byChannel r.channelUuid = some ids ∧ id ∈ ids) ∧
    (∀ c ids, s.records.byChannel c = some ids →
      ids ≠ [] ∧ ids.Nodup ∧ ∀ id ∈ ids, ∃ r, s.records.byId id = some r ∧ r.channelUuid = c) ∧
    s.attached.Nodup ∧
    (∀ id ∈ s.attached, s.records.byId id = none →
      ∀ as' t, Run.exec step as' s = some t → t.records.byId id = none) ∧
    (∀ i id s', (s.stage i).detaching = some id → s.records.byId id = none → s.step (.go i) = some s' →
      s'.records = s.records) ∧
    (∀ a b ra rb, a ≠ b → s.records.byId a = some ra → s.records.byId b = some rb → ra.channelUuid = rb.channelUuid →
      ra.config.purpose = rb.config.purpose → ra.config.purpose = .recordingRelay) ∧
    (∀ c, (s.records.ids c).Sublist s.attached ∧ (s.plainBugs c).Pairwise (fun a b =>
      a.id < b.id ∧ stageRank a.config.purpose ≤ stageRank b.config.purpose)) := by
  have h : s.Inv := Run.exec_inv (fun _ a s' hi hs => hi.step a s' hs) as _ s .init hrun
  have hnext : ∀ id r, s.records.byId id = some r → id < s.nextId := fun id r hr => h.drawn id (h.known id r hr)
  refine ⟨?_, ?_, h.once, ?_, ?_, ?_, fun c => ⟨h.order c, h.plainBugs_order c⟩⟩
  · exact (h.ok.toManager s.nextId hnext).listed
  · exact (h.ok.toManager s.nextId hnext).indexed
  · intro id hid hnone as' t ht
    exact (Gone.run h ⟨hid, hnone⟩ ht).2
  · intro i id s' hi hnone hs
    exact stale_detach hi hnone hs
  · intro a b ra rb hab hra hrb hchan hpur
    have hma := (h.ok.listed a ra hra).2
    have hmb := (h.ok.listed b rb hrb).2
    rw [← hchan] at hmb
    -- one of the two stands before the other
    rcases List.pairwise_iff_getElem.1 (h.ok.order ra.channelUuid) with hord
    obtain ⟨n, hn, hna⟩ := List.mem_iff_getElem.1 hma
    obtain ⟨k, hk, hkb⟩ := List.mem_iff_getElem.1 hmb
    rcases Nat.lt_trichotomy n k with hlt | heq | hlt
    · have hf := (hord n k hn hk hlt).2 ra rb (hna ▸ hra) (hkb ▸ hrb)
      rw [hpur]
      exact hf.purpose hpur
    · subst heq
      exact absurd (hna.symm.trans hkb) hab
    · have hf := (hord k n hk hn hlt).2 rb ra (hkb ▸ hrb) (hna ▸ hra)
      exact hf.purpose hpur.symm

/-- Two bugs of channel `a`, the first of them detached. -/
theorem registry_invariant_twoBugs :
    ∃ s, Run.exec step ([.call 0 (.attach (str "a") ⟨.ttsPlayback, smbfWriteReplace, 8000, []⟩ 0)] ++
      List.replicate 8 (.go 0) ++ [.call 1 (.attach (str "a") ⟨.recordingRelay, 0, 8000, []⟩ 0)] ++
      List.replicate 8 (.go 1) ++ [.call 0 (.detach 1 false)] ++ List.replicate 7 (.go 0)) init = some s ∧
      s.attached = [1, 2] ∧ s.records.ids (str "a") = [2] ∧ s.attached.Nodup := by
  have hany : ∀ as, (Run.exec step as init).map (fun s => (s.attached, s.records.ids (str "a"))) = some ([1, 2], [2]) →
      ∃ s, Run.exec step as init = some s ∧ s.attached = [1, 2] ∧ s.records.ids (str "a") = [2] ∧ s.attached.Nodup := by
    intro as hm
    obtain ⟨s, hs, hf⟩ := Option.map_eq_some_iff.1 hm
    obtain ⟨hatt, hids⟩ := Prod.mk.inj hf
    exact ⟨s, hs, hatt, hids, (registry_invariant as s hs).2.2.1⟩
  exact hany _ (by decide +kernel)

/-! ## CLOSE -/

/-- **A CLOSE callback looks its bug up only once the bug is registered.** -/
def closesRegistered (s : Registry) : RegistryAct → Bool
  | .go i =>
    match s.stage i with
    | .called (.detach id true) => decide (id ∈ s.attached)
    | _ => true
  | _ => true

/-- A CLOSE callback that has returned, or any `Detach` past its section, leaves no record. -/
structure Swept (s : Registry) : Prop where
  inv      : s.Inv
  closed   : ∀ id ∈ s.closed, s.Gone id
  detached : ∀ i id, (s.stage i).detached = some id → s.Gone id

theorem Swept.step (h : s.Swept) (a : RegistryAct) (s' : Registry) (hg : s.closesRegistered a = true)
    (hs : s.step a = some s') : s'.Swept := by
  have hkeep : ∀ {id}, s.Gone id → s'.Gone id := fun hgone => Gone.step h.inv hgone hs
  refine ⟨h.inv.step a s' hs, ?_, ?_⟩
  · intro id hid
    cases a with
    | call i j =>
      rw [step_call hs] at hid
      exact hkeep (h.closed id hid)
    | go i =>
      rcases (go_effect hs).closed with hcl | ⟨id', hcl, hnew⟩
      · exact hkeep (h.closed id (hcl ▸ hid))
      · rw [hcl] at hid
        rcases List.mem_append.1 hid with hid | hid
        · exact hkeep (h.closed id hid)
        · rw [List.mem_singleton.1 hid]
          rcases hnew with hdone | ⟨hcall, hnone⟩
          · exact hkeep (h.detached i id' hdone)
          · -- it found no record: by the condition the bug had been registered
            simp only [closesRegistered, hcall, decide_eq_true_eq] at hg
            exact hkeep ⟨hg, hnone⟩
  · intro k id hk
    cases a with
    | call i j =>
      rw [step_call hs] at hk
      by_cases hki : k = i
      · subst hki
        rw [goto_stage_self] at hk
        cases hk
      · rw [goto_stage_of_ne s hki] at hk
        exact hkeep (h.detached k id hk)
    | go i =>
      have heff := go_effect hs
      by_cases hki : k = i
      · subst hki
        rcases heff.detached id hk with hold | ⟨haim, hnone⟩
        · exact hkeep (h.detached k id hold)
        · refine ⟨?_, hnone⟩
          have hmem := (h.inv.aimed k id haim).1
          rcases heff.records with ⟨-, ha⟩ | ⟨_, -, -, ha⟩ | ⟨_, _, _, -, -, ha⟩
          · rw [ha]
            exact hmem
          · rw [ha]
            exact hmem
          · rw [ha]
            exact List.mem_append_left _ hmem
      · exact hkeep (h.detached k id (heff.others k hki ▸ hk))

/-- **A closed bug leaves no record** in any run whose CLOSE callbacks look their bugs up once these are registered: when
the callback has returned, the registry has no record of the bug, and none from then on. -/
theorem closed_no_record (as : List RegistryAct) (s : Registry) (hrun : Run.exec step as init = some s)
    (hguard : Run.along step closesRegistered as init = true) (id : Nat) (hid : id ∈ s.closed) :
    s.records.byId id = none := by
  have h : s.Swept := Run.exec_inv_along (I := Swept) (fun _ a s' hi hg hs => hi.step a s' hg hs) as _ s
    ⟨.init, nofun, nofun⟩ hguard hrun
  exact (h.closed id hid).2

/-- An `Attach` on channel `a`, up to and with its call of FreeSWITCH. -/
def attachUpToAdd : List RegistryAct :=
  [.call 0 (.attach (str "a") ⟨.ttsPlayback, smbfWriteReplace, 8000, []⟩ 0), .go 0, .go 0, .go 0, .go 0]

/-- The CLOSE callback of its bug, on another thread, from the call to the return. -/
def closeCallback (n : Nat) : List RegistryAct := .call 1 (.detach 1 true) :: List.replicate n (.go 1)

theorem closed_no_record_afterwards :
    ∃ s, Run.exec step (attachUpToAdd ++ List.replicate 4 (.go 0) ++ closeCallback 7) init = some s ∧
      s.closed = [1] ∧ s.attached = [1] ∧ s.records.byId 1 = none := by
  have hm : (Run.exec step (attachUpToAdd ++ List.replicate 4 (.go 0) ++ closeCallback 7) init).map
      (fun s => (s.closed, s.attached)) = some ([1], [1]) := by decide +kernel
  obtain ⟨s, hs, hf⟩ := Option.map_eq_some_iff.1 hm
  obtain ⟨hcl, hatt⟩ := Prod.mk.inj hf
  exact ⟨s, hs, hcl, hatt, closed_no_record _ s hs (by decide +kernel) 1 (by rw [hcl]; simp)⟩

/-- CLOSE between the call of FreeSWITCH and the registration: the callback finds no record and returns, then `Attach`
registers one, and both have finished. -/
theorem close_before_registration :
    (Run.exec step (attachUpToAdd ++ closeCallback 1 ++ List.replicate 4 (.go 0)) init).map
      (fun s => (s.stage 0, s.stage 1, s.closed, (s.records.byId 1).isSome, s.records.ids (str "a")))
      = some (.idle, .idle, [1], true, [1]) := by
  decide +kernel

end Registry
end Media
end Osw
