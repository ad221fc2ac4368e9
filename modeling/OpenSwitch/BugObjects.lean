import OpenSwitch.SilenceDriver
/-!
# BugObjects — what a bug is made of besides its record (`bug_manager.cc`)

Behind a record of the registry stand an object of FreeSWITCH, the bug itself, and a callback context on the heap that
FreeSWITCH passes to the trampoline with every callback.  `Attach` makes the context first, hands it to FreeSWITCH and
makes the record last, so each of its exits has something else to give back; and when the record cannot be made, the bug
has to leave FreeSWITCH while its context is still there, because FreeSWITCH closes the bug on the way out.  A callback
with a context that is not allocated, and a context freed twice, are faults.
-/
namespace Osw
namespace Media

/-- The manager with the objects its records point to.  FreeSWITCH's bugs stand with their `user_data`, the allocated
contexts with their `bug_id`; an entry of `channel_locks_` counts the calls that refer to its object, and has expired when
that is none. -/
structure BugObjects where
  manager      : BugManager
  objects      : Nat → Option (Nat × Nat)
  channelLocks : Bytes → Option Nat
  silence      : Option SilenceConfig
  drivers      : List Bytes
  fsBugs       : List (Nat × Nat)
  contexts     : List (Nat × Nat)
  nextPtr      : Nat
  fault        : Bool
  freshBug     : ∀ b ∈ fsBugs, b.1 < nextPtr
  freshContext : ∀ c ∈ contexts, c.1 < nextPtr

namespace BugObjects

def empty (silence : Option SilenceConfig) : BugObjects :=
  ⟨.empty, fun _ => none, fun _ => none, silence, [], [], [], 0, false, by simp, by simp⟩

/-- The outcomes of one `Attach`: those of `AttachEnv`, whether a failed `ChannelLockFor` got as far as its entry, and what
`AttachOpportunistic` finds. -/
structure Outcomes extends BugManager.AttachEnv where
  entry : Bool
  view  : SilenceView

/-! ## The mutex of a channel -/

/-- An entry after `ChannelLockFor`, and whether the call has the object: only one that has to be made can fail. -/
def lockEntry (env : Outcomes) : Option Nat → Option Nat × Bool
  | some (n + 1) => (some (n + 2), true)
  | _            => if env.lock then (some 1, true) else (if env.entry then some 0 else none, false)

/-- An entry after the call has let go of the object: one that has expired is erased. -/
def prunedEntry : Option Nat → Option Nat
  | some (n + 2) => some (n + 1)
  | _            => none

/-- The calls that refer to the object of an entry, if there still is one. -/
def liveEntry (e : Option Nat) : Option Nat := e.filter (fun n => 0 < n)

theorem liveEntry_of_refused {env : Outcomes} {e : Option Nat} (h : (lockEntry env e).2 = false) :
    liveEntry (lockEntry env e).1 = liveEntry e := by
  unfold lockEntry at h ⊢
  split
  · cases h
  · rename_i hdead
    have hnone : liveEntry e = none := by
      match e with
      | none | some 0 => rfl
      | some (n + 1) => exact absurd rfl (hdead n)
    rw [hnone]
    split
    · rename_i hlock
      simp [hlock] at h
    · split <;> rfl

/-- **A mutex that was taken and let go of is there, or not, as before.** -/
theorem liveEntry_pruned {env : Outcomes} {e : Option Nat} (h : (lockEntry env e).2 = true) :
    liveEntry (prunedEntry (lockEntry env e).1) = liveEntry e := by
  match e with
  | some (n + 1) => rfl
  | none | some 0 =>
    cases hlock : env.lock with
    | true =>
      simp only [lockEntry, hlock, if_true]
      rfl
    | false => simp [lockEntry, hlock] at h

variable (s : BugObjects)

/-- `ChannelLockFor`. -/
def channelLockFor (u : Bytes) (env : Outcomes) : BugObjects × Bool :=
  ({ s with channelLocks := Function.update s.channelLocks u (lockEntry env (s.channelLocks u)).1 },
    (lockEntry env (s.channelLocks u)).2)

/-- `cleanup_channel_lock`. -/
def cleanupChannelLock (u : Bytes) : BugObjects :=
  { s with channelLocks := Function.update s.channelLocks u (prunedEntry (s.channelLocks u)) }

def liveLock (u : Bytes) : Option Nat := liveEntry (s.channelLocks u)

/-! ## Contexts and bugs -/

def newContext (id : Nat) : BugObjects :=
  { s with
    contexts := s.contexts ++ [(s.nextPtr, id)]
    nextPtr := s.nextPtr + 1
    freshBug := fun b hb => Nat.lt_succ_of_lt (s.freshBug b hb)
    freshContext := by
      intro c hc
      rcases List.mem_append.1 hc with hc | hc
      · exact Nat.lt_succ_of_lt (s.freshContext c hc)
      · rw [List.mem_singleton.1 hc]
        exact Nat.lt_succ_self _ }

/-- `delete ctx`. -/
def deleteContext (ctx : Nat) : BugObjects :=
  match s.contexts.lookup ctx with
  | none   => { s with fault := true }
  | some _ =>
    { s with
      contexts := s.contexts.filter (fun c => c.1 != ctx)
      freshContext := fun c hc => s.freshContext c (List.mem_filter.1 hc).1 }

/-- `FsMediaBugAdd`, when FreeSWITCH accepts the bug. -/
def fsMediaBugAdd (ctx : Nat) : BugObjects :=
  { s with
    fsBugs := s.fsBugs ++ [(s.nextPtr, ctx)]
    nextPtr := s.nextPtr + 1
    freshBug := by
      intro b hb
      rcases List.mem_append.1 hb with hb | hb
      · exact Nat.lt_succ_of_lt (s.freshBug b hb)
      · rw [List.mem_singleton.1 hb]
        exact Nat.lt_succ_self _
    freshContext := fun c hc => Nat.lt_succ_of_lt (s.freshContext c hc) }

/-- `DetachInternalLocked` without the call to FreeSWITCH: the record goes with its context, and the driver of a channel
that nothing is injected into any more. -/
def detachInternalLocked (id : Nat) : BugObjects :=
  match s.manager.byId id, s.objects id with
  | some _, some (_, ctx) =>
    let left := { s with
      manager := s.manager.detach id
      objects := Function.update s.objects id none }.deleteContext ctx
    match s.silence, (Records.ofManager s.manager).orphaned id with
    | some _, some u => { left with drivers := left.drivers.erase u }
    | _, _           => left
  | _, _ => s

/-- `DetachInternal`, of the CLOSE branch: an id without a record is nothing to detach. -/
def detachInternal (id : Nat) (env : Outcomes) : BugObjects :=
  match s.manager.byId id with
  | none   => s
  | some r =>
    match s.channelLockFor r.channelUuid env with
    | (s, true)  => (s.detachInternalLocked id).cleanupChannelLock r.channelUuid
    | (s, false) => s.detachInternalLocked id

/-- `OswMediaBugTrampoline`, on CLOSE. -/
def close (ctx : Nat) (env : Outcomes) : BugObjects :=
  match s.contexts.lookup ctx with
  | none    => { s with fault := true }
  | some id => s.detachInternal id env

/-- `FsMediaBugRemove`: the bug leaves FreeSWITCH, which closes it. -/
def fsMediaBugRemove (bug : Nat) (env : Outcomes) : BugObjects :=
  match s.fsBugs.lookup bug with
  | none     => s
  | some ctx =>
    { s with
      fsBugs := s.fsBugs.filter (fun b => b.1 != bug)
      freshBug := fun b hb => s.freshBug b (List.mem_filter.1 hb).1 : BugObjects }.close ctx env

/-! ## Attach -/

/-- The record enters the maps, and the channel gets its silence driver. -/
def registerBug (uuid : Bytes) (cfg : BugConfig) (view : SilenceView) (m : BugManager) (bug ctx : Nat) : BugObjects :=
  { s with
    manager := m.register uuid cfg
    objects := Function.update s.objects m.nextId (some (bug, ctx))
    drivers :=
      match s.silence with
      | some silence =>
        if cfg.fsFlags &&& smbfWriteReplace ≠ 0 then attachOpportunistic silence uuid view s.drivers else s.drivers
      | none => s.drivers }

/-- `Attach`, once the validation has drawn an id. -/
def attachDrawn (cfg : BugConfig) (env : Outcomes) : BugObjects × Except Status Nat :=
  let m := s.manager
  let drawn := { s with manager := m.skipId }
  if !env.ctx then
    (drawn.cleanupChannelLock env.uuid, .error ⟨.resourceExhausted, str "failed to allocate BugCallbackContext"⟩)
  else
    let ctx := drawn.nextPtr
    let made := drawn.newContext m.nextId
    if env.addRc ≠ 0 then
      ((made.deleteContext ctx).cleanupChannelLock env.uuid,
        .error ⟨.internal, str "switch_core_media_bug_add failed: rc=" ++ str (toString env.addRc)⟩)
    else
      let bug := made.nextPtr
      let added := made.fsMediaBugAdd ctx
      if !env.record then
        (((added.fsMediaBugRemove bug env).deleteContext ctx).cleanupChannelLock env.uuid,
          .error ⟨.resourceExhausted, str "failed to allocate BugRecord"⟩)
      else
        ((added.registerBug env.uuid (BugManager.effectiveConfig cfg) env.view m bug ctx).cleanupChannelLock env.uuid,
          .ok m.nextId)

def attach (cfg : BugConfig) (env : Outcomes) : BugObjects × Except Status Nat :=
  if env.uuid = [] then (s, .error ⟨.invalidArgument, str "session has no UUID"⟩)
  else
    let locked := s.channelLockFor env.uuid env
    if !locked.2 then (locked.1, .error ⟨.resourceExhausted, str "failed to allocate channel lifecycle lock"⟩)
    else
      match BugManager.checkAttach cfg (locked.1.manager.purposesOn env.uuid) with
      | some st => (locked.1.cleanupChannelLock env.uuid, .error st)
      | none    => locked.1.attachDrawn cfg env

/-! ## What a failed attach leaves -/

/-- The same bugs in the registry and in FreeSWITCH, with the same objects, contexts and drivers. -/
structure Same (s s' : BugObjects) : Prop where
  bugs     : BugManager.SameBugs s.manager s'.manager
  objects  : s'.objects = s.objects
  fsBugs   : s'.fsBugs = s.fsBugs
  contexts : s'.contexts = s.contexts
  drivers  : s'.drivers = s.drivers
  fault    : s'.fault = s.fault

/-- Nothing but the next pointer is different. -/
structure Undone (s s' : BugObjects) : Prop where
  manager  : s'.manager = s.manager
  objects  : s'.objects = s.objects
  fsBugs   : s'.fsBugs = s.fsBugs
  contexts : s'.contexts = s.contexts
  drivers  : s'.drivers = s.drivers
  fault    : s'.fault = s.fault
  locks    : s'.channelLocks = s.channelLocks

variable {s}

theorem Undone.rfl' (s : BugObjects) : Undone s s := ⟨rfl, rfl, rfl, rfl, rfl, rfl, rfl⟩

theorem Undone.trans {s' s'' : BugObjects} (h : Undone s s') (h' : Undone s' s'') : Undone s s'' :=
  ⟨h'.manager.trans h.manager, h'.objects.trans h.objects, h'.fsBugs.trans h.fsBugs, h'.contexts.trans h.contexts,
    h'.drivers.trans h.drivers, h'.fault.trans h.fault, h'.locks.trans h.locks⟩

section objects

theorem lookup_append_new {l : List (Nat × Nat)} {k v : Nat} (h : ∀ c ∈ l, c.1 < k) : (l ++ [(k, v)]).lookup k = some v := by
  induction l with
  | nil => simp
  | cons c l ih =>
    have hne : (k == c.1) = false := by
      have := h c List.mem_cons_self
      simp only [beq_eq_false_iff_ne]
      omega
    rw [List.cons_append, List.lookup_cons, hne]
    exact ih (fun c hc => h c (List.mem_cons_of_mem _ hc))

theorem filter_append_new {l : List (Nat × Nat)} {k v : Nat} (h : ∀ c ∈ l, c.1 < k) :
    (l ++ [(k, v)]).filter (fun c => c.1 != k) = l := by
  have hold : l.filter (fun c => c.1 != k) = l := List.filter_eq_self.2 (fun c hc => by simpa using Nat.ne_of_lt (h c hc))
  rw [List.filter_append, hold]
  simp

theorem newContext_delete (s : BugObjects) (id : Nat) : Undone s ((s.newContext id).deleteContext s.nextPtr) := by
  have hlookup : (s.newContext id).contexts.lookup s.nextPtr = some id := lookup_append_new s.freshContext
  simp only [deleteContext, hlookup]
  exact ⟨rfl, rfl, rfl, filter_append_new s.freshContext, rfl, rfl, rfl⟩

theorem Undone.deleteContext {s' : BugObjects} (h : Undone s s') (ctx : Nat) :
    Undone (s.deleteContext ctx) (s'.deleteContext ctx) := by
  have hlookup : s'.contexts.lookup ctx = s.contexts.lookup ctx := by rw [h.contexts]
  unfold BugObjects.deleteContext
  cases hc : s.contexts.lookup ctx with
  | none =>
    simp only [hlookup, hc]
    exact ⟨h.manager, h.objects, h.fsBugs, h.contexts, h.drivers, rfl, h.locks⟩
  | some id =>
    simp only [hlookup, hc]
    exact ⟨h.manager, h.objects, h.fsBugs, congrArg (List.filter _) h.contexts, h.drivers, h.fault, h.locks⟩

/-- **A bug that has no record leaves FreeSWITCH without a trace**: its context is still there when FreeSWITCH closes it, and
leads to an id that nobody knows. -/
theorem fsMediaBugAdd_remove (s : BugObjects) {ctx id : Nat} (env : Outcomes) (hctx : s.contexts.lookup ctx = some id)
    (hid : s.manager.byId id = none) : Undone s ((s.fsMediaBugAdd ctx).fsMediaBugRemove s.nextPtr env) := by
  have hlookup : (s.fsMediaBugAdd ctx).fsBugs.lookup s.nextPtr = some ctx := lookup_append_new s.freshBug
  have hctx' : (s.fsMediaBugAdd ctx).contexts.lookup ctx = some id := hctx
  have hid' : (s.fsMediaBugAdd ctx).manager.byId id = none := hid
  simp only [fsMediaBugRemove, hlookup, close, hctx', detachInternal, hid']
  exact ⟨rfl, rfl, filter_append_new s.freshBug, rfl, rfl, rfl, rfl⟩

end objects

/-- Every way out of `attachDrawn` that is not a success has given back what it took. -/
theorem attachDrawn_cases (s : BugObjects) (cfg : BugConfig) (env : Outcomes) :
    (∃ st s', env.failure = some st ∧ Undone { s with manager := s.manager.skipId } s' ∧
      s.attachDrawn cfg env = (s'.cleanupChannelLock env.uuid, .error st)) ∨
    (env.failure = none ∧ (s.attachDrawn cfg env).2 = .ok s.manager.nextId ∧
      (s.attachDrawn cfg env).1.manager = s.manager.register env.uuid (BugManager.effectiveConfig cfg)) := by
  have hmade := newContext_delete { s with manager := s.manager.skipId } s.manager.nextId
  unfold attachDrawn BugManager.AttachEnv.failure
  simp only
  split
  · exact .inl ⟨_, _, rfl, .rfl' _, rfl⟩
  split
  · exact .inl ⟨_, _, rfl, hmade, rfl⟩
  split
  · have hremoved := fsMediaBugAdd_remove ({ s with manager := s.manager.skipId }.newContext s.manager.nextId) env
      (lookup_append_new s.freshContext) s.manager.byId_nextId
    exact .inl ⟨_, _, rfl, hmade.trans (hremoved.deleteContext _), rfl⟩
  · exact .inr ⟨rfl, rfl, rfl⟩

/-- What was undone under the mutex of a channel, once the mutex is let go of. -/
theorem Undone.cleanup {s' : BugObjects} {u : Bytes} {env : Outcomes} {m : BugManager}
    (hlock : (s.channelLockFor u env).2 = true) (hm : BugManager.SameBugs s.manager m)
    (h : Undone { (s.channelLockFor u env).1 with manager := m } s') :
    Same s (s'.cleanupChannelLock u) ∧ ∀ v, (s'.cleanupChannelLock u).liveLock v = s.liveLock v := by
  have hbugs : BugManager.SameBugs s.manager s'.manager := by
    rw [h.manager]
    exact hm
  refine ⟨⟨hbugs, h.objects, h.fsBugs, h.contexts, h.drivers, h.fault⟩, fun v => ?_⟩
  show liveEntry (Function.update s'.channelLocks u _ v) = liveEntry (s.channelLocks v)
  by_cases hv : v = u
  · subst hv
    rw [Function.update_self, h.locks]
    show liveEntry (prunedEntry (Function.update s.channelLocks v _ v)) = _
    rw [Function.update_self]
    exact liveEntry_pruned hlock
  · rw [Function.update_of_ne hv, h.locks]
    show liveEntry (Function.update s.channelLocks u _ v) = _
    rw [Function.update_of_ne hv]

/-- **A failed attach has no effect**: whatever the lookup of the uuid, the validation, the allocations and FreeSWITCH
answer, the maps, the module's bugs in FreeSWITCH, the contexts and the silence drivers are those from before, and so are
the mutexes that somebody refers to; no callback came with a context that was gone. -/
theorem attach_failure_no_effect (s : BugObjects) (cfg : BugConfig) (env : Outcomes) (st : Status)
    (h : (s.attach cfg env).2 = .error st) :
    Same s (s.attach cfg env).1 ∧ ∀ u, (s.attach cfg env).1.liveLock u = s.liveLock u := by
  unfold attach at h ⊢
  simp only at h ⊢
  split at h
  · rename_i huuid
    rw [if_pos huuid]
    exact ⟨⟨.rfl' _, rfl, rfl, rfl, rfl, rfl⟩, fun _ => rfl⟩
  rename_i huuid
  rw [if_neg huuid]
  cases hlock : (s.channelLockFor env.uuid env).2 with
  | false =>
    refine ⟨⟨.rfl' _, rfl, rfl, rfl, rfl, rfl⟩, fun v => ?_⟩
    show liveEntry (Function.update s.channelLocks env.uuid _ v) = liveEntry (s.channelLocks v)
    by_cases hv : v = env.uuid
    · subst hv
      rw [Function.update_self]
      exact liveEntry_of_refused hlock
    · rw [Function.update_of_ne hv]
  | true =>
    simp only [hlock, Bool.not_true, Bool.false_eq_true, if_false] at h ⊢
    split
    · exact (Undone.rfl' _).cleanup hlock (.rfl' _)
    · rename_i hcheck
      simp only [hcheck] at h
      rcases attachDrawn_cases (s.channelLockFor env.uuid env).1 cfg env with ⟨st', s', -, hundone, heq⟩ | ⟨-, hok, -⟩
      · rw [heq]
        exact Undone.cleanup (m := s.manager.skipId) hlock ⟨rfl, rfl⟩ hundone
      · rw [hok] at h
        cases h

/-- FreeSWITCH has accepted the bug, and the record cannot be made. -/
def noRecord : Outcomes := ⟨⟨[97], true, true, 0, false⟩, true, Driven.quietChannel⟩

theorem attach_failure_no_effect_noRecord :
    ((empty none).attach ⟨.ttsPlayback, smbfWriteReplace, 8000, []⟩ noRecord).2
        = .error ⟨.resourceExhausted, str "failed to allocate BugRecord"⟩ ∧
      ((empty none).attach ⟨.ttsPlayback, smbfWriteReplace, 8000, []⟩ noRecord).1.fsBugs = [] :=
  ⟨rfl, (attach_failure_no_effect (empty none) _ noRecord _ rfl).1.fsBugs⟩

/-! ## The registry alone -/

/-- **The maps see an attach as `BugManager` does**, with a mutex that could be made or was there. -/
theorem attach_manager (s : BugObjects) (cfg : BugConfig) (env : Outcomes) :
    ((s.attach cfg env).1.manager, (s.attach cfg env).2)
      = s.manager.attach cfg { env.toAttachEnv with lock := (s.channelLockFor env.uuid env).2 } := by
  unfold attach BugManager.attach
  simp only
  split
  · rfl
  split
  · rfl
  have hsame : (s.channelLockFor env.uuid env).1.manager = s.manager := rfl
  rw [hsame]
  cases BugManager.checkAttach cfg (s.manager.purposesOn env.uuid) with
  | some st => rfl
  | none =>
    rcases attachDrawn_cases (s.channelLockFor env.uuid env).1 cfg env with ⟨st, s', hf, hundone, heq⟩ | ⟨hf, hok, hreg⟩
    · have hfailure : BugManager.AttachEnv.failure ⟨env.uuid, (s.channelLockFor env.uuid env).2, env.ctx, env.addRc, env.record⟩
          = some st := hf
      have hmanager : (s'.cleanupChannelLock env.uuid).manager = s.manager.skipId := hundone.manager
      simp only [heq, hfailure, hmanager]
    · have hfailure : BugManager.AttachEnv.failure ⟨env.uuid, (s.channelLockFor env.uuid env).2, env.ctx, env.addRc, env.record⟩
          = none := hf
      simp only [hfailure, hok, hreg, hsame]

end BugObjects
end Media
end Osw
