import OpenSwitch.Bridge
import OpenSwitch.LockTable
import OpenSwitch.Run
/-!
# BridgeLocks — concurrent Bridge calls and their session locks

Each `Bridge` call takes the lock of the session with the lower uuid and then that of the other, keeps both while the
switch bridges the legs, which takes them once more, and gives everything back when it returns, wherever that is.  A
lock is taken here as one for itself: exclusive between calls, re-entrant for the call that has it.  A session is found
by the C string of its uuid, so two uuids of a request that differ may still name one session.
-/
namespace Osw
namespace Control

/-! ## The order of the locks -/

/-- A lower string has no higher C string: the end of a C string is the lowest byte. -/
theorem cStr_lt_or_eq : ∀ {a b : Bytes}, a < b → cStr a < cStr b ∨ cStr a = cStr b
  | a, [], h => absurd h (List.not_lt_nil a)
  | [], y :: b, _ => by
    by_cases hy : y = 0
    · exact .inr (by simp [cStr, hy])
    · exact .inl (by simp [cStr, hy])
  | x :: a, y :: b, h => by
    rcases List.cons_lt_cons_iff.1 h with hxy | ⟨rfl, hab⟩
    · have hy : y ≠ 0 := by
        rintro rfl
        exact absurd hxy (by simp)
      by_cases hx : x = 0
      · exact .inl (by simp [cStr, hx, hy])
      · refine .inl ?_
        simp only [cStr, List.takeWhile_cons, hx, hy, ne_eq, not_false_eq_true, decide_true, if_true]
        exact List.cons_lt_cons_iff.2 (.inl hxy)
    · by_cases hx : x = 0
      · exact .inr (by simp [cStr, hx])
      · have ih := cStr_lt_or_eq hab
        simp only [cStr, List.takeWhile_cons, hx, ne_eq, not_false_eq_true, decide_true, if_true, List.cons.injEq,
          true_and] at ih ⊢
        exact ih.imp (fun h => List.cons_lt_cons_iff.2 (.inr ⟨rfl, h⟩)) id

namespace BridgeRequest

/-- The sessions of a request, in the order they are taken. -/
def firstKey (req : BridgeRequest) : Bytes := cStr req.ordered.1
def secondKey (req : BridgeRequest) : Bytes := cStr req.ordered.2

/-- The request gets past the checks of its uuids. -/
def wellFormed (req : BridgeRequest) : Bool :=
  req.legAUuid ≠ [] && req.legBUuid ≠ [] && req.legAUuid ≠ req.legBUuid

variable {req : BridgeRequest}

theorem ordered_lt (h : req.wellFormed = true) : req.ordered.1 < req.ordered.2 := by
  unfold ordered
  split
  · assumption
  · rename_i hlt
    have hne : req.legAUuid ≠ req.legBUuid := by
      simp only [wellFormed, Bool.and_eq_true, decide_eq_true_eq] at h
      exact h.2
    by_contra hnot
    exact hne (List.le_antisymm (List.not_lt.1 hnot) (List.not_lt.1 hlt))

theorem firstKey_lt (h : req.wellFormed = true) (hne : req.secondKey ≠ req.firstKey) : req.firstKey < req.secondKey :=
  (cStr_lt_or_eq (ordered_lt h)).resolve_right (fun he => hne he.symm)

/-- The sessions the switch locates to bridge the legs, in the order of the request. -/
def legKeys (req : BridgeRequest) : List Bytes := [cStr req.legAUuid, cStr req.legBUuid]

theorem mem_legKeys {l : Bytes} (h : l ∈ req.legKeys) : l ∈ [req.secondKey, req.firstKey] := by
  unfold legKeys at h
  unfold secondKey firstKey ordered
  split
  · simpa [or_comm] using h
  · simpa using h

end BridgeRequest

/-! ## The calls -/

/-- Where a call stands.  `first` and `second` are at a `Locate`, `bridging` is in `switch_ivr_uuid_bridge` with the
sessions it has still to locate and those it has, `leaving` gives its locks back. -/
inductive BridgePhase
  | idle
  | first (req : BridgeRequest)
  | second (req : BridgeRequest)
  | checking (req : BridgeRequest)
  | bridging (req : BridgeRequest) (todo inner : List Bytes)
  | leaving (guards : List Bytes)
  | returned
  deriving DecidableEq, Repr

namespace BridgePhase

/-- The locks a call has, the last taken first. -/
def guards : BridgePhase → List Bytes
  | second req           => [req.firstKey]
  | checking req         => [req.secondKey, req.firstKey]
  | bridging req _ inner => inner ++ [req.secondKey, req.firstKey]
  | leaving guards       => guards
  | _                    => []

/-- The lock it takes next, and where it goes when it has it. -/
def next : BridgePhase → Option (Bytes × BridgePhase)
  | first req                     => some (req.firstKey, second req)
  | second req                    => some (req.secondKey, checking req)
  | bridging req (u :: us) inner  => some (u, bridging req us (u :: inner))
  | _                             => none

/-- A call has got past the checks of its uuids, and the switch locates nothing but its legs. -/
def Ok : BridgePhase → Prop
  | first req | second req | checking req => req.wellFormed = true
  | bridging req todo _ => req.wellFormed = true ∧ ∀ u ∈ todo, u ∈ req.legKeys
  | _ => True

variable {p q : BridgePhase} {l l' : Bytes}

theorem next_guards (h : p.next = some (l, q)) : q.guards = l :: p.guards := by
  unfold next at h
  split at h <;> cases h <;> rfl

theorem Ok.next (hp : p.Ok) (h : p.next = some (l, q)) : q.Ok := by
  unfold BridgePhase.next at h
  split at h <;> cases h
  · exact hp
  · exact hp
  · exact ⟨hp.1, fun u hu => hp.2 u (List.mem_cons_of_mem _ hu)⟩

/-- **A call that has to wait has only lower locks.** -/
theorem Ok.lt_of_waits (hp : p.Ok) (h : p.next = some (l', q)) (hnot : l' ∉ p.guards) (hl : l ∈ p.guards) : l < l' := by
  unfold BridgePhase.next at h
  split at h <;> cases h
  · cases hl
  · rw [List.mem_singleton.1 hl]
    exact BridgeRequest.firstKey_lt hp (fun he => hnot (List.mem_singleton.2 he))
  · exact absurd (List.mem_append_right _ (BridgeRequest.mem_legKeys (hp.2 _ List.mem_cons_self))) hnot

end BridgePhase

structure BridgeLocks where
  phase : Nat → BridgePhase
  table : Bytes → Option (Nat × Nat)

namespace BridgeLocks

def init : BridgeLocks := ⟨fun _ => .idle, fun _ => none⟩

inductive Act
  | call (i : Nat) (req : BridgeRequest) (hit : Bool)
  | take (i : Nat)
  | bridge (i : Nat)
  | leave (i : Nat)
  | release (i : Nat)
  deriving DecidableEq, Repr

def goto (s : BridgeLocks) (i : Nat) (p : BridgePhase) : BridgeLocks := { s with phase := Function.update s.phase i p }

/-- One step of one call.  `hit` is an answer from the cache; `leave` is any return: a session that is not found, a check
that fails, or the end of the bridge. -/
def step (s : BridgeLocks) : Act → Option BridgeLocks
  | .call i req hit =>
    if s.phase i ≠ .idle then none
    else some (s.goto i (if hit || !req.wellFormed then .returned else .first req))
  | .take i =>
    match (s.phase i).next with
    | none        => none
    | some (l, p) => (LockTable.acquire s.table i l).map (fun t => { s.goto i p with table := t })
  | .bridge i =>
    match s.phase i with
    | .checking req => some (s.goto i (.bridging req req.legKeys []))
    | _             => none
  | .leave i =>
    match s.phase i with
    | .first _ | .second _ | .checking _ | .bridging .. => some (s.goto i (.leaving (s.phase i).guards))
    | _ => none
  | .release i =>
    match s.phase i with
    | .leaving []        => some (s.goto i .returned)
    | .leaving (l :: ls) => some { s.goto i (.leaving ls) with table := LockTable.release s.table i l }
    | _                  => none

/-- The call has the lock. -/
def Holds (s : BridgeLocks) (i : Nat) (l : Bytes) : Prop := l ∈ (s.phase i).guards

/-- The call is at the lock and cannot have it. -/
def Waits (s : BridgeLocks) (i : Nat) (l : Bytes) : Prop :=
  (∃ p, (s.phase i).next = some (l, p)) ∧ LockTable.acquire s.table i l = none

/-! ## What every run keeps -/

structure Inv (s : BridgeLocks) : Prop where
  counts : LockTable.Counts (fun i => (s.phase i).guards) s.table
  ok     : ∀ i, (s.phase i).Ok
  finite : {i | s.phase i ≠ .idle}.Finite

section inv

variable {s : BridgeLocks} {i : Nat} {p : BridgePhase}

theorem guards_goto (s : BridgeLocks) (i : Nat) (p : BridgePhase) :
    (fun j => ((s.goto i p).phase j).guards) = Function.update (fun j => (s.phase j).guards) i p.guards := by
  funext j
  by_cases hj : j = i
  · subst hj
    simp [goto]
  · simp [goto, hj]

theorem Inv.goto (h : s.Inv) {t : Bytes → Option (Nat × Nat)}
    (hcounts : LockTable.Counts (Function.update (fun j => (s.phase j).guards) i p.guards) t) (hp : p.Ok) :
    ({ s.goto i p with table := t } : BridgeLocks).Inv := by
  refine ⟨?_, fun j => ?_, ?_⟩
  · exact (guards_goto s i p).symm ▸ hcounts
  · by_cases hj : j = i
    · subst hj
      simpa [BridgeLocks.goto] using hp
    · simpa [BridgeLocks.goto, hj] using h.ok j
  · refine (h.finite.insert i).subset (fun j hj => ?_)
    by_cases hji : j = i
    · exact .inl hji
    · exact .inr (by simpa [BridgeLocks.goto, hji] using hj)

theorem Inv.move (h : s.Inv) (hg : p.guards = (s.phase i).guards) (hp : p.Ok) : (s.goto i p).Inv := by
  refine h.goto ?_ hp
  rw [hg, Function.update_eq_self]
  exact h.counts

theorem Inv.step (h : s.Inv) (a : Act) (s' : BridgeLocks) (hs : s.step a = some s') : s'.Inv := by
  cases a with
  | call i req hit =>
    simp only [BridgeLocks.step] at hs
    split at hs
    · cases hs
    · rename_i hi
      cases hs
      rw [not_not] at hi
      split
      · exact h.move (by rw [hi]; rfl) trivial
      · rename_i hreq
        refine h.move (by rw [hi]; rfl) ?_
        simp only [Bool.or_eq_true, Bool.not_eq_true', not_or, Bool.not_eq_false] at hreq
        exact hreq.2
  | take i =>
    simp only [BridgeLocks.step] at hs
    split at hs
    · cases hs
    · rename_i l p hp
      obtain ⟨t, ht, rfl⟩ := Option.map_eq_some_iff.1 hs
      refine h.goto ?_ ((h.ok i).next hp)
      rw [BridgePhase.next_guards hp]
      exact h.counts.acquire ht
  | bridge i =>
    simp only [BridgeLocks.step] at hs
    split at hs
    · rename_i req hi
      cases hs
      have hok := h.ok i
      rw [hi] at hok
      exact h.move (by rw [hi]; rfl) ⟨hok, fun u hu => hu⟩
    · cases hs
  | leave i =>
    simp only [BridgeLocks.step] at hs
    split at hs
    · cases hs
      exact h.move rfl trivial
    · cases hs
      exact h.move rfl trivial
    · cases hs
      exact h.move rfl trivial
    · cases hs
      exact h.move rfl trivial
    · cases hs
  | release i =>
    simp only [BridgeLocks.step] at hs
    split at hs
    · rename_i hi
      cases hs
      exact h.move (by rw [hi]; rfl) trivial
    · rename_i l ls hi
      cases hs
      refine h.goto ?_ trivial
      exact h.counts.release (by simp only [hi]; rfl)
    · cases hs

end inv

theorem inv_of_run {acts : List Act} {s : BridgeLocks} (h : Run.exec step acts init = some s) : s.Inv := by
  have hinit : init.Inv := by
    refine ⟨⟨fun _ _ => rfl, nofun⟩, fun _ => trivial, ?_⟩
    simp [init]
  exact Run.exec_inv (fun s a s' hi hs => hi.step a s' hs) acts _ s hinit h

theorem Inv.not_deadlocked {s : BridgeLocks} (h : s.Inv) (S : Set Nat) : ¬ LockTable.Deadlocked s.Holds s.Waits S := by
  intro hdead
  refine LockTable.not_deadlocked_of_order (r := fun a b => a < b) List.lt_trans List.lt_irrefl
    (fun i l l' hl hw => ?_) ?_ hdead
  · obtain ⟨⟨p, hp⟩, hnone⟩ := hw
    obtain ⟨j, hj, hmem⟩ := h.counts.acquire_eq_none.1 hnone
    exact (h.ok i).lt_of_waits hp (fun hown => hj (h.counts.holder_unique hmem hown)) hl
  · refine h.finite.subset (fun i hi hidle => ?_)
    obtain ⟨l, ⟨⟨p, hp⟩, -⟩, -⟩ := hdead.2 i hi
    rw [hidle] at hp
    cases hp

/-- **Concurrent bridges cannot deadlock**: in no state of any run are there calls that all wait for locks that calls
among them have. -/
theorem bridge_no_deadlock (acts : List Act) (s : BridgeLocks) (h : Run.exec step acts init = some s) (S : Set Nat) :
    ¬ LockTable.Deadlocked s.Holds s.Waits S :=
  (inv_of_run h).not_deadlocked S

/-- Two calls on the same legs, the other way round: the second waits for the first. -/
def reversed : List Act := [.call 0 ⟨[97], [98]⟩ false, .take 0, .call 1 ⟨[98], [97]⟩ false]

theorem bridge_no_deadlock_reversed :
    ∃ s, Run.exec step reversed init = some s ∧ s.Holds 0 [97] ∧ s.Waits 1 [97] ∧
      ¬ LockTable.Deadlocked s.Holds s.Waits Set.univ :=
  ⟨_, rfl, List.mem_cons_self, ⟨⟨_, rfl⟩, rfl⟩, bridge_no_deadlock reversed _ rfl Set.univ⟩

end BridgeLocks
end Control
end Osw
