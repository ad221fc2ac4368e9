import OpenSwitch.Bots
import OpenSwitch.Run
/-!
# BotIndex — the two maps of the active bots, under any number of calls

`Insert` is one section under the mutex of `ActiveBots`.  `Stop` takes a bot out of both maps in a section and tears it down
outside; `StopByChannel` copies the list of a channel and stops its bots one after the other, whatever has become of them
by then; `DrainAll` moves every bot out at once.  Each bot that was inserted is in one place at any time: in the maps, in
the hands of one call, or torn down (`Place`), and it goes from one to the next only.
-/
namespace Osw
namespace Control

namespace ActiveBots

variable {σ : Type} {k : Bytes}

/-- The first half of `DrainAll`, with the bots in the order of the map. -/
def drain (a : ActiveBots σ) (order : List Bytes) : List (ActiveBot σ) × ActiveBots σ := (order.filterMap a.byId, .empty)

theorem pushEach_of_nodup : ∀ {us : List Bytes} {f : Bytes → Option (List Bytes)}, us.Nodup → ∀ u,
    (pushEach k f us u).getD [] = if u ∈ us then (f u).getD [] ++ [k] else (f u).getD []
  | [], _, _, _ => rfl
  | v :: us, f, hnd, u => by
    obtain ⟨hv, hnd⟩ := List.nodup_cons.1 hnd
    rw [show pushEach k f (v :: us) = pushEach k (Function.update f v (some ((f v).getD [] ++ [k]))) us from rfl,
      pushEach_of_nodup hnd]
    by_cases huv : u = v
    · subst huv
      simp [hv]
    · simp [huv]

theorem take_channelBots (a : ActiveBots σ) (k u : Bytes) : ((a.take k).2.channelBots u).Sublist (a.channelBots u) := by
  cases h : a.byId k with
  | none => rw [take_of_none h]
  | some b =>
    rw [channelBots, take_byChannel h, dropEach_getD]
    split
    · exact List.filter_sublist
    · exact List.Sublist.refl _

end ActiveBots

/-! ## The calls -/

/-- What `Insert` is given; no target stands in the list twice. -/
structure NewBot where
  botId     : Bytes
  targets   : List Bytes
  streamIds : List Bytes
  distinct  : targets.Nodup

/-- A call that stops bots: those it has taken out of the maps, and the ids it has still to look up. -/
structure Stopping where
  taken : List (ActiveBot Nat)
  ids   : List Bytes

/-- The maps with the ids of `by_id_`; the calls under way; the number of bots inserted, each of which has its number for a
session; and the bots torn down, in their order. -/
structure BotCalls where
  bots     : ActiveBots Nat
  ids      : List Bytes
  inserted : Nat
  calls    : Nat → Stopping
  tornDown : List Nat

inductive BotIndexAct
  | insert (b : NewBot)
  | stop (i : Nat) (k : Bytes)
  | stopByChannel (i : Nat) (u : Bytes)
  | drainAll (i : Nat) (order : List Bytes)
  | go (i : Nat)

namespace BotCalls

def init : BotCalls := ⟨.empty, [], 0, fun _ => ⟨[], []⟩, []⟩

def setCall (s : BotCalls) (i : Nat) (c : Stopping) : BotCalls := { s with calls := Function.update s.calls i c }

def idle (s : BotCalls) (i : Nat) : Bool := (s.calls i).taken.isEmpty && (s.calls i).ids.isEmpty

/-- The bot of an `Insert`. -/
def newBot (s : BotCalls) (b : NewBot) : ActiveBot Nat := ⟨b.botId, b.targets, b.streamIds, s.inserted⟩

/-- The next step of call `i`: a bot it has taken is torn down, or the next id is looked up under the mutex. -/
def go (s : BotCalls) (i : Nat) : Option BotCalls :=
  match s.calls i with
  | ⟨b :: taken, ids⟩ => some ({ s with tornDown := s.tornDown ++ [b.session] }.setCall i ⟨taken, ids⟩)
  | ⟨[], k :: ids⟩ =>
    match s.bots.take k with
    | (none, bots)   => some ({ s with bots := bots }.setCall i ⟨[], ids⟩)
    | (some b, bots) => some ({ s with bots := bots, ids := s.ids.erase k }.setCall i ⟨[b], ids⟩)
  | ⟨[], []⟩ => none

def step (cap : Nat) (s : BotCalls) : BotIndexAct → Option BotCalls
  | .insert b =>
    match s.bots.insert (s.newBot b) cap with
    | (bots, .inserted) => some { s with bots := bots, ids := s.ids ++ [b.botId], inserted := s.inserted + 1 }
    | (bots, _)         => some { s with bots := bots }
  | .stop i k => if s.idle i then some (s.setCall i ⟨[], [k]⟩) else none
  | .stopByChannel i u => if s.idle i then some (s.setCall i ⟨[], s.bots.channelBots u⟩) else none
  | .drainAll i order =>
    if s.idle i ∧ order.Perm s.ids then
      some ({ s with bots := (s.bots.drain order).2, ids := [] }.setCall i ⟨(s.bots.drain order).1, []⟩)
    else none
  | .go i => s.go i

/-! ## Where a bot is -/

inductive Place
  | unused
  | active (k : Bytes)
  | taken (i : Nat)
  | gone
  deriving DecidableEq, Repr

/-- What every run keeps, with the place of each bot by its number. -/
structure Inv (cap : Nat) (s : BotCalls) (place : Nat → Place) : Prop where
  nodup  : s.ids.Nodup
  ids    : ∀ k, k ∈ s.ids ↔ s.bots.byId k ≠ none
  lists  : ∀ u, (s.bots.channelBots u).Nodup ∧ (s.bots.channelBots u).length ≤ cap
  unused : ∀ n, place n = .unused ↔ s.inserted ≤ n
  active : ∀ n k, place n = .active k ↔ ∃ b, s.bots.byId k = some b ∧ b.session = n
  taken  : ∀ n i, place n = .taken i ↔ n ∈ (s.calls i).taken.map (·.session)
  once   : ∀ i, ((s.calls i).taken.map (·.session)).Nodup
  gone   : ∀ n, place n = .gone ↔ n ∈ s.tornDown
  torn   : s.tornDown.Nodup

theorem Inv.init (cap : Nat) : init.Inv cap (fun _ => .unused) where
  nodup := List.nodup_nil
  ids k := by simp [BotCalls.init, ActiveBots.empty]
  lists u := ⟨List.nodup_nil, Nat.zero_le _⟩
  unused n := by simp [BotCalls.init]
  active n k := by simp [BotCalls.init, ActiveBots.empty]
  taken n i := by simp [BotCalls.init]
  once i := List.nodup_nil
  gone n := by simp [BotCalls.init]
  torn := List.nodup_nil

section step

variable {cap i : Nat} {s : BotCalls} {place : Nat → Place} {b : ActiveBot Nat} {ids order : List Bytes}

theorem Inv.key_unique (h : s.Inv cap place) {k j : Bytes} {c : ActiveBot Nat} (hk : s.bots.byId k = some b)
    (hj : s.bots.byId j = some c) (hbc : b.session = c.session) : k = j := by
  have hk' := (h.active b.session k).2 ⟨b, hk, rfl⟩
  have hj' := (h.active b.session j).2 ⟨c, hj, hbc.symm⟩
  rw [hk'] at hj'
  exact Place.active.inj hj'

theorem setCall_self (s : BotCalls) (i : Nat) (c : Stopping) : (s.setCall i c).calls i = c := Function.update_self ..

theorem setCall_of_ne (s : BotCalls) {j : Nat} (h : j ≠ i) (c : Stopping) : (s.setCall i c).calls j = s.calls j :=
  Function.update_of_ne h ..

theorem Inv.setIds (h : s.Inv cap place) (ids : List Bytes) : (s.setCall i ⟨(s.calls i).taken, ids⟩).Inv cap place := by
  have hcalls : ∀ j, ((s.setCall i ⟨(s.calls i).taken, ids⟩).calls j).taken = (s.calls j).taken := by
    intro j
    by_cases hj : j = i
    · subst hj
      rw [setCall_self]
    · rw [setCall_of_ne s hj]
  refine ⟨h.nodup, h.ids, h.lists, h.unused, h.active, fun n j => ?_, fun j => ?_, h.gone, h.torn⟩
  · rw [hcalls]
    exact h.taken n j
  · rw [hcalls]
    exact h.once j

theorem update_place_iff {n : Nat} {p q : Place} (hp : p ≠ q) (hq : place n ≠ q) (m : Nat) :
    Function.update place n p m = q ↔ place m = q := by
  rw [Function.update_apply]
  split
  · rename_i hm
    subst hm
    simp [hp, hq]
  · rfl

/-- An `Insert` that succeeds: the new bot becomes active. -/
theorem Inv.insert (h : s.Inv cap place) {b : NewBot} {bots : ActiveBots Nat}
    (hins : s.bots.insert (s.newBot b) cap = (bots, .inserted)) :
    Inv cap { s with bots := bots, ids := s.ids ++ [b.botId], inserted := s.inserted + 1 }
      (Function.update place s.inserted (.active b.botId)) := by
  obtain ⟨-, hnew, hroom, hbyId, hbyCh⟩ := ActiveBots.insert_inserted hins
  change s.bots.byId b.botId = none at hnew
  change bots.byId = Function.update s.bots.byId b.botId (some (s.newBot b)) at hbyId
  have hunused : place s.inserted = .unused := (h.unused _).2 (Nat.le_refl _)
  have hnot : b.botId ∉ s.ids := fun hm => (h.ids _).1 hm hnew
  refine ⟨?_, fun k => ?_, fun u => ?_, fun n => ?_, fun n k => ?_, fun n j => ?_, h.once, fun n => ?_, h.torn⟩
  · refine List.nodup_append.2 ⟨h.nodup, by simp, ?_⟩
    rintro a ha c hc rfl
    exact hnot (List.mem_singleton.1 hc ▸ ha)
  · rw [List.mem_append, h.ids, List.mem_singleton]
    show _ ↔ bots.byId k ≠ none
    rw [hbyId, Function.update_apply]
    by_cases hk : k = b.botId <;> simp [hk]
  · have hlist : bots.channelBots u = if u ∈ b.targets then s.bots.channelBots u ++ [b.botId] else s.bots.channelBots u := by
      rw [ActiveBots.channelBots, hbyCh]
      exact ActiveBots.pushEach_of_nodup b.distinct u
    rw [hlist]
    split
    · rename_i hu
      refine ⟨List.nodup_append.2 ⟨(h.lists u).1, by simp, ?_⟩, ?_⟩
      · rintro a ha c hc rfl
        rw [List.mem_singleton.1 hc] at ha
        obtain ⟨b', hb', -⟩ := (s.bots.mem_channelBots).1 ha
        rw [hnew] at hb'
        cases hb'
      · rw [List.length_append]
        exact hroom u hu
    · exact h.lists u
  · rw [Function.update_apply]
    split
    · rename_i hn
      simp [hn]
    · rename_i hn
      rw [h.unused]
      show _ ↔ s.inserted + 1 ≤ n
      omega
  · show _ ↔ ∃ c, bots.byId k = some c ∧ c.session = n
    rw [hbyId]
    by_cases hk : k = b.botId
    · subst hk
      rw [Function.update_self]
      by_cases hn : n = s.inserted
      · subst hn
        simp [newBot]
      · have hno : ¬ ∃ c, s.bots.byId b.botId = some c ∧ c.session = n := by simp [hnew]
        rw [Function.update_of_ne hn, h.active]
        simp [hno, newBot, Ne.symm hn]
    · rw [Function.update_of_ne hk]
      by_cases hn : n = s.inserted
      · subst hn
        rw [Function.update_self, ← h.active, hunused]
        simp [Ne.symm hk]
      · rw [Function.update_of_ne hn, h.active]
  · exact (update_place_iff (by simp) (by simp [hunused]) n).trans (h.taken n j)
  · exact (update_place_iff (by simp) (by simp [hunused]) n).trans (h.gone n)

/-- A bot is taken out of the maps by call `i`. -/
theorem Inv.take (h : s.Inv cap place) {k : Bytes} (hi : (s.calls i).taken = []) (hb : s.bots.byId k = some b) :
    Inv cap ({ s with bots := (s.bots.take k).2, ids := s.ids.erase k }.setCall i ⟨[b], ids⟩)
      (Function.update place b.session (.taken i)) := by
  have hactive : place b.session = .active k := (h.active _ _).2 ⟨b, hb, rfl⟩
  have hbyId := s.bots.take_byId k
  refine ⟨h.nodup.erase k, fun j => ?_, fun u => ?_, fun n => ?_, fun n j => ?_, fun n j => ?_, fun j => ?_, fun n => ?_,
    h.torn⟩
  · show j ∈ s.ids.erase k ↔ (s.bots.take k).2.byId j ≠ none
    rw [hbyId, h.nodup.mem_erase_iff, h.ids, Function.update_apply]
    by_cases hj : j = k <;> simp [hj]
  · have hsub := s.bots.take_channelBots k u
    exact ⟨hsub.nodup (h.lists u).1, hsub.length_le.trans (h.lists u).2⟩
  · exact (update_place_iff (by simp) (by simp [hactive]) n).trans (h.unused n)
  · show _ ↔ ∃ c, (s.bots.take k).2.byId j = some c ∧ c.session = n
    rw [hbyId]
    by_cases hn : n = b.session
    · subst hn
      rw [Function.update_self]
      refine ⟨nofun, ?_⟩
      rintro ⟨c, hc, hcs⟩
      rw [Function.update_apply] at hc
      split at hc
      · cases hc
      · rename_i hj
        exact absurd (h.key_unique hc hb hcs) hj
    · rw [Function.update_of_ne hn, h.active]
      by_cases hj : j = k
      · subst hj
        rw [Function.update_self, hb]
        simp [Ne.symm hn]
      · rw [Function.update_of_ne hj]
  · by_cases hj : j = i
    · subst hj
      rw [setCall_self, Function.update_apply]
      split
      · rename_i hn
        simp [hn]
      · rename_i hn
        rw [h.taken, hi]
        simp [hn]
    · rw [setCall_of_ne _ hj]
      refine (update_place_iff ?_ (by simp [hactive]) n).trans (h.taken n j)
      exact fun he => hj (Place.taken.inj he).symm
  · by_cases hj : j = i
    · subst hj
      rw [setCall_self]
      simp
    · rw [setCall_of_ne _ hj]
      exact h.once j
  · exact (update_place_iff (by simp) (by simp [hactive]) n).trans (h.gone n)

/-- A bot that call `i` has is torn down. -/
theorem Inv.tearDown (h : s.Inv cap place) {taken : List (ActiveBot Nat)} (hi : s.calls i = ⟨b :: taken, ids⟩) :
    Inv cap ({ s with tornDown := s.tornDown ++ [b.session] }.setCall i ⟨taken, ids⟩)
      (Function.update place b.session .gone) := by
  have htaken : place b.session = .taken i := (h.taken _ _).2 (by rw [hi]; simp)
  have honce : (b.session :: taken.map (·.session)).Nodup := by
    have := h.once i
    rwa [hi] at this
  obtain ⟨hnot, hnd⟩ := List.nodup_cons.1 honce
  refine ⟨h.nodup, h.ids, h.lists, fun n => ?_, fun n k => ?_, fun n j => ?_, fun j => ?_, fun n => ?_, ?_⟩
  · exact (update_place_iff (by simp) (by simp [htaken]) n).trans (h.unused n)
  · exact (update_place_iff (by simp) (by simp [htaken]) n).trans (h.active n k)
  · by_cases hj : j = i
    · subst hj
      have hold := h.taken n j
      rw [hi] at hold
      rw [setCall_self]
      by_cases hn : n = b.session
      · subst hn
        rw [Function.update_self]
        simp [hnot]
      · rw [Function.update_of_ne hn, hold]
        simp [hn]
    · rw [setCall_of_ne _ hj]
      refine (update_place_iff (by simp) ?_ n).trans (h.taken n j)
      rw [htaken]
      exact fun he => hj (Place.taken.inj he).symm
  · by_cases hj : j = i
    · subst hj
      rw [setCall_self]
      exact hnd
    · rw [setCall_of_ne _ hj]
      exact h.once j
  · show _ ↔ n ∈ s.tornDown ++ [b.session]
    rw [List.mem_append, ← h.gone, List.mem_singleton, Function.update_apply]
    split
    · rename_i hn
      simp [hn]
    · rename_i hn
      simp [hn]
  · refine List.nodup_append.2 ⟨h.torn, by simp, ?_⟩
    rintro a ha c hc rfl
    rw [List.mem_singleton.1 hc, ← h.gone, htaken] at ha
    cases ha

/-- Where the bots are once call `i` has drained the maps. -/
def drained (place : Nat → Place) (i : Nat) (n : Nat) : Place :=
  match place n with
  | .active _ => .taken i
  | p         => p

theorem drained_eq_iff {p : Place} (hp : p ≠ .taken i) (hactive : ∀ k, p ≠ .active k) (n : Nat) :
    drained place i n = p ↔ place n = p := by
  unfold drained
  split
  · rename_i k hk
    rw [hk]
    exact ⟨fun he => absurd he.symm hp, fun he => absurd he.symm (hactive k)⟩
  · rfl

theorem mem_drain (h : s.Inv cap place) (hperm : order.Perm s.ids) (n : Nat) :
    n ∈ (s.bots.drain order).1.map (·.session) ↔ ∃ k, place n = .active k := by
  simp only [ActiveBots.drain, List.mem_map, List.mem_filterMap, h.active]
  constructor
  · rintro ⟨b, ⟨k, -, hb⟩, rfl⟩
    exact ⟨k, b, hb, rfl⟩
  · rintro ⟨k, b, hb, rfl⟩
    refine ⟨b, ⟨k, hperm.mem_iff.2 ((h.ids k).2 ?_), hb⟩, rfl⟩
    rw [hb]
    exact nofun

/-- The bots that `DrainAll` moves out are all different. -/
theorem nodup_drain (h : s.Inv cap place) (hnd : order.Nodup) : ((s.bots.drain order).1.map (·.session)).Nodup := by
  unfold ActiveBots.drain
  induction order with
  | nil => exact List.nodup_nil
  | cons k order ih =>
    obtain ⟨hk, hnd⟩ := List.nodup_cons.1 hnd
    cases hb : s.bots.byId k with
    | none =>
      rw [List.filterMap_cons_none hb]
      exact ih hnd
    | some b =>
      rw [List.filterMap_cons_some hb, List.map_cons]
      refine List.nodup_cons.2 ⟨fun hm => ?_, ih hnd⟩
      obtain ⟨c, hc, hcb⟩ := List.mem_map.1 hm
      obtain ⟨j, hj, hcj⟩ := List.mem_filterMap.1 hc
      exact hk (h.key_unique hcj hb hcb ▸ hj)

theorem Inv.drain (h : s.Inv cap place) (hi : (s.calls i).taken = []) (hperm : order.Perm s.ids) :
    Inv cap ({ s with bots := (s.bots.drain order).2, ids := [] }.setCall i ⟨(s.bots.drain order).1, ids⟩)
      (drained place i) := by
  refine ⟨List.nodup_nil, fun k => ?_, fun u => ⟨List.nodup_nil, Nat.zero_le _⟩, fun n => ?_, fun n k => ?_, fun n j => ?_,
    fun j => ?_, fun n => ?_, h.torn⟩
  · simp [setCall, ActiveBots.drain, ActiveBots.empty]
  · exact (drained_eq_iff (by simp) (by simp) n).trans (h.unused n)
  · have hne : drained place i n ≠ .active k := by
      unfold drained
      split
      · exact nofun
      · rename_i hno
        exact hno k
    simp [hne, setCall, ActiveBots.drain, ActiveBots.empty]
  · by_cases hj : j = i
    · subst hj
      rw [setCall_self, mem_drain h hperm]
      have hnone := h.taken n j
      rw [hi] at hnone
      unfold drained
      split
      · rename_i k hk
        simp [hk]
      · rename_i hno
        refine ⟨fun he => ?_, fun ⟨k, hk⟩ => absurd hk (hno k)⟩
        exact absurd (hnone.1 he) (by simp)
    · rw [setCall_of_ne _ hj]
      exact (drained_eq_iff (fun he => hj (Place.taken.inj he)) (by simp) n).trans (h.taken n j)
  · by_cases hj : j = i
    · subst hj
      rw [setCall_self]
      exact nodup_drain h (hperm.nodup_iff.2 h.nodup)
    · rw [setCall_of_ne _ hj]
      exact h.once j
  · exact (drained_eq_iff (by simp) (by simp) n).trans (h.gone n)

theorem taken_of_idle (h : s.idle i = true) : (s.calls i).taken = [] := by
  simp only [idle, Bool.and_eq_true, List.isEmpty_iff] at h
  exact h.1

theorem Inv.go (h : s.Inv cap place) {s' : BotCalls} (hs : s.go i = some s') : ∃ place', s'.Inv cap place' := by
  unfold BotCalls.go at hs
  split at hs
  · rename_i b taken ids hi
    cases hs
    exact ⟨_, h.tearDown hi⟩
  · rename_i k ids hi
    have htaken : (s.calls i).taken = [] := by rw [hi]
    cases hb : s.bots.byId k with
    | none =>
      rw [ActiveBots.take_of_none hb] at hs
      cases hs
      refine ⟨place, ?_⟩
      have hmoved := h.setIds (i := i) ids
      rwa [htaken] at hmoved
    | some b =>
      have htake : s.bots.take k = (some b, (s.bots.take k).2) := by rw [← hb, ← s.bots.take_fst k]
      rw [htake] at hs
      cases hs
      exact ⟨_, h.take htaken hb⟩
  · cases hs

theorem Inv.step (h : s.Inv cap place) (a : BotIndexAct) (s' : BotCalls) (hs : s.step cap a = some s') :
    ∃ place', s'.Inv cap place' := by
  cases a with
  | insert b =>
    simp only [BotCalls.step] at hs
    split at hs
    · rename_i bots hins
      cases hs
      exact ⟨_, h.insert hins⟩
    · rename_i bots r hr hins
      cases hs
      obtain ⟨rfl, -⟩ := ActiveBots.insert_refused hins hr
      exact ⟨place, h⟩
  | stop i k =>
    simp only [BotCalls.step] at hs
    split at hs
    · rename_i hidle
      cases hs
      have hmoved := h.setIds (i := i) [k]
      rw [taken_of_idle hidle] at hmoved
      exact ⟨place, hmoved⟩
    · cases hs
  | stopByChannel i u =>
    simp only [BotCalls.step] at hs
    split at hs
    · rename_i hidle
      cases hs
      have hmoved := h.setIds (i := i) (s.bots.channelBots u)
      rw [taken_of_idle hidle] at hmoved
      exact ⟨place, hmoved⟩
    · cases hs
  | drainAll i order =>
    simp only [BotCalls.step] at hs
    split at hs
    · rename_i hready
      cases hs
      exact ⟨_, h.drain (taken_of_idle hready.1) hready.2⟩
    · cases hs
  | go i => exact h.go hs

end step

theorem exists_inv {cap : Nat} {acts : List BotIndexAct} {s : BotCalls} (hrun : Run.exec (step cap) acts init = some s) :
    ∃ place, s.Inv cap place :=
  Run.exec_inv (I := fun s => ∃ place, Inv cap s place) (fun _ a s' hi hs => hi.elim fun _ h => h.step a s' hs) acts _ s
    ⟨_, .init cap⟩ hrun

/-- **The index of the bots is coherent and capped**, in every interleaving: a channel has each bot that targets it on its
list, once, and no other; no list is empty, none is longer than the cap; an `Insert` that is refused changes nothing; and
no bot is torn down twice. -/
theorem bot_index_coherent (cap : Nat) (acts : List BotIndexAct) (s : BotCalls)
    (hrun : Run.exec (step cap) acts init = some s) :
    (∀ u, (s.bots.channelBots u).Nodup ∧
      ∀ k, k ∈ s.bots.channelBots u ↔ ∃ b, s.bots.byId k = some b ∧ u ∈ b.targets) ∧
    (∀ u, s.bots.byChannel u ≠ some []) ∧
    (∀ u, (s.bots.channelBots u).length ≤ cap) ∧
    (∀ b, (s.bots.insert (s.newBot b) cap).2 ≠ .inserted → s.step cap (.insert b) = some s) ∧
    s.tornDown.Nodup := by
  obtain ⟨place, h⟩ := exists_inv hrun
  refine ⟨fun u => ⟨(h.lists u).1, fun k => s.bots.mem_channelBots⟩, fun u hu => (s.bots.indexed u [] hu).1 rfl,
    fun u => (h.lists u).2, fun b hr => ?_, h.torn⟩
  cases hins : s.bots.insert (s.newBot b) cap with
  | mk bots r =>
    rw [hins] at hr
    obtain ⟨rfl, -⟩ := ActiveBots.insert_refused hins hr
    simp only [step, hins]

/-- Two calls want the same bot, one of them from a list it has copied; a bot that comes in between is drained. -/
def twoCalls : List BotIndexAct :=
  [.insert ⟨[1], [[97], [98]], [], by decide⟩, .insert ⟨[2], [[98]], [], by decide⟩, .stopByChannel 0 [98], .stop 1 [1],
    .go 1, .insert ⟨[2], [[98]], [], by decide⟩, .go 0, .go 1, .drainAll 2 [[2]], .go 2]

theorem bot_index_coherent_twoCalls :
    ∃ s, Run.exec (step 1) twoCalls init = some s ∧ s.inserted = 2 ∧ s.tornDown = [0, 1] ∧ s.tornDown.Nodup := by
  refine ⟨_, rfl, rfl, rfl, ?_⟩
  exact (bot_index_coherent 1 twoCalls _ rfl).2.2.2.2

/-- **No bot is lost**: when the maps are empty and no call is under way, each bot that was inserted has been torn down. -/
theorem all_torn_down {cap : Nat} {acts : List BotIndexAct} {s : BotCalls} (hrun : Run.exec (step cap) acts init = some s)
    (hidle : ∀ i, s.idle i = true) (hempty : ∀ k, s.bots.byId k = none) (n : Nat) :
    n ∈ s.tornDown ↔ n < s.inserted := by
  obtain ⟨place, h⟩ := exists_inv hrun
  have hunused := h.unused n
  rw [← h.gone]
  cases hp : place n with
  | unused =>
    have hle := hunused.1 hp
    simp only [reduceCtorEq, false_iff]
    omega
  | active k =>
    obtain ⟨b, hb, -⟩ := (h.active n k).1 hp
    rw [hempty] at hb
    cases hb
  | taken i =>
    have hmem := (h.taken n i).1 hp
    rw [taken_of_idle (hidle i)] at hmem
    cases hmem
  | gone =>
    rw [hp] at hunused
    simp only [reduceCtorEq, false_iff] at hunused
    simp only [true_iff]
    omega

theorem all_torn_down_twoCalls :
    ∃ s, Run.exec (step 1) twoCalls init = some s ∧ s.inserted = 2 ∧ ∀ n, n ∈ s.tornDown ↔ n < s.inserted := by
  refine ⟨_, rfl, rfl, @all_torn_down 1 twoCalls _ rfl (fun i => ?_) fun _ => rfl⟩
  rcases i with _ | _ | _ | i <;> rfl

end BotCalls
end Control
end Osw
