import OpenSwitch.Bots
import OpenSwitch.BotPlayout
import OpenSwitch.DropQueue
/-!
# BugFanout — every frame once per write target (`bug_fanout.cc`, `ValidateStartBot`, `BotSession`)

`Push` puts a frame into each of `write_queues_` in turn and cuts every queue back to its capacity.  For each target that
is a drop-oldest queue offered every frame once, as long as no queue stands in `write_queues_` twice
(`Delivers`); `ValidateStartBot` refuses a target that is given twice, but not a write target.
-/
namespace Osw
namespace Media

/-- The members of `BugFanout`; a queue is known by its place in `queues_`. -/
structure BugFanout where
  cfg          : FanoutConfig
  queues       : Nat → TargetQueue
  halfClosed   : Bool
  totalDropped : Nat

inductive FanoutCall
  | push (f : AudioFrame)
  | pop (uuid : Bytes)
  | halfClose
  deriving DecidableEq, Repr

namespace BugFanout

def make (cfg : FanoutConfig) : BugFanout := ⟨cfg, fun _ => .empty, false, 0⟩

/-- The loop of `Push`: the queues and the frames dropped so far.  All but the last queue get a copy. -/
def pushLoop (capacity : Nat) (f : AudioFrame) : List Nat → (Nat → TargetQueue) → Nat → (Nat → TargetQueue) × Nat
  | [], queues, dropped => (queues, dropped)
  | i :: is, queues, dropped =>
    pushLoop capacity f is (Function.update queues i ((queues i).pushBack capacity f))
      (dropped + (queues i).excess capacity)

/-- `Push`, which returns how many frames it dropped. -/
def push (s : BugFanout) (f : AudioFrame) : Nat × BugFanout :=
  if s.halfClosed then (0, s)
  else
    let r := pushLoop s.cfg.capacityFrames f s.cfg.writeQueues s.queues 0
    (r.2, { s with queues := r.1, totalDropped := (s.totalDropped + r.2) % 2 ^ 64 })

def pop (s : BugFanout) (uuid : Bytes) : Option AudioFrame × BugFanout :=
  match s.cfg.findQueue uuid with
  | none   => (none, s)
  | some i => ((s.queues i).queue.head?, { s with queues := Function.update s.queues i (s.queues i).popFront })

def call (s : BugFanout) : FanoutCall → BugFanout
  | .push f    => (s.push f).2
  | .pop uuid  => (s.pop uuid).2
  | .halfClose => { s with halfClosed := true }

def after (cfg : FanoutConfig) (calls : List FanoutCall) : BugFanout := calls.foldl call (make cfg)

def queueOf (s : BugFanout) (uuid : Bytes) : TargetQueue := ((s.cfg.findQueue uuid).map s.queues).getD .empty

end BugFanout

namespace FanoutConfig

variable {cfg : FanoutConfig} {i : Nat}

theorem findQueue_lt {u : Bytes} (h : cfg.findQueue u = some i) : i < cfg.targetUuids.length :=
  (List.findIdx?_eq_some_iff_getElem.1 h).1

theorem writeQueues_lt (h : i ∈ cfg.writeQueues) : i < cfg.targetUuids.length := by
  unfold writeQueues at h
  split at h
  · exact List.mem_range.1 h
  · obtain ⟨u, -, hu⟩ := List.mem_filterMap.1 h
    exact findQueue_lt hu

theorem findQueue_of_mem {u : Bytes} (h : u ∈ cfg.targetUuids) : ∃ i, cfg.findQueue u = some i := by
  rw [← Option.isSome_iff_exists, findQueue, List.findIdx?_isSome]
  simpa using h

theorem findQueue_getElem (hnd : cfg.targetUuids.Nodup) (hi : i < cfg.targetUuids.length) :
    cfg.findQueue cfg.targetUuids[i] = some i := by
  refine List.findIdx?_eq_some_iff_getElem.2 ⟨hi, by simp, fun j hj => ?_⟩
  have hne : cfg.targetUuids[j] ≠ cfg.targetUuids[i] := fun heq => by
    have := (List.Nodup.getElem_inj_iff hnd).1 heq
    omega
  simpa using hne

end FanoutConfig

/-! ## What a target should get -/

/-- The frames pushed before `HalfClose`. -/
def pushedFrames : List FanoutCall → List AudioFrame
  | [] => []
  | .push f :: calls => f :: pushedFrames calls
  | .pop _ :: calls => pushedFrames calls
  | .halfClose :: _ => []

/-- The frames a last call adds to those pushed. -/
def FanoutCall.frames : FanoutCall → List AudioFrame
  | .push f => [f]
  | _ => []

theorem pushedFrames_append (c : FanoutCall) : ∀ calls : List FanoutCall,
    pushedFrames (calls ++ [c]) = pushedFrames calls ++ (if .halfClose ∈ calls then [] else c.frames)
  | [] => by cases c <;> rfl
  | .push f :: calls => by
    rw [List.cons_append, pushedFrames, pushedFrames, pushedFrames_append c calls, List.cons_append]
    simp
  | .pop u :: calls => by
    rw [List.cons_append, pushedFrames, pushedFrames, pushedFrames_append c calls]
    simp
  | .halfClose :: calls => by simp [pushedFrames]

theorem pushedFrames_of_none {c : FanoutCall} (h : c.frames = []) (calls : List FanoutCall) :
    pushedFrames (calls ++ [c]) = pushedFrames calls := by
  rw [pushedFrames_append, h, ite_self, List.append_nil]

/-- What a fan-out owes its targets after a sequence of calls, `writes` being the targets it writes to. -/
structure Delivers (cfg : FanoutConfig) (writes : Bytes → Bool) (calls : List FanoutCall) : Prop where
  /-- What a write target was handed and then what is queued for it are the pushed frames, once and in order, without
  those marked as dropped; any other target gets nothing. -/
  once   : ∀ u ∈ cfg.targetUuids, ∃ marks : List (AudioFrame × Bool),
             marks.map Prod.fst = (if writes u then pushedFrames calls else []) ∧
             (marks.filter (fun d => !d.2)).map Prod.fst
               = ((BugFanout.after cfg calls).queueOf u).popped ++ ((BugFanout.after cfg calls).queueOf u).queue ∧
             (marks.filter (·.2)).map Prod.fst = ((BugFanout.after cfg calls).queueOf u).dropped
  /-- A call drops the oldest frame of a full queue that it pushes to, and no other. -/
  oldest : ∀ u ∈ cfg.targetUuids, ∀ c, ((BugFanout.after cfg (calls ++ [c])).queueOf u).dropped
             = ((BugFanout.after cfg calls).queueOf u).dropped ++
               (if writes u ∧ .halfClose ∉ calls ∧ c.frames ≠ [] ∧
                  ((BugFanout.after cfg calls).queueOf u).queue.length = cfg.capacityFrames
                then ((BugFanout.after cfg calls).queueOf u).queue.head?.toList else [])
  total  : (BugFanout.after cfg calls).totalDropped
             = ((cfg.targetUuids.map (fun u => ((BugFanout.after cfg calls).queueOf u).dropped.length)).sum) % 2 ^ 64

/-! ## One queue -/

namespace TargetQueue

variable {capacity : Nat} {t : TargetQueue}

/-- The queue and its histories are those of a drop-oldest queue offered `frames`. -/
def Kept (capacity : Nat) (t : TargetQueue) (frames : List AudioFrame) : Prop :=
  ∃ q : DropQueue AudioFrame capacity,
    q.held = t.queue ∧ q.drops = t.dropped ∧ q.taken = t.popped ∧ q.offered = frames

theorem kept_empty (capacity : Nat) : Kept capacity empty [] := ⟨.make _ _, rfl, rfl, rfl, rfl⟩

theorem Kept.pushBack {frames : List AudioFrame} (h : Kept capacity t frames) (f : AudioFrame) :
    Kept capacity (t.pushBack capacity f) (frames ++ [f]) := by
  obtain ⟨q, hh, hd, ht, ho⟩ := h
  have hexcess : q.excess = t.excess capacity := by rw [DropQueue.excess, hh, excess]
  refine ⟨q.offer f, ?_, ?_, ?_, ?_⟩
  · change (q.held ++ [f]).drop q.excess = _
    rw [hh, hexcess]
    rfl
  · rw [DropQueue.drops_offer, hd, hh, hexcess]
    rfl
  · rw [DropQueue.taken_offer]
    exact ht
  · change q.offered ++ [f] = _
    rw [ho]

theorem popFront_of_nil (h : t.queue = []) : t.popFront = t := by
  cases t
  cases h
  simp [popFront]

theorem Kept.popFront {frames : List AudioFrame} (h : Kept capacity t frames) : Kept capacity t.popFront frames := by
  obtain ⟨q, hh, hd, ht, ho⟩ := h
  refine ⟨q.take, ?_, ?_, ?_, ho⟩
  · change q.held.tail = t.queue.tail
    rw [hh]
  · rw [DropQueue.drops_take]
    exact hd
  · rw [DropQueue.taken_take, ht, hh]
    rfl

theorem Kept.marks {frames : List AudioFrame} (h : Kept capacity t frames) :
    ∃ marks : List (AudioFrame × Bool), marks.map Prod.fst = frames ∧
      (marks.filter (fun d => !d.2)).map Prod.fst = t.popped ++ t.queue ∧
      (marks.filter (·.2)).map Prod.fst = t.dropped := by
  obtain ⟨q, hh, hd, ht, ho⟩ := h
  obtain ⟨marks, hm, hk, hdr⟩ := q.marks
  exact ⟨marks, hm.trans ho, by rw [hk, ht, hh], hdr.trans hd⟩

theorem Kept.dropped_pushBack (hpos : 0 < capacity) {frames : List AudioFrame} (h : Kept capacity t frames)
    (f : AudioFrame) :
    (t.pushBack capacity f).dropped = t.dropped ++ (if t.queue.length = capacity then t.queue.head?.toList else []) := by
  obtain ⟨q, hh, hd, ht, ho⟩ := h
  have hdrops := q.drops_offer_eq hpos f
  rw [DropQueue.drops_offer, hh, hd] at hdrops
  rw [← hdrops, DropQueue.excess, hh]
  rfl

theorem length_pushBack (f : AudioFrame) (t : TargetQueue) :
    (t.pushBack capacity f).queue.length + (t.pushBack capacity f).dropped.length
      = t.queue.length + t.dropped.length + 1 := by
  simp only [pushBack, excess, List.length_drop, List.length_append, List.length_singleton, List.length_take]
  omega

theorem length_dropped_pushBack (f : AudioFrame) (t : TargetQueue) :
    (t.pushBack capacity f).dropped.length = t.dropped.length + t.excess capacity := by
  simp only [pushBack, excess, List.length_append, List.length_singleton, List.length_take]
  omega

end TargetQueue

/-! ## The loop of `Push` -/

namespace BugFanout

theorem pushLoop_queues (capacity : Nat) (f : AudioFrame) (i : Nat) :
    ∀ (is : List Nat) (queues : Nat → TargetQueue) (dropped : Nat),
      (pushLoop capacity f is queues dropped).1 i = (TargetQueue.pushBack capacity f)^[is.count i] (queues i)
  | [], _, _ => rfl
  | j :: is, queues, dropped => by
    rw [pushLoop, pushLoop_queues capacity f i is]
    by_cases hj : j = i
    · subst hj
      rw [Function.update_self, List.count_cons_self, Function.iterate_succ_apply]
    · rw [Function.update_of_ne (Ne.symm hj), List.count_cons_of_ne hj]

variable {i : Nat} {s : BugFanout} {cfg : FanoutConfig} {calls : List FanoutCall}

/-- A sum over the first `n` places, when one of them grows. -/
theorem sum_range_grow {g g' : Nat → Nat} {k : Nat} (hi : g' i = g i + k) (hother : ∀ j, j ≠ i → g' j = g j) :
    ∀ {n : Nat}, i < n → ((List.range n).map g').sum = ((List.range n).map g).sum + k
  | 0, h => absurd h (Nat.not_lt_zero _)
  | n + 1, h => by
    rw [List.range_succ, List.map_append, List.map_append, List.sum_append, List.sum_append, List.map_singleton,
      List.map_singleton, List.sum_singleton, List.sum_singleton]
    by_cases hn : i = n
    · subst hn
      have hsame : (List.range i).map g' = (List.range i).map g :=
        List.map_congr_left (fun j hj => hother j (Nat.ne_of_lt (List.mem_range.1 hj)))
      rw [hsame, hi, Nat.add_assoc]
    · rw [sum_range_grow hi hother (show i < n by omega), hother n (Ne.symm hn), Nat.add_right_comm]

def droppedIn (n : Nat) (queues : Nat → TargetQueue) : Nat := ((List.range n).map (fun i => (queues i).dropped.length)).sum

theorem pushLoop_dropped (capacity : Nat) (f : AudioFrame) {n : Nat} :
    ∀ (is : List Nat) (queues : Nat → TargetQueue) (dropped : Nat), (∀ i ∈ is, i < n) →
      droppedIn n (pushLoop capacity f is queues dropped).1 + dropped
        = droppedIn n queues + (pushLoop capacity f is queues dropped).2
  | [], _, _, _ => rfl
  | i :: is, queues, dropped, h => by
    have ih := pushLoop_dropped capacity f is (Function.update queues i ((queues i).pushBack capacity f))
      (dropped + (queues i).excess capacity) (fun j hj => h j (List.mem_cons_of_mem _ hj))
    have hgrow : droppedIn n (Function.update queues i ((queues i).pushBack capacity f))
        = droppedIn n queues + (queues i).excess capacity := by
      refine sum_range_grow (i := i) ?_ (fun j hj => ?_) (h i (List.mem_cons_self ..))
      · rw [Function.update_self, TargetQueue.length_dropped_pushBack]
      · rw [Function.update_of_ne hj]
    rw [pushLoop]
    omega

/-! ## Sequences of calls -/

/-- What a sequence of calls makes of a fan-out whose write queues are named once. -/
structure Tracks (cfg : FanoutConfig) (calls : List FanoutCall) (s : BugFanout) : Prop where
  cfg_eq : s.cfg = cfg
  closed : s.halfClosed = decide (.halfClose ∈ calls)
  kept   : ∀ i, (s.queues i).Kept cfg.capacityFrames (if i ∈ cfg.writeQueues then pushedFrames calls else [])
  total  : s.totalDropped = droppedIn cfg.targetUuids.length s.queues % 2 ^ 64

theorem tracks_make (cfg : FanoutConfig) : Tracks cfg [] (make cfg) := by
  refine ⟨rfl, rfl, fun i => ?_, ?_⟩
  · rw [pushedFrames, ite_self]
    exact TargetQueue.kept_empty _
  · have hzero : ∀ n, droppedIn n (fun _ => TargetQueue.empty) = 0 := fun n => by
      simp [droppedIn, TargetQueue.empty]
    change 0 = droppedIn _ (fun _ => TargetQueue.empty) % 2 ^ 64
    rw [hzero, Nat.zero_mod]

theorem after_append (cfg : FanoutConfig) (calls : List FanoutCall) (c : FanoutCall) :
    after cfg (calls ++ [c]) = (after cfg calls).call c :=
  List.foldl_concat ..

theorem push_queues (hnd : cfg.writeQueues.Nodup) (hcfg : s.cfg = cfg) (hopen : s.halfClosed = false) (f : AudioFrame)
    (i : Nat) :
    (s.push f).2.queues i
      = if i ∈ cfg.writeQueues then (s.queues i).pushBack cfg.capacityFrames f else s.queues i := by
  rw [push, if_neg (by rw [hopen]; decide), hcfg]
  change (pushLoop cfg.capacityFrames f cfg.writeQueues s.queues 0).1 i = _
  rw [pushLoop_queues, hnd.count]
  split <;> rfl

theorem push_of_halfClosed (h : s.halfClosed = true) (f : AudioFrame) : (s.push f).2 = s := by
  rw [push, if_pos h]

theorem pop_queues (s : BugFanout) (u : Bytes) (i : Nat) :
    (s.pop u).2.queues i = if s.cfg.findQueue u = some i then (s.queues i).popFront else s.queues i := by
  unfold pop
  split
  · rename_i hnone
    rw [hnone, if_neg (by simp)]
  · rename_i j hj
    change Function.update s.queues j (s.queues j).popFront i = _
    rw [hj]
    by_cases hij : i = j
    · subst hij
      rw [Function.update_self, if_pos rfl]
    · rw [Function.update_of_ne hij, if_neg (by simpa using Ne.symm hij)]

theorem pop_dropped (s : BugFanout) (u : Bytes) (i : Nat) :
    ((s.pop u).2.queues i).dropped = (s.queues i).dropped := by
  rw [pop_queues]
  split <;> rfl

theorem pop_cfg (s : BugFanout) (u : Bytes) :
    (s.pop u).2.cfg = s.cfg ∧ (s.pop u).2.halfClosed = s.halfClosed ∧ (s.pop u).2.totalDropped = s.totalDropped := by
  unfold pop
  split <;> exact ⟨rfl, rfl, rfl⟩

theorem push_cfg (s : BugFanout) (f : AudioFrame) : (s.push f).2.cfg = s.cfg ∧ (s.push f).2.halfClosed = s.halfClosed := by
  unfold push
  split <;> exact ⟨rfl, rfl⟩

theorem Tracks.isOpen (h : Tracks cfg calls s) (hopen : .halfClose ∉ calls) : s.halfClosed = false := by
  rw [h.closed]
  exact decide_eq_false hopen

theorem Tracks.push_of_closed (h : Tracks cfg calls s) (hclosed : .halfClose ∈ calls) (f : AudioFrame) :
    (s.push f).2 = s := by
  refine push_of_halfClosed ?_ f
  rw [h.closed]
  exact decide_eq_true hclosed

theorem Tracks.push (hnd : cfg.writeQueues.Nodup) (h : Tracks cfg calls s) (f : AudioFrame) :
    Tracks cfg (calls ++ [.push f]) (s.push f).2 := by
  obtain ⟨hcfg, hclosed⟩ := s.push_cfg f
  have hmem : decide (FanoutCall.halfClose ∈ calls ++ [.push f]) = decide (.halfClose ∈ calls) := by simp
  have hframes := pushedFrames_append (.push f) calls
  refine ⟨hcfg.trans h.cfg_eq, by rw [hclosed, hmem, h.closed], fun i => ?_, ?_⟩
  · by_cases hhalf : .halfClose ∈ calls
    · rw [hframes, if_pos hhalf, List.append_nil, h.push_of_closed hhalf]
      exact h.kept i
    · rw [push_queues hnd h.cfg_eq (h.isOpen hhalf), hframes, if_neg hhalf]
      have hk := h.kept i
      split
      · rename_i hi
        rw [if_pos hi] at hk
        exact hk.pushBack f
      · rename_i hi
        rw [if_neg hi] at hk
        exact hk
  · unfold BugFanout.push
    split
    · exact h.total
    · change (s.totalDropped + _) % 2 ^ 64 = droppedIn _ (pushLoop _ f _ s.queues 0).1 % 2 ^ 64
      have hloop := pushLoop_dropped s.cfg.capacityFrames f s.cfg.writeQueues s.queues 0
        (fun i hi => h.cfg_eq ▸ FanoutConfig.writeQueues_lt hi)
      rw [h.cfg_eq] at hloop ⊢
      rw [h.total]
      omega

theorem Tracks.pop (h : Tracks cfg calls s) (u : Bytes) : Tracks cfg (calls ++ [.pop u]) (s.pop u).2 := by
  obtain ⟨hcfg, hclosed, htotal⟩ := s.pop_cfg u
  have hmem : decide (FanoutCall.halfClose ∈ calls ++ [.pop u]) = decide (.halfClose ∈ calls) := by simp
  refine ⟨hcfg.trans h.cfg_eq, by rw [hclosed, hmem, h.closed], fun i => ?_, ?_⟩
  · rw [pushedFrames_of_none rfl, pop_queues]
    split
    · exact (h.kept i).popFront
    · exact h.kept i
  · rw [htotal, h.total, droppedIn, droppedIn]
    simp only [pop_dropped]

theorem Tracks.call (hnd : cfg.writeQueues.Nodup) (h : Tracks cfg calls s) (c : FanoutCall) :
    Tracks cfg (calls ++ [c]) (s.call c) := by
  cases c with
  | push f => exact h.push hnd f
  | pop u => exact h.pop u
  | halfClose =>
    have hframes : pushedFrames (calls ++ [.halfClose]) = pushedFrames calls := pushedFrames_of_none rfl calls
    exact ⟨h.cfg_eq, by simp [BugFanout.call], fun i => hframes ▸ h.kept i, h.total⟩

theorem tracks_after (hnd : cfg.writeQueues.Nodup) (calls : List FanoutCall) : Tracks cfg calls (after cfg calls) := by
  induction calls using List.reverseRecOn with
  | nil => exact tracks_make cfg
  | append_singleton calls c ih =>
    rw [after_append]
    exact ih.call hnd c

theorem Tracks.dropped_call (hpos : 0 < cfg.capacityFrames) (hnd : cfg.writeQueues.Nodup) (h : Tracks cfg calls s)
    (c : FanoutCall) (i : Nat) :
    ((s.call c).queues i).dropped = (s.queues i).dropped ++
      (if i ∈ cfg.writeQueues ∧ .halfClose ∉ calls ∧ c.frames ≠ [] ∧ (s.queues i).queue.length = cfg.capacityFrames
       then (s.queues i).queue.head?.toList else []) := by
  cases c with
  | push f =>
    rw [BugFanout.call]
    by_cases hhalf : .halfClose ∈ calls
    · rw [h.push_of_closed hhalf, if_neg (fun hc => hc.2.1 hhalf), List.append_nil]
    · rw [push_queues hnd h.cfg_eq (h.isOpen hhalf)]
      by_cases hi : i ∈ cfg.writeQueues
      · rw [if_pos hi, (h.kept i).dropped_pushBack hpos f]
        simp [hi, hhalf, FanoutCall.frames]
      · rw [if_neg hi, if_neg (fun hc => hi hc.1), List.append_nil]
  | pop u =>
    rw [if_neg (fun hc => hc.2.2.1 rfl), List.append_nil]
    exact s.pop_dropped u i
  | halfClose =>
    rw [if_neg (fun hc => hc.2.2.1 rfl), List.append_nil]
    rfl

theorem queueOf_eq (hcfg : s.cfg = cfg) {u : Bytes} (hu : cfg.findQueue u = some i) : s.queueOf u = s.queues i := by
  rw [queueOf, hcfg, hu]
  rfl

/-- **A fan-out whose targets and write queues are named once delivers every frame once per write target.** -/
theorem delivers {writes : Bytes → Bool} (hpos : 0 < cfg.capacityFrames) (htargets : cfg.targetUuids.Nodup)
    (hnd : cfg.writeQueues.Nodup) (hwrites : ∀ u i, cfg.findQueue u = some i → (writes u = true ↔ i ∈ cfg.writeQueues))
    (calls : List FanoutCall) : Delivers cfg writes calls := by
  have ht := tracks_after hnd calls
  refine ⟨fun u hu => ?_, fun u hu c => ?_, ?_⟩
  · obtain ⟨i, hi⟩ := FanoutConfig.findQueue_of_mem hu
    rw [queueOf_eq ht.cfg_eq hi, if_congr (hwrites u i hi) rfl rfl]
    exact (ht.kept i).marks
  · obtain ⟨i, hi⟩ := FanoutConfig.findQueue_of_mem hu
    have hnext := tracks_after hnd (calls ++ [c])
    rw [queueOf_eq hnext.cfg_eq hi, queueOf_eq ht.cfg_eq hi, after_append, ht.dropped_call hpos hnd c i]
    simp only [hwrites u i hi]
  · rw [ht.total, droppedIn]
    refine congrArg (fun l : List Nat => l.sum % 2 ^ 64) (List.ext_getElem (by simp) (fun i h1 h2 => ?_))
    have hi : i < cfg.targetUuids.length := by simpa using h2
    rw [List.getElem_map, List.getElem_map, List.getElem_range,
      queueOf_eq ht.cfg_eq (FanoutConfig.findQueue_getElem htargets hi)]

/-- A frame pushed to a queue named twice is there twice, or has been dropped. -/
theorem length_push_first (cfg : FanoutConfig) (f : AudioFrame) (i : Nat) :
    ((after cfg [.push f]).queues i).queue.length + ((after cfg [.push f]).queues i).dropped.length
      = cfg.writeQueues.count i := by
  have hiter : ∀ (n : Nat) (t : TargetQueue),
      ((TargetQueue.pushBack cfg.capacityFrames f)^[n] t).queue.length
        + ((TargetQueue.pushBack cfg.capacityFrames f)^[n] t).dropped.length
        = t.queue.length + t.dropped.length + n := fun n => by
    induction n with
    | zero => exact fun _ => rfl
    | succ n ih =>
      intro t
      rw [Function.iterate_succ_apply, ih, TargetQueue.length_pushBack]
      omega
  have hqueue : (after cfg [.push f]).queues i
      = (TargetQueue.pushBack cfg.capacityFrames f)^[cfg.writeQueues.count i] .empty :=
    pushLoop_queues cfg.capacityFrames f i cfg.writeQueues _ 0
  rw [hqueue, hiter]
  exact Nat.zero_add _

/-- A queue that delivers a single frame is named at most once. -/
theorem count_le_one_of_delivers {writes : Bytes → Bool} {f : AudioFrame} (h : Delivers cfg writes [.push f])
    {u : Bytes} (hu : u ∈ cfg.targetUuids) (hi : cfg.findQueue u = some i) : cfg.writeQueues.count i ≤ 1 := by
  obtain ⟨marks, hm, hk, hd⟩ := h.once u hu
  have hcfg : (after cfg [.push f]).cfg = cfg := ((make cfg).push_cfg f).1
  rw [queueOf_eq hcfg hi] at hk hd
  have hlen : marks.length ≤ 1 := by
    rw [← List.length_map Prod.fst, hm]
    split <;> simp [pushedFrames]
  have hsplit := List.length_eq_length_filter_add (l := marks) (·.2)
  have hkept := congrArg List.length hk
  have hdropped := congrArg List.length hd
  rw [List.length_map] at hkept hdropped
  rw [List.length_append] at hkept
  rw [← length_push_first cfg f i]
  omega

end BugFanout

/-! ## The calls of a bot's playout -/

namespace BotPlayout

/-- The fan-out a bot's threads work on. -/
def fanout (s : BotPlayout) : BugFanout := ⟨s.cfg, s.queues, s.halfClosed, s.totalDropped⟩

/-- The steps of a call of the fan-out that nobody comes in between of. -/
def stepsOf (s : BotPlayout) : FanoutCall → List BotPlayoutAct
  | .push f    => .push f :: if s.halfClosed then [] else List.replicate (s.cfg.writeQueues.length + 1) .enqueue
  | .pop u     => [.writeReplace u 0 none none]
  | .halfClose => [.halfClose]

/-- The turns of a `Push` one after another are its loop. -/
theorem exec_enqueue (f : AudioFrame) : ∀ (is : List Nat) (s : BotPlayout), s.pushing = some (f, is) →
    ∃ t, Run.exec step (List.replicate (is.length + 1) .enqueue) s = some t ∧ t.pushing = none ∧ t.stopped = s.stopped ∧
      t.fanout =
        let r := BugFanout.pushLoop s.cfg.capacityFrames f is s.queues s.dropping
        { s.fanout with queues := r.1, totalDropped := (s.totalDropped + r.2) % 2 ^ 64 }
  | [], s, hp => by
    refine ⟨{ s with pushing := none, totalDropped := (s.totalDropped + s.dropping) % 2 ^ 64 }, ?_, rfl, rfl, rfl⟩
    simp only [List.length_nil, Nat.zero_add, List.replicate_one, Run.exec, step, hp]
  | i :: is, s, hp => by
    obtain ⟨t, hrun, hdone, hstop, hfan⟩ := exec_enqueue f is (s.enqueue f i is) rfl
    refine ⟨t, ?_, hdone, hstop, hfan⟩
    rw [List.length_cons, List.replicate_succ, Run.exec, step, hp]
    exact hrun

/-- A callback finds what `Pop` gives. -/
theorem front_eq_pop {s : BotPlayout} (hs : s.stopped = false) (u : Bytes) :
    (s.front u).map Prod.snd = (s.fanout.pop u).1 := by
  rw [front, hs, if_neg Bool.false_ne_true, BugFanout.pop]
  show _ = (match s.cfg.findQueue u with | none => _ | some i => _ : _ × _).1
  cases s.cfg.findQueue u with
  | none => rfl
  | some i => simp [fanout, Function.comp_def]

/-- A callback by itself takes off the queue what `Pop` does. -/
theorem pop_alone {s : BotPlayout} (hs : s.stopped = false) (u : Bytes) :
    ∃ t, step s (.writeReplace u 0 none none) = some t ∧ t.pushing = s.pushing ∧ t.stopped = s.stopped ∧
      t.fanout = (s.fanout.pop u).2 := by
  have hfront : s.front u = (s.cfg.findQueue u).bind (fun i => (s.queues i).queue.head?.map (fun f => (i, f))) := by
    rw [front, hs, if_neg Bool.false_ne_true]
  cases hu : s.cfg.findQueue u with
  | none =>
    rw [hu] at hfront
    refine ⟨s, by simp only [step, hfront, Option.bind_none], rfl, rfl, ?_⟩
    simp only [BugFanout.pop, fanout, hu]
  | some i =>
    rw [hu, Option.bind_some] at hfront
    cases hq : (s.queues i).queue with
    | nil =>
      refine ⟨s, by simp only [step, hfront, hq, List.head?_nil, Option.map_none], rfl, rfl, ?_⟩
      simp only [BugFanout.pop, fanout, hu, TargetQueue.popFront_of_nil hq, Function.update_eq_self]
    | cons f fs =>
      refine ⟨{ s with
        queues := Function.update s.queues i (s.queues i).popFront
        written := Function.update s.written u (s.written u ++ writeReplaced 0 none none f) },
        by simp only [step, hfront, hq, List.head?_cons, Option.map_some], rfl, rfl, ?_⟩
      simp only [BugFanout.pop, fanout, hu]

/-- **A call by itself does to the fan-out what `BugFanout` says.** -/
theorem call_alone (s : BotPlayout) (hp : s.pushing = none) (hs : s.stopped = false) (c : FanoutCall) :
    ∃ t, Run.exec step (s.stepsOf c) s = some t ∧ t.pushing = none ∧ t.stopped = false ∧ t.fanout = s.fanout.call c := by
  cases c with
  | halfClose => exact ⟨_, rfl, hp, hs, rfl⟩
  | pop u =>
    obtain ⟨t, ht, hp', hs', hfan⟩ := pop_alone hs u
    exact ⟨t, by simp only [stepsOf, Run.exec, ht], hp'.trans hp, hs'.trans hs, hfan⟩
  | push f =>
    cases hc : s.halfClosed with
    | true =>
      refine ⟨{ s with pushed := s.pushed ++ [f] }, ?_, hp, hs, (BugFanout.push_of_halfClosed hc f).symm⟩
      simp only [stepsOf, hc, if_true, Run.exec, step, hp, or_true]
    | false =>
      obtain ⟨t, hrun, hdone, hstop, hfan⟩ := exec_enqueue f s.cfg.writeQueues
        { s with pushed := s.pushed ++ [f], pushing := some (f, s.cfg.writeQueues), dropping := 0 } rfl
      refine ⟨t, ?_, hdone, hstop.trans hs, ?_⟩
      · simp only [stepsOf, Run.exec, step, hp]
        rw [if_neg (by simp [hs, hc]), if_neg (by simp [hc])]
        exact hrun
      · rw [hfan, BugFanout.call, BugFanout.push, if_neg (by rw [fanout, hc]; exact Bool.false_ne_true)]
        rfl

/-- **The two models of the fan-out agree**: after every sequence of calls, each by itself, a bot's threads have made of
the fan-out what `BugFanout` says. -/
theorem calls_alone (cfg : FanoutConfig) (calls : List FanoutCall) :
    ∃ as s, Run.exec step as (init cfg) = some s ∧ s.pushing = none ∧ s.stopped = false ∧
      s.fanout = BugFanout.after cfg calls := by
  induction calls using List.reverseRecOn with
  | nil => exact ⟨[], init cfg, rfl, rfl, rfl, rfl⟩
  | append_singleton calls c ih =>
    obtain ⟨as, s, hrun, hp, hs, hfan⟩ := ih
    obtain ⟨t, hcall, hp', hs', hfan'⟩ := s.call_alone hp hs c
    refine ⟨as ++ s.stepsOf c, t, ?_, hp', hs', ?_⟩
    · rw [Run.exec_append, hrun]
      exact hcall
    · rw [hfan', hfan, BugFanout.after_append]

end BotPlayout

/-! ## Bots -/

/-- The targets a bot speaks to: a whisperer its write targets, any other bot all of them. -/
def writesTo (req : Control.StartBotRequest) (u : Bytes) : Bool :=
  decide (req.purpose ≠ .whisper) || req.writeTargets.contains u

/-- The fan-out `BotSession` builds from a request. -/
def botFanout (req : Control.StartBotRequest) (capacityFrames : Nat) : FanoutConfig where
  mode := if req.purpose = .whisper then .whisper else .broadcast
  targetUuids := req.targets
  writeSubsetUuids := req.writeTargets
  capacityFrames := capacityFrames

theorem writesTo_iff {req : Control.StartBotRequest} {capacityFrames : Nat} {u : Bytes} {i : Nat}
    (hu : (botFanout req capacityFrames).findQueue u = some i) :
    writesTo req u = true ↔ i ∈ (botFanout req capacityFrames).writeQueues := by
  unfold FanoutConfig.writeQueues writesTo
  by_cases hp : req.purpose = .whisper
  · have hmode : (botFanout req capacityFrames).mode = .whisper := if_pos hp
    rw [hmode]
    simp only [hp, ne_eq, not_true_eq_false, decide_false, Bool.false_or, List.contains_iff_mem]
    constructor
    · exact fun hmem => List.mem_filterMap.2 ⟨u, hmem, hu⟩
    · intro hmem
      obtain ⟨v, hv, hvi⟩ := List.mem_filterMap.1 hmem
      exact FanoutConfig.findQueue_inj hvi hu ▸ hv
  · have hmode : (botFanout req capacityFrames).mode = .broadcast := if_neg hp
    rw [hmode]
    simp [hp, FanoutConfig.findQueue_lt hu]

theorem count_le_count_filterMap {cfg : FanoutConfig} {u : Bytes} {i : Nat} (hu : cfg.findQueue u = some i)
    (l : List Bytes) : l.count u ≤ (l.filterMap cfg.findQueue).count i := by
  induction l with
  | nil => exact Nat.le_refl _
  | cons v l ih =>
    by_cases hv : v = u
    · subst hv
      rw [List.count_cons_self, List.filterMap_cons_some hu, List.count_cons_self]
      exact Nat.succ_le_succ ih
    · rw [List.count_cons_of_ne hv]
      refine ih.trans ?_
      rw [List.filterMap_cons]
      split
      · exact Nat.le_refl _
      · exact List.count_le_count_cons

/-- **Bot fan-out delivers each frame once per write target exactly when no write target is given twice.** -/
theorem fanout_delivers_iff (lim : Control.BotLimits) (req : Control.StartBotRequest) (hreq : req.validate lim = none)
    (capacityFrames : Nat) (hcap : 1 ≤ capacityFrames) :
    (∀ calls, Delivers (botFanout req capacityFrames) (writesTo req) calls) ↔ req.writeTargets.Nodup := by
  obtain ⟨htargets, hnone, hsub⟩ := Control.StartBotRequest.targets_of_validate hreq
  constructor
  · intro h
    rw [List.nodup_iff_count_le_one]
    intro u
    by_cases hu : u ∈ req.writeTargets
    · have hp : req.purpose = .whisper := by
        by_contra hne
        rw [hnone hne] at hu
        cases hu
      have hmem : u ∈ (botFanout req capacityFrames).targetUuids := hsub hp u hu
      obtain ⟨i, hi⟩ := FanoutConfig.findQueue_of_mem hmem
      have hone := BugFanout.count_le_one_of_delivers (h [.push default]) hmem hi
      have hmode : (botFanout req capacityFrames).mode = .whisper := if_pos hp
      rw [FanoutConfig.writeQueues, hmode] at hone
      exact (count_le_count_filterMap hi req.writeTargets).trans hone
    · rw [List.count_eq_zero_of_not_mem hu]
      exact Nat.zero_le _
  · intro hnd calls
    have hpos : 0 < (botFanout req capacityFrames).capacityFrames := hcap
    exact BugFanout.delivers hpos htargets (FanoutConfig.nodup_writeQueues hnd) (fun _ _ hu => writesTo_iff hu) calls

/-- A whisperer that names its write target twice. -/
def twiceNamed : Control.StartBotRequest := ⟨[str "a", str "b"], [str "a", str "a"], str "bot:1", .whisper, 8000, []⟩

/-- The request is accepted, and a frame is queued twice for its write target. -/
theorem twiceNamed_delivers_twice :
    twiceNamed.validate ⟨8, 4, by decide, by decide⟩ = none ∧
    ((BugFanout.after (botFanout twiceNamed 4) [.push ⟨[1], 8000, 1, 0, 0, 0, []⟩]).queueOf (str "a")).queue
      = [⟨[1], 8000, 1, 0, 0, 0, []⟩, ⟨[1], 8000, 1, 0, 0, 0, []⟩] := by decide +kernel

/-- A whisperer with one write target. -/
def onceNamed : Control.StartBotRequest := ⟨[str "a", str "b"], [str "a"], str "bot:1", .whisper, 8000, []⟩

theorem fanout_delivers_iff_onceNamed :
    Delivers (botFanout onceNamed 1) (writesTo onceNamed)
      [.push ⟨[1], 8000, 1, 0, 0, 0, []⟩, .push ⟨[2], 8000, 1, 1, 1, 0, []⟩, .pop (str "a")] :=
  (fanout_delivers_iff ⟨8, 4, by decide, by decide⟩ onceNamed (by decide +kernel) 1 (by decide)).2 (by decide +kernel) _

end Media
end Osw
