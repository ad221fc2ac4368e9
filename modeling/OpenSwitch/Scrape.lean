import OpenSwitch.MetricsPage
import OpenSwitch.Progress
import OpenSwitch.Run
/-!
# Scrape — a histogram rendered while it is observed (`prometheus.cc`)

`Observe` updates one atomic after the other and `Render` loads them one by one, with no lock: the header leaves the skew
between buckets to the reader of the page.  Each update and each load is a step here, and the calls of `Observe` are jobs
that go through the counters.  The counters are a function of where the calls stand (`Inv.hist`), so what a page can show
is what calls between two counters account for (`scraped_counts`).
-/
namespace Osw
namespace Prometheus

open Exposition

namespace Histogram

variable {δ : Type} [DoubleOps δ]

/-- The update of `Observe` at the place `k`: the buckets in their order, `+Inf`, the count, the sum. -/
def update (v : δ) (k : Nat) (h : Histogram δ) : Histogram δ :=
  if k < h.buckets.length then
    { h with buckets := h.buckets.modify k fun p => (p.1, if DoubleOps.le v p.1 then (p.2 + 1) % 2 ^ 64 else p.2) }
  else if k = h.buckets.length then { h with inf := (h.inf + 1) % 2 ^ 64 }
  else if k = h.buckets.length + 1 then { h with count := (h.count + 1) % 2 ^ 64 }
  else { h with sumNs := (h.sumNs + DoubleOps.toNanos v) % 2 ^ 64 }

omit [DoubleOps δ] in
/-- What `Render` loads, in its order. -/
def loads (h : Histogram δ) : List Nat := h.buckets.map (·.2) ++ [h.inf, h.sumNs, h.count]

/-- The line `Render` adds after each load. -/
def writers (h : Histogram δ) : List (Nat → Bytes) :=
  h.buckets.map (fun p n => h.renderBucket (DoubleOps.text p.1) n) ++
    [fun n => h.renderBucket (str "+Inf") n,
      fun n => h.renderTotal (str "_sum") (DoubleOps.text (DoubleOps.ofNanos n : δ)),
      fun n => h.renderTotal (str "_count") (decimal n)]

/-- The counts go up from the first bound to `+Inf`, which is the count. -/
def Cumulative (h : Histogram δ) : Prop :=
  (h.buckets.map (·.2) ++ [h.inf]).Pairwise (fun a b => a ≤ b) ∧ h.inf = h.count

/-- `Render` line by line. -/
theorem render_eq_writers (h : Histogram δ) :
    h.render = h.renderHeader ++ (List.zipWith (fun write n => write n) h.writers h.loads).flatten := by
  rw [writers, loads, List.zipWith_append (by simp), List.flatten_append, List.zipWith_map, List.zipWith_self]
  simp only [List.zipWith_cons_cons, List.zipWith_nil_left, List.flatten_cons, List.flatten_nil, List.append_nil, render,
    List.flatMap_def, List.append_assoc]

theorem writers_congr {h h' : Histogram δ} (hname : h.name = h'.name) (hlabels : h.labels = h'.labels)
    (hbounds : h.buckets.map (·.1) = h'.buckets.map (·.1)) : h.writers = h'.writers := by
  have hcut : ∀ g : Histogram δ, g.buckets.map (fun p n => g.renderBucket (DoubleOps.text p.1) n) =
      (g.buckets.map (·.1)).map fun b n => g.renderBucket (DoubleOps.text b) n := by
    intro g
    rw [List.map_map]
    rfl
  rw [writers, writers, hcut, hcut, hbounds]
  simp only [renderBucket, renderTotal, hname, hlabels]

end Histogram

namespace Scrape

open Progress

variable {δ : Type} [DoubleOps δ]

/-- `calls` are the calls of `Observe` so far, with the place each has come to; `text` is the text of `Render`, and
`reads` what it loaded, each with the calls as they stood then. -/
structure Scene (δ : Type) where
  hist  : Histogram δ
  calls : List (δ × Nat)
  text  : Bytes
  reads : List (Nat × List (δ × Nat))

inductive Act (δ : Type)
  /-- A thread calls `Observe`. -/
  | observe (v : δ)
  /-- The `n`-th call does its next update. -/
  | update (n : Nat)
  /-- `Render` does its next load. -/
  | load

def step (s : Scene δ) : Act δ → Option (Scene δ)
  | .observe v => some { s with calls := s.calls ++ [(v, 0)] }
  | .update n =>
    match s.calls[n]? with
    | none => none
    | some (v, k) =>
      if k ≤ s.hist.buckets.length + 2 then some { s with hist := s.hist.update v k, calls := advance n s.calls } else none
  | .load =>
    match s.hist.loads[s.reads.length]?, s.hist.writers[s.reads.length]? with
    | some v, some write => some { s with text := s.text ++ write v, reads := s.reads ++ [(v, s.calls)] }
    | _, _ => none

def start (h : Histogram δ) : Scene δ := ⟨h, [], h.renderHeader, []⟩

/-! ## The counters as a function of the calls -/

/-- What a call adds to the bucket of `b`. -/
def below (b v : δ) : Nat := if DoubleOps.le v b then 1 else 0

/-- The histogram `h`, nothing observed, after the calls `js`. -/
def tally (h : Histogram δ) (js : List (δ × Nat)) : Histogram δ :=
  { h with
    buckets := h.buckets.mapIdx fun k p => (p.1, weigh (below p.1) k js % 2 ^ 64)
    inf     := weigh (fun _ => 1) h.buckets.length js % 2 ^ 64
    count   := weigh (fun _ => 1) (h.buckets.length + 1) js % 2 ^ 64
    sumNs   := weigh DoubleOps.toNanos (h.buckets.length + 2) js % 2 ^ 64 }

omit [DoubleOps δ] in
theorem map_fst_mapIdx (l : List (δ × Nat)) (f : Nat → δ × Nat → Nat) :
    (l.mapIdx fun k p => (p.1, f k p)).map (·.1) = l.map (·.1) := by
  refine List.ext_getElem? fun k => ?_
  rw [List.getElem?_map, List.getElem?_map, List.getElem?_mapIdx, Option.map_map]
  rfl

@[simp] theorem inf_tally (h : Histogram δ) (js : List (δ × Nat)) :
    (tally h js).inf = weigh (fun _ => 1) h.buckets.length js % 2 ^ 64 := rfl

@[simp] theorem count_tally (h : Histogram δ) (js : List (δ × Nat)) :
    (tally h js).count = weigh (fun _ => 1) (h.buckets.length + 1) js % 2 ^ 64 := rfl

@[simp] theorem sumNs_tally (h : Histogram δ) (js : List (δ × Nat)) :
    (tally h js).sumNs = weigh DoubleOps.toNanos (h.buckets.length + 2) js % 2 ^ 64 := rfl

theorem getElem?_tally (h : Histogram δ) (js : List (δ × Nat)) (k : Nat) :
    (tally h js).buckets[k]? = h.buckets[k]?.map fun p => (p.1, weigh (below p.1) k js % 2 ^ 64) :=
  List.getElem?_mapIdx

theorem length_tally (h : Histogram δ) (js : List (δ × Nat)) : (tally h js).buckets.length = h.buckets.length :=
  List.length_mapIdx

theorem writers_tally (h : Histogram δ) (js : List (δ × Nat)) : (tally h js).writers = h.writers :=
  Histogram.writers_congr rfl rfl (map_fst_mapIdx _ _)

theorem tally_new (h : Histogram δ) (js : List (δ × Nat)) (v : δ) : tally h (js ++ [(v, 0)]) = tally h js := by
  simp only [tally, weigh_append_new]

variable {js : List (δ × Nat)} {i k n : Nat} {v : δ} {h : Histogram δ} {s : Scene δ} {bounds : List δ}

omit [DoubleOps δ] in
/-- A counter when a call leaves the place `k`. -/
theorem counter_advance (w : δ → Nat) (m : Nat) (hn : js[n]? = some (v, k)) :
    weigh w m (advance n js) % 2 ^ 64 =
      if k = m then (weigh w m js % 2 ^ 64 + w v) % 2 ^ 64 else weigh w m js % 2 ^ 64 := by
  rw [weigh_advance _ _ hn]
  split
  · rw [Nat.mod_add_mod]
  · rw [Nat.add_zero]

theorem add_below (b v : δ) (m : Nat) :
    (m % 2 ^ 64 + below b v) % 2 ^ 64 = if DoubleOps.le v b then (m % 2 ^ 64 + 1) % 2 ^ 64 else m % 2 ^ 64 := by
  rw [below]
  split
  · rfl
  · rw [Nat.add_zero, Nat.mod_mod]

theorem buckets_advance (h : Histogram δ) (hn : js[n]? = some (v, k)) :
    (tally h (advance n js)).buckets =
      (tally h js).buckets.modify k fun p => (p.1, if DoubleOps.le v p.1 then (p.2 + 1) % 2 ^ 64 else p.2) := by
  refine List.ext_getElem? fun m => ?_
  rw [List.getElem?_modify, getElem?_tally, getElem?_tally]
  cases h.buckets[m]? with
  | none => rfl
  | some p =>
    simp only [Option.map_some, Option.map_eq_map, counter_advance _ _ hn]
    by_cases hm : k = m
    · rw [if_pos hm, if_pos hm, add_below]
    · rw [if_neg hm, if_neg hm]

/-- **An update of a call is the call one place on.** -/
theorem update_tally (h : Histogram δ) (hn : js[n]? = some (v, k)) (hk : k ≤ h.buckets.length + 2) :
    (tally h js).update v k = tally h (advance n js) := by
  have hbuckets := buckets_advance h hn
  have hinf := counter_advance (fun _ => 1) h.buckets.length hn
  have hcount := counter_advance (fun _ => 1) (h.buckets.length + 1) hn
  have hsum := counter_advance DoubleOps.toNanos (h.buckets.length + 2) hn
  rw [Histogram.update, length_tally]
  -- one of the four is at the place `k`, and the others stay
  by_cases hlt : k < h.buckets.length
  · rw [if_neg (by omega)] at hinf hcount hsum
    rw [if_pos hlt, Histogram.mk.injEq]
    exact ⟨rfl, rfl, rfl, hbuckets.symm, hinf.symm, hsum.symm, hcount.symm⟩
  · rw [List.modify_eq_self (by rw [length_tally]; omega)] at hbuckets
    rw [if_neg hlt]
    by_cases hk0 : k = h.buckets.length
    · rw [if_pos hk0] at hinf
      rw [if_neg (by omega)] at hcount hsum
      rw [if_pos hk0, Histogram.mk.injEq]
      exact ⟨rfl, rfl, rfl, hbuckets.symm, hinf.symm, hsum.symm, hcount.symm⟩
    · rw [if_neg hk0] at hinf ⊢
      by_cases hk1 : k = h.buckets.length + 1
      · rw [if_pos hk1] at hcount ⊢
        rw [if_neg (by omega)] at hsum
        rw [Histogram.mk.injEq]
        exact ⟨rfl, rfl, rfl, hbuckets.symm, hinf.symm, hsum.symm, hcount.symm⟩
      · rw [if_neg hk1] at hcount ⊢
        rw [if_pos (by omega)] at hsum
        rw [Histogram.mk.injEq]
        exact ⟨rfl, rfl, rfl, hbuckets.symm, hinf.symm, hsum.symm, hcount.symm⟩

theorem tally_finished (h : Histogram δ) (js : List (δ × Nat)) (hjs : ∀ j ∈ js, h.buckets.length + 2 < j.2) :
    tally h js = (js.map (·.1)).foldl (fun h' v => h'.observe v) (tally h []) := by
  induction js using List.reverseRecOn with
  | nil => rfl
  | append_singleton js j ih =>
    have hj := hjs j (List.mem_append_right js List.mem_cons_self)
    have hadd : ∀ (w : δ → Nat) (m : Nat), m ≤ h.buckets.length + 2 → weigh w m (js ++ [j]) = weigh w m js + w j.1 := by
      intro w m hm
      rw [weigh_append, weigh, weigh_nil, if_pos (by omega), Nat.add_zero]
    rw [List.map_append, List.foldl_append, ← ih fun x hx => hjs x (List.mem_append_left _ hx)]
    rw [List.map_singleton, List.foldl_cons, List.foldl_nil, Histogram.observe, Histogram.mk.injEq]
    refine ⟨rfl, rfl, rfl, ?_, ?_, ?_, ?_⟩
    · refine List.ext_getElem? fun m => ?_
      rw [List.getElem?_map, getElem?_tally, getElem?_tally, Option.map_map]
      refine Option.map_congr fun p hp => ?_
      have hm : m < h.buckets.length := (List.getElem?_eq_some_iff.1 hp).1
      rw [hadd _ _ (by omega), ← Nat.mod_add_mod, add_below]
      rfl
    · rw [inf_tally, inf_tally, Nat.mod_add_mod, hadd _ _ (by omega)]
    · rw [sumNs_tally, sumNs_tally, Nat.mod_add_mod, hadd _ _ (by omega)]
    · rw [count_tally, count_tally, Nat.mod_add_mod, hadd _ _ (by omega)]

/-! ## Runs -/

structure Inv (h : Histogram δ) (s : Scene δ) : Prop where
  hist   : s.hist = tally h s.calls
  text   : s.text = h.renderHeader ++ (List.zipWith (fun write n => write n) h.writers (s.reads.map (·.1))).flatten
  read   : ∀ (k : Nat) (x : Nat × List (δ × Nat)), s.reads[k]? = some x → (tally h x.2).loads[k]? = some x.1
  onward : ∀ x ∈ s.reads, Onward x.2 s.calls
  order  : s.reads.Pairwise fun x y => Onward x.2 y.2

theorem zipWith_append_one {α β γ : Type} (f : α → β → γ) {as : List α} {bs : List β} {a : α} (b : β)
    (h : as[bs.length]? = some a) : List.zipWith f as (bs ++ [b]) = List.zipWith f as bs ++ [f a b] := by
  induction bs generalizing as with
  | nil =>
    cases as with
    | nil => cases h
    | cons a' as =>
      obtain rfl : a' = a := by simpa using h
      simp
  | cons b' bs ih =>
    cases as with
    | nil => cases h
    | cons a' as => rw [List.cons_append, List.zipWith_cons_cons, ih (by simpa using h), List.zipWith_cons_cons, List.cons_append]

theorem Inv.step {s' : Scene δ} {a : Act δ} (hi : Inv h s) (hs : step s a = some s') : Inv h s' := by
  cases a with
  | observe v =>
    obtain rfl := Option.some.inj hs
    have hnew := onward_new s.calls v
    exact ⟨hi.hist.trans (tally_new h s.calls v).symm, hi.text, hi.read, fun x hx => (hi.onward x hx).trans hnew, hi.order⟩
  | update n =>
    rw [Scrape.step] at hs
    cases hn : s.calls[n]? with
    | none =>
      rw [hn] at hs
      cases hs
    | some c =>
      obtain ⟨v, k⟩ := c
      rw [hn] at hs
      simp only [Option.ite_none_right_eq_some, Option.some.injEq] at hs
      obtain ⟨hk, rfl⟩ := hs
      have hmove := onward_advance hn
      rw [hi.hist, length_tally] at hk
      refine ⟨?_, hi.text, hi.read, fun x hx => (hi.onward x hx).trans hmove, hi.order⟩
      show s.hist.update v k = _
      rw [hi.hist, update_tally h hn hk]
  | load =>
    rw [Scrape.step] at hs
    cases hv : s.hist.loads[s.reads.length]? with
    | none =>
      rw [hv] at hs
      cases hs
    | some v =>
      cases hw : s.hist.writers[s.reads.length]? with
      | none =>
        rw [hv, hw] at hs
        cases hs
      | some write =>
        rw [hv, hw] at hs
        obtain rfl := Option.some.inj hs
        rw [hi.hist] at hv
        rw [hi.hist, writers_tally] at hw
        -- the counters stay; the history grows by the calls as they stand, which every earlier load saw further back
        refine ⟨hi.hist, ?_, ?_, ?_, ?_⟩
        · show s.text ++ write v = _
          rw [List.map_append, List.map_singleton, zipWith_append_one _ _ (by rwa [List.length_map]), List.flatten_append,
            hi.text, List.append_assoc]
          simp
        · intro k x hx
          rw [List.getElem?_append] at hx
          split at hx
          · exact hi.read k x hx
          · rename_i hk
            have hlast : k = s.reads.length := by
              by_contra hne
              rw [List.getElem?_eq_none (by simp; omega)] at hx
              cases hx
            subst hlast
            rw [Nat.sub_self] at hx
            obtain rfl := Option.some.inj hx
            exact hv
        · intro x hx
          rcases List.mem_append.1 hx with hx | hx
          · exact hi.onward x hx
          · rw [List.mem_singleton.1 hx]
            exact .refl _
        · refine List.pairwise_append.2 ⟨hi.order, List.pairwise_singleton _ _, ?_⟩
          intro x hx y hy
          rw [List.mem_singleton.1 hy]
          exact hi.onward x hx

theorem tally_make (name help : Bytes) (labels : List Label) (bounds : List δ) :
    tally (Histogram.make name help labels bounds) [] = Histogram.make name help labels bounds := by
  rw [tally, Histogram.make, Histogram.mk.injEq]
  refine ⟨rfl, rfl, rfl, ?_, rfl, rfl, rfl⟩
  refine List.ext_getElem? fun k => ?_
  rw [List.getElem?_mapIdx, List.getElem?_map, Option.map_map]
  rfl

/-- **Every run keeps the invariant.** -/
theorem inv_of_exec {name help : Bytes} {labels : List Label} {acts : List (Act δ)}
    (hrun : Run.exec step acts (start (Histogram.make name help labels bounds)) = some s) :
    Inv (Histogram.make name help labels bounds) s := by
  refine Run.exec_inv (fun s a s' hi hs => Inv.step hi hs) acts _ s ?_ hrun
  refine ⟨(tally_make name help labels bounds).symm, ?_, ?_, ?_, .nil⟩
  · simp [start]
  · intro k x hx
    simp [start] at hx
  · intro x hx
    cases hx

/-- **When no call is on its way the histogram is what `observe` makes of the calls**, one after the other. -/
theorem hist_of_finished {name help : Bytes} {labels : List Label} {bounds : List δ} {acts : List (Act δ)} {s : Scene δ}
    (hrun : Run.exec step acts (start (Histogram.make name help labels bounds)) = some s)
    (hjs : ∀ j ∈ s.calls, bounds.length + 2 < j.2) :
    s.hist = (s.calls.map (·.1)).foldl (fun h v => h.observe v) (Histogram.make name help labels bounds) := by
  have hlen : (Histogram.make name help labels bounds).buckets.length = bounds.length := List.length_map _
  rw [(inv_of_exec hrun).hist, tally_finished _ _ (by rwa [hlen]), tally_make]

/-! ## What a page shows -/

/-- The `k`-th value `Render` loaded. -/
def Scene.rendered (s : Scene δ) (k : Nat) : Nat := s.reads[k]?.elim 0 (·.1)

/-- The calls when it loaded it. -/
def Scene.callsAt (s : Scene δ) (k : Nat) : List (δ × Nat) := s.reads[k]?.elim [] (·.2)

/-- The histogram whose counters are the values loaded. -/
def Scene.shot (s : Scene δ) : Histogram δ :=
  { s.hist with
    buckets := s.hist.buckets.mapIdx fun k p => (p.1, s.rendered k)
    inf     := s.rendered s.hist.buckets.length
    sumNs   := s.rendered (s.hist.buckets.length + 1)
    count   := s.rendered (s.hist.buckets.length + 2) }

/-- What a call adds to the counter at the place `i`: one, when its value is at most the bound there, if there is one. -/
def hit (bounds : List δ) (i : Nat) (v : δ) : Nat := if bounds[i]?.all (DoubleOps.le v) then 1 else 0

theorem eq_map_range {β : Type} {l : List β} {f : Nat → β} (hlen : l.length = n) (h : ∀ k, k < n → l[k]? = some (f k)) :
    l = (List.range n).map f := by
  refine List.ext_getElem? fun k => ?_
  rw [List.getElem?_map]
  by_cases hk : k < n
  · rw [h k hk, List.getElem?_range hk]
    rfl
  · rw [List.getElem?_eq_none (by omega), List.getElem?_eq_none (by rw [List.length_range]; omega)]
    rfl

omit [DoubleOps δ] in
theorem counts_shot (s : Scene δ) :
    s.shot.buckets.map (·.2) ++ [s.shot.inf] = (List.range (s.hist.buckets.length + 1)).map s.rendered := by
  have hbuckets : s.shot.buckets.map (·.2) = (List.range s.hist.buckets.length).map s.rendered := by
    refine eq_map_range (by rw [List.length_map, Scene.shot, List.length_mapIdx]) fun k hk => ?_
    rw [Scene.shot, List.getElem?_map, List.getElem?_mapIdx, List.getElem?_eq_getElem hk]
    rfl
  rw [hbuckets, List.range_succ, List.map_append]
  rfl

omit [DoubleOps δ] in
theorem map_reads (s : Scene δ) : s.reads.map (·.1) = (List.range s.reads.length).map s.rendered := by
  refine eq_map_range (List.length_map _) fun k hk => ?_
  rw [List.getElem?_map, Scene.rendered, List.getElem?_eq_getElem hk]
  rfl

omit [DoubleOps δ] in
theorem loads_shot (hdone : s.reads.length = s.hist.buckets.length + 3) : s.shot.loads = s.reads.map (·.1) := by
  have hcut : s.shot.loads = (s.shot.buckets.map (·.2) ++ [s.shot.inf]) ++ [s.shot.sumNs, s.shot.count] := by
    rw [Histogram.loads, List.append_assoc]
    rfl
  have hrange : List.range (s.hist.buckets.length + 3) = List.range (s.hist.buckets.length + 1) ++
      [s.hist.buckets.length + 1, s.hist.buckets.length + 2] := by
    rw [List.range_succ (n := s.hist.buckets.length + 2), List.range_succ (n := s.hist.buckets.length + 1),
      List.append_assoc]
    rfl
  rw [hcut, counts_shot, map_reads, hdone, hrange, List.map_append]
  rfl

theorem writers_shot (s : Scene δ) : s.shot.writers = s.hist.writers := Histogram.writers_congr rfl rfl (map_fst_mapIdx _ _)

/-- **The page is that of the values loaded.** -/
theorem text_eq_render (hi : Inv h s) (hdone : s.reads.length = h.buckets.length + 3) : s.text = s.shot.render := by
  have hlen : s.hist.buckets.length = h.buckets.length := by rw [hi.hist, length_tally]
  have hheader : s.shot.renderHeader = h.renderHeader := by
    show s.hist.renderHeader = h.renderHeader
    rw [hi.hist]
    rfl
  rw [hi.text, Histogram.render_eq_writers, hheader, writers_shot, hi.hist, writers_tally, loads_shot (by rw [hlen, hdone])]

theorem rendered_eq (hi : Inv h s) (hk : k < s.reads.length) :
    (tally h (s.callsAt k)).loads[k]? = some (s.rendered k) := by
  rw [Scene.callsAt, Scene.rendered, List.getElem?_eq_getElem hk]
  exact hi.read k _ (List.getElem?_eq_getElem hk)

theorem onward_callsAt (hi : Inv h s) (hik : i < k) (hk : k < s.reads.length) : Onward (s.callsAt i) (s.callsAt k) := by
  rw [Scene.callsAt, Scene.callsAt, List.getElem?_eq_getElem hk, List.getElem?_eq_getElem (Nat.lt_trans hik hk)]
  exact List.pairwise_iff_getElem.1 hi.order i k (Nat.lt_trans hik hk) hk hik

theorem length_callsAt (hi : Inv h s) (hk : k < s.reads.length) : (s.callsAt k).length ≤ s.calls.length := by
  rw [Scene.callsAt, List.getElem?_eq_getElem hk]
  exact (hi.onward _ (List.getElem_mem hk)).length

theorem hit_le_one (bounds : List δ) (i : Nat) (v : δ) : hit bounds i v ≤ 1 := by
  rw [hit]
  split <;> omega

theorem hit_eq_below (hi : i < bounds.length) : hit bounds i = below bounds[i] := by
  funext v
  rw [hit, List.getElem?_eq_getElem hi, Option.all_some, below]

theorem hit_eq_one (hi : bounds.length ≤ i) : hit bounds i = fun _ => 1 := by
  funext v
  rw [hit, List.getElem?_eq_none hi]
  rfl

theorem hit_le_hit (htrans : ∀ a b c : δ, DoubleOps.le a b = true → DoubleOps.le b c = true → DoubleOps.le a c = true)
    (hsorted : bounds.Pairwise fun a b => DoubleOps.le a b = true) (hik : i < k) (v : δ) :
    hit bounds i v ≤ hit bounds k v := by
  by_cases hk : k < bounds.length
  · have hi := Nat.lt_trans hik hk
    have hle := List.pairwise_iff_getElem.1 hsorted i k hi hk hik
    rw [hit, hit, List.getElem?_eq_getElem hi, List.getElem?_eq_getElem hk, Option.all_some, Option.all_some]
    split
    · rename_i hv
      rw [if_pos (htrans _ _ _ hv hle)]
    · exact Nat.zero_le _
  · rw [hit_eq_one (Nat.not_lt.1 hk)]
    exact hit_le_one bounds i v

section Loaded

variable {name help : Bytes} {labels : List Label} {bounds : List δ}

omit [DoubleOps δ] in
theorem length_make : (Histogram.make name help labels bounds).buckets.length = bounds.length := List.length_map _

theorem length_loads (js : List (δ × Nat)) :
    ((tally (Histogram.make name help labels bounds) js).buckets.map (·.2)).length = bounds.length := by
  rw [List.length_map, length_tally, length_make]

theorem loads_tally (js : List (δ × Nat)) (hk : k ≤ bounds.length) :
    (tally (Histogram.make name help labels bounds) js).loads[k]? = some (weigh (hit bounds k) k js % 2 ^ 64) := by
  rcases Nat.lt_or_eq_of_le hk with hlt | rfl
  · rw [Histogram.loads, List.getElem?_append_left (by rwa [length_loads]), List.getElem?_map, getElem?_tally,
      Histogram.make, List.getElem?_map, List.getElem?_eq_getElem hlt, hit_eq_below hlt]
    rfl
  · rw [Histogram.loads, List.getElem?_append_right (by rw [length_loads]), length_loads, Nat.sub_self, inf_tally,
      length_make, hit_eq_one (Nat.le_refl _)]
    rfl

theorem loads_tally_count (js : List (δ × Nat)) :
    (tally (Histogram.make name help labels bounds) js).loads[bounds.length + 2]? =
      some (weigh (fun _ => 1) (bounds.length + 1) js % 2 ^ 64) := by
  rw [Histogram.loads, List.getElem?_append_right (by rw [length_loads]; omega), length_loads, Nat.add_sub_cancel_left,
    count_tally, length_make]
  rfl

variable {s : Scene δ} (hi : Inv (Histogram.make name help labels bounds) s) (hcalls : s.calls.length < 2 ^ 64)

include hi hcalls

/-- With fewer than `2 ^ 64` calls no counter has come round. -/
theorem weigh_callsAt_lt {w : δ → Nat} (hw : ∀ v, w v ≤ 1) (m : Nat) (hk : k < s.reads.length) :
    weigh w m (s.callsAt k) < 2 ^ 64 :=
  Nat.lt_of_le_of_lt (Nat.le_trans (weigh_le_length hw m _) (length_callsAt hi hk)) hcalls

/-- The count rendered for a bound, or for `+Inf`. -/
theorem rendered_bucket (hk : k < s.reads.length) (hle : k ≤ bounds.length) :
    s.rendered k = weigh (hit bounds k) k (s.callsAt k) := by
  have hload := rendered_eq hi hk
  rw [loads_tally _ hle, Nat.mod_eq_of_lt (weigh_callsAt_lt hi hcalls (hit_le_one bounds k) k hk)] at hload
  exact (Option.some.inj hload).symm

theorem rendered_count (hk : bounds.length + 2 < s.reads.length) :
    s.rendered (bounds.length + 2) = weigh (fun _ => 1) (bounds.length + 1) (s.callsAt (bounds.length + 2)) := by
  have hload := rendered_eq hi hk
  rw [loads_tally_count, Nat.mod_eq_of_lt (weigh_callsAt_lt hi hcalls (fun _ => Nat.le_refl 1) _ hk)] at hload
  exact (Option.some.inj hload).symm

/-- **Buckets differ by the calls between them** when the later one is loaded. -/
theorem rendered_le_add_between
    (htrans : ∀ a b c : δ, DoubleOps.le a b = true → DoubleOps.le b c = true → DoubleOps.le a c = true)
    (hsorted : bounds.Pairwise fun a b => DoubleOps.le a b = true) (hik : i < k) (hk : k < s.reads.length)
    (hle : k ≤ bounds.length) : s.rendered i ≤ s.rendered k + between (hit bounds i) i k (s.callsAt k) := by
  have hon := onward_callsAt hi hik hk
  calc s.rendered i
      = weigh (hit bounds i) i (s.callsAt i) := rendered_bucket hi hcalls (Nat.lt_trans hik hk) (by omega)
    _ ≤ weigh (hit bounds i) i (s.callsAt k) := hon.weigh _ _
    _ = weigh (hit bounds i) k (s.callsAt k) + between (hit bounds i) i k (s.callsAt k) :=
        weigh_eq_add_between _ (Nat.le_of_lt hik) _
    _ ≤ weigh (hit bounds k) k (s.callsAt k) + between (hit bounds i) i k (s.callsAt k) :=
        Nat.add_le_add_right (weigh_mono (hit_le_hit htrans hsorted hik) k _) _
    _ = s.rendered k + between (hit bounds i) i k (s.callsAt k) := by rw [rendered_bucket hi hcalls hk hle]

/-- **`+Inf` and the count line** differ by the calls between the two updates and the updates between the two loads. -/
theorem rendered_inf_add (hdone : s.reads.length = bounds.length + 3) :
    s.rendered bounds.length + (weigh (fun _ => 1) (bounds.length + 1) (s.callsAt (bounds.length + 2)) -
        weigh (fun _ => 1) (bounds.length + 1) (s.callsAt bounds.length)) =
      s.rendered (bounds.length + 2) + between (fun _ => 1) bounds.length (bounds.length + 1) (s.callsAt bounds.length) := by
  have hon := onward_callsAt hi (i := bounds.length) (k := bounds.length + 2) (by omega) (by omega)
  have hcount := hon.weigh (fun _ => 1) (bounds.length + 1)
  have hinf := rendered_bucket hi hcalls (k := bounds.length) (by omega) (Nat.le_refl _)
  have hsplit := weigh_eq_add_between (fun _ => 1) (Nat.le_add_right bounds.length 1) (s.callsAt bounds.length)
  rw [hit_eq_one (Nat.le_refl _)] at hinf
  rw [rendered_count hi hcalls (by omega), hinf]
  omega

end Loaded

/-- No call is on its way: all have done their last update. -/
def Idle (bounds : List δ) (js : List (δ × Nat)) : Prop := ∀ j ∈ js, bounds.length + 2 < j.2

/-- The calls that have updated the count. -/
def counted (bounds : List δ) (js : List (δ × Nat)) : Nat := weigh (fun _ => 1) (bounds.length + 1) js

/-- **What a scraped histogram shows.**  In every interleaving of calls of `Observe` with a `Render`, the page has the
values that were loaded.  The count of a bound exceeds that of a later one, or of `+Inf`, by no more than the calls that
had updated the one and not come to the other when this was loaded; and the count of `+Inf` with the updates of the count
between the two loads is the count line with the calls that stood between the two updates when `+Inf` was loaded.  So the
page is cumulative when no call is on its way at a load, and none updates the count between the last two. -/
theorem scraped_counts (htrans : ∀ a b c : δ, DoubleOps.le a b = true → DoubleOps.le b c = true → DoubleOps.le a c = true)
    (name help : Bytes) (labels : List Label) (bounds : List δ)
    (hsorted : bounds.Pairwise fun a b => DoubleOps.le a b = true) (acts : List (Act δ)) (s : Scene δ)
    (hrun : Run.exec step acts (start (Histogram.make name help labels bounds)) = some s)
    (hdone : s.reads.length = bounds.length + 3) (hcalls : s.calls.length < 2 ^ 64) :
    s.text = s.shot.render ∧
    (∀ i k, i < k → k ≤ bounds.length →
      s.rendered i ≤ s.rendered k + between (hit bounds i) i k (s.callsAt k)) ∧
    s.rendered bounds.length +
        (counted bounds (s.callsAt (bounds.length + 2)) - counted bounds (s.callsAt bounds.length)) =
      s.rendered (bounds.length + 2) +
        between (fun _ => 1) bounds.length (bounds.length + 1) (s.callsAt bounds.length) ∧
    ((∀ k, 0 < k → k ≤ bounds.length → Idle bounds (s.callsAt k)) → Idle bounds (s.callsAt bounds.length) →
      counted bounds (s.callsAt (bounds.length + 2)) = counted bounds (s.callsAt bounds.length) → s.shot.Cumulative) := by
  have hi := inv_of_exec hrun
  have hlen : s.hist.buckets.length = bounds.length := by rw [hi.hist, length_tally, length_make]
  have hbuckets : ∀ i k, i < k → k ≤ bounds.length →
      s.rendered i ≤ s.rendered k + between (hit bounds i) i k (s.callsAt k) :=
    fun i k hik hk => rendered_le_add_between hi hcalls htrans hsorted hik (by omega) hk
  have hinf := rendered_inf_add hi hcalls hdone
  refine ⟨text_eq_render hi (by rw [hdone, length_make]), hbuckets, hinf, ?_⟩
  intro hidle hlast hsame
  refine ⟨?_, ?_⟩
  · rw [counts_shot, hlen, List.pairwise_map]
    refine List.Pairwise.imp_of_mem ?_ List.pairwise_lt_range
    intro i k _ hk hik
    have hk' : k ≤ bounds.length := Nat.le_of_lt_succ (List.mem_range.1 hk)
    have hzero : between (hit bounds i) i k (s.callsAt k) = 0 := by
      refine between_eq_zero _ _ fun j hj => ?_
      have hj' := hidle k (Nat.zero_lt_of_lt hik) hk' j hj
      omega
    have hle := hbuckets i k hik hk'
    rwa [hzero] at hle
  · have hzero : between (fun _ => 1) bounds.length (bounds.length + 1) (s.callsAt bounds.length) = 0 := by
      refine between_eq_zero _ _ fun j hj => ?_
      have hj' := hlast j hj
      omega
    show s.rendered s.hist.buckets.length = s.rendered (s.hist.buckets.length + 2)
    rw [hlen]
    rw [hzero] at hinf
    rw [counted, counted] at hsame
    omega

instance (bounds : List δ) (js : List (δ × Nat)) : Decidable (Idle bounds js) :=
  inferInstanceAs (Decidable (∀ j ∈ js, _))

instance (h : Histogram δ) : Decidable h.Cumulative := inferInstanceAs (Decidable (_ ∧ _))

/-- A histogram with the bounds one and seven. -/
def twoBounds : Histogram Nat := Histogram.make [104] [] [] [1, 7]

/-- Two calls go on side by side while `Render` loads the count of the first bound, and are over before it goes on. -/
def quiet : List (Act Nat) :=
  [.observe 5, .update 0, .observe 0, .update 1, .update 1, .load, .update 0, .update 1, .update 0, .update 1, .update 0,
    .update 0, .update 1, .load, .load, .load, .load]

/-- The value zero is below both bounds; the page has it for the first only, and neither in `+Inf` nor in the count. -/
def torn : List (Act Nat) := [.observe 0, .update 0, .load, .load, .load, .load, .load]

/-- The whole call stands between the load of `+Inf` and that of the count. -/
def late : List (Act Nat) :=
  [.load, .load, .load, .observe 0, .update 0, .update 0, .update 0, .update 0, .update 0, .load, .load]

theorem scraped_counts_quiet : ∃ s, Run.exec step quiet (start twoBounds) = some s ∧ s.text = s.shot.render ∧
    s.shot.Cumulative := by
  have hrun : (Run.exec step quiet (start twoBounds)).any (fun s => decide (s.reads.length = 5 ∧ s.calls.length < 2 ^ 64 ∧
      Idle [1, 7] (s.callsAt 1) ∧ Idle [1, 7] (s.callsAt 2) ∧
      counted [1, 7] (s.callsAt 4) = counted [1, 7] (s.callsAt 2))) = true := by
    decide +kernel
  obtain ⟨s, hs, hdec⟩ := (Option.any_eq_true _ _).1 hrun
  obtain ⟨hdone, hcalls, hone, htwo, hsame⟩ := of_decide_eq_true hdec
  have htrans : ∀ a b c : Nat, DoubleOps.le a b = true → DoubleOps.le b c = true → DoubleOps.le a c = true :=
    fun a b c hab hbc => decide_eq_true (Nat.le_trans (of_decide_eq_true hab) (of_decide_eq_true hbc))
  have hscrape := scraped_counts htrans [104] [] [] [1, 7] (by decide) quiet s hs hdone hcalls
  refine ⟨s, hs, hscrape.1, hscrape.2.2.2 ?_ htwo hsame⟩
  intro k hk hle
  obtain rfl | rfl : k = 1 ∨ k = 2 := by
    simp only [List.length_cons, List.length_nil] at hle
    omega
  · exact hone
  · exact htwo

theorem hist_of_finished_quiet :
    (Run.exec step quiet (start twoBounds)).map (·.calls) = some [(5, 5), (0, 5)] ∧
    ∀ s, Run.exec step quiet (start twoBounds) = some s → s.calls = [(5, 5), (0, 5)] →
      s.hist = (twoBounds.observe 5).observe 0 := by
  refine ⟨by decide +kernel, fun s hrun hc => ?_⟩
  have hhist := hist_of_finished hrun (by rw [hc]; decide)
  rwa [hc] at hhist

/-- `Render` is through, and the page has these counts up to `+Inf` and this count line, which is not cumulative. -/
def Tears (acts : List (Act Nat)) (counts : List Nat) (count : Nat) : Prop :=
  ∃ s, Run.exec step acts (start twoBounds) = some s ∧ s.reads.length = 5 ∧ s.text = s.shot.render ∧
    s.shot.buckets.map (·.2) ++ [s.shot.inf] = counts ∧ s.shot.count = count ∧ ¬s.shot.Cumulative

theorem tears_of_run {acts : List (Act Nat)} {counts : List Nat} {count : Nat}
    (h : (Run.exec step acts (start twoBounds)).any (fun s => decide (s.reads.length = 5 ∧
      s.shot.buckets.map (·.2) ++ [s.shot.inf] = counts ∧ s.shot.count = count ∧ ¬s.shot.Cumulative)) = true) :
    Tears acts counts count := by
  obtain ⟨s, hs, hdec⟩ := (Option.any_eq_true _ _).1 h
  obtain ⟨hdone, hshot⟩ := of_decide_eq_true hdec
  exact ⟨s, hs, hdone, text_eq_render (inv_of_exec hs) hdone, hshot⟩

/-- **A page need not be cumulative**: a bucket can be above the next one, and `+Inf` below the count. -/
theorem scraped_counts_torn : Tears torn [1, 0, 0] 0 ∧ Tears late [0, 0, 0] 1 :=
  ⟨tears_of_run (by decide +kernel), tears_of_run (by decide +kernel)⟩

end Scrape
end Prometheus
end Osw
