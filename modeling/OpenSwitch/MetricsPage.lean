import OpenSwitch.RpcMetrics
/-!
# MetricsPage — the page after any calls (`Registry::Render`)

No series is on the page twice (`page_series_distinct`).  But every counter, gauge and histogram has a HELP and a TYPE
line of its own and is rendered in the order it was registered, so the page is valid only when no two of them share a
name (`page_valid_iff`): not with the health metrics, and not with two status codes of a method.
-/
namespace Osw
namespace Control

theorem MetricsCall.eq_record {δ : Type} {rpc : Bytes} {c : MetricsCall δ} (h : c.latency rpc ≠ none) :
    ∃ code d, c = .record rpc code d := by
  cases c with
  | record r code d =>
    by_cases hr : r = rpc
    · exact ⟨code, d, by rw [hr]⟩
    · exact absurd (if_neg hr) h
  | recordAuthz r outcome => exact absurd rfl h
  | refresh snap => exact absurd rfl h

namespace Metrics

open Prometheus Exposition

variable {δ : Type} [DoubleOps δ] {m : Metrics δ} {health : Bool} {calls : List (MetricsCall δ)}
  {keys : List (CounterKind × Bytes)} {ctr : CounterKind × Bytes → Counter} {rpcs : List Bytes}
  {hist : Bytes → Histogram δ}

/-! ## The literals -/

/-- The names on the lines of a latency histogram. -/
def histogramNames : List Bytes :=
  [str "osw_rpc_latency_seconds", str "osw_rpc_latency_seconds" ++ str "_bucket",
    str "osw_rpc_latency_seconds" ++ str "_sum", str "osw_rpc_latency_seconds" ++ str "_count"]

/-- The names of the gauges of `HealthMetrics`. -/
def gaugeNames : List Bytes := (gaugeShapes (start true : Metrics Unit)).map (·.1)

theorem literals_plain :
    (KeyPlain (str "rpc") ∧ NamePlain (str "osw_rpc_latency_seconds") ∧
      (10 : UInt8) ∉ str "gRPC RPC latency in seconds") ∧
    (∀ kind ∈ [CounterKind.call, CounterKind.authz],
      NamePlain kind.name ∧ (10 : UInt8) ∉ kind.help ∧ KeyPlain kind.label) ∧
    ∀ x ∈ gaugeShapes (start true : Metrics Unit),
      NamePlain x.1 ∧ (10 : UInt8) ∉ x.2.1 ∧ ∀ l ∈ x.2.2, KeyPlain l.key := by
  decide +kernel

theorem literals_apart :
    (str "rpc" ≠ str "le" ∧ str "/" = [47] ∧ CounterKind.call.name ≠ CounterKind.authz.name) ∧
    (∀ kind ∈ [CounterKind.call, CounterKind.authz],
      kind.label ≠ str "rpc" ∧ kind.name ∉ gaugeNames ∧ kind.name ∉ histogramNames) ∧
    ∀ n ∈ gaugeNames, n ∉ histogramNames := by
  decide +kernel

theorem gauges_apart :
    ¬ gaugeNames.Nodup ∧ ((gaugeShapes (start true : Metrics Unit)).map fun x => (x.1, x.2.2)).Pairwise
      fun s s' => ¬ SameSeries s s' := by
  decide +kernel

theorem mem_kinds (kind : CounterKind) : kind ∈ [CounterKind.call, CounterKind.authz] := by
  cases kind <;> decide

/-! ## What is registered can be read back -/

theorem foldl_observe (ds : List δ) (h : Histogram δ) :
    (ds.foldl (fun h d => h.observe d) h).name = h.name ∧ (ds.foldl (fun h d => h.observe d) h).help = h.help ∧
    (ds.foldl (fun h d => h.observe d) h).labels = h.labels ∧
    (ds.foldl (fun h d => h.observe d) h).buckets.map Prod.fst = h.buckets.map Prod.fst := by
  induction ds generalizing h with
  | nil => exact ⟨rfl, rfl, rfl, rfl⟩
  | cons d ds ih =>
    obtain ⟨hname, hhelp, hlabels, hbuckets⟩ := ih (h.observe d)
    refine ⟨hname, hhelp, hlabels, hbuckets.trans ?_⟩
    rw [Histogram.observe, List.map_map]
    rfl

theorem latencyHist_labels (rpc : Bytes) (calls : List (MetricsCall δ)) :
    (latencyHist rpc calls).labels = [⟨str "rpc", rpc⟩] := (foldl_observe _ _).2.2.1

theorem latencyHist_name (rpc : Bytes) (calls : List (MetricsCall δ)) :
    (latencyHist rpc calls).name = str "osw_rpc_latency_seconds" := (foldl_observe _ _).1

theorem latencyHist_bucketsApart (rpc : Bytes) (calls : List (MetricsCall δ)) : (latencyHist rpc calls).BucketsApart where
  bounds := by
    have hbounds : (latencyHist rpc calls).buckets.map Prod.fst = DoubleOps.latencyBuckets := by
      rw [latencyHist, (foldl_observe _ _).2.2.2, newLatencyHist, Histogram.make, List.map_map]
      exact List.map_id _
    have htext : (latencyHist rpc calls).buckets.map (fun p => DoubleOps.text p.1)
        = DoubleOps.latencyBuckets.map (DoubleOps.text : δ → Bytes) := by
      rw [← hbounds, List.map_map]
      rfl
    rw [htext, DoubleOps.text_latencyBuckets]
    decide +kernel
  keys := by
    intro l hl
    rw [latencyHist_labels] at hl
    obtain rfl := List.mem_singleton.1 hl
    exact literals_apart.1.1

theorem series_plain (s : RpcSeries) : MetricPlain s.kind.name s.kind.help s.labels := by
  obtain ⟨hname, hhelp, hlabel⟩ := literals_plain.2.1 s.kind (mem_kinds s.kind)
  refine ⟨hname, hhelp, fun l hl => ?_⟩
  rcases List.mem_cons.1 hl with rfl | hl
  · exact literals_plain.1.1
  · obtain rfl := List.mem_singleton.1 hl
    exact hlabel

theorem latencyHist_plain (rpc : Bytes) (calls : List (MetricsCall δ)) :
    MetricPlain (latencyHist rpc calls).name (latencyHist rpc calls).help (latencyHist rpc calls).labels := by
  obtain ⟨hrpc, hname, htext⟩ := literals_plain.1
  have hhelp : (latencyHist rpc calls).help = str "gRPC RPC latency in seconds" := (foldl_observe _ _).2.1
  rw [latencyHist_name, latencyHist_labels, hhelp]
  refine ⟨hname, htext, fun l hl => ?_⟩
  obtain rfl := List.mem_singleton.1 hl
  exact hrpc

omit [DoubleOps δ] in
theorem gaugeShapes_start (health : Bool) :
    gaugeShapes (start health : Metrics δ) = if health then gaugeShapes (start true : Metrics Unit) else [] := by
  cases health <;> rfl

theorem After.counter_mem (h : After health m calls keys ctr rpcs hist) {c : Counter} (hc : c ∈ m.registry.counters) :
    ∃ k ∈ keys, ∃ (s : RpcSeries) (n : Nat), s.key = k ∧ c = s.counter n := by
  rw [h.counters.slots.objs] at hc
  obtain ⟨k, hk, rfl⟩ := List.mem_map.1 hc
  obtain ⟨s, hs, heq⟩ := h.counters.counted k hk
  exact ⟨k, hk, s, _, hs, heq⟩

theorem After.histogram_mem (h : After health m calls keys ctr rpcs hist) {x : Histogram δ}
    (hx : x ∈ m.registry.histograms) : ∃ r ∈ rpcs, x = latencyHist r calls := by
  rw [h.histograms.slots.objs] at hx
  obtain ⟨r, hr, rfl⟩ := List.mem_map.1 hx
  exact ⟨r, hr, h.histograms.observed r hr⟩

theorem After.gauge_mem (h : After health m calls keys ctr rpcs hist) {g : Gauge} (hg : g ∈ m.registry.gauges) :
    (g.name, g.help, g.labels) ∈ gaugeShapes (start true : Metrics Unit) := by
  have hmem : (g.name, g.help, g.labels) ∈ m.gaugeShapes := List.mem_map.2 ⟨g, hg, rfl⟩
  rw [h.gauges, gaugeShapes_start] at hmem
  cases health with
  | false => cases hmem
  | true => exact hmem

theorem After.plain (h : After health m calls keys ctr rpcs hist) : m.registry.Plain where
  counters := fun c hc => by
    obtain ⟨k, -, s, n, -, rfl⟩ := h.counter_mem hc
    exact series_plain s
  gauges := fun g hg => by
    obtain ⟨hname, hhelp, hkeys⟩ := literals_plain.2.2 _ (h.gauge_mem hg)
    exact ⟨hname, hhelp, hkeys⟩
  histograms := fun x hx => by
    obtain ⟨r, -, rfl⟩ := h.histogram_mem hx
    exact latencyHist_plain r calls

theorem name_of_mem_scalarLines {name help kind value : Bytes} {labels : List Label} {l : Line}
    (h : l ∈ scalarLines name help labels kind value) : l.name = name := by
  simp only [scalarLines, List.mem_cons, List.not_mem_nil, or_false] at h
  rcases h with rfl | rfl | rfl <;> rfl

theorem name_of_mem_latencyHist {rpc : Bytes} {l : Line} (h : l ∈ (latencyHist rpc calls).lines) :
    l.name ∈ histogramNames := by
  simp only [Histogram.lines, Histogram.bucketLines, List.mem_cons, List.mem_append, List.mem_map, List.not_mem_nil,
    or_false] at h
  simp only [histogramNames, List.mem_cons, List.not_mem_nil, or_false]
  rcases h with rfl | rfl | ((⟨p, -, rfl⟩ | rfl) | rfl | rfl) <;>
    simp only [Line.name, Histogram.bucketLine, latencyHist_name, true_or, or_true]

theorem After.counterLines (h : After health m calls keys ctr rpcs hist) {l : Line}
    (hl : l ∈ (m.registry.counters.map Counter.lines).flatten) : ∃ k ∈ keys, l.name = k.1.name := by
  obtain ⟨b, hb, hl⟩ := List.mem_flatten.1 hl
  obtain ⟨c, hc, rfl⟩ := List.mem_map.1 hb
  obtain ⟨k, hk, s, n, rfl, rfl⟩ := h.counter_mem hc
  exact ⟨_, hk, name_of_mem_scalarLines hl⟩

theorem After.gaugeLines (h : After health m calls keys ctr rpcs hist) {l : Line}
    (hl : l ∈ (m.registry.gauges.map Gauge.lines).flatten) :
    l.name ∈ gaugeNames := by
  obtain ⟨b, hb, hl⟩ := List.mem_flatten.1 hl
  obtain ⟨g, hg, rfl⟩ := List.mem_map.1 hb
  exact List.mem_map.2 ⟨_, h.gauge_mem hg, (name_of_mem_scalarLines hl).symm⟩

theorem After.histogramLines (h : After health m calls keys ctr rpcs hist) {l : Line}
    (hl : l ∈ (m.registry.histograms.map Histogram.lines).flatten) : l.name ∈ histogramNames := by
  obtain ⟨b, hb, hl⟩ := List.mem_flatten.1 hl
  obtain ⟨x, hx, rfl⟩ := List.mem_map.1 hb
  obtain ⟨r, -, rfl⟩ := h.histogram_mem hx
  exact name_of_mem_latencyHist hl

theorem counterName_inj {a b : CounterKind} (h : a.name = b.name) : a = b := by
  have hne := literals_apart.1.2.2
  cases a <;> cases b
  · rfl
  · exact absurd h hne
  · exact absurd h.symm hne
  · rfl

theorem After.apart (h : After health m calls keys ctr rpcs hist) :
    Apart (m.registry.counters.map Counter.lines).flatten (m.registry.gauges.map Gauge.lines).flatten ∧
    Apart ((m.registry.counters.map Counter.lines).flatten ++ (m.registry.gauges.map Gauge.lines).flatten)
      (m.registry.histograms.map Histogram.lines).flatten := by
  constructor
  · intro x hx y hy heq
    obtain ⟨k, -, hname⟩ := h.counterLines hx
    have hy' := h.gaugeLines hy
    rw [← heq, hname] at hy'
    exact (literals_apart.2.1 k.1 (mem_kinds k.1)).2.1 hy'
  · intro x hx y hy heq
    have hy' := h.histogramLines hy
    rw [← heq] at hy'
    rcases List.mem_append.1 hx with hx | hx
    · obtain ⟨k, -, hname⟩ := h.counterLines hx
      rw [hname] at hy'
      exact (literals_apart.2.1 k.1 (mem_kinds k.1)).2.2 hy'
    · exact literals_apart.2.2 _ (h.gaugeLines hx) hy'

theorem lines_eq (r : Registry δ) : r.lines = (r.counters.map Counter.lines).flatten ++
    (r.gauges.map Gauge.lines).flatten ++ (r.histograms.map Histogram.lines).flatten := by
  rw [Registry.lines, Registry.blocks, List.flatten_append, List.flatten_append]

/-! ## No series twice -/

theorem series_key_eq {s s' : RpcSeries} (hkind : s.kind = s'.kind) (h : ∀ l, l ∈ s.labels ↔ l ∈ s'.labels) :
    s.key = s'.key := by
  have hne : ∀ kind : CounterKind, kind.label ≠ str "rpc" := fun kind => (literals_apart.2.1 kind (mem_kinds kind)).1
  have hrpc : s.rpc = s'.rpc := by
    have hmem := (h ⟨str "rpc", s.rpc⟩).1 List.mem_cons_self
    rcases List.mem_cons.1 hmem with heq | hmem
    · exact (Label.mk.inj heq).2
    · exact absurd (Label.mk.inj (List.mem_singleton.1 hmem)).1.symm (hne s'.kind)
  have hvalue : s.value = s'.value := by
    have hmem := (h ⟨s.kind.label, s.value⟩).1 (List.mem_cons_of_mem _ List.mem_cons_self)
    rcases List.mem_cons.1 hmem with heq | hmem
    · exact absurd (Label.mk.inj heq).1 (hne s.kind)
    · exact (Label.mk.inj (List.mem_singleton.1 hmem)).2
  rw [RpcSeries.key, RpcSeries.key, hkind, hrpc, hvalue]

theorem After.counters_distinct (h : After health m calls keys ctr rpcs hist) :
    ((m.registry.counters.map Counter.lines).flatten.filterMap Line.series).Pairwise fun s s' => ¬ SameSeries s s' := by
  rw [filterMap_lines (g := fun c : Counter => (c.name, c.labels)) (fun _ => rfl), h.counters.slots.objs, List.map_map,
    List.pairwise_map]
  refine h.counters.slots.nodup.imp_of_mem fun {k k'} hk hk' hne hsame => hne ?_
  obtain ⟨s, rfl, hs⟩ := h.counters.counted k hk
  obtain ⟨s', rfl, hs'⟩ := h.counters.counted k' hk'
  simp only [Function.comp_apply, hs, hs'] at hsame
  exact series_key_eq (counterName_inj hsame.1) hsame.2

theorem After.gauges_distinct (h : After health m calls keys ctr rpcs hist) :
    ((m.registry.gauges.map Gauge.lines).flatten.filterMap Line.series).Pairwise fun s s' => ¬ SameSeries s s' := by
  have hshapes : m.registry.gauges.map (fun g => (g.name, g.labels)) = m.gaugeShapes.map fun x => (x.1, x.2.2) := by
    rw [gaugeShapes, List.map_map]
    rfl
  rw [filterMap_lines (g := fun g : Gauge => (g.name, g.labels)) (fun _ => rfl), hshapes, h.gauges, gaugeShapes_start]
  cases health with
  | false => exact .nil
  | true => exact gauges_apart.2

/-- A series of a latency histogram names its method. -/
theorem rpc_of_series {rpc : Bytes} {s : List UInt8 × List Label}
    (h : s ∈ (latencyHist rpc calls).lines.filterMap Line.series) :
    ⟨str "rpc", rpc⟩ ∈ s.2 ∧ ∀ r, (⟨str "rpc", r⟩ : Label) ∈ s.2 → r = rpc := by
  have hle := literals_apart.1.1
  have hlabels : (⟨str "rpc", rpc⟩ : Label) ∈ (latencyHist rpc calls).labels ∧
      ∀ r, (⟨str "rpc", r⟩ : Label) ∈ (latencyHist rpc calls).labels → r = rpc := by
    rw [latencyHist_labels]
    exact ⟨List.mem_singleton_self _, fun r hr => (Label.mk.inj (List.mem_singleton.1 hr)).2⟩
  obtain ⟨l, hl, hs⟩ := List.mem_filterMap.1 h
  simp only [Histogram.lines, Histogram.bucketLines, List.mem_cons, List.mem_append, List.mem_map, List.not_mem_nil,
    or_false] at hl
  have hbucket : ∀ le n, ((latencyHist rpc calls).bucketLine le n).series = some s →
      (⟨str "rpc", rpc⟩ : Label) ∈ s.2 ∧ ∀ r, (⟨str "rpc", r⟩ : Label) ∈ s.2 → r = rpc := by
    intro le n heq
    cases heq
    refine ⟨List.mem_cons_of_mem _ hlabels.1, fun r hr => ?_⟩
    rcases List.mem_cons.1 hr with heq | hr
    · exact absurd (Label.mk.inj heq).1 hle
    · exact hlabels.2 r hr
  rcases hl with rfl | rfl | ((⟨p, -, rfl⟩ | rfl) | rfl | rfl)
  · cases hs
  · cases hs
  · exact hbucket _ _ hs
  · exact hbucket _ _ hs
  · cases hs
    exact hlabels
  · cases hs
    exact hlabels

theorem After.histograms_distinct (h : After health m calls keys ctr rpcs hist) :
    ((m.registry.histograms.map Histogram.lines).flatten.filterMap Line.series).Pairwise
      fun s s' => ¬ SameSeries s s' := by
  rw [List.filterMap_flatten, List.pairwise_flatten, h.histograms.slots.objs, List.map_map, List.map_map]
  constructor
  · intro b hb
    obtain ⟨r, hr, rfl⟩ := List.mem_map.1 hb
    simp only [Function.comp_apply, h.histograms.observed r hr]
    exact (Histogram.lines_valid (latencyHist_bucketsApart r calls)).distinct
  · rw [List.pairwise_map]
    refine h.histograms.slots.nodup.imp_of_mem fun {r r'} hr hr' hne s hs s' hs' hsame => hne ?_
    simp only [Function.comp_apply, h.histograms.observed r hr, h.histograms.observed r' hr'] at hs hs'
    exact (rpc_of_series hs').2 r ((hsame.2 _).1 (rpc_of_series hs).1)

theorem readPage_page (health : Bool) (calls : List (MetricsCall δ)) :
    readPage (page health calls) = some (calls.foldl step (start health)).registry.lines := by
  obtain ⟨keys, ctr, rpcs, hist, h⟩ := exists_after health calls
  exact Registry.readPage_render h.plain

/-- **No series is on the page twice**, after any calls. -/
theorem page_series_distinct (health : Bool) (calls : List (MetricsCall δ)) :
    ∃ ls, readPage (page health calls) = some ls ∧
      (ls.filterMap Line.series).Pairwise fun s s' => ¬ SameSeries s s' := by
  obtain ⟨keys, ctr, rpcs, hist, h⟩ := exists_after health calls
  refine ⟨_, readPage_page health calls, ?_⟩
  rw [lines_eq]
  exact h.apart.2.distinct (h.apart.1.distinct h.counters_distinct h.gauges_distinct) h.histograms_distinct

/-! ## When the page is valid -/

theorem After.counterNames (h : After health m calls keys ctr rpcs hist) :
    m.registry.counters.map Counter.name = keys.map fun k => k.1.name := by
  rw [h.counters.slots.objs, List.map_map]
  refine List.map_congr_left fun k hk => ?_
  obtain ⟨s, rfl, hs⟩ := h.counters.counted k hk
  rw [Function.comp_apply, hs]
  rfl

theorem After.histogramNames (h : After health m calls keys ctr rpcs hist) :
    m.registry.histograms.map Histogram.name = rpcs.map fun _ => str "osw_rpc_latency_seconds" := by
  rw [h.histograms.slots.objs, List.map_map]
  refine List.map_congr_left fun r hr => ?_
  rw [Function.comp_apply, h.histograms.observed r hr, latencyHist_name]

theorem After.not_health (h : After health m calls keys ctr rpcs hist) (hnodup : (m.registry.gauges.map Gauge.name).Nodup) :
    health = false := by
  have hnames : m.registry.gauges.map Gauge.name = m.gaugeShapes.map (·.1) := by
    rw [gaugeShapes, List.map_map]
    rfl
  rw [hnames, h.gauges, gaugeShapes_start] at hnodup
  cases health with
  | false => rfl
  | true => exact absurd hnodup gauges_apart.1

theorem After.valid_of_names (h : After false m calls keys ctr rpcs hist)
    (hkeys : ∀ k ∈ keys, ∀ k' ∈ keys, k.1 = k'.1 → k = k') (hrpcs : ∀ r ∈ rpcs, ∀ r' ∈ rpcs, r = r') :
    Valid m.registry.lines := by
  have hgauges : m.registry.gauges = [] := List.map_eq_nil_iff.1 (h.gauges.trans (gaugeShapes_start false))
  rw [lines_eq]
  refine Valid.append (Valid.append (Valid.flatten ?_ ?_) (Valid.flatten ?_ ?_) h.apart.1) (Valid.flatten ?_ ?_) h.apart.2
  · intro b hb
    obtain ⟨c, -, rfl⟩ := List.mem_map.1 hb
    exact scalarLines_valid _ _ _ _ _
  · rw [h.counters.slots.objs, List.map_map, List.pairwise_map]
    refine h.counters.slots.nodup.imp_of_mem fun {k k'} hk hk' hne x hx y hy heq => hne (hkeys k hk k' hk' ?_)
    obtain ⟨s, rfl, hs⟩ := h.counters.counted k hk
    obtain ⟨s', rfl, hs'⟩ := h.counters.counted k' hk'
    simp only [Function.comp_apply, hs, hs'] at hx hy
    rw [name_of_mem_scalarLines hx, name_of_mem_scalarLines hy] at heq
    exact counterName_inj heq
  · rw [hgauges]
    nofun
  · rw [hgauges]
    exact .nil
  · intro b hb
    obtain ⟨x, hx, rfl⟩ := List.mem_map.1 hb
    obtain ⟨r, -, rfl⟩ := h.histogram_mem hx
    exact Histogram.lines_valid (latencyHist_bucketsApart r calls)
  · rw [h.histograms.slots.objs, List.map_map, List.pairwise_map]
    exact h.histograms.slots.nodup.imp_of_mem fun {r r'} hr hr' hne => absurd (hrpcs r hr r' hr') hne

theorem After.valid_iff (h : After health m calls keys ctr rpcs hist) :
    Valid m.registry.lines ↔ health = false ∧ (∀ k ∈ keys, ∀ k' ∈ keys, k.1 = k'.1 → k = k') ∧
      ∀ r ∈ rpcs, ∀ r' ∈ rpcs, r = r' := by
  constructor
  · intro hv
    have htype := hv.type_once
    rw [Registry.typeNames_lines, List.nodup_append, List.nodup_append, h.counterNames, h.histogramNames] at htype
    obtain ⟨⟨hcounters, hgauges, -⟩, hhists, -⟩ := htype
    refine ⟨h.not_health hgauges, fun k hk k' hk' heq => ?_, fun r hr r' hr' => ?_⟩
    · exact List.inj_on_of_nodup_map hcounters hk hk' (congrArg CounterKind.name heq)
    · exact List.inj_on_of_nodup_map hhists hr hr' rfl
  · rintro ⟨rfl, hkeys, hrpcs⟩
    exact h.valid_of_names hkeys hrpcs

theorem slash_notMem_statusCode (code : GrpcCode) : (47 : UInt8) ∉ statusCodeToString code := by
  cases code with
  | other n =>
    show (47 : UInt8) ∉ str "UNKNOWN"
    decide +kernel
  | _ => decide +kernel

/-- The last slash of a key is the one between the method and the status. -/
theorem append_slash_inj {a b a' b' : Bytes} (hb : (47 : UInt8) ∉ b) (hb' : (47 : UInt8) ∉ b')
    (h : a ++ str "/" ++ b = a' ++ str "/" ++ b') : a = a' ∧ b = b' := by
  have hslash := literals_apart.1.2.1
  have hrev : ∀ x y : Bytes, (x ++ str "/" ++ y).reverse = y.reverse ++ 47 :: x.reverse := by
    intro x y
    rw [hslash, List.reverse_append, List.reverse_append]
    rfl
  have hplain : ∀ y : Bytes, (47 : UInt8) ∉ y → ∀ c ∈ y.reverse, decide (c ≠ 47) = true := by
    intro y hy c hc
    exact decide_eq_true fun heq => hy (heq ▸ List.mem_reverse.1 hc)
  have hstop : decide ((47 : UInt8) ≠ 47) = false := by decide
  have hsplit := takeWhile_dropWhile_stop a.reverse (hplain b hb) hstop
  have hsplit' := takeWhile_dropWhile_stop a'.reverse (hplain b' hb') hstop
  have heq : b.reverse ++ 47 :: a.reverse = b'.reverse ++ 47 :: a'.reverse := by rw [← hrev, ← hrev, h]
  rw [heq] at hsplit
  constructor
  · exact List.reverse_injective (List.cons.inj (hsplit.2.symm.trans hsplit'.2)).2
  · exact List.reverse_injective (hsplit.1.symm.trans hsplit'.1)

theorem After.key_mem (h : After health m calls keys ctr rpcs hist) {c : MetricsCall δ} {k : CounterKind × Bytes}
    (hc : c ∈ calls) (hk : c.key = some k) : k ∈ keys := (h.counters.mem k).2 ⟨c, hc, hk⟩

/-- **When the page is valid**: without the health metrics, with one method and one status among the recorded calls, and
one key among the authorization decisions. -/
theorem page_valid_iff (health : Bool) (calls : List (MetricsCall δ)) :
    ValidPage (page health calls) ↔
      health = false ∧
      (∀ rpc code d rpc' code' d', .record rpc code d ∈ calls → .record rpc' code' d' ∈ calls →
        rpc = rpc' ∧ statusCodeToString code = statusCodeToString code') ∧
      (∀ rpc outcome rpc' outcome', .recordAuthz rpc outcome ∈ calls → .recordAuthz rpc' outcome' ∈ calls →
        rpc ++ str "/" ++ outcome = rpc' ++ str "/" ++ outcome') := by
  obtain ⟨keys, ctr, rpcs, hist, h⟩ := exists_after health calls
  rw [page, Registry.validPage_render h.plain, h.valid_iff]
  refine and_congr_right fun _ => ⟨fun ⟨hkeys, _⟩ => ⟨?_, ?_⟩, fun ⟨hrecord, hauthz⟩ => ⟨?_, ?_⟩⟩
  · intro rpc code d rpc' code' d' hc hc'
    have heq := hkeys _ (h.key_mem hc rfl) _ (h.key_mem hc' rfl) rfl
    exact append_slash_inj (slash_notMem_statusCode code) (slash_notMem_statusCode code') (Prod.mk.inj heq).2
  · intro rpc outcome rpc' outcome' hc hc'
    have heq := hkeys _ (h.key_mem hc rfl) _ (h.key_mem hc' rfl) rfl
    exact (Prod.mk.inj heq).2
  · -- two keys of one kind come from two calls of it
    intro k hk k' hk' hkind
    obtain ⟨c, hc, hck⟩ := (h.counters.mem k).1 hk
    obtain ⟨c', hc', hck'⟩ := (h.counters.mem k').1 hk'
    cases c with
    | record rpc code d =>
      cases c' with
      | record rpc' code' d' =>
        obtain ⟨rfl, hcode⟩ := hrecord _ _ _ _ _ _ hc hc'
        have hsame : (MetricsCall.record rpc code d).key = (MetricsCall.record rpc code' d').key := by
          simp only [MetricsCall.key, MetricsCall.series, hcode]
        exact Option.some.inj (hck.symm.trans (hsame.trans hck'))
      | recordAuthz rpc' outcome' =>
        cases hck
        cases hck'
        cases hkind
      | refresh snap => cases hck'
    | recordAuthz rpc outcome =>
      cases c' with
      | record rpc' code' d' =>
        cases hck
        cases hck'
        cases hkind
      | recordAuthz rpc' outcome' =>
        cases hck
        cases hck'
        exact Prod.ext rfl (hauthz _ _ _ _ hc hc')
      | refresh snap => cases hck'
    | refresh snap => cases hck
  · intro r hr r' hr'
    obtain ⟨c, hc, hlat⟩ := (h.histograms.mem r).1 hr
    obtain ⟨c', hc', hlat'⟩ := (h.histograms.mem r').1 hr'
    obtain ⟨code, d, rfl⟩ := MetricsCall.eq_record hlat
    obtain ⟨code', d', rfl⟩ := MetricsCall.eq_record hlat'
    exact (hrecord _ _ _ _ _ _ hc hc').1

/-- The bounds of a latency histogram in nanoseconds, as they print in seconds. -/
def nanoBounds : List (Nat × Bytes) :=
  [(5000000, str "0.005"), (10000000, str "0.01"), (25000000, str "0.025"), (50000000, str "0.05"),
    (100000000, str "0.1"), (250000000, str "0.25"), (500000000, str "0.5"), (1000000000, str "1"),
    (2500000000, str "2.5"), (5000000000, str "5"), (10000000000, str "10")]

def nanoText (n : Nat) : Bytes := (nanoBounds.lookup n).getD (decimal n ++ str "e-09")

theorem nanoText_plain (n : Nat) : ∀ b ∈ nanoText n, b ≠ 92 ∧ b ≠ 34 ∧ b ≠ 10 := by
  have hbounds : ∀ p ∈ nanoBounds, ∀ b ∈ p.2, b ≠ 92 ∧ b ≠ 34 ∧ b ≠ 10 := by decide +kernel
  have hexp : ∀ b ∈ str "e-09", b ≠ 92 ∧ b ≠ 34 ∧ b ≠ 10 := by decide +kernel
  intro b hb
  rw [nanoText] at hb
  cases hl : nanoBounds.lookup n with
  | some v =>
    rw [hl] at hb
    obtain ⟨l₁, l₂, heq, -⟩ := List.lookup_eq_some_iff.1 hl
    exact hbounds (n, v) (by rw [heq]; simp) b hb
  | none =>
    rw [hl, Option.getD_none, List.mem_append] at hb
    rcases hb with hb | hb
    · have hdigit := digit_of_mem_decimal hb
      refine ⟨?_, ?_, ?_⟩ <;> rintro rfl <;> exact absurd hdigit (by decide)
    · exact hexp b hb

/-- Latencies in whole nanoseconds. -/
instance : DoubleOps Nat where
  le             := fun a b => decide (a ≤ b)
  toNanos        := id
  ofNanos        := id
  text           := nanoText
  latencyBuckets := nanoBounds.map (·.1)
  text_plain     := nanoText_plain
  text_latencyBuckets := by decide +kernel

/-- A call, a decision and a call with another status. -/
def interleavedCalls : List (MetricsCall Nat) :=
  [.record (str "Health") .ok 1000000, .recordAuthz (str "Health") (str "allow"),
    .record (str "Health") .notFound 2000000]

/-- With nothing recorded the page has three TYPE lines for the drops, and is not valid; and after three calls a decision
stands between the samples of two calls. -/
theorem page_repeats_type :
    (readPage (page true ([] : List (MetricsCall Nat)))).map (fun ls => ls.filterMap Line.typeName) =
      some [str "osw_events_subscribers", str "osw_events_tier_ring_drops_total",
        str "osw_events_tier_ring_drops_total", str "osw_events_tier_ring_drops_total",
        str "osw_events_audit_emit_total"] ∧
    ¬ ValidPage (page true ([] : List (MetricsCall Nat))) ∧
    (readPage (page true interleavedCalls)).map (fun ls => (ls.filterMap Line.sampleName).take 3) =
      some [str "osw_rpc_calls_total", str "osw_rpc_authz_decisions_total", str "osw_rpc_calls_total"] := by
  have htypes : (readPage (page true ([] : List (MetricsCall Nat)))).map (fun ls => ls.filterMap Line.typeName) =
      some [str "osw_events_subscribers", str "osw_events_tier_ring_drops_total",
        str "osw_events_tier_ring_drops_total", str "osw_events_tier_ring_drops_total",
        str "osw_events_audit_emit_total"] := by
    rw [readPage_page]
    decide +kernel
  refine ⟨htypes, fun ⟨ls, hls, hv⟩ => ?_, by rw [readPage_page]; decide +kernel⟩
  rw [hls, Option.map_some, Option.some.injEq] at htypes
  have honce := hv.type_once
  rw [htypes] at honce
  exact absurd honce (by decide +kernel)

end Metrics
end Control
end Osw
