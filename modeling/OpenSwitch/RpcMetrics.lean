import Mathlib.Data.List.AList
import OpenSwitch.Slots
import OpenSwitch.Prometheus
import OpenSwitch.HealthCounters
/-!
# RpcMetrics — what is registered for the metrics page (`rpc_metrics.cc`, `health_metrics.cc`)

`HealthMetrics` registers five gauges, three of them under one name; `RpcMetrics` registers a counter for each method and
status code, a counter for each method and authorization outcome, and a latency histogram for each method, when they are
first recorded.  After any calls each counter has counted the calls of its key and each histogram has observed the
latencies of its method (`Metrics.exists_after`).
-/
namespace Osw
namespace Control

open Prometheus
open Exposition (Label)

inductive GrpcCode
  | ok | cancelled | unknown | invalidArgument | deadlineExceeded | notFound | alreadyExists | permissionDenied
  | resourceExhausted | failedPrecondition | aborted | outOfRange | unimplemented | internal | unavailable | dataLoss
  | unauthenticated
  | other (n : Int)
  deriving DecidableEq, Repr

def statusCodeToString : GrpcCode → Bytes
  | .ok                 => str "OK"
  | .cancelled          => str "CANCELLED"
  | .unknown            => str "UNKNOWN"
  | .invalidArgument    => str "INVALID_ARGUMENT"
  | .deadlineExceeded   => str "DEADLINE_EXCEEDED"
  | .notFound           => str "NOT_FOUND"
  | .alreadyExists      => str "ALREADY_EXISTS"
  | .permissionDenied   => str "PERMISSION_DENIED"
  | .resourceExhausted  => str "RESOURCE_EXHAUSTED"
  | .failedPrecondition => str "FAILED_PRECONDITION"
  | .aborted            => str "ABORTED"
  | .outOfRange         => str "OUT_OF_RANGE"
  | .unimplemented      => str "UNIMPLEMENTED"
  | .internal           => str "INTERNAL"
  | .unavailable        => str "UNAVAILABLE"
  | .dataLoss           => str "DATA_LOSS"
  | .unauthenticated    => str "UNAUTHENTICATED"
  | .other _            => str "UNKNOWN"

/-- The two families of counters. -/
inductive CounterKind
  | call
  | authz
  deriving DecidableEq, Repr

namespace CounterKind

def name : CounterKind → Bytes
  | .call  => str "osw_rpc_calls_total"
  | .authz => str "osw_rpc_authz_decisions_total"

def help : CounterKind → Bytes
  | .call  => str "Total gRPC RPC calls by method and status code"
  | .authz => str "Total gRPC authz decisions by RPC and outcome"

/-- The key of the label beside `rpc`. -/
def label : CounterKind → Bytes
  | .call  => str "code"
  | .authz => str "outcome"

end CounterKind

/-- The gauges of `HealthMetrics`, by their places in the registry. -/
structure HealthMetrics where
  subscriberGauge : Nat
  tier1DropsGauge : Nat
  tier2DropsGauge : Nat
  tier3DropsGauge : Nat
  auditEmitGauge  : Nat

/-- The registry with `HealthMetrics` and `RpcMetrics`; `counterTable` is `call_counters_` and `authz_counters_`. -/
structure Metrics (δ : Type) where
  registry     : Registry δ
  health       : Option HealthMetrics
  counterTable : CounterKind → AList fun _ : Bytes => Nat
  latencyHists : AList fun _ : Bytes => Nat

inductive MetricsCall (δ : Type)
  | record (rpc : Bytes) (code : GrpcCode) (latency : δ)
  | recordAuthz (rpc outcome : Bytes)
  | refresh (snapshot : Events.HealthCounters)

/-- The conversion from `uint64_t` to `int64_t`. -/
def toInt64 (n : Nat) : Int := (BitVec.ofNat 64 n).toInt

namespace Metrics

variable {δ : Type} [DoubleOps δ]

def init : Metrics δ := ⟨.empty, none, fun _ => ∅, ∅⟩

/-- The constructor of `HealthMetrics`. -/
def addHealthMetrics (m : Metrics δ) : Metrics δ :=
  let sub := m.registry.addGauge (str "osw_events_subscribers")
    (str "Current number of active SubscribeEvents gRPC streams") []
  let tier1 := sub.1.addGauge (str "osw_events_tier_ring_drops_total")
    (str "Total events dropped from the tier-1 ring since module load") [⟨str "tier", str "1"⟩]
  let tier2 := tier1.1.addGauge (str "osw_events_tier_ring_drops_total")
    (str "Total events dropped from the tier-2 ring since module load") [⟨str "tier", str "2"⟩]
  let tier3 := tier2.1.addGauge (str "osw_events_tier_ring_drops_total")
    (str "Total events dropped from the tier-3 ring since module load") [⟨str "tier", str "3"⟩]
  let audit := tier3.1.addGauge (str "osw_events_audit_emit_total")
    (str "Total audit events emitted (osw::audit::Emit calls) since module load") []
  { m with registry := audit.1, health := some ⟨sub.2, tier1.2, tier2.2, tier3.2, audit.2⟩ }

/-- The registry as `RpcMetrics` gets it, with the health metrics or without. -/
def start (health : Bool) : Metrics δ := if health then init.addHealthMetrics else init

/-- `GetOrCreateCallCounter` and `GetOrCreateAuthzCounter`. -/
def getOrCreateCounter (m : Metrics δ) (kind : CounterKind) (rpc value : Bytes) : Metrics δ × Nat :=
  match (m.counterTable kind).lookup (rpc ++ str "/" ++ value) with
  | some i => (m, i)
  | none =>
    let added := m.registry.addCounter kind.name kind.help [⟨str "rpc", rpc⟩, ⟨kind.label, value⟩]
    ({ m with
        registry := added.1
        counterTable := Function.update m.counterTable kind
          ((m.counterTable kind).insert (rpc ++ str "/" ++ value) added.2) }, added.2)

def getOrCreateCallCounter (m : Metrics δ) (rpc : Bytes) (code : GrpcCode) : Metrics δ × Nat :=
  m.getOrCreateCounter .call rpc (statusCodeToString code)

def getOrCreateAuthzCounter (m : Metrics δ) (rpc outcome : Bytes) : Metrics δ × Nat :=
  m.getOrCreateCounter .authz rpc outcome

def getOrCreateLatencyHistogram (m : Metrics δ) (rpc : Bytes) : Metrics δ × Nat :=
  match m.latencyHists.lookup rpc with
  | some i => (m, i)
  | none =>
    let added := m.registry.addLatencyHistogram (str "osw_rpc_latency_seconds") (str "gRPC RPC latency in seconds")
      [⟨str "rpc", rpc⟩]
    ({ m with registry := added.1, latencyHists := m.latencyHists.insert rpc added.2 }, added.2)

def incCounter (m : Metrics δ) (i : Nat) : Metrics δ :=
  { m with registry := { m.registry with counters := m.registry.counters.modify i Counter.inc } }

def observe (m : Metrics δ) (i : Nat) (latency : δ) : Metrics δ :=
  { m with registry := { m.registry with histograms := m.registry.histograms.modify i (Histogram.observe latency) } }

def setGauge (m : Metrics δ) (i : Nat) (v : Int) : Metrics δ :=
  { m with registry := { m.registry with gauges := m.registry.gauges.modify i (Gauge.set v) } }

def record (m : Metrics δ) (rpc : Bytes) (code : GrpcCode) (latency : δ) : Metrics δ :=
  let ctr := m.getOrCreateCallCounter rpc code
  let hist := ctr.1.getOrCreateLatencyHistogram rpc
  (hist.1.incCounter ctr.2).observe hist.2 latency

def recordAuthz (m : Metrics δ) (rpc outcome : Bytes) : Metrics δ :=
  let ctr := m.getOrCreateAuthzCounter rpc outcome
  ctr.1.incCounter ctr.2

/-- `HealthMetrics::Refresh`. -/
def refresh (m : Metrics δ) (snap : Events.HealthCounters) : Metrics δ :=
  match m.health with
  | none => m
  | some h =>
    ((((m.setGauge h.subscriberGauge (toInt64 snap.subscriberCount)).setGauge h.tier1DropsGauge
      (toInt64 (snap.droppedTotal .critical))).setGauge h.tier2DropsGauge
      (toInt64 (snap.droppedTotal .state))).setGauge h.tier3DropsGauge
      (toInt64 (snap.droppedTotal .ephemeral))).setGauge h.auditEmitGauge (toInt64 snap.eventsEmittedTotal)

def step (m : Metrics δ) : MetricsCall δ → Metrics δ
  | .record rpc code latency  => m.record rpc code latency
  | .recordAuthz rpc outcome  => m.recordAuthz rpc outcome
  | .refresh snap             => m.refresh snap

/-- The page after some calls. -/
def page (health : Bool) (calls : List (MetricsCall δ)) : Bytes := (calls.foldl step (start health)).registry.render

end Metrics

/-! ## What the calls have made -/

/-- What a counter is about: the method, and the status or the outcome. -/
structure RpcSeries where
  kind  : CounterKind
  rpc   : Bytes
  value : Bytes

namespace RpcSeries

def key (s : RpcSeries) : CounterKind × Bytes := (s.kind, s.rpc ++ str "/" ++ s.value)

def labels (s : RpcSeries) : List Label := [⟨str "rpc", s.rpc⟩, ⟨s.kind.label, s.value⟩]

/-- Its counter after `n` calls. -/
def counter (s : RpcSeries) (n : Nat) : Counter := ⟨s.kind.name, s.kind.help, s.labels, n % 2 ^ 64⟩

theorem inc_counter (s : RpcSeries) (n : Nat) : (s.counter n).inc = s.counter (n + 1) := by
  simp only [counter, Counter.inc, Nat.mod_add_mod]

end RpcSeries

namespace MetricsCall

variable {δ : Type}

/-- The series a call counts in. -/
def series : MetricsCall δ → Option RpcSeries
  | .record rpc code _       => some ⟨.call, rpc, statusCodeToString code⟩
  | .recordAuthz rpc outcome => some ⟨.authz, rpc, outcome⟩
  | .refresh _               => none

def key (c : MetricsCall δ) : Option (CounterKind × Bytes) := c.series.map RpcSeries.key

/-- The latency a call adds to a method. -/
def latency (rpc : Bytes) : MetricsCall δ → Option δ
  | .record r _ d => if r = rpc then some d else none
  | _ => none

end MetricsCall

variable {δ : Type} {calls : List (MetricsCall δ)} {c : MetricsCall δ}

/-- How many calls count under a key. -/
def numCalls (k : CounterKind × Bytes) (calls : List (MetricsCall δ)) : Nat := calls.countP fun c => decide (c.key = some k)

theorem numCalls_concat (k : CounterKind × Bytes) (calls : List (MetricsCall δ)) (c : MetricsCall δ) :
    numCalls k (calls ++ [c]) = numCalls k calls + if c.key = some k then 1 else 0 := by
  rw [numCalls, List.countP_append, List.countP_singleton]
  simp only [decide_eq_true_eq]
  rfl

/-- The counters in the registry, and their table, after some calls. -/
structure CountersOk (keys : List (CounterKind × Bytes)) (ctr : CounterKind × Bytes → Counter)
    (look : CounterKind × Bytes → Option Nat) (counters : List Counter) (calls : List (MetricsCall δ)) : Prop where
  slots   : Slots keys look counters ctr
  mem     : ∀ k, k ∈ keys ↔ ∃ c ∈ calls, c.key = some k
  counted : ∀ k ∈ keys, ∃ s : RpcSeries, s.key = k ∧ ctr k = s.counter (numCalls k calls)

theorem CountersOk.same {keys : List (CounterKind × Bytes)} {ctr : CounterKind × Bytes → Counter}
    {look : CounterKind × Bytes → Option Nat} {counters : List Counter} (h : CountersOk keys ctr look counters calls)
    (hc : c.key = none) : CountersOk keys ctr look counters (calls ++ [c]) where
  slots := h.slots
  mem := fun k => by
    rw [h.mem]
    simp [hc]
  counted := fun k hk => by
    obtain ⟨s, hs, heq⟩ := h.counted k hk
    refine ⟨s, hs, ?_⟩
    rw [numCalls_concat, hc, if_neg nofun, heq]
    rfl

theorem CountersOk.count {keys keys' : List (CounterKind × Bytes)} {ctr ctr' : CounterKind × Bytes → Counter}
    {look look' : CounterKind × Bytes → Option Nat} {counters counters' : List Counter} {s : RpcSeries} {i : Nat}
    (h : CountersOk keys ctr look counters calls) (hc : c.series = some s) (hslots : Slots keys' look' counters' ctr')
    (hi : keys'[i]? = some s.key) (hmem : ∀ k, k ∈ keys' ↔ k ∈ keys ∨ k = s.key) (hold : ∀ k ∈ keys, ctr' k = ctr k)
    (hnew : s.key ∉ keys → ctr' s.key = s.counter 0) :
    CountersOk keys' (Function.update ctr' s.key (ctr' s.key).inc) look' (counters'.modify i Counter.inc) (calls ++ [c]) := by
  have hkey : c.key = some s.key := by rw [MetricsCall.key, hc]; rfl
  refine ⟨hslots.modify hi Counter.inc, fun k => ?_, fun k hk => ?_⟩
  · rw [hmem, h.mem]
    simp only [List.mem_append, List.mem_singleton]
    constructor
    · rintro (⟨c', hc', hk⟩ | rfl)
      · exact ⟨c', .inl hc', hk⟩
      · exact ⟨c, .inr rfl, hkey⟩
    · rintro ⟨c', hc' | rfl, hk⟩
      · exact .inl ⟨c', hc', hk⟩
      · exact .inr (Option.some.inj (hk.symm.trans hkey))
  · rw [numCalls_concat, hkey]
    by_cases hks : k = s.key
    · subst hks
      rw [Function.update_self, if_pos rfl]
      by_cases hin : s.key ∈ keys
      · obtain ⟨s', hs', heq⟩ := h.counted s.key hin
        exact ⟨s', hs', by rw [hold _ hin, heq, s'.inc_counter]⟩
      · have hzero : numCalls s.key calls = 0 := by
          refine List.countP_eq_zero.2 fun c' hc' hk => hin ((h.mem _).2 ⟨c', hc', ?_⟩)
          simpa using hk
        exact ⟨s, rfl, by rw [hnew hin, hzero, s.inc_counter]⟩
    · have hin : k ∈ keys := ((hmem k).1 hk).resolve_right hks
      obtain ⟨s', hs', heq⟩ := h.counted k hin
      refine ⟨s', hs', ?_⟩
      rw [Function.update_of_ne hks, hold k hin, heq, if_neg fun he => hks (Option.some.inj he).symm]
      rfl

variable [DoubleOps δ]

def latencies (rpc : Bytes) (calls : List (MetricsCall δ)) : List δ := calls.filterMap (MetricsCall.latency rpc)

/-- A latency histogram as it is registered. -/
def newLatencyHist (rpc : Bytes) : Histogram δ :=
  .make (str "osw_rpc_latency_seconds") (str "gRPC RPC latency in seconds") [⟨str "rpc", rpc⟩] DoubleOps.latencyBuckets

/-- The histogram of a method after some calls. -/
def latencyHist (rpc : Bytes) (calls : List (MetricsCall δ)) : Histogram δ :=
  (latencies rpc calls).foldl (fun h d => h.observe d) (newLatencyHist rpc)

/-- The histograms in the registry, and their table, after some calls. -/
structure HistogramsOk (rpcs : List Bytes) (hist : Bytes → Histogram δ) (look : Bytes → Option Nat)
    (histograms : List (Histogram δ)) (calls : List (MetricsCall δ)) : Prop where
  slots    : Slots rpcs look histograms hist
  mem      : ∀ r, r ∈ rpcs ↔ ∃ c ∈ calls, c.latency r ≠ none
  observed : ∀ r ∈ rpcs, hist r = latencyHist r calls

omit [DoubleOps δ] in
theorem latencies_concat (rpc : Bytes) (calls : List (MetricsCall δ)) (c : MetricsCall δ) :
    latencies rpc (calls ++ [c]) = latencies rpc calls ++ (c.latency rpc).toList := by
  rw [latencies, List.filterMap_append]
  cases hl : c.latency rpc with
  | none => simp [latencies, hl]
  | some d => simp [latencies, hl]

theorem HistogramsOk.same {rpcs : List Bytes} {hist : Bytes → Histogram δ} {look : Bytes → Option Nat}
    {histograms : List (Histogram δ)} (h : HistogramsOk rpcs hist look histograms calls)
    (hc : ∀ r, c.latency r = none) : HistogramsOk rpcs hist look histograms (calls ++ [c]) where
  slots := h.slots
  mem := fun r => by
    rw [h.mem]
    simp [hc]
  observed := fun r hr => by
    rw [h.observed r hr, latencyHist, latencyHist, latencies_concat, hc r]
    simp

/-- A call finds the histogram of its method, or makes it, and has it observe the latency. -/
theorem HistogramsOk.observe {rpcs rpcs' : List Bytes} {hist hist' : Bytes → Histogram δ}
    {look look' : Bytes → Option Nat} {histograms histograms' : List (Histogram δ)} {rpc : Bytes} {code : GrpcCode}
    {d : δ} {i : Nat} (h : HistogramsOk rpcs hist look histograms calls) (hslots : Slots rpcs' look' histograms' hist')
    (hi : rpcs'[i]? = some rpc) (hmem : ∀ r, r ∈ rpcs' ↔ r ∈ rpcs ∨ r = rpc) (hold : ∀ r ∈ rpcs, hist' r = hist r)
    (hnew : rpc ∉ rpcs → hist' rpc = newLatencyHist rpc) :
    HistogramsOk rpcs' (Function.update hist' rpc ((hist' rpc).observe d)) look'
      (histograms'.modify i (Histogram.observe d)) (calls ++ [.record rpc code d]) := by
  have hlat : (MetricsCall.record rpc code d).latency rpc = some d := if_pos rfl
  have hother : ∀ r, r ≠ rpc → (MetricsCall.record rpc code d).latency r = none := fun r hr => if_neg hr.symm
  refine ⟨hslots.modify hi (Histogram.observe d), fun r => ?_, fun r hr => ?_⟩
  · rw [hmem, h.mem]
    simp only [List.mem_append, List.mem_singleton]
    constructor
    · rintro (⟨c, hc, hk⟩ | rfl)
      · exact ⟨c, .inl hc, hk⟩
      · exact ⟨_, .inr rfl, by rw [hlat]; nofun⟩
    · rintro ⟨c, hc | rfl, hk⟩
      · exact .inl ⟨c, hc, hk⟩
      · exact .inr (Classical.byContradiction fun hne => hk (hother r hne))
  · rw [latencyHist, latencies_concat]
    by_cases hrr : r = rpc
    · subst hrr
      rw [Function.update_self, hlat, Option.toList_some, List.foldl_append, List.foldl_cons, List.foldl_nil]
      by_cases hin : r ∈ rpcs
      · rw [hold r hin, h.observed r hin, latencyHist]
      · have hnone : latencies r calls = [] := by
          refine List.filterMap_eq_nil_iff.2 fun c hc => Classical.byContradiction fun hne => hin ?_
          exact (h.mem r).2 ⟨c, hc, hne⟩
        rw [hnew hin, hnone, List.foldl_nil]
    · have hin : r ∈ rpcs := ((hmem r).1 hr).resolve_right hrr
      rw [Function.update_of_ne hrr, hold r hin, h.observed r hin, hother r hrr, Option.toList_none, List.append_nil,
        latencyHist]

namespace Metrics

variable {m : Metrics δ}

/-- Where the counter of a key is. -/
def look (m : Metrics δ) (k : CounterKind × Bytes) : Option Nat := (m.counterTable k.1).lookup k.2

omit [DoubleOps δ] in
theorem getOrCreateCounter_frame (m : Metrics δ) (kind : CounterKind) (rpc value : Bytes) :
    (m.getOrCreateCounter kind rpc value).1.registry.gauges = m.registry.gauges ∧
    (m.getOrCreateCounter kind rpc value).1.registry.histograms = m.registry.histograms ∧
    (m.getOrCreateCounter kind rpc value).1.latencyHists = m.latencyHists := by
  unfold getOrCreateCounter
  split <;> exact ⟨rfl, rfl, rfl⟩

theorem getOrCreateLatencyHistogram_frame (m : Metrics δ) (rpc : Bytes) :
    (m.getOrCreateLatencyHistogram rpc).1.registry.gauges = m.registry.gauges ∧
    (m.getOrCreateLatencyHistogram rpc).1.registry.counters = m.registry.counters ∧
    (m.getOrCreateLatencyHistogram rpc).1.look = m.look := by
  unfold getOrCreateLatencyHistogram
  split <;> exact ⟨rfl, rfl, rfl⟩

omit [DoubleOps δ] in
theorem getOrCreateCounter_slots {keys : List (CounterKind × Bytes)} {ctr : CounterKind × Bytes → Counter}
    (h : Slots keys m.look m.registry.counters ctr) (s : RpcSeries) :
    ∃ keys' ctr', Slots keys' (m.getOrCreateCounter s.kind s.rpc s.value).1.look
        (m.getOrCreateCounter s.kind s.rpc s.value).1.registry.counters ctr' ∧
      keys'[(m.getOrCreateCounter s.kind s.rpc s.value).2]? = some s.key ∧
      (∀ k, k ∈ keys' ↔ k ∈ keys ∨ k = s.key) ∧ (∀ k ∈ keys, ctr' k = ctr k) ∧
      (s.key ∉ keys → ctr' s.key = s.counter 0) := by
  unfold getOrCreateCounter
  split
  · rename_i i hlook
    have hi : m.look s.key = some i := hlook
    have hin := h.mem_of_look hi
    refine ⟨keys, ctr, h, (h.index s.key i).1 hi, fun k => ?_, fun k _ => rfl, fun hnot => absurd hin hnot⟩
    constructor
    · exact .inl
    · rintro (hk | rfl)
      · exact hk
      · exact hin
  · rename_i hlook
    have hnone : m.look s.key = none := hlook
    have hnot := h.notMem_of_look hnone
    have hlen : m.registry.counters.length = keys.length := by rw [h.objs, List.length_map]
    refine ⟨keys ++ [s.key], Function.update ctr s.key (s.counter 0), h.add hnone (s.counter 0) ?_ fun k hk => ?_, ?_, fun k => ?_,
      fun k hk => ?_, fun _ => Function.update_self ..⟩
    · simp only [look, RpcSeries.key, Function.update_self, AList.lookup_insert, Registry.addCounter]
    · simp only [look]
      by_cases hkind : k.1 = s.kind
      · have hne : k.2 ≠ s.rpc ++ str "/" ++ s.value := fun heq => hk (Prod.ext hkind heq)
        rw [hkind, Function.update_self, AList.lookup_insert_ne hne]
      · rw [Function.update_of_ne hkind]
    · simp only [Registry.addCounter, hlen]
      exact List.getElem?_concat_length
    · rw [List.mem_append, List.mem_singleton]
    · have hne : k ≠ s.key := fun heq => hnot (heq ▸ hk)
      exact Function.update_of_ne hne _ _

theorem getOrCreateLatencyHistogram_slots {rpcs : List Bytes} {hist : Bytes → Histogram δ}
    (h : Slots rpcs (fun r => m.latencyHists.lookup r) m.registry.histograms hist) (rpc : Bytes) :
    ∃ rpcs' hist', Slots rpcs' (fun r => (m.getOrCreateLatencyHistogram rpc).1.latencyHists.lookup r)
        (m.getOrCreateLatencyHistogram rpc).1.registry.histograms hist' ∧
      rpcs'[(m.getOrCreateLatencyHistogram rpc).2]? = some rpc ∧
      (∀ r, r ∈ rpcs' ↔ r ∈ rpcs ∨ r = rpc) ∧ (∀ r ∈ rpcs, hist' r = hist r) ∧
      (rpc ∉ rpcs → hist' rpc = newLatencyHist rpc) := by
  unfold getOrCreateLatencyHistogram
  split
  · rename_i i hlook
    have hin := h.mem_of_look hlook
    refine ⟨rpcs, hist, h, (h.index rpc i).1 hlook, fun r => ?_, fun r _ => rfl, fun hnot => absurd hin hnot⟩
    constructor
    · exact .inl
    · rintro (hr | rfl)
      · exact hr
      · exact hin
  · rename_i hlook
    have hnot := h.notMem_of_look hlook
    have hlen : m.registry.histograms.length = rpcs.length := by rw [h.objs, List.length_map]
    refine ⟨rpcs ++ [rpc], Function.update hist rpc (newLatencyHist rpc),
      h.add hlook (newLatencyHist rpc) ?_ fun r hr => ?_, ?_, fun r => ?_, fun r hr => ?_, fun _ => Function.update_self ..⟩
    · exact AList.lookup_insert _
    · exact AList.lookup_insert_ne hr
    · simp only [Registry.addLatencyHistogram, Registry.addHistogram, hlen]
      exact List.getElem?_concat_length
    · rw [List.mem_append, List.mem_singleton]
    · have hne : r ≠ rpc := fun heq => hnot (heq ▸ hr)
      exact Function.update_of_ne hne _ _

/-- The name, help and labels of the gauges. -/
def gaugeShapes (m : Metrics δ) : List (Bytes × Bytes × List Label) :=
  m.registry.gauges.map fun g => (g.name, g.help, g.labels)

/-- The registry after some calls: the counters and histograms of the calls, and the gauges of the start. -/
structure After (health : Bool) (m : Metrics δ) (calls : List (MetricsCall δ)) (keys : List (CounterKind × Bytes))
    (ctr : CounterKind × Bytes → Counter) (rpcs : List Bytes) (hist : Bytes → Histogram δ) : Prop where
  counters   : CountersOk keys ctr m.look m.registry.counters calls
  histograms : HistogramsOk rpcs hist (fun r => m.latencyHists.lookup r) m.registry.histograms calls
  gauges     : m.gaugeShapes = gaugeShapes (start health : Metrics δ)

omit [DoubleOps δ] in
theorem gaugeShapes_setGauge (m : Metrics δ) (i : Nat) (v : Int) : (m.setGauge i v).gaugeShapes = m.gaugeShapes := by
  refine List.ext_getElem? fun j => ?_
  simp only [gaugeShapes, setGauge, List.getElem?_map, List.getElem?_modify]
  cases m.registry.gauges[j]? with
  | none => rfl
  | some g =>
    by_cases hij : i = j
    · simp [hij, Gauge.set]
    · simp [hij]

theorem after_start (health : Bool) (ctr : CounterKind × Bytes → Counter) (hist : Bytes → Histogram δ) :
    After health (start health) [] [] ctr [] hist := by
  have hlook : (start health : Metrics δ).look = fun _ => none := by cases health <;> rfl
  have hhists : (fun r => (start health : Metrics δ).latencyHists.lookup r) = fun _ => none := by cases health <;> rfl
  have hcounters : (start health : Metrics δ).registry.counters = [] := by cases health <;> rfl
  have hhistograms : (start health : Metrics δ).registry.histograms = [] := by cases health <;> rfl
  refine ⟨?_, ?_, rfl⟩
  · rw [hlook, hcounters]
    exact ⟨.empty _ _ fun _ => rfl, by simp, by simp⟩
  · rw [hhists, hhistograms]
    exact ⟨.empty _ _ fun _ => rfl, by simp, by simp⟩

variable {health : Bool} {calls : List (MetricsCall δ)} {keys : List (CounterKind × Bytes)}
  {ctr : CounterKind × Bytes → Counter} {rpcs : List Bytes} {hist : Bytes → Histogram δ}

theorem After.record (h : After health m calls keys ctr rpcs hist) (rpc : Bytes) (code : GrpcCode) (d : δ) :
    ∃ keys' ctr' rpcs' hist', After health (m.record rpc code d) (calls ++ [.record rpc code d]) keys' ctr' rpcs' hist' := by
  obtain ⟨hgauges, hhists, htable⟩ := m.getOrCreateCounter_frame .call rpc (statusCodeToString code)
  obtain ⟨hgauges', hcounters', hlook'⟩ :=
    (m.getOrCreateCounter .call rpc (statusCodeToString code)).1.getOrCreateLatencyHistogram_frame rpc
  obtain ⟨keys', ctr', hslots, hi, hmem, hold, hnew⟩ :=
    getOrCreateCounter_slots h.counters.slots ⟨.call, rpc, statusCodeToString code⟩
  have hh : Slots rpcs (fun r => (m.getOrCreateCounter .call rpc (statusCodeToString code)).1.latencyHists.lookup r)
      (m.getOrCreateCounter .call rpc (statusCodeToString code)).1.registry.histograms hist := by
    rw [hhists, htable]
    exact h.histograms.slots
  obtain ⟨rpcs', hist', hslots', hi', hmem', hold', hnew'⟩ := getOrCreateLatencyHistogram_slots hh rpc
  have hcount := h.counters.count (c := .record rpc code d) rfl hslots hi hmem hold hnew
  rw [← hcounters', ← hlook'] at hcount
  exact ⟨keys', _, rpcs', _, hcount, h.histograms.observe hslots' hi' hmem' hold' hnew',
    (congrArg _ (hgauges'.trans hgauges)).trans h.gauges⟩

theorem After.recordAuthz (h : After health m calls keys ctr rpcs hist) (rpc outcome : Bytes) :
    ∃ keys' ctr' rpcs' hist',
      After health (m.recordAuthz rpc outcome) (calls ++ [.recordAuthz rpc outcome]) keys' ctr' rpcs' hist' := by
  obtain ⟨hgauges, hhists, htable⟩ := m.getOrCreateCounter_frame .authz rpc outcome
  obtain ⟨keys', ctr', hslots, hi, hmem, hold, hnew⟩ :=
    getOrCreateCounter_slots h.counters.slots ⟨.authz, rpc, outcome⟩
  have hcount := h.counters.count (c := .recordAuthz rpc outcome) rfl hslots hi hmem hold hnew
  have hsame := h.histograms.same (c := .recordAuthz rpc outcome) fun _ => rfl
  rw [← hhists, ← htable] at hsame
  exact ⟨keys', _, rpcs, hist, hcount, hsame, (congrArg _ hgauges).trans h.gauges⟩

theorem After.refresh (h : After health m calls keys ctr rpcs hist) (snap : Events.HealthCounters) :
    After health (m.refresh snap) (calls ++ [.refresh snap]) keys ctr rpcs hist := by
  have hcounters := h.counters.same (c := .refresh snap) rfl
  have hhists := h.histograms.same (c := .refresh snap) fun _ => rfl
  unfold Metrics.refresh
  split
  · exact ⟨hcounters, hhists, h.gauges⟩
  · refine ⟨hcounters, hhists, ?_⟩
    simp only [gaugeShapes_setGauge]
    exact h.gauges

theorem After.step (h : After health m calls keys ctr rpcs hist) (c : MetricsCall δ) :
    ∃ keys' ctr' rpcs' hist', After health (m.step c) (calls ++ [c]) keys' ctr' rpcs' hist' := by
  cases c with
  | record rpc code d => exact h.record rpc code d
  | recordAuthz rpc outcome => exact h.recordAuthz rpc outcome
  | refresh snap => exact ⟨keys, ctr, rpcs, hist, h.refresh snap⟩

theorem After.foldl : ∀ (rest : List (MetricsCall δ)) {m : Metrics δ} {calls : List (MetricsCall δ)}
    {keys : List (CounterKind × Bytes)} {ctr : CounterKind × Bytes → Counter} {rpcs : List Bytes}
    {hist : Bytes → Histogram δ}, After health m calls keys ctr rpcs hist →
    ∃ keys' ctr' rpcs' hist', After health (rest.foldl Metrics.step m) (calls ++ rest) keys' ctr' rpcs' hist'
  | [], m, calls, keys, ctr, rpcs, hist, h => ⟨keys, ctr, rpcs, hist, by rwa [List.append_nil]⟩
  | c :: rest, m, calls, keys, ctr, rpcs, hist, h => by
    obtain ⟨keys', ctr', rpcs', hist', h'⟩ := h.step c
    obtain ⟨keys'', ctr'', rpcs'', hist'', h''⟩ := After.foldl rest h'
    exact ⟨keys'', ctr'', rpcs'', hist'', by rwa [List.append_assoc] at h''⟩

/-- **What is registered after any calls**: for each key its counter, which has counted the calls of the key, and for
each method its histogram, which has observed its latencies. -/
theorem exists_after (health : Bool) (calls : List (MetricsCall δ)) :
    ∃ keys ctr rpcs hist, After health (calls.foldl Metrics.step (start health)) calls keys ctr rpcs hist := by
  have h := After.foldl calls (after_start health (fun _ => ⟨[], [], [], 0⟩) newLatencyHist (δ := δ))
  rwa [List.nil_append] at h

end Metrics
end Control
end Osw
