import OpenSwitch.Provenance
import OpenSwitch.TierRules
/-!
# EventFlow — from a FreeSWITCH event to a subscriber's stream

The whole way of an event: `HandleEvent` classifies it, builds its envelope and serializes it, the plane carries the
bytes, and each subscriber's filter reads them back.  Protobuf may write the map fields of an envelope in any order, so
a call takes one of the serializations; the filter of a subscriber still sees the names of the event, because the
routing scanner reads every serialization alike.  So nothing comes out of a stream that was not fired: each message is
an envelope of an event FreeSWITCH sent, in the tier the rules give that event, and one the client has asked for.
-/
namespace Osw
namespace Events

/-- `SerializeToString`: which of the serializations comes out may differ between calls, and it may fail. -/
structure Serializer where
  encode : Nat → EventEnvelope → Option Bytes
  sound  : ∀ k env b, encode k env = some b → ∃ w : Serialization env, b = w.bytes

/-- What a `Binder` is made with, and the serializer it links. -/
structure Binder where
  classifier  : TierClassifier
  envelopeCfg : EnvelopeBuildConfig
  nodeId      : Bytes
  serializer  : Serializer

def Binder.tierOf (b : Binder) (ev : SwitchEvent) : Tier :=
  b.classifier.classify (ev.headerOr (str "Event-Name")) (ev.headerOr (str "Event-Subclass"))

structure Flow where
  plane  : Plane
  /-- The event each `HandleEvent` call was given. -/
  firing : Nat → Option SwitchEvent

inductive FlowAct
  /-- `HandleEvent` up to the sequence number. -/
  | event (n : Nat) (ev : Option SwitchEvent)
  /-- `BuildEnvelope` and `SerializeToString`, with what the call draws. -/
  | build (n : Nat) (draw : Draw) (k : Nat)
  | rest (a : PlaneAct)

namespace Flow

variable {b : Binder} {s s' : Flow} {p : Plane} {fired : SwitchEvent → Prop}

def event (b : Binder) (s : Flow) (n : Nat) : Option SwitchEvent → Option Flow
  | none    => some s
  | some ev =>
    -- the tier without a ring drops the event
    if b.tierOf ev = .unspecified then some s
    else (s.plane.alloc n (b.tierOf ev)).map fun p => ⟨p, Function.update s.firing n (some ev)⟩

/-- A time that overflows has no defined result, so the step is not there. -/
def build (b : Binder) (s : Flow) (n : Nat) (draw : Draw) (k : Nat) : Option Flow :=
  match s.plane.calls.lookup n, s.firing n with
  | some (.allocated t seq), some ev =>
    match buildEnvelope draw (some ev) t (BitVec.ofNat 64 seq) b.nodeId b.envelopeCfg with
    | .null      => (s.plane.build n none).map (⟨·, s.firing⟩)
    | .undefined => none
    | .made env  => (s.plane.build n (b.serializer.encode k env)).map (⟨·, s.firing⟩)
  | _, _ => none

def step (b : Binder) (s : Flow) : FlowAct → Option Flow
  | .event n ev             => s.event b n ev
  | .build n draw k         => s.build b n draw k
  | .rest (.alloc _ _)      => none
  | .rest (.build _ _)      => none
  | .rest a                 => (s.plane.step a).map (⟨·, s.firing⟩)

def init (m c : Nat) (capacity : Tier → Nat) : Flow := ⟨.init m c capacity, fun _ => none⟩

/-- The entry carries an envelope of an event in `fired`, in the tier of that event. -/
def Authentic (b : Binder) (fired : SwitchEvent → Prop) (t : Tier) (e : RingEntry) : Prop :=
  ∃ ev draw env, ∃ w : Serialization env, fired ev ∧ t = b.tierOf ev ∧
    buildEnvelope draw (some ev) t (BitVec.ofNat 64 e.seq) b.nodeId b.envelopeCfg = .made env ∧
    e.envelopeBytes = some w.bytes

/-- What a run keeps: each call works on an event of its tier, and entries carry envelopes. -/
structure Inv (b : Binder) (fired : SwitchEvent → Prop) (s : Flow) : Prop where
  sound  : s.plane.Sound
  firing : ∀ n t seq, s.plane.calls.lookup n = some (.allocated t seq) →
    ∃ ev, s.firing n = some ev ∧ fired ev ∧ t = b.tierOf ev
  traced : s.plane.Provenance (Authentic b fired)

theorem inv_init (b : Binder) (fired : SwitchEvent → Prop) (m c : Nat) (capacity : Tier → Nat) :
    Inv b fired (init m c capacity) :=
  ⟨Plane.sound_init m c capacity, fun _ _ _ h => (by cases h), Plane.provenance_init _ m c capacity⟩

/-- A step of the plane that hands out no sequence number and builds nothing. -/
theorem Inv.rest (hi : Inv b fired s) {a : PlaneAct} (h : s.plane.step a = some p) (halloc : ∀ n t, a ≠ .alloc n t)
    (hbuild : ∀ n bytes, a ≠ .build n bytes) : Inv b fired ⟨p, s.firing⟩ := by
  refine ⟨hi.sound.step h, ?_, hi.traced.step hi.sound h fun n bytes t seq ha => absurd ha (hbuild n _)⟩
  intro n t seq hc
  rcases Plane.step_call h hc with hc' | hm
  · exact hi.firing n t seq hc'
  · cases hm with
    | alloc => exact absurd rfl (halloc n t)

theorem Inv.event (hi : Inv b fired s) {n : Nat} {ev : SwitchEvent} (hev : fired ev)
    (h : s.plane.step (.alloc n (b.tierOf ev)) = some p) : Inv b fired ⟨p, Function.update s.firing n (some ev)⟩ := by
  refine ⟨hi.sound.step h, ?_, hi.traced.step hi.sound h fun m bytes t seq ha => by cases ha⟩
  intro m t seq hc
  by_cases hm : m = n
  · subst hm
    -- the call was not there, so what it has now is what it was given
    refine ⟨ev, Function.update_self .., hev, ?_⟩
    rcases Plane.step_call h hc with hc' | hmove
    · simp only [Plane.step, Plane.alloc] at h
      split at h
      · cases h
      · rename_i hnew
        have hmem : m ∈ s.plane.calls := AList.lookup_isSome.1 (by rw [hc']; rfl)
        exact absurd (.inr hmem) hnew
    · cases hmove
      rfl
  · rcases Plane.step_call h hc with hc' | hmove
    · obtain ⟨ev', hf, hrest⟩ := hi.firing m t seq hc'
      exact ⟨ev', (Function.update_of_ne hm ..).trans hf, hrest⟩
    · cases hmove
      exact absurd rfl hm

theorem Inv.build (hi : Inv b fired s) {n : Nat} {bytes : Option Bytes} (h : s.plane.step (.build n bytes) = some p)
    (hb : ∀ out t seq, bytes = some out → s.plane.calls.lookup n = some (.allocated t seq) →
      Authentic b fired t ⟨seq, some out⟩) : Inv b fired ⟨p, s.firing⟩ := by
  refine ⟨hi.sound.step h, ?_, hi.traced.step hi.sound h ?_⟩
  · intro m t seq hc
    rcases Plane.step_call h hc with hc' | hmove
    · exact hi.firing m t seq hc'
    · cases hmove
  · intro m out t seq ha hc
    cases ha
    exact hb out t seq rfl hc

/-- **What one step keeps**, when the event it brings is one of `fired`. -/
theorem Inv.step (hi : Inv b fired s) {a : FlowAct} (h : s.step b a = some s')
    (hfired : ∀ n ev, a = .event n (some ev) → fired ev) : Inv b fired s' := by
  cases a with
  | event n ev =>
    cases ev with
    | none => cases h; exact hi
    | some ev =>
      simp only [Flow.step, Flow.event] at h
      split at h
      · cases h; exact hi
      · obtain ⟨p, hp, rfl⟩ := Option.map_eq_some_iff.1 h
        exact hi.event (hfired n ev rfl) hp
  | build n draw k =>
    simp only [Flow.step, Flow.build] at h
    split at h
    · rename_i t seq ev hc hev
      obtain ⟨ev', hev', hf, ht⟩ := hi.firing n t seq hc
      cases hev.symm.trans hev'
      split at h
      · obtain ⟨p, hp, rfl⟩ := Option.map_eq_some_iff.1 h
        have hnone : s.plane.step (.build n none) = some p := hp
        exact hi.build hnone fun out t seq hb => by cases hb
      · cases h
      · rename_i env hmade
        obtain ⟨p, hp, rfl⟩ := Option.map_eq_some_iff.1 h
        refine hi.build hp fun out t' seq' hb hc' => ?_
        cases hc.symm.trans hc'
        obtain ⟨w, rfl⟩ := b.serializer.sound k env out hb
        exact ⟨ev, draw, env, w, hf, ht, hmade, rfl⟩
    · cases h
  | rest a =>
    cases a with
    | alloc => cases h
    | build => cases h
    | _ =>
      obtain ⟨p, hp, rfl⟩ := Option.map_eq_some_iff.1 h
      exact hi.rest hp (fun _ _ ha => by cases ha) (fun _ _ ha => by cases ha)

/-! ## What the filter has seen -/

/-- What a filter decides on an entry is decided by the names of the event. -/
theorem wants_made {draw : Draw} {ev : SwitchEvent} {t : Tier} {seq : BitVec 64} {nodeId : Bytes}
    {cfg : EnvelopeBuildConfig} {env : EventEnvelope} (h : buildEnvelope draw (some ev) t seq nodeId cfg = .made env)
    (w : Serialization env) (f : SubscriberFilter) {e : RingEntry} (he : e.envelopeBytes = some w.bytes) :
    f.wants t e = f.matches t (ev.headerOr (str "Event-Name")) (ev.headerOr (str "Event-Subclass")) nodeId := by
  have hrouting : env.routing = ⟨t, ev.headerOr (str "Event-Name"), ev.headerOr (str "Event-Subclass"), nodeId⟩ := by
    unfold buildEnvelope at h
    dsimp only at h
    split at h
    · cases h
    · cases h
      exact routing_envelopeOf ..
  simp only [SubscriberFilter.wants, he, Serialization.bytes, extractRoutingFields_encode w.size, w.foldl_route, hrouting,
    ite_self]

/-- The bytes are an envelope of an event of the run, whole and in the tier of that event, and the filter of call `i`
lets its names through. -/
def Genuine (b : Binder) (acts : List FlowAct) (s : Flow) (i : Nat) (out : Bytes) : Prop :=
  ∃ n ev draw seq env, ∃ w : Serialization env, FlowAct.event n (some ev) ∈ acts ∧
    buildEnvelope draw (some ev) (b.tierOf ev) seq b.nodeId b.envelopeCfg = .made env ∧ out = w.bytes ∧
    (s.plane.feeds i).sub.filter.matches (b.tierOf ev) (ev.headerOr (str "Event-Name"))
      (ev.headerOr (str "Event-Subclass")) b.nodeId = true

/-- **Nothing comes out of a stream that was not fired**: after any interleaving of events, workers and subscribers,
what a client was written are envelopes of events that FreeSWITCH dispatched in the run, each serialized whole, in the
tier the rules give its event, and with names the client's filter lets through. -/
theorem written_authentic (b : Binder) (m c : Nat) (capacity : Tier → Nat) (acts : List FlowAct) (s : Flow)
    (h : Run.exec (step b) acts (init m c capacity) = some s) (i : Nat) :
    ∀ out ∈ (s.plane.feeds i).written, Genuine b acts s i out := by
  intro out hout
  have hi : Inv b (fun ev => ∃ n, FlowAct.event n (some ev) ∈ acts) s :=
    Run.exec_inv_mem acts _ s (fun _ ha _ _ hu hs => hu.step hs fun n _ hev => ⟨n, hev ▸ ha⟩) (inv_init b _ m c capacity) h
  have hway : out ∈ s.plane.onWay i := List.mem_append_left _ (List.mem_append_left _ hout)
  obtain ⟨d, hd, hbytes⟩ := List.mem_filterMap.1 ((hi.traced.out i).subset hway)
  obtain ⟨⟨ev, draw, env, w, ⟨n, hn⟩, ht, hmade, he⟩, hw⟩ := hi.traced.log i d hd
  rw [wants_made hmade w _ he] at hw
  rw [ht] at hmade hw
  exact ⟨n, ev, draw, _, env, w, hn, hmade, Option.some.inj (hbytes.symm.trans he), hw⟩

/-- Protobuf's order of fields, the maps as they are listed. -/
def canonicalEncode (_ : Nat) (e : EventEnvelope) : Option Bytes :=
  if h : (Wire.encode e.records).length < 2 ^ 64 then some (e.serialize h).bytes else none

theorem canonicalEncode_sound (k : Nat) (e : EventEnvelope) (out : Bytes) (h : canonicalEncode k e = some out) :
    ∃ w : Serialization e, out = w.bytes := by
  unfold canonicalEncode at h
  split at h
  · exact ⟨_, (Option.some.inj h).symm⟩
  · cases h

def defaultBinder : Binder where
  classifier := .make makeDefaultRules
  envelopeCfg := makeDefaultEnvelopeConfig
  nodeId := str "n1"
  serializer := ⟨canonicalEncode, canonicalEncode_sound⟩

def fireEvent (name : Bytes) : SwitchEvent := ⟨fun n => if n = str "Event-Name" then some name else none, none⟩

/-- A subscriber of hangups, an answer and a hangup that are both pushed, and the writer behind the worker. -/
def hangupRun : List FlowAct :=
  [.rest (.addSubscriber 7 ⟨[], [], [str "CHANNEL_DESTROY"], []⟩ 4), .event 0 (some (fireEvent (str "CHANNEL_ANSWER"))),
    .event 1 (some (fireEvent (str "CHANNEL_DESTROY"))), .build 1 ⟨1, 2, 3, 4⟩ 0, .rest (.push 1),
    .build 0 ⟨5, 6, 7, 8⟩ 0, .rest (.push 0)] ++
  List.replicate 8 (.rest (.worker .critical)) ++ List.replicate 3 (.rest (.handler 7 .ok))

theorem written_authentic_hangupRun :
    (Run.exec (step defaultBinder) hangupRun (init 0 0 (fun _ => 4))).map
        (fun s => (s.plane.feeds 7).written.length) = some 1 ∧
    ∀ s, Run.exec (step defaultBinder) hangupRun (init 0 0 (fun _ => 4)) = some s →
      ∀ out ∈ (s.plane.feeds 7).written, Genuine defaultBinder hangupRun s 7 out :=
  ⟨by decide +kernel, fun s h => written_authentic defaultBinder 0 0 (fun _ => 4) hangupRun s h 7⟩

end Flow
end Events
end Osw
