import OpenSwitch.RunIdempotent
import OpenSwitch.Originate
import OpenSwitch.Bridge
/-!
# SameResponse — Originate, Bridge and Execute called again

The three handlers use the cache by hand: each exit after the lookup either stores its answer or cancels the
reservation.  The cancelling exits are the ones the source calls transient: a null session or an empty uuid after a
successful `originate`, a null channel of a located session, and a response that does not serialize.  A later call with
the same ids then runs live again.
-/
namespace Osw
namespace Control

open IdempotencyCache (Times)

/-- The wire format of a response message with one string field.  Protobuf gives a string back when it is UTF-8; on
other bytes `ParseFromString` fails, so that `parse` need not undo `serialize`. -/
structure Wire where
  serialize : Bytes → Bytes
  parse     : Bytes → Option Bytes

namespace Wire

/-- A field that is its own message. -/
def raw : Wire := ⟨id, some⟩

/-- `SerializeToString` at one call, where it may fail. -/
def serializeAt (wire : Wire) (serializes : Bool) (r : Bytes) : Option Bytes :=
  if serializes then some (wire.serialize r) else none

/-- The response is one the format gives back. -/
def carries (wire : Wire) (r : Bytes) : Bool := wire.parse (wire.serialize r) == some r

end Wire

/-- How the live part of a handler ends. -/
structure LiveOutcome where
  asks     : Nat
  status   : Status
  response : Bytes
  cached   : Bool
  deriving DecidableEq, Repr

/-- A call of one of the three handlers, with the switch as it finds it. -/
inductive WriteCall
  | originate (req : OriginateRequest) (fs : FreeSwitch)
  | bridge (req : BridgeRequest) (sw : BridgeSwitch)
  | execute (req : ExecuteRequest) (fs : FreeSwitch)

namespace WriteCall

def method : WriteCall → Method
  | .originate _ _ => .originate
  | .bridge _ _    => .bridge
  | .execute _ _   => .execute

/-- The calls of the switch that were made between `fs` and the verdict, and are of this kind. -/
def asksSince (kind : Ask → Bool) (fs : FreeSwitch) (v : Verdict) : Nat :=
  (v.fs.log.drop fs.log.length).countP (fun e => kind e.1)

def isOriginate : Ask → Bool
  | .originate .. => true
  | _ => false

def isExecute : Ask → Bool
  | .execute .. => true
  | _ => false

/-- The live part: how often the switch is asked to originate, bridge or execute, and how the call ends. -/
def outcome : WriteCall → LiveOutcome
  | .originate req fs =>
    let v := originateLive req fs
    ⟨asksSince isOriginate fs v, v.status, v.response, v.cached⟩
  | .bridge req sw =>
    let v := bridgeLive req sw
    ⟨v.asked.length, v.status, v.response, v.cached⟩
  | .execute req fs =>
    let v := executeLive req fs
    ⟨asksSince isExecute fs v, v.status, v.response, v.cached⟩

/-- **The switch is consistent at the call**: an `originate` that succeeds gives a session with a uuid, and a located
session has its channel. -/
def consistent : WriteCall → Bool
  | .originate _ fs =>
    let o := fs.originates fs.log.length
    o.rc != FreeSwitch.statusSuccess || o.session.any (fun s => s.1 != [])
  | .bridge req sw =>
    (sw.locate req.legAUuid).all (fun l => l.attached) && (sw.locate req.legBUuid).all (fun l => l.attached)
  | .execute req fs => (fs.locate req.uuid).all (fun ch => ch.attached)

theorem originateSession_log (fs : FreeSwitch) (d : Bytes) (t : Nat) (n m : Option Bytes) (o : List (Bytes × Bytes)) :
    ∃ e, (fs.originateSession d t n m o).1.log = fs.log ++ [e] := by
  unfold FreeSwitch.originateSession
  simp only
  split
  · exact ⟨_, rfl⟩
  · split <;> exact ⟨_, rfl⟩

theorem asksSince_le_one {kind : Ask → Bool} {fs : FreeSwitch} {v : Verdict}
    (h : v.fs.log = fs.log ∨ ∃ e, v.fs.log = fs.log ++ [e]) : asksSince kind fs v ≤ 1 := by
  unfold asksSince
  rcases h with h | ⟨e, h⟩
  · simp [h]
  · rw [h, List.drop_left]
    exact List.countP_le_length

theorem originateLive_exit (req : OriginateRequest) (fs : FreeSwitch) :
    ((originateLive req fs).fs.log = fs.log ∨ ∃ e, (originateLive req fs).fs.log = fs.log ++ [e]) ∧
    (consistent (.originate req fs) = true → (originateLive req fs).cached = true) := by
  unfold originateLive
  cases OriginateOptions.build (fs.allocates fs.log.length) req with
  | error e => exact ⟨.inl rfl, fun _ => rfl⟩
  | ok opts =>
    simp only
    have hlog := originateSession_log fs opts.dialString opts.timeoutSec (nullIfEmpty opts.cidName)
      (nullIfEmpty opts.cidNum) opts.ovars
    have ho : (fs.originateSession opts.dialString opts.timeoutSec (nullIfEmpty opts.cidName)
        (nullIfEmpty opts.cidNum) opts.ovars).2 = fs.originates fs.log.length := by
      unfold FreeSwitch.originateSession
      simp only
      split
      · rfl
      · split <;> rfl
    generalize fs.originateSession opts.dialString opts.timeoutSec (nullIfEmpty opts.cidName)
      (nullIfEmpty opts.cidNum) opts.ovars = r at hlog ho
    obtain ⟨fs', o⟩ := r
    simp only at hlog ho
    subst ho
    simp only
    split
    · exact ⟨.inr hlog, fun _ => rfl⟩
    · rename_i hrc
      simp only [consistent, Bool.or_eq_true, bne_iff_ne, ne_eq]
      cases hsess : (fs.originates fs.log.length).session with
      | none => exact ⟨.inr hlog, fun hc => by simp at hc; exact absurd hc hrc⟩
      | some su =>
        obtain ⟨uuid, ch⟩ := su
        simp only
        split
        · rename_i hnil
          exact ⟨.inr hlog, fun hc => by simp [hnil] at hc; exact absurd hc hrc⟩
        · exact ⟨.inr hlog, fun _ => rfl⟩

theorem executeLive_exit (req : ExecuteRequest) (fs : FreeSwitch) :
    ((executeLive req fs).fs.log = fs.log ∨ ∃ e, (executeLive req fs).fs.log = fs.log ++ [e]) ∧
    (consistent (.execute req fs) = true → (executeLive req fs).cached = true) := by
  unfold executeLive
  split
  · exact ⟨.inl rfl, fun _ => rfl⟩
  split
  · exact ⟨.inl rfl, fun _ => rfl⟩
  split
  · exact ⟨.inl rfl, fun _ => rfl⟩
  cases hl : fs.locate req.uuid with
  | none => exact ⟨.inl rfl, fun _ => rfl⟩
  | some ch =>
    simp only
    split
    · rename_i hna
      exact ⟨.inl rfl, fun hc => by simp [consistent, hl] at hc; simp [hc] at hna⟩
    split
    · exact ⟨.inl rfl, fun _ => rfl⟩
    split
    · exact ⟨.inl rfl, fun _ => rfl⟩
    have hlog : (fs.executeApplication req.uuid req.app (nullIfEmpty req.args)).1.log = fs.log ++
        [(.execute (cStr req.uuid) (cStr req.app) ((nullIfEmpty req.args).map cStr), fs.answer)] := by
      unfold FreeSwitch.executeApplication
      simp only
      split <;> rfl
    split
    · exact ⟨.inr ⟨_, hlog⟩, fun _ => rfl⟩
    · exact ⟨.inr ⟨_, hlog⟩, fun _ => rfl⟩

/-- **No live part asks the switch twice.** -/
theorem outcome_asks_le_one (w : WriteCall) : w.outcome.asks ≤ 1 := by
  cases w with
  | originate req fs => exact asksSince_le_one (originateLive_exit req fs).1
  | bridge req sw => exact (bridgeLive_exit req sw).1
  | execute req fs => exact asksSince_le_one (executeLive_exit req fs).1

/-- **With a consistent switch every exit stores its answer.** -/
theorem outcome_cached {w : WriteCall} (h : w.consistent = true) : w.outcome.cached = true := by
  cases w with
  | originate req fs => exact (originateLive_exit req fs).2 h
  | execute req fs => exact (executeLive_exit req fs).2 h
  | bridge req sw =>
    by_contra hc
    have hcancel : (bridgeLive req sw).cached = false := Bool.eq_false_iff.2 hc
    obtain ⟨-, -, l₁, l₂, h₁, h₂, hna⟩ := (bridgeLive_exit req sw).2 hcancel
    simp only [consistent, Bool.and_eq_true] at h
    have hall : l₁.attached = true ∧ l₂.attached = true := by
      unfold BridgeRequest.ordered at h₁ h₂
      split at h₁
      · rename_i hlt
        rw [if_pos hlt] at h₂
        rw [h₁, h₂] at h
        exact ⟨by simpa using h.1, by simpa using h.2⟩
      · rename_i hlt
        rw [if_neg hlt] at h₂
        rw [h₁, h₂] at h
        exact ⟨by simpa using h.2, by simpa using h.1⟩
    rcases hna with hna | hna
    · rw [hall.1] at hna
      cases hna
    · rw [hall.2] at hna
      cases hna

end WriteCall

/-- One of the three handlers around its live part. -/
def handlerCall (wire : Wire) (serializes : Bool) (c : IdempotencyCache) (key : Bytes) (t : Times) (storedAt : Nat)
    (o : LiveOutcome) : Option (Reply Bytes × IdempotencyCache) :=
  (c.lookup key t).map (fun a =>
    match replayed wire.parse a.1 with
    | some reply => (reply, a.2)
    | none =>
      (⟨true, o.status, o.response⟩,
        if o.cached then settle (wire.serializeAt serializes) a.2 key storedAt o.status o.response else a.2.cancel key))

section handlerCall

variable {wire : Wire} {c : IdempotencyCache} {key : Bytes} {t : Times} {storedAt : Nat} {o : LiveOutcome}
  {a : Reply Bytes × IdempotencyCache}

/-- **A call that finds no entry runs**, and a definitive answer is stored. -/
theorem handlerCall_first (h : c.Wf) (hkey : key ≠ []) (hnone : c.find key = none) (ho : o.cached = true)
    (ha : handlerCall wire true c key t storedAt o = some a) :
    ∃ c₁ e, c.SameEntries c₁ ∧ a = (⟨true, o.status, o.response⟩, c₁.store key e) ∧ e.status = o.status ∧
      e.serializedResponse = wire.serialize o.response := by
  obtain ⟨⟨r, c₁⟩, hl, rfl⟩ := Option.map_eq_some_iff.1 ha
  rcases IdempotencyCache.lookup_cases h hkey hl with ⟨e, hf, -⟩ | ⟨-, hmiss, hsame⟩
  · rw [hnone] at hf
    cases hf
  simp only at hmiss hsame
  subst hmiss
  rw [h.erase_of_find_none hnone] at hsame
  simp only [replayed, ho, if_true, settle, Wire.serializeAt]
  exact ⟨c₁, _, hsame, rfl, rfl, rfl⟩

/-- **A call that finds an unexpired entry replays it.** -/
theorem handlerCall_again (h : c.Wf) (hkey : key ≠ []) {e : Entry} (hf : c.find key = some e)
    (hlt : t.now < e.expiresAt) {resp : Bytes} (hbytes : wire.parse e.serializedResponse = some resp)
    {serializes : Bool} (ha : handlerCall wire serializes c key t storedAt o = some a) :
    a = (⟨false, e.status, resp⟩, c.promote key) := by
  obtain ⟨⟨r, c₁⟩, hl, rfl⟩ := Option.map_eq_some_iff.1 ha
  rcases IdempotencyCache.lookup_cases h hkey hl with ⟨e', hf', -, he⟩ | ⟨hexp, -, -⟩
  · rw [hf] at hf'
    cases hf'
    cases he
    simp only [replayed, hbytes, Option.map_some]
  · have hle := hexp e hf
    omega

end handlerCall

/-! ## Calls one after the other -/

/-- The cache, and for each method how often the switch was asked and what its calls returned. -/
structure Retries where
  cache   : IdempotencyCache
  asked   : Method → Nat
  replies : Method → List (Status × Bytes)

/-- A call with the ids in question, or a call of the cache for some other key. -/
inductive RetryAct
  | call (w : WriteCall) (t : Times) (storedAt : Nat) (serializes : Bool)
  | other (a : CacheCall)

def CacheCall.key : CacheCall → Bytes
  | .lookup k _ => k
  | .store k _  => k
  | .cancel k   => k

/-- A call of the cache on its own, whatever it answers. -/
def CacheCall.run (c : IdempotencyCache) : CacheCall → Option IdempotencyCache
  | .lookup k t => (c.lookup k t).map Prod.snd
  | .store k e  => some (c.store k e)
  | .cancel k   => some (c.cancel k)

section retries

variable (wire : Method → Wire) (tenantId requestId : Bytes)

/-- The key of a method's calls. -/
def retryKey (m : Method) : Bytes := makeIdempotencyKey m.name tenantId requestId

def Retries.init (capacity ttl wait : Nat) : Retries := ⟨.empty capacity ttl wait, fun _ => 0, fun _ => []⟩

def Retries.step (s : Retries) : RetryAct → Option Retries
  | .call w t storedAt serializes =>
    (handlerCall (wire w.method) serializes s.cache (retryKey tenantId requestId w.method) t storedAt w.outcome).map
      (fun a =>
        { cache   := a.2
          asked   := Function.update s.asked w.method (s.asked w.method + if a.1.ran then w.outcome.asks else 0)
          replies := Function.update s.replies w.method (s.replies w.method ++ [(a.1.status, a.1.response)]) })
  | .other a =>
    if ∀ m ∈ [Method.originate, .bridge, .execute], a.key ≠ retryKey tenantId requestId m then
      (a.run s.cache).map (fun c => { s with cache := c })
    else none

/-- The call comes within the TTL of the answer stored for it. -/
def Retries.withinTtl (s : Retries) : RetryAct → Bool
  | .call w t _ _ => (s.cache.find (retryKey tenantId requestId w.method)).all (fun e => decide (t.now < e.expiresAt))
  | .other _ => true

/-- The step pushes none of the three answers out. -/
def Retries.withoutEviction (s : Retries) (a : RetryAct) : Bool :=
  [Method.originate, .bridge, .execute].all (fun m =>
    match a with
    | .call w _ _ _ => !s.cache.pushesOut (retryKey tenantId requestId w.method) (retryKey tenantId requestId m)
    | .other (.store k _) => !s.cache.pushesOut k (retryKey tenantId requestId m)
    | .other _ => true)

/-- The switch is consistent and the response serializes. -/
def RetryAct.definitive : RetryAct → Bool
  | .call w _ _ serializes => w.consistent && serializes
  | .other _ => true

/-- The response of a call that runs is one its wire format gives back. -/
def Retries.carried (s : Retries) : RetryAct → Bool
  | .call w _ _ _ =>
    (s.cache.find (retryKey tenantId requestId w.method)).isSome || (wire w.method).carries w.outcome.response
  | .other _ => true

/-- What is known of a method's calls: none yet, or all of them returned what the cache holds. -/
def Retries.Settled (s : Retries) (m : Method) : Prop :=
  (s.replies m = [] ∧ s.asked m = 0 ∧ s.cache.find (retryKey tenantId requestId m) = none) ∨
  ∃ e resp, s.cache.find (retryKey tenantId requestId m) = some e ∧
    (wire m).parse e.serializedResponse = some resp ∧ (∀ x ∈ s.replies m, x = (e.status, resp)) ∧ s.asked m ≤ 1

structure Retries.Inv (s : Retries) : Prop where
  bounded : s.cache.Bounded
  settled : ∀ m ∈ [Method.originate, .bridge, .execute], s.Settled wire tenantId requestId m

theorem retryKey_ne_nil {requestId : Bytes} (h : requestId ≠ []) (m : Method) : retryKey tenantId requestId m ≠ [] := by
  simp [retryKey, makeIdempotencyKey, h]

theorem retryKey_injective {requestId : Bytes} (h : requestId ≠ []) {m m' : Method}
    (he : retryKey tenantId requestId m = retryKey tenantId requestId m') : m = m' :=
  ((makeIdempotencyKey_eq_iff m m' tenantId tenantId h h).1 he).1

variable {wire tenantId requestId} {s s' : Retries}

/-- What is settled stays settled while the entry and the method's record do. -/
theorem Retries.Settled.of_same {m : Method} (h : s.Settled wire tenantId requestId m)
    (hf : s'.cache.find (retryKey tenantId requestId m) = s.cache.find (retryKey tenantId requestId m))
    (ha : s'.asked m = s.asked m) (hr : s'.replies m = s.replies m) : s'.Settled wire tenantId requestId m := by
  unfold Retries.Settled
  rw [hf, ha, hr]
  exact h

theorem WriteCall.method_mem (w : WriteCall) : w.method ∈ [Method.originate, .bridge, .execute] := by
  cases w <;> simp [WriteCall.method]

/-- **A call settles its method**: the first one runs and its answer is stored, a later one is replayed. -/
theorem Retries.Inv.call (h : s.Inv wire tenantId requestId) (hreq : requestId ≠ []) {w : WriteCall} {t : Times}
    {storedAt : Nat} {serializes : Bool} (httl : s.withinTtl tenantId requestId (.call w t storedAt serializes) = true)
    (hev : s.withoutEviction tenantId requestId (.call w t storedAt serializes) = true)
    (hdef : (RetryAct.call w t storedAt serializes).definitive = true)
    (hwire : s.carried wire tenantId requestId (.call w t storedAt serializes) = true)
    (hs : s.step wire tenantId requestId (.call w t storedAt serializes) = some s') :
    s'.Inv wire tenantId requestId := by
  obtain ⟨a, ha, rfl⟩ := Option.map_eq_some_iff.1 hs
  have hkey := retryKey_ne_nil tenantId hreq w.method
  have hwf := h.bounded.toWf
  simp only [RetryAct.definitive, Bool.and_eq_true] at hdef
  obtain ⟨hcons, rfl⟩ := hdef
  have hother : ∀ m, m ≠ w.method → retryKey tenantId requestId m ≠ retryKey tenantId requestId w.method :=
    fun m hm he => hm (retryKey_injective tenantId hreq he)
  rcases h.settled w.method w.method_mem with ⟨hrep, hask, hnone⟩ | ⟨e, resp, hf, hbytes, hall, hask⟩
  · obtain ⟨c, e, hsame, rfl, hstatus, hbytes⟩ :=
      handlerCall_first hwf hkey hnone (WriteCall.outcome_cached hcons) ha
    have hb := hsame.bounded h.bounded
    have hback : (wire w.method).parse e.serializedResponse = some w.outcome.response := by
      rw [hbytes]
      simpa [Retries.carried, hnone, Wire.carries] using hwire
    refine ⟨hb.store _ e, fun m hm => ?_⟩
    by_cases hmw : m = w.method
    · subst hmw
      refine .inr ⟨e, w.outcome.response, IdempotencyCache.find_store_self hb hkey e, hback, ?_, ?_⟩
      · simp [hrep, hstatus]
      · have hle := w.outcome_asks_le_one
        simp only [Function.update_self, hask, if_true]
        omega
    · have hp := List.all_eq_true.1 hev m hm
      simp only [Bool.not_eq_true'] at hp
      refine (h.settled m hm).of_same ?_ (Function.update_of_ne hmw _ _) (Function.update_of_ne hmw _ _)
      rw [← hsame.find, ← hsame.pushesOut] at *
      exact IdempotencyCache.find_store_of_ne hb (hother m hmw) e hp
  · have hlt : t.now < e.expiresAt := by simpa [Retries.withinTtl, hf] using httl
    obtain rfl := handlerCall_again hwf hkey hf hlt hbytes ha
    refine ⟨h.bounded.promote _, fun m hm => ?_⟩
    by_cases hmw : m = w.method
    · subst hmw
      refine .inr ⟨e, resp, by rw [IdempotencyCache.find_promote hwf]; exact hf, hbytes, ?_, ?_⟩
      · simpa [or_imp, forall_and] using hall
      · simpa using hask
    · exact (h.settled m hm).of_same (IdempotencyCache.find_promote hwf _ _) (Function.update_of_ne hmw _ _)
        (Function.update_of_ne hmw _ _)

/-- A call of the cache for another key leaves the entries of the three keys alone. -/
theorem Retries.Inv.other (h : s.Inv wire tenantId requestId) {a : CacheCall}
    (hev : s.withoutEviction tenantId requestId (.other a) = true)
    (hs : s.step wire tenantId requestId (.other a) = some s') : s'.Inv wire tenantId requestId := by
  simp only [Retries.step] at hs
  split at hs
  case isFalse => cases hs
  rename_i hkeys
  obtain ⟨c, hc, rfl⟩ := Option.map_eq_some_iff.1 hs
  have hwf := h.bounded.toWf
  suffices hsame : c.Bounded ∧ ∀ m ∈ [Method.originate, .bridge, .execute],
      c.find (retryKey tenantId requestId m) = s.cache.find (retryKey tenantId requestId m) from
    ⟨hsame.1, fun m hm => (h.settled m hm).of_same (hsame.2 m hm) rfl rfl⟩
  cases a with
  | cancel k =>
    cases hc
    have hsame := IdempotencyCache.SameEntries.cancel s.cache k
    exact ⟨hsame.bounded h.bounded, fun m _ => hsame.find _⟩
  | store k e =>
    cases hc
    refine ⟨h.bounded.store k e, fun m hm => ?_⟩
    have hp := List.all_eq_true.1 hev m hm
    simp only [Bool.not_eq_true'] at hp
    exact IdempotencyCache.find_store_of_ne h.bounded (fun he => hkeys m hm he.symm) e hp
  | lookup k t =>
    obtain ⟨⟨r, c⟩, ha, rfl⟩ := Option.map_eq_some_iff.1 hc
    by_cases hk : k = []
    · subst hk
      rw [IdempotencyCache.lookup_nil] at ha
      cases ha
      exact ⟨h.bounded, fun _ _ => rfl⟩
    rcases IdempotencyCache.lookup_cases hwf hk ha with ⟨e, -, -, he⟩ | ⟨-, -, hsame⟩
    · cases he
      exact ⟨h.bounded.promote k, fun m _ => IdempotencyCache.find_promote hwf k _⟩
    · refine ⟨hsame.bounded (h.bounded.erase k), fun m hm => ?_⟩
      rw [hsame.find]
      exact hwf.find_erase_of_ne (fun he => hkeys m hm he.symm)

theorem Retries.Inv.init (wire : Method → Wire) (tenantId requestId : Bytes) (capacity ttl wait : Nat) :
    (Retries.init capacity ttl wait).Inv wire tenantId requestId :=
  ⟨.empty capacity ttl wait, fun _ _ => .inl ⟨rfl, rfl, rfl⟩⟩

end retries

/-- **Same request, same response**, as long as the switch is consistent and the responses come back from the wire: in
every sequence of calls with one tenant id and one request id, among any other calls of the cache, each within the TTL of
the stored answer and without that answer being pushed out, the switch is asked at most once to originate, at most once to
bridge and at most once to execute, and all calls of a method return the same status and the same response. -/
theorem same_response (wire : Method → Wire) (tenantId requestId : Bytes) (hreq : requestId ≠ [])
    (capacity ttl wait : Nat) (as : List RetryAct) (s : Retries)
    (hrun : Run.exec (Retries.step wire tenantId requestId) as (.init capacity ttl wait) = some s)
    (hscope : Run.along (Retries.step wire tenantId requestId)
      (fun s a => s.withinTtl tenantId requestId a && s.withoutEviction tenantId requestId a) as
      (.init capacity ttl wait) = true)
    (hdef : Run.along (Retries.step wire tenantId requestId) (fun _ a => a.definitive) as (.init capacity ttl wait) = true)
    (hwire : Run.along (Retries.step wire tenantId requestId) (fun s a => s.carried wire tenantId requestId a) as
      (.init capacity ttl wait) = true)
    (m : Method) (hm : m ∈ [Method.originate, .bridge, .execute]) :
    s.asked m ≤ 1 ∧ ∀ x ∈ s.replies m, ∀ y ∈ s.replies m, x = y := by
  have hinv : s.Inv wire tenantId requestId := by
    refine Run.exec_inv_along ?_ as _ s (Retries.Inv.init wire tenantId requestId capacity ttl wait)
      (Run.along_and (Run.along_and hscope hdef) hwire) hrun
    intro s a s' hi hg hs
    simp only [Bool.and_eq_true] at hg
    obtain ⟨⟨⟨httl, hev⟩, hd⟩, hw⟩ := hg
    cases a with
    | call w t storedAt serializes => exact hi.call hreq httl hev hd hw hs
    | other a => exact hi.other hev hs
  rcases hinv.settled m hm with ⟨hrep, hask, -⟩ | ⟨e, resp, -, -, hsame, hask⟩
  · rw [hrep, hask]
    exact ⟨Nat.zero_le _, nofun⟩
  · exact ⟨hask, fun x hx y hy => (hsame x hx).trans (hsame y hy).symm⟩

/-- A request to dial one endpoint. -/
def dialOne : OriginateRequest := ⟨[str "user/1000"], .failover, [], [], none, []⟩

/-- A switch whose `originate` succeeds and gives this session. -/
def originating (session : Option (Bytes × Channel)) : FreeSwitch :=
  { FreeSwitch.obliging (fun _ => none) with originates := fun _ => ⟨0, 16, session⟩ }

/-- Two `Originate` calls whose switch gives a session, and an `Execute` in between. -/
def consistentCalls : List RetryAct :=
  [.call (.originate dialOne (originating (some (str "u1", .up (fun _ => none))))) (.constant 0) 0 true,
   .call (.execute ⟨str "u1", str "answer", []⟩ (.obliging (fun _ => none))) (.constant 1) 1 true,
   .call (.originate dialOne (originating (some (str "u2", .up (fun _ => none))))) (.constant 2) 2 true]

/-- The second `Originate` is answered with the leg of the first. -/
theorem same_response_consistentCalls :
    ∃ s, Run.exec (Retries.step (fun _ => .raw) (str "t") (str "r")) consistentCalls (.init 16 300 10) = some s ∧
      s.replies .originate = [(Status.okay, str "u1"), (Status.okay, str "u1")] ∧ s.asked .originate ≤ 1 := by
  have hm : (Run.exec (Retries.step (fun _ => .raw) (str "t") (str "r")) consistentCalls (.init 16 300 10)).map
      (fun s => s.replies .originate) = some [(Status.okay, str "u1"), (Status.okay, str "u1")] := by
    decide +kernel
  obtain ⟨s, hs, hf⟩ := Option.map_eq_some_iff.1 hm
  exact ⟨s, hs, hf, (same_response (fun _ => .raw) (str "t") (str "r") (by decide +kernel) 16 300 10 consistentCalls s hs
    (by decide +kernel) (by decide +kernel) (by decide +kernel) .originate (by simp)).1⟩

/-- The first `originate` succeeds without a session. -/
def nullSessionCalls : List RetryAct :=
  [.call (.originate dialOne (originating none)) (.constant 0) 0 true,
   .call (.originate dialOne (originating (some (str "u1", .up (fun _ => none))))) (.constant 1) 1 true]

/-- The switch dials twice for one request id, and the two answers differ, all within the TTL and without eviction. -/
theorem nullSessionCalls_dial_twice :
    (Run.exec (Retries.step (fun _ => .raw) (str "t") (str "r")) nullSessionCalls (.init 16 300 10)).map
      (fun s => (s.asked .originate, s.replies .originate))
      = some (2, [(⟨.unavailable, str "FS returned null session"⟩, []), (Status.okay, str "u1")]) ∧
    Run.along (Retries.step (fun _ => .raw) (str "t") (str "r"))
      (fun s a => s.withinTtl (str "t") (str "r") a && s.withoutEviction (str "t") (str "r") a) nullSessionCalls
      (.init 16 300 10) = true := by
  decide +kernel

end Control
end Osw
