import OpenSwitch.CacheMap
/-!
# RunIdempotent — keys, and calls that run at most once (`idempotency_utils.h`)

A handler looks its key up, replays the stored answer on a hit, and otherwise runs its action and stores what it gave.
The key is the method, the tenant id and the request id with a `0x1f` between them.  Neither id is looked at for that
byte, so a tenant id that carries it can stand for the end of another tenant's and the start of its request id.
-/
namespace Osw
namespace Control

open IdempotencyCache (Times)

/-! ## Keys -/

/-- The methods that use the cache. -/
inductive Method
  | originate
  | bridge
  | execute
  | startBot
  | startRecordingRelay
  | startStt
  | startTts
  | startVoicebot
  | stopBot
  | stopMediaStream
  | stopRecordingRelay
  deriving DecidableEq, Repr

/-- The name a method puts into its keys. -/
def Method.name : Method → Bytes
  | .originate           => str "Originate"
  | .bridge              => str "Bridge"
  | .execute             => str "Execute"
  | .startBot            => str "StartBot"
  | .startRecordingRelay => str "StartRecordingRelay"
  | .startStt            => str "StartStt"
  | .startTts            => str "StartTts"
  | .startVoicebot       => str "StartVoicebot"
  | .stopBot             => str "StopBot"
  | .stopMediaStream     => str "StopMediaStream"
  | .stopRecordingRelay  => str "StopRecordingRelay"

/-- The byte between the parts of a key. -/
def separator : UInt8 := 0x1f

theorem Method.separator_notMem_name (m : Method) : separator ∉ m.name := by
  cases m <;> decide +kernel

theorem Method.name_injective : Function.Injective Method.name := by
  intro m₁ m₂
  cases m₁ <;> cases m₂ <;> decide +kernel

/-- Two ways to cut one string at a separator: at the same place, or at two of its separators. -/
theorem append_separator_eq_iff {α : Type} (s : α) (a b c d : List α) :
    a ++ s :: b = c ++ s :: d ↔
      (a = c ∧ b = d) ∨ (∃ x, c = a ++ s :: x ∧ b = x ++ s :: d) ∨ ∃ x, a = c ++ s :: x ∧ d = x ++ s :: b := by
  constructor
  · intro h
    rcases List.append_eq_append_iff.1 h with ⟨x, hc, hb⟩ | ⟨x, ha, hd⟩
    · cases x with
      | nil =>
        rw [List.append_nil] at hc
        exact .inl ⟨hc.symm, (List.cons.inj hb).2⟩
      | cons y x =>
        obtain ⟨rfl, hb'⟩ := List.cons.inj hb
        exact .inr (.inl ⟨x, hc, hb'⟩)
    · cases x with
      | nil =>
        rw [List.append_nil] at ha
        exact .inl ⟨ha, (List.cons.inj hd).2.symm⟩
      | cons y x =>
        obtain ⟨rfl, hd'⟩ := List.cons.inj hd
        exact .inr (.inr ⟨x, ha, hd'⟩)
  · rintro (⟨rfl, rfl⟩ | ⟨x, rfl, rfl⟩ | ⟨x, rfl, rfl⟩) <;> simp

/-- The second tenant id is the first, a separator and some bytes, and the first request id is those bytes, a separator
and the second request id. -/
def movesSeparator (tenant₁ request₁ tenant₂ request₂ : Bytes) : Prop :=
  ∃ x, tenant₂ = tenant₁ ++ separator :: x ∧ request₁ = x ++ separator :: request₂

theorem makeIdempotencyKey_of_ne (method tenantId : Bytes) {requestId : Bytes} (h : requestId ≠ []) :
    makeIdempotencyKey method tenantId requestId = method ++ separator :: (tenantId ++ separator :: requestId) := by
  simp [makeIdempotencyKey, h, separator]

/-- **When two keys are equal**: the methods are, and either both ids are or the separator moved. -/
theorem makeIdempotencyKey_eq_iff (m₁ m₂ : Method) (tenant₁ tenant₂ : Bytes) {request₁ request₂ : Bytes}
    (h₁ : request₁ ≠ []) (h₂ : request₂ ≠ []) :
    makeIdempotencyKey m₁.name tenant₁ request₁ = makeIdempotencyKey m₂.name tenant₂ request₂ ↔
      m₁ = m₂ ∧ ((tenant₁ = tenant₂ ∧ request₁ = request₂) ∨ movesSeparator tenant₁ request₁ tenant₂ request₂ ∨
        movesSeparator tenant₂ request₂ tenant₁ request₁) := by
  rw [makeIdempotencyKey_of_ne _ _ h₁, makeIdempotencyKey_of_ne _ _ h₂, append_separator_eq_iff]
  -- no name carries the separator, so the first cut is at the end of both names
  have hname : ∀ (m m' : Method) (x : Bytes), m'.name ≠ m.name ++ separator :: x := by
    intro m m' x h
    exact m'.separator_notMem_name (h ▸ List.mem_append_right _ List.mem_cons_self)
  constructor
  · rintro (⟨hm, hrest⟩ | ⟨x, hm, -⟩ | ⟨x, hm, -⟩)
    · exact ⟨Method.name_injective hm, (append_separator_eq_iff _ _ _ _ _).1 hrest⟩
    · exact absurd hm (hname _ _ x)
    · exact absurd hm (hname _ _ x)
  · rintro ⟨rfl, hrest⟩
    exact .inl ⟨rfl, (append_separator_eq_iff _ _ _ _ _).2 hrest⟩

/-- **Keys collide exactly when the separator moves**: two calls with a request id have equal keys only for equal
methods, tenant ids and request ids, unless their methods are the same and one tenant id continues the other into its
request id. -/
theorem key_collision_iff (m₁ m₂ : Method) (tenant₁ tenant₂ request₁ request₂ : Bytes) (h₁ : request₁ ≠ [])
    (h₂ : request₂ ≠ []) :
    (makeIdempotencyKey m₁.name tenant₁ request₁ = makeIdempotencyKey m₂.name tenant₂ request₂ →
      (m₁, tenant₁, request₁) = (m₂, tenant₂, request₂)) ↔
      ¬ (m₁ = m₂ ∧ (movesSeparator tenant₁ request₁ tenant₂ request₂ ∨
        movesSeparator tenant₂ request₂ tenant₁ request₁)) := by
  rw [makeIdempotencyKey_eq_iff m₁ m₂ tenant₁ tenant₂ h₁ h₂]
  -- a separator that moves makes the tenant ids differ
  have hdiff : ∀ {t₁ r₁ t₂ r₂ : Bytes}, movesSeparator t₁ r₁ t₂ r₂ → t₁ ≠ t₂ := by
    rintro t₁ r₁ t₂ r₂ ⟨x, ht, -⟩ rfl
    have hlen := congrArg List.length ht
    simp at hlen
  constructor
  · rintro hinj ⟨rfl, hmove⟩
    have heq := hinj ⟨rfl, .inr hmove⟩
    simp only [Prod.mk.injEq, true_and] at heq
    rcases hmove with hmove | hmove
    · exact hdiff hmove heq.1
    · exact hdiff hmove heq.1.symm
  · rintro hno ⟨rfl, (⟨rfl, rfl⟩ | hmove)⟩
    · rfl
    · exact absurd ⟨rfl, hmove⟩ hno

/-! ## The wrapper -/

section wrapper

variable {R : Type}

/-- `SerializeToString` and `ParseFromString` of a response message: what was serialized parses to the same message. -/
structure Codec (R : Type) where
  serialize       : R → Option Bytes
  parse           : Bytes → Option R
  parse_serialize : ∀ r b, serialize r = some b → parse b = some r

/-- What a call gives back, and whether its action ran. -/
structure Reply (R : Type) where
  ran      : Bool
  status   : Status
  response : R
  deriving DecidableEq, Repr

/-- The answer a hit replays, when its bytes parse. -/
def replayed (parse : Bytes → Option R) (r : LookupResult) : Option (Reply R) :=
  match r.state with
  | .hit => (parse r.entry.serializedResponse).map (fun resp => ⟨false, r.entry.status, resp⟩)
  | _    => none

/-- The end of a call that ran: the answer is stored from `storedAt` on, or the reservation is cancelled when the
response does not serialize. -/
def settle (serialize : R → Option Bytes) (c : IdempotencyCache) (key : Bytes) (storedAt : Nat) (status : Status)
    (resp : R) : IdempotencyCache :=
  match serialize resp with
  | none       => c.cancel key
  | some bytes => c.store key ⟨status, bytes, storedAt + c.ttl⟩

/-- `RunIdempotent`, whose action gives `status` and `resp` when it runs; `none` while the lookup still waits. -/
def runIdempotent (codec : Codec R) (cache : Option IdempotencyCache) (method tenantId requestId : Bytes) (t : Times)
    (storedAt : Nat) (status : Status) (resp : R) : Option (Reply R × Option IdempotencyCache) :=
  let key := makeIdempotencyKey method tenantId requestId
  match cache with
  | none => some (⟨true, status, resp⟩, none)
  | some c =>
    if key = [] then some (⟨true, status, resp⟩, some c)
    else
      (c.lookup key t).map (fun a =>
        match replayed codec.parse a.1 with
        | some reply => (reply, some a.2)
        | none       => (⟨true, status, resp⟩, some (settle codec.serialize a.2 key storedAt status resp)))

/-- A call of `RunIdempotent` is a lookup, and then a `Store` of a serialized response or a `Cancel` if it ran. -/
theorem runIdempotent_calls (codec : Codec R) (l : Ledger) (method tenantId requestId : Bytes) {t : Times}
    (ht : t.ordered l.clock = true) (storedAt : Nat) (status : Status) (resp : R) {a : Reply R × Option IdempotencyCache}
    (ha : runIdempotent codec (some l.cache) method tenantId requestId t storedAt status resp = some a) :
    ∃ calls l', Run.exec Ledger.step calls l = some l' ∧ a.2 = some l'.cache ∧
      ∀ k e, CacheCall.store k e ∈ calls →
        k = makeIdempotencyKey method tenantId requestId ∧ codec.serialize resp = some e.serializedResponse := by
  unfold runIdempotent at ha
  simp only at ha
  split at ha
  · cases ha
    exact ⟨[], l, rfl, rfl, nofun⟩
  rename_i hkey
  generalize makeIdempotencyKey method tenantId requestId = key at ha hkey ⊢
  obtain ⟨⟨r, c⟩, hb, rfl⟩ := Option.map_eq_some_iff.1 ha
  have hl : l.step (.lookup key t) = some (l.answered key t r c) := by
    simp only [Ledger.step, Ledger.lookup, if_pos ht, hb, Option.map_some]
  cases hr : replayed codec.parse r with
  | some reply =>
    refine ⟨[.lookup key t], l.answered key t r c, ?_, rfl, ?_⟩
    · simp only [Run.exec, hl]
    · intro k e hm
      simp at hm
  | none =>
    simp only [settle]
    cases hs : codec.serialize resp with
    | none =>
      refine ⟨[.lookup key t, .cancel key], (l.answered key t r c).cancel key, ?_, rfl, ?_⟩
      · simp only [Run.exec, hl]
        rfl
      · intro k e hm
        simp at hm
    | some bytes =>
      refine ⟨[.lookup key t, .store key ⟨status, bytes, storedAt + c.ttl⟩],
        (l.answered key t r c).store key ⟨status, bytes, storedAt + c.ttl⟩, ?_, ?_, ?_⟩
      · simp only [Run.exec, hl]
        rfl
      · simp only [Ledger.store, if_neg hkey]
        rfl
      · intro k e hm
        simp only [List.mem_cons, reduceCtorEq, CacheCall.store.injEq, List.not_mem_nil, or_false, false_or] at hm
        obtain ⟨rfl, rfl⟩ := hm
        exact ⟨rfl, rfl⟩

theorem Ledger.lastStore_mem {k : Bytes} {e : Entry} :
    ∀ (calls : List CacheCall) (l l' : Ledger), Run.exec Ledger.step calls l = some l' → l'.lastStore k = some e →
      l.lastStore k = some e ∨ CacheCall.store k e ∈ calls
  | [], l, l', h, hs => by
    cases h
    exact .inl hs
  | a :: calls, l, l', h, hs => by
    obtain ⟨l₁, h₁, hrest⟩ := Run.exec_cons h
    rcases Ledger.lastStore_mem calls l₁ l' hrest hs with hs | hm
    · cases a with
      | lookup k' t =>
        obtain ⟨b, hb, rfl⟩ := Option.map_eq_some_iff.1 h₁
        obtain ⟨-, -, r, c, -, rfl⟩ := Ledger.lookup_eq_some hb
        exact .inl hs
      | cancel k' =>
        cases h₁
        exact .inl hs
      | store k' e' =>
        cases h₁
        by_cases hk' : k' = []
        · simp only [Ledger.store, if_pos hk'] at hs
          exact .inl hs
        · simp only [Ledger.store, if_neg hk'] at hs
          by_cases hk : k = k'
          · subst hk
            rw [Function.update_self, Option.some.injEq] at hs
            subst hs
            exact .inr List.mem_cons_self
          · rw [Function.update_of_ne hk] at hs
            exact .inl hs
    · exact .inr (List.mem_cons_of_mem _ hm)

/-- **The wrapper runs its action exactly when the key has no live entry**, and replays the entry otherwise. -/
theorem Ledger.Inv.runIdempotent {l : Ledger} (h : l.Inv) (codec : Codec R) (method tenantId requestId : Bytes)
    {t : Times} (ht : t.ordered l.clock = true) (storedAt : Nat) (status : Status) (resp : R)
    (hser : ∀ e, l.lastStore (makeIdempotencyKey method tenantId requestId) = some e →
      ∃ r, codec.serialize r = some e.serializedResponse)
    {a : Reply R × Option IdempotencyCache}
    (ha : Control.runIdempotent codec (some l.cache) method tenantId requestId t storedAt status resp = some a) :
    (a.1.ran = true ↔ ¬ ∃ e, l.live (makeIdempotencyKey method tenantId requestId) t.now e) ∧
    (a.1.ran = true → a.1 = ⟨true, status, resp⟩) ∧
    ∀ e r, l.live (makeIdempotencyKey method tenantId requestId) t.now e →
      codec.serialize r = some e.serializedResponse → a.1 = ⟨false, e.status, r⟩ := by
  unfold Control.runIdempotent at ha
  simp only at ha
  generalize makeIdempotencyKey method tenantId requestId = key at ha hser ⊢
  split at ha
  · rename_i hkey
    cases ha
    subst hkey
    have hno : ∀ e, ¬ l.live [] t.now e := by
      rintro e ⟨hs, -⟩
      rw [h.named] at hs
      cases hs
    exact ⟨by simp [hno], fun _ => rfl, fun e r hl => absurd hl (hno e)⟩
  obtain ⟨⟨r, c⟩, hb, rfl⟩ := Option.map_eq_some_iff.1 ha
  have hl : l.lookup key t = some (r, l.answered key t r c) := by
    simp only [Ledger.lookup, if_pos ht, hb, Option.map_some]
  obtain ⟨hhit, hor⟩ := h.lookup_hit_iff hl
  simp only at hhit hor
  rcases hor with hstate | rfl
  · -- a hit: the entry is live, and its bytes parse
    obtain ⟨st, e⟩ := r
    simp only at hstate
    subst hstate
    have hlive : l.live key t.now e := (hhit e).1 rfl
    obtain ⟨r₀, hr₀⟩ := hser e hlive.1
    have hrep : replayed codec.parse ⟨.hit, e⟩ = some ⟨false, e.status, r₀⟩ := by
      simp only [replayed, codec.parse_serialize r₀ _ hr₀, Option.map_some]
    simp only [hrep]
    refine ⟨by simpa using ⟨e, hlive⟩, by simp, ?_⟩
    intro e' r' hlive' hr'
    have he : e' = e := Option.some.inj (hlive'.1.symm.trans hlive.1)
    subst he
    have hpar := codec.parse_serialize r' _ hr'
    rw [codec.parse_serialize r₀ _ hr₀] at hpar
    rw [Option.some.inj hpar]
  · have hno : ∀ e, ¬ l.live key t.now e := fun e he => nomatch (hhit e).2 he
    have hrep : replayed codec.parse ⟨.miss, .empty⟩ = none := rfl
    simp only [hrep]
    exact ⟨by simp [hno], fun _ => trivial, fun e r hl => absurd hl (hno e)⟩

end wrapper

/-- A message that is its own wire format. -/
def Codec.raw : Codec Bytes := ⟨some, some, fun r b h => by cases h; rfl⟩

theorem not_movesSeparator {tenant₂ : Bytes} (h : separator ∉ tenant₂) (tenant₁ request₁ request₂ : Bytes) :
    ¬ movesSeparator tenant₁ request₁ tenant₂ request₂ := by
  rintro ⟨x, rfl, -⟩
  exact h (List.mem_append_right _ List.mem_cons_self)

/-- Two tenants without the separator in their ids. -/
theorem key_collision_iff_plain :
    str "b" ≠ [] ∧ str "d" ≠ [] ∧
    (makeIdempotencyKey Method.startTts.name (str "a") (str "b")
        = makeIdempotencyKey Method.startTts.name (str "c") (str "d") →
      (Method.startTts, str "a", str "b") = (Method.startTts, str "c", str "d")) := by
  have hb : str "b" ≠ [] := by decide +kernel
  have hd : str "d" ≠ [] := by decide +kernel
  refine ⟨hb, hd, ?_⟩
  refine (key_collision_iff .startTts .startTts (str "a") (str "c") (str "b") (str "d") hb hd).2 ?_
  rintro ⟨-, hm | hm⟩
  · exact not_movesSeparator (by decide +kernel) _ _ _ hm
  · exact not_movesSeparator (by decide +kernel) _ _ _ hm

/-- Tenant `a` with the request id `b 0x1f c` and tenant `a 0x1f b` with the request id `c` share a key: the second is
served what the first one's action gave, and its own never runs. -/
theorem separator_serves_other_tenant :
    makeIdempotencyKey Method.startTts.name (str "a") (str "b" ++ [separator] ++ str "c")
      = makeIdempotencyKey Method.startTts.name (str "a" ++ [separator] ++ str "b") (str "c") ∧
    str "a" ≠ str "a" ++ [separator] ++ str "b" ∧
    ((runIdempotent .raw (some (.empty 16 300 10)) Method.startTts.name (str "a") (str "b" ++ [separator] ++ str "c")
        (.constant 0) 0 Status.okay (str "stream of the first")).bind (fun a =>
      runIdempotent .raw a.2 Method.startTts.name (str "a" ++ [separator] ++ str "b") (str "c")
        (.constant 1) 1 Status.okay (str "stream of the second"))).map (fun a => a.1)
      = some ⟨false, Status.okay, str "stream of the first"⟩ := by
  decide +kernel

/-! ## The map -/

theorem IdempotencyCache.isSome_of_waited {c : IdempotencyCache} {k : Bytes} {t : Times} {wait : Nat}
    (hle : t.later + wait ≤ t.wake) (hc : c.inFlightMaxWait = wait) :
    (match c.reserveOrWait k t.now t.later with
      | .answered r c => some (r, c)
      | .blocked d c  => c.resume k d t.toReadings).isSome = true := by
  rcases c.reserveOrWait_cases k t.now t.later with ⟨hr, -⟩ | ⟨d, -, -, hr⟩
  · rw [hr]
    rfl
  · rw [hr]
    simp only [IdempotencyCache.resume]
    split
    · split
      · split <;> rfl
      · rfl
    · rw [if_pos (by omega)]
      rfl

theorem Ledger.lookup_isSome {l : Ledger} {k : Bytes} {t : Times} (ht : t.ordered l.clock = true)
    (h : (∃ e, l.cache.find k = some e ∧ t.now < e.expiresAt) ∨ t.later + l.cache.inFlightMaxWait ≤ t.wake) :
    (l.lookup k t).isSome = true := by
  rw [Ledger.lookup, if_pos ht, Option.isSome_map, IdempotencyCache.lookup, IdempotencyCache.lookupOrReserve]
  by_cases hk : k = []
  · rw [if_pos hk]
    rfl
  rw [if_neg hk]
  cases hf : l.cache.find k with
  | none =>
    rcases h with ⟨e, he, -⟩ | hle
    · rw [hf] at he
      cases he
    · exact IdempotencyCache.isSome_of_waited hle rfl
  | some e =>
    simp only
    by_cases hexp : e.expiresAt ≤ t.now
    · rw [if_pos hexp]
      rcases h with ⟨e', he', hlt⟩ | hle
      · rw [hf] at he'
        cases he'
        omega
      · exact IdempotencyCache.isSome_of_waited (c := l.cache.erase k) hle rfl
    · rw [if_neg hexp]
      rfl

/-- **The idempotency cache is a bounded map with expiry and least-recent eviction.**  After every sequence of calls
with a clock that does not go back: the index and the list hold the same keys once each, no more than the capacity; a
lookup returns, at once when the key's last `Store` is live and at the latest when its own wait is over, and it is a
hit, with the entry of that `Store`, exactly when that is live; only a `Store` of another key that is not held, in a
full cache, pushes an entry out, the one stored or hit least recently; and `RunIdempotent` runs its action exactly when
its key has no live entry, and otherwise gives the status and the response that were stored. -/
theorem bounded_ttl_lru_map (capacity ttl wait : Nat) (hcap : 1 ≤ capacity) (calls : List CacheCall) (l : Ledger)
    (hrun : Run.exec Ledger.step calls (.init capacity ttl wait) = some l) :
    (l.cache.index.Perm l.cache.keys ∧ l.cache.keys.Nodup) ∧
    l.cache.lruList.length ≤ capacity ∧
    (∀ k t, t.ordered l.clock = true → (∃ e, l.live k t.now e) ∨ t.later + l.cache.inFlightMaxWait ≤ t.wake →
      (l.lookup k t).isSome = true) ∧
    (∀ k t a, l.lookup k t = some a →
      (∀ e, a.1 = ⟨.hit, e⟩ ↔ l.live k t.now e) ∧ (a.1.state = .hit ∨ a.1 = ⟨.miss, .empty⟩)) ∧
    (∀ a l' v, l.step a = some l' → l.pushedOut v = false → l'.pushedOut v = true →
      ∃ k e, a = .store k e ∧ k ≠ v ∧ k ∉ l.cache.index ∧ v ∈ l.cache.index ∧
        l.cache.lruList.length = capacity ∧ ∀ u ∈ l.cache.index, u ≠ v → l.lastUse v < l.lastUse u) ∧
    (∀ (R : Type) (codec : Codec R) (method tenantId requestId : Bytes) (t : Times) (storedAt : Nat) (status : Status)
        (resp : R) (a : Reply R × Option IdempotencyCache),
      t.ordered l.clock = true →
      (∀ e, CacheCall.store (makeIdempotencyKey method tenantId requestId) e ∈ calls →
        ∃ r, codec.serialize r = some e.serializedResponse) →
      runIdempotent codec (some l.cache) method tenantId requestId t storedAt status resp = some a →
      (a.1.ran = true ↔ ¬ ∃ e, l.live (makeIdempotencyKey method tenantId requestId) t.now e) ∧
      (a.1.ran = true → a.1 = ⟨true, status, resp⟩) ∧
      ∀ e r, l.live (makeIdempotencyKey method tenantId requestId) t.now e →
        codec.serialize r = some e.serializedResponse → a.1 = ⟨false, e.status, r⟩) := by
  have hboth : l.Inv ∧ l.cache.capacity = capacity := by
    refine Run.exec_inv (I := fun l => l.Inv ∧ l.cache.capacity = capacity) ?_ calls _ l
      ⟨Ledger.Inv.init capacity ttl wait, rfl⟩ hrun
    rintro l a l' ⟨hi, hc⟩ hs
    exact ⟨hi.step a l' hs, by rw [Ledger.step_capacity hi hs, hc]⟩
  obtain ⟨hinv, hcapacity⟩ := hboth
  have hsize := hinv.bounded.size
  refine ⟨⟨hinv.bounded.perm, hinv.bounded.nodup⟩, by omega, ?_, ?_, ?_, ?_⟩
  · rintro k t ht (⟨e, he⟩ | hle)
    · have hnow : l.clock ≤ t.now := by
        simp only [Times.ordered, decide_eq_true_eq] at ht
        exact ht.1
      exact Ledger.lookup_isSome ht (.inl ⟨e, (hinv.live_iff hnow e).1 he⟩)
    · exact Ledger.lookup_isSome ht (.inr hle)
  · intro k t a ha
    exact hinv.lookup_hit_iff ha
  · intro a l' v hs hbefore hafter
    rw [← hcapacity]
    exact hinv.pushed_out_by (by omega) hs hbefore hafter
  · intro R codec method tenantId requestId t storedAt status resp a ht hser ha
    refine hinv.runIdempotent codec method tenantId requestId ht storedAt status resp ?_ ha
    intro e he
    rcases Ledger.lastStore_mem calls _ l hrun he with hs | hm
    · cases hs
    · exact hser e hm

/-- Two keys in a cache of one: the second `Store` pushes the first key out. -/
def twoKeys : List CacheCall :=
  [.lookup (str "k") (.constant 0), .store (str "k") ⟨Status.okay, str "r", 300⟩, .lookup (str "k") (.constant 1)]

theorem bounded_ttl_lru_map_twoKeys :
    (Run.exec Ledger.step (twoKeys ++ [.store (str "j") ⟨Status.okay, str "q", 300⟩]) (.init 1 300 10)).map
      (fun l => (l.pushedOut (str "k"), l.cache.keys)) = some (true, [str "j"]) ∧
    ∃ l, Run.exec Ledger.step twoKeys (.init 1 300 10) = some l ∧ l.live (str "k") 2 ⟨Status.okay, str "r", 300⟩ ∧
      (l.lookup (str "k") (.constant 2)).isSome = true ∧ l.cache.lruList.length ≤ 1 := by
  refine ⟨by decide +kernel, ?_⟩
  have hm : (Run.exec Ledger.step twoKeys (.init 1 300 10)).map
      (fun l => (l.clock, decide (l.live (str "k") 2 ⟨Status.okay, str "r", 300⟩))) = some (1, true) := by
    decide +kernel
  obtain ⟨l, hl, hf⟩ := Option.map_eq_some_iff.1 hm
  obtain ⟨hclock, hlive⟩ := Prod.mk.inj hf
  have hlive := of_decide_eq_true hlive
  have hmap := bounded_ttl_lru_map 1 300 10 (Nat.le_refl 1) twoKeys l hl
  refine ⟨l, hl, hlive, hmap.2.2.1 (str "k") (.constant 2) ?_ (.inl ⟨_, hlive⟩), hmap.2.1⟩
  rw [hclock]
  rfl

end Control
end Osw
