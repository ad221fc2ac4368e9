import OpenSwitch.Run
/-!
# BinderLife — when a `Binder` may be called, and when it may be destroyed (`binder.cc`)

FreeSWITCH calls one C function for every event, from any of its dispatch threads, and that function finds the `Binder`
in a slot of the process.  `Init` claims the slot, then binds the function, and `Stop` unbinds it, then clears the slot;
a dispatch holds the lock that binding and unbinding have to wait for.  Any number of binders, of calls and of dispatches
run here in any order.

The life of the slot is an abstract machine (`Own`): at each time at most one call is inside the part of `Init` or `Stop`
that changes it, and every step of a call is a step of the machine or leaves it alone (`next_spec`).  From it: a function
that is bound finds a binder in the slot, an event that arrives at a bound binder is handled once, and a binder whose
`Stop` has returned is never entered again.
-/
namespace Osw
namespace Events

/-- Where a call of `Init`, a call of `Stop` or a dispatch is. -/
inductive BinderPhase
  | idle
  | initCheck (b : Nat)
  | claim (b : Nat)
  | bind (b : Nat)
  | activate (b : Nat)
  | release (b : Nat)
  | initDone (b : Nat) (ok : Bool)
  | stopLock (b : Nat)
  | check (b : Nat)
  | unbind (b : Nat)
  | deactivate (b : Nat)
  | clear (b : Nat)
  | unlock (b : Nat)
  | stopDone (b : Nat)
  /-- The dispatch has `k` nodes before it, and these binders have `handled` the event. -/
  | calling (k : Nat) (handled : List Nat)
  /-- Inside `HandleEvent` of `b`. -/
  | handling (b k : Nat) (handled : List Nat)
  | delivered (handled : List Nat)
  deriving DecidableEq, Repr

/-- What the calls share. -/
structure BinderShared where
  /-- `BinderInstanceSlot` -/
  slot    : Option Nat
  /-- `active_` -/
  active  : Nat → Bool
  /-- `stop_mu_` -/
  stopMu  : Nat → Option Nat
  /-- How many nodes of FreeSWITCH have `osw_event_handler`. -/
  nodes   : Nat
  /-- The dispatches that read under the lock of the nodes. -/
  readers : List Nat

structure BinderLife where
  shared : BinderShared
  phase  : Nat → BinderPhase

/-- What a call is to do: to begin, or its next step, with the answer of `EventBind`. -/
inductive BinderCmd
  | init (b : Nat)
  | stop (b : Nat)
  | deliver
  | go (ok : Bool)
  deriving DecidableEq, Repr

def BinderPhase.next (w : BinderShared) (i : Nat) : BinderCmd → BinderPhase → Option (BinderShared × BinderPhase)
  | .init b, .idle      => some (w, .initCheck b)
  | .go _, .initCheck b => some (w, if w.active b then .initDone b true else .claim b)
  | .go _, .claim b     => if w.slot = none then some ({ w with slot := some b }, .bind b) else some (w, .initDone b false)
  | .go true, .bind b   => if w.readers = [] then some ({ w with nodes := w.nodes + 1 }, .activate b) else none
  | .go false, .bind b  => some (w, .release b)
  | .go _, .activate b  => some ({ w with active := Function.update w.active b true }, .initDone b true)
  | .go _, .release b   => some ({ w with slot := none }, .initDone b false)
  | .stop b, .idle      => some (w, .stopLock b)
  | .go _, .stopLock b  =>
    if w.stopMu b = none then some ({ w with stopMu := Function.update w.stopMu b (some i) }, .check b) else none
  | .go _, .check b      => some (w, if w.active b then .unbind b else .unlock b)
  | .go _, .unbind b     => if w.readers = [] then some ({ w with nodes := 0 }, .deactivate b) else none
  | .go _, .deactivate b => some ({ w with active := Function.update w.active b false }, .clear b)
  | .go _, .clear b      => some ({ w with slot := none }, .unlock b)
  | .go _, .unlock b     => some ({ w with stopMu := Function.update w.stopMu b none }, .stopDone b)
  | .deliver, .idle      => some ({ w with readers := i :: w.readers }, .calling w.nodes [])
  | .go _, .calling 0 handled =>
    some ({ w with readers := w.readers.filter (fun j => decide (j ≠ i)) }, .delivered handled)
  | .go _, .calling (k + 1) handled =>
    -- the shim: without a binder in the slot it does nothing
    match w.slot with
    | none   => some (w, .calling k handled)
    | some b => some (w, .handling b k handled)
  | .go _, .handling b k handled => some (w, .calling k (handled ++ [b]))
  | _, _ => none

namespace BinderLife

def start : BinderLife := ⟨⟨none, fun _ => false, fun _ => none, 0, []⟩, fun _ => .idle⟩

/-- Call `a.1` does `a.2`. -/
def step (s : BinderLife) (a : Nat × BinderCmd) : Option BinderLife :=
  ((s.phase a.1).next s.shared a.1 a.2).map fun x => ⟨x.1, Function.update s.phase a.1 x.2⟩

end BinderLife

/-! ## The life of the slot -/

/-- What the slot is used for, and which call is changing that. -/
inductive Own
  | free
  | claimed (b i : Nat)
  | bound (b i : Nat)
  | failed (b i : Nat)
  | on (b : Nat)
  | stopping (b i : Nat)
  | unbound (b i : Nat)
  | closing (b i : Nat)
  deriving DecidableEq, Repr

namespace Own

def binder : Own → Option Nat
  | .free => none
  | .on b | .claimed b _ | .bound b _ | .failed b _ | .stopping b _ | .unbound b _ | .closing b _ => some b

def call : Own → Option Nat
  | .free | .on _ => none
  | .claimed _ i | .bound _ i | .failed _ i | .stopping _ i | .unbound _ i | .closing _ i => some i

def nodes : Own → Nat
  | .bound _ _ | .on _ | .stopping _ _ => 1
  | .free | .claimed _ _ | .failed _ _ | .unbound _ _ | .closing _ _ => 0

def active (o : Own) (x : Nat) : Bool :=
  match o with
  | .on b | .stopping b _ | .unbound b _ => decide (x = b)
  | .free | .claimed _ _ | .bound _ _ | .failed _ _ | .closing _ _ => false

theorem binder_of_active {o : Own} {x : Nat} (h : o.active x = true) : o.binder = some x := by
  cases o <;> simp_all [active, binder]

theorem eq_on {o : Own} {b : Nat} (h : o.active b = true) (hc : o.call = none) : o = .on b := by
  cases o <;> simp_all [active, call]

theorem eq_free {o : Own} (h : o.binder = none) : o = .free := by
  cases o <;> simp_all [binder]

end Own

namespace BinderPhase

/-- What a call that is changing the slot is doing. -/
def own (i : Nat) : BinderPhase → Option Own
  | .bind b       => some (.claimed b i)
  | .activate b   => some (.bound b i)
  | .release b    => some (.failed b i)
  | .unbind b     => some (.stopping b i)
  | .deactivate b => some (.unbound b i)
  | .clear b      => some (.closing b i)
  | _             => none

/-- The binder whose `stop_mu_` the call holds. -/
def holds : BinderPhase → Option Nat
  | .check b | .unbind b | .deactivate b | .clear b | .unlock b => some b
  | _ => none

/-- The binder whose `Init` the call is in. -/
def inits : BinderPhase → Option Nat
  | .initCheck b | .claim b | .bind b | .activate b | .release b => some b
  | _ => none

/-- The binder whose `Stop` the call is in. -/
def stops : BinderPhase → Option Nat
  | .stopLock b | .check b | .unbind b | .deactivate b | .clear b | .unlock b => some b
  | _ => none

def reads : BinderPhase → Bool
  | .calling _ _ | .handling _ _ _ => true
  | _ => false

/-- A dispatch meets each node once, and each time the binder in the slot. -/
def Served (nodes : Nat) (slot : Option Nat) : BinderPhase → Prop
  | .calling k handled    => k + handled.length = nodes ∧ ∀ b ∈ handled, slot = some b
  | .handling b k handled => k + 1 + handled.length = nodes ∧ slot = some b ∧ ∀ b' ∈ handled, slot = some b'
  | _ => True

variable {p : BinderPhase} {slot : Option Nat}

/-- A call at the slot of an active binder is a `Stop`, and holds its lock. -/
theorem holds_of_active {i b : Nat} {o : Own} (h : p.own i = some o) (ha : o.active b = true) :
    p.holds = some b ∧ p.stops = some b := by
  cases p <;> cases h <;> simp_all [Own.active, holds, stops]

theorem served_of_not_reads {n : Nat} (h : p.reads = false) : p.Served n slot := by
  cases p <;> trivial

/-- Without nodes the slot does not matter to a dispatch. -/
theorem served_zero {slot' : Option Nat} (h : p.Served 0 slot) : p.Served 0 slot' := by
  cases p with
  | calling k handled =>
    obtain ⟨hk, -⟩ := h
    have hnil : handled = [] := List.eq_nil_of_length_eq_zero (by omega)
    subst hnil
    exact ⟨hk, fun b hb => by cases hb⟩
  | handling b k handled =>
    obtain ⟨hk, -⟩ := h
    omega
  | _ => trivial

end BinderPhase

open BinderPhase

section machine

variable {o o' : Own} {w w' : BinderShared} {i j : Nat} {p p' : BinderPhase} {f : Nat → BinderPhase} {cmd : BinderCmd}

/-- What is shared shows the machine at `o`. -/
structure Shows (o : Own) (w : BinderShared) : Prop where
  slot   : w.slot = o.binder
  nodes  : w.nodes = o.nodes
  active : ∀ b, w.active b = o.active b

/-- Call `i` is where the machine says, and holds what it should. -/
structure Good (o : Own) (w : BinderShared) (i : Nat) (p : BinderPhase) : Prop where
  own    : p.own i = if o.call = some i then some o else none
  mu     : ∀ b, p.holds = some b → w.stopMu b = some i
  reads  : p.reads = true → i ∈ w.readers
  served : p.Served w.nodes w.slot

/-- What a step of call `i` leaves to the others: the machine, or nobody else is at it; their locks; and while a dispatch
reads, the nodes, and with a node the slot. -/
structure Apart (i : Nat) (o o' : Own) (w w' : BinderShared) : Prop where
  own   : o' = o ∨ (o.call = none ∨ o.call = some i) ∧ (o'.call = none ∨ o'.call = some i)
  mu    : ∀ j, j ≠ i → ∀ b, w.stopMu b = some j → w'.stopMu b = some j
  reads : ∀ j, j ≠ i → j ∈ w.readers → j ∈ w'.readers
  nodes : w.readers = [] ∨ w'.nodes = w.nodes ∧ (w.nodes ≠ 0 → w'.slot = w.slot)

theorem Apart.rfl' : Apart i o o w w := ⟨.inl rfl, fun _ _ _ h => h, fun _ _ h => h, .inr ⟨rfl, fun _ => rfl⟩⟩

theorem Good.of_apart {q : BinderPhase} (h : Good o w j q) (hji : j ≠ i) (ha : Apart i o o' w w') : Good o' w' j q := by
  refine ⟨?_, fun b hb => ha.mu j hji b (h.mu b hb), fun hr => ha.reads j hji (h.reads hr), ?_⟩
  · have hother : ∀ o : Own, o.call = none ∨ o.call = some i → o.call ≠ some j := by
      rintro o (hc | hc) hj <;> rw [hc] at hj
      · cases hj
      · exact hji (Option.some.inj hj).symm
    rcases ha.own with rfl | ⟨hc, hc'⟩
    · exact h.own
    · rw [h.own, if_neg (hother o hc), if_neg (hother o' hc')]
  · rcases ha.nodes with hr | ⟨hn, hs⟩
    · -- the lock is free, so this is no dispatch
      refine served_of_not_reads (Bool.eq_false_iff.2 fun hq => ?_)
      have hmem := h.reads hq
      rw [hr] at hmem
      cases hmem
    · have hserved := h.served
      rw [hn]
      by_cases hz : w.nodes = 0
      · rw [hz] at hserved ⊢
        exact served_zero hserved
      · rw [hs hz]
        exact hserved

theorem Good.eq_of_own (h : Good o w i p) {o₁ : Own} (hp : p.own i = some o₁) : o = o₁ := by
  have hown := h.own
  rw [hp] at hown
  split at hown
  · exact (Option.some.inj hown).symm
  · cases hown

theorem Good.call_ne (h : Good o w i p) (hp : p.own i = none) : o.call ≠ some i := by
  intro hc
  have hown := h.own
  rw [hp, if_pos hc] at hown
  cases hown

/-- A call that is not at the slot goes on with the machine as it is. -/
theorem Good.go (h : Good o w i p) (hp : p.own i = none) (hp' : p'.own i = none)
    (hmu : ∀ b, p'.holds = some b → w'.stopMu b = some i) (hr : p'.reads = true → i ∈ w'.readers)
    (hs : p'.Served w'.nodes w'.slot) : Good o w' i p' :=
  ⟨by rw [hp', if_neg (h.call_ne hp)], hmu, hr, hs⟩

/-- A call that neither holds a lock nor reads. -/
theorem good_of_free (hown : p.own i = if o.call = some i then some o else none) (hh : p.holds = none)
    (hr : p.reads = false) : Good o w i p :=
  ⟨hown, fun b hb => (by rw [hh] at hb; cases hb), fun hx => (by rw [hr] at hx; cases hx), served_of_not_reads hr⟩

/-- The next thing the call at the slot does, with the locks and the reads as they are. -/
theorem Good.next (h : Good o w i p) (hown : p'.own i = if o'.call = some i then some o' else none)
    (hh : p'.holds = p.holds) (hr : p'.reads = false) (hm : w'.stopMu = w.stopMu) : Good o' w' i p' :=
  ⟨hown, fun b hb => hm ▸ h.mu b (hh ▸ hb), fun hx => (by rw [hr] at hx; cases hx), served_of_not_reads hr⟩

/-- An active binder that a `Stop` finds, nobody else is changing: another `Stop` would hold the lock this one holds. -/
theorem Shows.eq_on {b : Nat} (h : Shows o w) (hall : ∀ j, Good o w j (f j)) (hp : f i = .check b)
    (ha : w.active b = true) : o = .on b := by
  rw [h.active] at ha
  cases hc : o.call with
  | none => exact Own.eq_on ha hc
  | some j =>
    have hown := (hall j).own
    rw [if_pos hc] at hown
    have hmu := (hall j).mu b (holds_of_active hown ha).1
    rw [(hall i).mu b (by rw [hp]; rfl)] at hmu
    cases hmu
    rw [hp] at hown
    cases hown

/-- **Where the function is bound there is a binder**: the shim never finds the slot empty. -/
theorem Shows.slot_of_calling {k : Nat} {handled : List Nat} (h : Shows o w)
    (hs : (calling (k + 1) handled).Served w.nodes w.slot) : ∃ b, w.slot = some b := by
  have hk : k + 1 + handled.length = o.nodes := h.nodes ▸ hs.1
  rw [h.slot]
  cases o <;> first | exact ⟨_, rfl⟩ | (simp only [Own.nodes] at hk; omega)

/-- **Each step is a step of the machine, or leaves it alone.** -/
theorem next_spec (h : Shows o w) (hall : ∀ j, Good o w j (f j)) (hn : (f i).next w i cmd = some (w', p')) :
    ∃ o', Shows o' w' ∧ Good o' w' i p' ∧ Apart i o o' w w' := by
  have hg := hall i
  cases hp : f i <;> rw [hp] at hn hg <;> cases cmd <;> try (cases hn; done)
  case idle.init b => cases hn; exact ⟨o, h, hg.go rfl rfl (by simp [holds]) (by simp [reads]) trivial, .rfl'⟩
  case idle.stop b => cases hn; exact ⟨o, h, hg.go rfl rfl (by simp [holds]) (by simp [reads]) trivial, .rfl'⟩
  case idle.deliver =>
    cases hn
    exact ⟨o, ⟨h.slot, h.nodes, h.active⟩, hg.go rfl rfl (by simp [holds]) (fun _ => List.mem_cons_self) ⟨rfl, by simp⟩,
      .inl rfl, fun _ _ _ hb => hb, fun _ _ hj => List.mem_cons_of_mem _ hj, .inr ⟨rfl, fun _ => rfl⟩⟩
  case initCheck.go b ok =>
    cases hn
    refine ⟨o, h, hg.go rfl ?_ ?_ ?_ ?_, .rfl'⟩ <;> split <;> simp [own, holds, reads, Served]
  case claim.go b ok =>
    simp only [BinderPhase.next] at hn
    split at hn <;> cases hn
    · -- the slot is free, so nobody is at it
      rename_i hfree
      obtain rfl := Own.eq_free (h.slot ▸ hfree)
      exact ⟨.claimed b i, ⟨rfl, h.nodes, h.active⟩, good_of_free (if_pos rfl).symm rfl rfl,
        .inr ⟨.inl rfl, .inr rfl⟩, fun _ _ _ hb => hb, fun _ _ hj => hj, .inr ⟨rfl, fun hz => absurd h.nodes hz⟩⟩
    · exact ⟨o, h, hg.go rfl rfl (by simp [holds]) (by simp [reads]) trivial, .rfl'⟩
  case bind.go b ok =>
    obtain rfl := hg.eq_of_own rfl
    cases ok with
    | true =>
      simp only [BinderPhase.next] at hn
      split at hn <;> cases hn
      rename_i hr
      exact ⟨.bound b i, ⟨h.slot, congrArg (· + 1) h.nodes, h.active⟩, good_of_free (if_pos rfl).symm rfl rfl,
        .inr ⟨.inr rfl, .inr rfl⟩, fun _ _ _ hb => hb, fun _ _ hj => hj, .inl hr⟩
    | false =>
      cases hn
      exact ⟨.failed b i, ⟨h.slot, h.nodes, h.active⟩, good_of_free (if_pos rfl).symm rfl rfl,
        .inr ⟨.inr rfl, .inr rfl⟩, fun _ _ _ hb => hb, fun _ _ hj => hj, .inr ⟨rfl, fun _ => rfl⟩⟩
  case activate.go b ok =>
    obtain rfl := hg.eq_of_own rfl
    cases hn
    refine ⟨.on b, ⟨h.slot, h.nodes, ?_⟩, good_of_free rfl rfl rfl, .inr ⟨.inr rfl, .inl rfl⟩, fun _ _ _ hb => hb,
      fun _ _ hj => hj, .inr ⟨rfl, fun _ => rfl⟩⟩
    exact (Function.forall_update_iff w.active (fun x v => v = Own.active (.on b) x)).2
      ⟨(decide_eq_true rfl).symm, fun x hx => (h.active x).trans (decide_eq_false hx).symm⟩
  case release.go b ok =>
    obtain rfl := hg.eq_of_own rfl
    cases hn
    exact ⟨.free, ⟨rfl, h.nodes, h.active⟩, good_of_free rfl rfl rfl, .inr ⟨.inr rfl, .inl rfl⟩, fun _ _ _ hb => hb,
      fun _ _ hj => hj, .inr ⟨rfl, fun hz => absurd h.nodes hz⟩⟩
  case stopLock.go b ok =>
    simp only [BinderPhase.next] at hn
    split at hn <;> cases hn
    rename_i hfree
    refine ⟨o, ⟨h.slot, h.nodes, h.active⟩, hg.go rfl rfl ?_ (by simp [reads]) trivial, .inl rfl, ?_, fun _ _ hj => hj,
      .inr ⟨rfl, fun _ => rfl⟩⟩
    · intro x hx
      cases hx
      exact Function.update_self ..
    · intro j _ x hx
      have hxb : x ≠ b := fun hxb => by
        rw [hxb, hfree] at hx
        cases hx
      exact (Function.update_of_ne hxb ..).trans hx
  case check.go b ok =>
    cases hn
    cases ha : w.active b with
    | true =>
      obtain rfl := h.eq_on hall hp ha
      exact ⟨.stopping b i, ⟨h.slot, h.nodes, h.active⟩, hg.next (if_pos rfl).symm rfl rfl rfl, .inr ⟨.inl rfl, .inr rfl⟩,
        fun _ _ _ hb => hb, fun _ _ hj => hj, .inr ⟨rfl, fun _ => rfl⟩⟩
    | false => exact ⟨o, h, hg.go rfl rfl hg.mu (by simp [reads]) trivial, .rfl'⟩
  case unbind.go b ok =>
    obtain rfl := hg.eq_of_own rfl
    simp only [BinderPhase.next] at hn
    split at hn <;> cases hn
    rename_i hr
    exact ⟨.unbound b i, ⟨h.slot, rfl, h.active⟩, hg.next (if_pos rfl).symm rfl rfl rfl, .inr ⟨.inr rfl, .inr rfl⟩,
      fun _ _ _ hb => hb, fun _ _ hj => hj, .inl hr⟩
  case deactivate.go b ok =>
    obtain rfl := hg.eq_of_own rfl
    cases hn
    refine ⟨.closing b i, ⟨h.slot, h.nodes, ?_⟩, hg.next (if_pos rfl).symm rfl rfl rfl, .inr ⟨.inr rfl, .inr rfl⟩,
      fun _ _ _ hb => hb, fun _ _ hj => hj, .inr ⟨rfl, fun _ => rfl⟩⟩
    exact (Function.forall_update_iff w.active (fun x v => v = Own.active (.closing b i) x)).2
      ⟨rfl, fun x hx => (h.active x).trans (decide_eq_false hx)⟩
  case clear.go b ok =>
    obtain rfl := hg.eq_of_own rfl
    cases hn
    exact ⟨.free, ⟨rfl, h.nodes, h.active⟩, hg.next rfl rfl rfl rfl, .inr ⟨.inr rfl, .inl rfl⟩, fun _ _ _ hb => hb,
      fun _ _ hj => hj, .inr ⟨rfl, fun hz => absurd h.nodes hz⟩⟩
  case unlock.go b ok =>
    cases hn
    refine ⟨o, ⟨h.slot, h.nodes, h.active⟩, hg.go rfl rfl (by simp [holds]) (by simp [reads]) trivial, .inl rfl, ?_,
      fun _ _ hj => hj, .inr ⟨rfl, fun _ => rfl⟩⟩
    intro j hj x hx
    have hxb : x ≠ b := fun hxb => by
      rw [hxb, hg.mu b rfl] at hx
      exact hj (Option.some.inj hx).symm
    exact (Function.update_of_ne hxb ..).trans hx
  case calling.go k handled ok =>
    cases k with
    | zero =>
      cases hn
      exact ⟨o, ⟨h.slot, h.nodes, h.active⟩, hg.go rfl rfl (by simp [holds]) (by simp [reads]) trivial, .inl rfl,
        fun _ _ _ hb => hb, fun _ hj hm => List.mem_filter.2 ⟨hm, decide_eq_true hj⟩, .inr ⟨rfl, fun _ => rfl⟩⟩
    | succ k =>
      obtain ⟨b, hb⟩ := h.slot_of_calling hg.served
      simp only [BinderPhase.next, hb] at hn
      cases hn
      exact ⟨o, h, hg.go rfl rfl (by simp [holds]) (fun _ => hg.reads rfl) ⟨hg.served.1, hb, hg.served.2⟩, .rfl'⟩
  case handling.go b k handled ok =>
    cases hn
    obtain ⟨hk, hb, hrest⟩ := hg.served
    refine ⟨o, h, hg.go rfl rfl (by simp [holds]) (fun _ => hg.reads rfl) ⟨?_, ?_⟩, .rfl'⟩
    · rw [List.length_append, List.length_singleton]
      omega
    · intro x hx
      rcases List.mem_append.1 hx with hx | hx
      · exact hrest x hx
      · rw [List.mem_singleton.1 hx]
        exact hb

/-- A call inside `Init`, inside `Stop` or inside a dispatch goes on with it, and only `Init` fills the slot. -/
theorem next_phase (hn : p.next w i cmd = some (w', p')) :
    (∀ b, p'.inits = some b → p.inits = some b ∨ cmd = .init b) ∧
    (∀ b, p'.stops = some b → p.stops = some b ∨ cmd = .stop b) ∧
    (p.reads = true → p'.reads = true ∨ ∃ handled, p = .calling 0 handled ∧ p' = .delivered handled) ∧
    (∀ b, w'.slot = some b → w.slot = some b ∨ p.inits = some b) := by
  unfold BinderPhase.next at hn
  repeat' split at hn
  all_goals cases hn <;> simp_all [inits, stops, reads]

end machine

namespace BinderLife

variable {s s' : BinderLife} {i b j : Nat} {a : Nat × BinderCmd} {acts : List (Nat × BinderCmd)} {w : BinderShared}

/-- What holds of every state a run reaches. -/
def Valid (s : BinderLife) : Prop := ∃ o, Shows o s.shared ∧ ∀ i, Good o s.shared i (s.phase i)

theorem valid_start : start.Valid :=
  ⟨.free, ⟨rfl, rfl, fun _ => rfl⟩, fun _ => good_of_free rfl rfl rfl⟩

/-- The step of a call, and the others, which stay. -/
theorem step_cases (h : s.step a = some s') : ∃ w' p', (s.phase a.1).next s.shared a.1 a.2 = some (w', p') ∧
    s'.shared = w' ∧ s'.phase a.1 = p' ∧ ∀ j, j ≠ a.1 → s'.phase j = s.phase j := by
  obtain ⟨⟨w', p'⟩, hn, rfl⟩ := Option.map_eq_some_iff.1 h
  exact ⟨w', p', hn, rfl, Function.update_self .., fun j hj => Function.update_of_ne hj ..⟩

/-- **What one step keeps.** -/
theorem Valid.step (h : s.Valid) (hs : s.step a = some s') :
    s'.Valid ∧ (s.shared.readers = [] ∨ s'.shared.nodes = s.shared.nodes ∧
      (s.shared.nodes ≠ 0 → s'.shared.slot = s.shared.slot)) := by
  obtain ⟨o, hshows, hall⟩ := h
  obtain ⟨w', p', hn, rfl, rfl, hne⟩ := step_cases hs
  obtain ⟨o', hshows', hgood, hapart⟩ := next_spec hshows hall hn
  refine ⟨⟨o', hshows', fun j => ?_⟩, hapart.nodes⟩
  by_cases hj : j = a.1
  · subst hj
    exact hgood
  · rw [hne j hj]
    exact (hall j).of_apart hj hapart

theorem valid_of_run (h : Run.exec step acts start = some s) : s.Valid :=
  Run.exec_inv (fun _ _ _ hv hs => (hv.step hs).1) acts start s valid_start h

/-- Only a call of `Init` or `Stop` gets a call inside one. -/
theorem step_made (hs : s.step a = some s') (i : Nat) :
    ((s'.phase i).inits = some b → (s.phase i).inits = some b ∨ a = (i, .init b)) ∧
    ((s'.phase i).stops = some b → (s.phase i).stops = some b ∨ a = (i, .stop b)) := by
  obtain ⟨w', p', hn, -, rfl, hne⟩ := step_cases hs
  by_cases hi : i = a.1
  · subst hi
    obtain ⟨hinits, hstops, -⟩ := next_phase hn
    exact ⟨fun hx => (hinits b hx).imp id fun hc => Prod.ext rfl hc, fun hx => (hstops b hx).imp id fun hc => Prod.ext rfl hc⟩
  · rw [hne i hi]
    exact ⟨.inl, .inl⟩

/-- A call that is inside `Init` or `Stop` was made. -/
theorem made_of_run (h : Run.exec step acts start = some s) (b : Nat) :
    ((s.phase i).inits = some b → (i, .init b) ∈ acts) ∧ ((s.phase i).stops = some b → (i, .stop b) ∈ acts) := by
  refine Run.exec_inv_mem (I := fun u => ((u.phase i).inits = some b → (i, .init b) ∈ acts) ∧
    ((u.phase i).stops = some b → (i, .stop b) ∈ acts)) acts start s ?_ ⟨fun hx => ?_, fun hx => ?_⟩ h
  · intro a ha u u' hu hs
    obtain ⟨hinit, hstop⟩ := step_made (b := b) hs i
    exact ⟨fun hx => (hinit hx).elim hu.1 (· ▸ ha), fun hx => (hstop hx).elim hu.2 (· ▸ ha)⟩
  · cases hx
  · cases hx

/-! ## An event is handled once -/

/-- Whom a dispatch meets that begins with these nodes and this slot. -/
def met (nodes : Nat) (slot : Option Nat) : List Nat := if nodes = 0 then [] else slot.toList

theorem met_of_served {o : Own} {handled : List Nat} (h : Shows o w) (hs : (calling 0 handled).Served w.nodes w.slot) :
    handled = met w.nodes w.slot := by
  obtain ⟨hlen, hall⟩ := hs
  have hle : w.nodes ≤ 1 := by
    rw [h.nodes]
    cases o <;> simp [Own.nodes]
  unfold met
  rcases handled with _ | ⟨b, _ | ⟨c, rest⟩⟩ <;> simp only [List.length_nil, List.length_cons] at hlen
  · rw [if_pos hlen.symm]
  · rw [if_neg (by omega), hall b List.mem_cons_self]
    rfl
  · omega

/-- The dispatch is under way with the nodes and the slot it began with, or it has met whom they say. -/
def Watched (i n : Nat) (slot : Option Nat) (s : BinderLife) : Prop :=
  s.Valid ∧ ((s.phase i).reads = true ∧ s.shared.nodes = n ∧ (n ≠ 0 → s.shared.slot = slot) ∨
    s.phase i = .delivered (met n slot))

theorem Watched.step {n : Nat} {slot : Option Nat} (h : Watched i n slot s) (hs : s.step a = some s') :
    Watched i n slot s' := by
  obtain ⟨hv, hw⟩ := h
  obtain ⟨hv', hkeep⟩ := hv.step hs
  refine ⟨hv', ?_⟩
  obtain ⟨o, hshows, hall⟩ := hv
  obtain ⟨w', p', hn, -, rfl, hne⟩ := step_cases hs
  rcases hw with ⟨hread, rfl, hslot⟩ | hdone
  · have hr : s.shared.readers ≠ [] := List.ne_nil_of_mem ((hall i).reads hread)
    obtain ⟨hn', hs'⟩ := hkeep.resolve_left hr
    have hstay : s.shared.nodes ≠ 0 → s'.shared.slot = slot := fun hz => (hs' hz).trans (hslot hz)
    by_cases hi : i = a.1
    · subst hi
      rcases (next_phase hn).2.2.1 hread with hr' | ⟨handled, hp, hp'⟩
      · exact .inl ⟨hr', hn', hstay⟩
      · refine .inr ?_
        have hserved := (hall a.1).served
        rw [hp] at hserved
        rw [hp', met_of_served hshows hserved]
        by_cases hz : s.shared.nodes = 0
        · rw [hz, met, met, if_pos rfl, if_pos rfl]
        · rw [hslot hz]
    · exact .inl ⟨hne i hi ▸ hread, hn', hstay⟩
  · by_cases hi : i = a.1
    · subst hi
      rw [hdone] at hn
      cases hc : a.2 <;> rw [hc] at hn <;> cases hn
    · exact .inr ((hne i hi).trans hdone)

/-- **An event is handled at most once, and by the binder that is active**: whatever else runs, a dispatch calls
`HandleEvent` once for the binder whose function is bound when it takes the lock, and not at all when none is; if a binder
is active by then and its `Stop` was not called, it is that one. -/
theorem delivered_once (as bs : List (Nat × BinderCmd)) (i : Nat) (s s₁ t : BinderLife) (handled : List Nat)
    (h : Run.exec step as start = some s) (hd : s.step (i, .deliver) = some s₁) (ht : Run.exec step bs s₁ = some t)
    (hp : t.phase i = .delivered handled) :
    handled = met s.shared.nodes s.shared.slot ∧ handled.length ≤ 1 ∧
      ∀ b, s.shared.active b = true → (∀ j, (j, BinderCmd.stop b) ∉ as) → handled = [b] := by
  have hv := valid_of_run h
  have hwatched : Watched i s.shared.nodes s.shared.slot s₁ := by
    refine ⟨(hv.step hd).1, .inl ?_⟩
    obtain ⟨w', p', hn, hw, hphase, -⟩ := step_cases hd
    cases hidle : s.phase i <;> rw [hidle] at hn <;> cases hn
    rw [hphase, hw]
    exact ⟨rfl, rfl, fun _ => rfl⟩
  have hlast := (Run.exec_inv (I := Watched i _ _) (fun _ _ _ hw hs => hw.step hs) bs s₁ t hwatched ht).2
  have hmet : handled = met s.shared.nodes s.shared.slot := by
    rw [hp] at hlast
    rcases hlast with ⟨hread, -⟩ | hdone
    · cases hread
    · injection hdone
  refine ⟨hmet, ?_, ?_⟩
  · rw [hmet, met]
    split
    · exact Nat.zero_le _
    · cases s.shared.slot <;> simp
  · intro b ha hstop
    obtain ⟨o, hshows, hall⟩ := hv
    rw [hshows.active] at ha
    -- without a `Stop` nobody is at the slot of the active binder
    have ho : o = .on b := by
      cases hc : o.call with
      | none => exact Own.eq_on ha hc
      | some j =>
        have hown := (hall j).own
        rw [if_pos hc] at hown
        exact absurd ((made_of_run h b).2 (holds_of_active hown ha).2) (hstop j)
    rw [hmet, hshows.nodes, hshows.slot, ho]
    rfl

/-- Call 0 initialises binder 5. -/
def bindRun : List (Nat × BinderCmd) := (0, .init 5) :: List.replicate 4 (0, .go true)

/-- Binder 6 tries its luck and a `Stop` of 5 waits, while dispatch 1 goes on. -/
def dispatchRun : List (Nat × BinderCmd) :=
  [(2, .init 6), (2, .go true), (2, .go true), (3, .stop 5), (3, .go true), (3, .go true)] ++ List.replicate 3 (1, .go true)

theorem delivered_once_dispatchRun :
    (Run.exec step (bindRun ++ (1, .deliver) :: dispatchRun) start).map (fun t => (t.phase 1, t.phase 2, t.phase 3)) =
      some (.delivered [5], .initDone 6 false, .unbind 5) ∧
    ∀ s s₁ t handled, Run.exec step bindRun start = some s → s.step (1, .deliver) = some s₁ →
      Run.exec step dispatchRun s₁ = some t → t.phase 1 = .delivered handled →
      handled = met s.shared.nodes s.shared.slot ∧ handled.length ≤ 1 ∧
        ∀ b, s.shared.active b = true → (∀ j, (j, BinderCmd.stop b) ∉ bindRun) → handled = [b] :=
  ⟨by decide, fun s s₁ t handled => delivered_once bindRun dispatchRun 1 s s₁ t handled⟩

/-! ## A binder that was stopped -/

/-- No call is inside `Init` of `b`. -/
def NoInit (b : Nat) (s : BinderLife) : Prop := ∀ i, (s.phase i).inits ≠ some b

/-- Where the `Stop` of `b` in call `j` is; behind its unlock the binder is out of the slot. -/
def StopAt (b : Nat) (slot : Option Nat) : BinderPhase → Prop
  | .stopLock x | .check x | .unbind x | .deactivate x | .clear x => x = b
  | .unlock x | .stopDone x => x = b ∧ slot ≠ some b
  | _ => False

/-- A `Stop` that finds the binder inactive finds it out of the slot. -/
theorem Valid.slot_ne_of_check (h : s.Valid) (hno : NoInit b s) (hp : s.phase j = .check b)
    (ha : s.shared.active b = false) : s.shared.slot ≠ some b := by
  obtain ⟨o, hshows, hall⟩ := h
  intro hslot
  rw [hshows.slot] at hslot
  rw [hshows.active] at ha
  cases hc : o.call with
  | none => cases o <;> simp_all [Own.binder, Own.active, Own.call]
  | some k =>
    have hown := (hall k).own
    have hmu := (hall k).mu b
    rw [if_pos hc] at hown
    have hinit := hno k
    cases hpk : s.phase k <;> rw [hpk] at hown hmu hinit <;> cases hown <;> cases hslot
    case some.clear =>
      rw [(hall j).mu b (by rw [hp]; rfl)] at hmu
      cases hmu rfl
      rw [hp] at hpk
      cases hpk
    all_goals first | exact hinit rfl | exact absurd rfl (of_decide_eq_false ha)

theorem NoInit.step (h : NoInit b s) (hs : s.step a = some s') (ha : ∀ i, a ≠ (i, .init b)) : NoInit b s' :=
  fun i hx => ((step_made hs i).1 hx).elim (h i) (ha i)

/-- Without an `Init` of `b` nobody puts it into the slot. -/
theorem NoInit.slot_ne (h : NoInit b s) (hs : s.step a = some s') (hne : s.shared.slot ≠ some b) :
    s'.shared.slot ≠ some b := by
  obtain ⟨w', p', hn, rfl, -⟩ := step_cases hs
  exact fun hx => ((next_phase hn).2.2.2 b hx).elim hne (h a.1)

theorem StopAt.next {w' : BinderShared} {p p' : BinderPhase} {cmd : BinderCmd} (h : StopAt b w.slot p)
    (hcheck : p = .check b → w.active b = false → w.slot ≠ some b) (hslot : w.slot ≠ some b → w'.slot ≠ some b)
    (hn : p.next w i cmd = some (w', p')) : StopAt b w'.slot p' := by
  unfold BinderPhase.next at hn
  repeat' split at hn
  all_goals cases hn <;> simp_all [StopAt]

theorem StopAt.step (h : StopAt b s.shared.slot (s.phase j)) (hv : s.Valid) (hno : NoInit b s)
    (hs : s.step a = some s') : StopAt b s'.shared.slot (s'.phase j) := by
  have hslot := hno.slot_ne hs
  obtain ⟨w', p', hn, rfl, rfl, hne⟩ := step_cases hs
  by_cases hj : j = a.1
  · subst hj
    exact h.next (hv.slot_ne_of_check hno) hslot hn
  · rw [hne j hj]
    cases hp : s.phase j <;> rw [hp] at h <;> simp_all [StopAt]

/-- **After `Stop` the binder may be destroyed**: when the calls of `Init` on a binder have returned, a `Stop` of it is
called then and no further `Init`, then from the return of that `Stop` on the binder is inactive and out of the slot, and
no dispatch is inside it or enters it, whatever other binders do. -/
theorem stopped_never_entered (as bs : List (Nat × BinderCmd)) (b j : Nat) (s s₁ t : BinderLife)
    (h : Run.exec step as start = some s)
    (hinit : ∀ i, (i, BinderCmd.init b) ∈ as → ∃ ok, s.phase i = .initDone b ok)
    (hstop : s.step (j, .stop b) = some s₁) (hbs : ∀ i, (i, BinderCmd.init b) ∉ bs)
    (ht : Run.exec step bs s₁ = some t) (hj : t.phase j = .stopDone b) :
    t.shared.active b = false ∧ t.shared.slot ≠ some b ∧ ∀ i k handled, t.phase i ≠ .handling b k handled := by
  have hv := valid_of_run h
  have hno : NoInit b s := by
    intro i hx
    obtain ⟨ok, hp⟩ := hinit i ((made_of_run h b).1 hx)
    rw [hp] at hx
    cases hx
  have hat : StopAt b s₁.shared.slot (s₁.phase j) := by
    obtain ⟨w', p', hn, -, hphase, -⟩ := step_cases hstop
    cases hidle : s.phase j <;> rw [hidle] at hn <;> cases hn
    rw [hphase]
    rfl
  obtain ⟨⟨o, hshows, hall⟩, -, hat'⟩ :=
    Run.exec_inv_mem (I := fun u => u.Valid ∧ NoInit b u ∧ StopAt b u.shared.slot (u.phase j)) bs s₁ t
      (fun a ha u u' hu hs => ⟨(hu.1.step hs).1, hu.2.1.step hs fun i hai => hbs i (hai ▸ ha), hu.2.2.step hu.1 hu.2.1 hs⟩)
      ⟨(hv.step hstop).1, hno.step hstop (fun _ ha => by cases ha), hat⟩ ht
  rw [hj] at hat'
  refine ⟨?_, hat'.2, ?_⟩
  · rw [hshows.active]
    cases ha : o.active b with
    | false => rfl
    | true => exact absurd (hshows.slot.trans (Own.binder_of_active ha)) hat'.2
  · intro i k handled hp
    have hserved := (hall i).served
    rw [hp] at hserved
    exact hat'.2 hserved.2.1

/-- A `Stop` of 5 while dispatch 1 is inside, which it waits for; then binder 6 takes the slot and gets the next event. -/
def stopRun : List (Nat × BinderCmd) :=
  [(3, .go true), (3, .go true), (1, .go true), (1, .go true)] ++ List.replicate 4 (3, .go true) ++
  (2, .init 6) :: List.replicate 4 (2, .go true) ++ [(4, .deliver), (4, .go true)]

theorem stopped_never_entered_stopRun :
    (Run.exec step (bindRun ++ [(1, .deliver), (1, .go true)] ++ (3, .stop 5) :: stopRun) start).map
        (fun t => (t.phase 3, t.phase 1, t.phase 4)) = some (.stopDone 5, .delivered [5], .handling 6 0 []) ∧
    ∀ s s₁ t, Run.exec step (bindRun ++ [(1, .deliver), (1, .go true)]) start = some s →
      (∃ ok, s.phase 0 = .initDone 5 ok) → s.step (3, .stop 5) = some s₁ → Run.exec step stopRun s₁ = some t →
      t.phase 3 = .stopDone 5 →
      t.shared.active 5 = false ∧ t.shared.slot ≠ some 5 ∧ ∀ i k handled, t.phase i ≠ .handling 5 k handled :=
  ⟨by decide, fun s s₁ t h hinit hstop ht hj => stopped_never_entered _ stopRun 5 3 s s₁ t h
    (fun i hi => by simp [bindRun] at hi; exact hi ▸ hinit) hstop (by simp [stopRun]) ht hj⟩

end BinderLife
end Events
end Osw
