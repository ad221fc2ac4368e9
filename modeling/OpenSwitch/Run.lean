import Mathlib.Logic.Function.Basic
/-!
# Run — runs of a step function under a schedule

A system is a state type, an action type and a step function `step : σ → α → Option σ`: `none` when the action is not
enabled.  An interleaving is a list of actions (`exec`), and a condition on the steps of a run is a Boolean read at
the state before each of them (`along`).  Nothing here names a component: every concurrent model of the development
is a step function, its laws are read off `exec_inv` and `exec_inv_along`, and what it can do off `Reaches`.
-/
namespace Osw
namespace Run

variable {σ α : Type} {a : α} {s t : σ} {step : σ → α → Option σ} {G : σ → α → Bool} {I : σ → Prop} {A : α → Prop}

/-- The state a schedule reaches, when every action of it is enabled in turn. -/
def exec (step : σ → α → Option σ) : List α → σ → Option σ
  | [], s => some s
  | a :: as, s =>
    match step s a with
    | none    => none
    | some s' => exec step as s'

/-- Every step of a schedule meets `G`, read at the state before it. -/
def along (step : σ → α → Option σ) (G : σ → α → Bool) : List α → σ → Bool
  | [], _ => true
  | a :: as, s =>
    G s a &&
      (match step s a with
       | none    => true
       | some s' => along step G as s')

theorem exec_cons {as : List α} (h : exec step (a :: as) s = some t) :
    ∃ s', step s a = some s' ∧ exec step as s' = some t := by
  simp only [exec] at h
  cases hs : step s a with
  | none => rw [hs] at h; cases h
  | some s' => rw [hs] at h; exact ⟨s', rfl, h⟩

theorem along_cons {as : List α} {s' : σ} (h : along step G (a :: as) s = true) (hs : step s a = some s') :
    G s a = true ∧ along step G as s' = true := by
  simpa only [along, hs, Bool.and_eq_true] using h

/-- Two conditions that a run meets, it meets together. -/
theorem along_and {G' : σ → α → Bool} :
    ∀ {as : List α} {s : σ}, along step G as s = true → along step G' as s = true →
      along step (fun s a => G s a && G' s a) as s = true
  | [], _, _, _ => rfl
  | a :: as, s, h, h' => by
    simp only [along, Bool.and_eq_true] at h h' ⊢
    refine ⟨⟨h.1, h'.1⟩, ?_⟩
    cases hs : step s a with
    | none => rfl
    | some s' =>
      rw [hs] at h h'
      exact along_and h.2 h'.2

/-- A condition that a run meets, both its parts meet. -/
theorem along_append :
    ∀ {as bs : List α} {s t : σ}, along step G (as ++ bs) s = true → exec step as s = some t →
      along step G as s = true ∧ along step G bs t = true
  | [], _, _, _, h, ht => by cases ht; exact ⟨rfl, h⟩
  | a :: as, bs, s, t, h, ht => by
    obtain ⟨s', hs, ht'⟩ := exec_cons ht
    obtain ⟨hg, h'⟩ := along_cons h hs
    obtain ⟨has, hbs⟩ := along_append h' ht'
    exact ⟨by simp only [along, hs, hg, has, Bool.and_self], hbs⟩

/-- **What every step keeps, every run keeps**, when the steps of the run meet `G`. -/
theorem exec_inv_along (hstep : ∀ s a s', I s → G s a = true → step s a = some s' → I s') :
    ∀ (as : List α) (s t : σ), I s → along step G as s = true → exec step as s = some t → I t
  | [], s, t, hi, _, h => by cases h; exact hi
  | a :: as, s, t, hi, hG, h => by
    obtain ⟨s', hs, ht⟩ := exec_cons h
    obtain ⟨hg, hG'⟩ := along_cons hG hs
    exact exec_inv_along hstep as s' t (hstep s a s' hi hg hs) hG' ht

/-- **What every step keeps, every run keeps.** -/
theorem exec_inv (hstep : ∀ s a s', I s → step s a = some s' → I s') :
    ∀ (as : List α) (s t : σ), I s → exec step as s = some t → I t
  | [], s, t, hi, h => by cases h; exact hi
  | a :: as, s, t, hi, h => by
    obtain ⟨s', hs, ht⟩ := exec_cons h
    exact exec_inv hstep as s' t (hstep s a s' hi hs) ht

/-- **What every action of a schedule keeps, the schedule keeps.** -/
theorem exec_inv_mem :
    ∀ (as : List α) (s t : σ), (∀ a ∈ as, ∀ s s', I s → step s a = some s' → I s') → I s → exec step as s = some t → I t
  | [], s, t, _, hi, h => by cases h; exact hi
  | a :: as, s, t, hstep, hi, h => by
    obtain ⟨s', hs, ht⟩ := exec_cons h
    exact exec_inv_mem as s' t (fun b hb => hstep b (List.mem_cons_of_mem _ hb)) (hstep a List.mem_cons_self s s' hi hs) ht

/-! ## States a schedule leads to -/

theorem exec_append : ∀ (as bs : List α) (s : σ),
    exec step (as ++ bs) s = (exec step as s).bind (exec step bs)
  | [], _, _ => rfl
  | a :: as, bs, s => by
    simp only [List.cons_append, exec]
    cases step s a with
    | none => rfl
    | some s' => exact exec_append as bs s'

/-- A schedule of actions that meet `A` leads from one state to the other. -/
def Reaches (step : σ → α → Option σ) (A : α → Prop) (s t : σ) : Prop :=
  ∃ as, (∀ a ∈ as, A a) ∧ exec step as s = some t

theorem Reaches.refl (step : σ → α → Option σ) (A : α → Prop) (s : σ) : Reaches step A s s := ⟨[], nofun, rfl⟩

theorem Reaches.single (ha : A a) (h : step s a = some t) : Reaches step A s t :=
  ⟨[a], fun b hb => List.mem_singleton.1 hb ▸ ha, by simp only [exec, h]⟩

theorem Reaches.trans {u : σ} (h : Reaches step A s t) (h' : Reaches step A t u) : Reaches step A s u := by
  obtain ⟨as, has, hs⟩ := h
  obtain ⟨bs, hbs, ht⟩ := h'
  refine ⟨as ++ bs, fun a ha => (List.mem_append.1 ha).elim (has a) (hbs a), ?_⟩
  rw [exec_append, hs]
  exact ht

/-- **A rank that some step lowers from every state short of the goal leads to the goal.** -/
theorem reaches_of_rank {goal : σ → Prop} (rank : σ → Nat)
    (h : ∀ s, I s → ¬goal s → ∃ a s', A a ∧ step s a = some s' ∧ I s' ∧ rank s' < rank s) (s : σ) (hs : I s) :
    ∃ t, Reaches step A s t ∧ goal t := by
  generalize hn : rank s = n
  induction n using Nat.strongRecOn generalizing s with
  | ind n ih =>
    by_cases hg : goal s
    · exact ⟨s, .refl step A s, hg⟩
    · obtain ⟨a, s', ha, hstep, hs', hlt⟩ := h s hs hg
      obtain ⟨t, hr, ht⟩ := ih _ (hn ▸ hlt) s' hs' rfl
      exact ⟨t, (Reaches.single ha hstep).trans hr, ht⟩

/-! ## Calls that answer -/

variable {τ β : Type}

/-- The answers to a sequence of calls, and the state after them. -/
def calls (call : σ → α → β × σ) : List α → σ → List β × σ
  | [], s => ([], s)
  | a :: as, s => ((call s a).1 :: (calls call as (call s a).2).1, (calls call as (call s a).2).2)

theorem calls_append (call : σ → α → β × σ) : ∀ (as bs : List α) (s : σ),
    calls call (as ++ bs) s
      = ((calls call as s).1 ++ (calls call bs (calls call as s).2).1, (calls call bs (calls call as s).2).2)
  | [], _, _ => rfl
  | a :: as, bs, s => by rw [List.cons_append, calls, calls_append call as bs, calls, List.cons_append]

/-- **Two systems whose calls answer alike and keep a relation answer every sequence of calls alike.** -/
theorem calls_sim {call : σ → α → β × σ} {call' : τ → α → β × τ} {R : σ → τ → Prop}
    (h : ∀ s t a, R s t → (call s a).1 = (call' t a).1 ∧ R (call s a).2 (call' t a).2) :
    ∀ (as : List α) (s : σ) (t : τ), R s t →
      (calls call as s).1 = (calls call' as t).1 ∧ R (calls call as s).2 (calls call' as t).2
  | [], _, _, hr => ⟨rfl, hr⟩
  | a :: as, s, t, hr => by
    obtain ⟨hout, hr'⟩ := h s t a hr
    obtain ⟨houts, hlast⟩ := calls_sim h as _ _ hr'
    exact ⟨by rw [calls, calls, hout, houts], hlast⟩

end Run
end Osw
