import OpenSwitch.AttachSteps
/-!
# ChannelLocks — the channel mutexes as objects

`ChannelLockFor` makes a mutex on demand and keeps a weak pointer to it, and whoever lets go of it last prunes the entry.
The threads that refer to an object are those whose stage says so, each once; so an object that is alive is the one
the table leads to for its channel, and an entry that has expired has a thread that is about to prune it.
-/
namespace Osw
namespace Media
namespace Registry

/-- The object is alive, as the mutex of this channel: a thread that works on the channel has a pointer to it. -/
def Alive (s : Registry) (u : Bytes) (l : Nat) : Prop := ∃ i ∈ s.refs l, (s.stage i).ref = some (u, l)

/-- What every run keeps of the mutexes. -/
structure Mutexes (s : Registry) : Prop where
  inv       : s.Inv
  referrers : ∀ i l, i ∈ s.refs l → ∃ u, (s.stage i).ref = some (u, l)
  nodup     : ∀ l, (s.refs l).Nodup
  made      : ∀ u l, s.channelLocks u = some l → l < s.nextLock
  single    : ∀ u v l, s.channelLocks u = some l → s.channelLocks v = some l → u = v
  expired   : ∀ u l, s.channelLocks u = some l → s.refs l = [] → ∃ i j, s.stage i = .dropped j u

theorem Mutexes.init : init.Mutexes := ⟨.init, nofun, fun _ => List.nodup_nil, nofun, nofun, nofun⟩

section step

variable {s s' : Registry} {i : Nat} {p : Stage} {u : Bytes} {j : Job}

/-- A step that touches neither the table nor a pointer, of a thread that has nothing to prune. -/
theorem Mutexes.keep (h : s.Mutexes) (hinv : s'.Inv) (hstage : s'.stage = Function.update s.stage i p)
    (hlocks : s'.channelLocks = s.channelLocks) (hnext : s'.nextLock = s.nextLock) (hrefs : s'.refs = s.refs)
    (href : p.ref = (s.stage i).ref) (hdrop : ∀ j u, s.stage i ≠ .dropped j u) : s'.Mutexes := by
  have hothers : ∀ k, (s'.stage k).ref = (s.stage k).ref := by
    intro k
    by_cases hk : k = i
    · rw [hstage, hk, Function.update_self, href]
    · rw [hstage, Function.update_of_ne hk]
  refine ⟨hinv, fun k l hk => ?_, fun l => ?_, fun u l hl => ?_, fun u v l hu hv => ?_, fun u l hl hnil => ?_⟩
  · rw [hothers]
    exact h.referrers k l (hrefs ▸ hk)
  · rw [hrefs]
    exact h.nodup l
  · rw [hnext]
    exact h.made u l (hlocks ▸ hl)
  · exact h.single u v l (hlocks ▸ hu) (hlocks ▸ hv)
  · obtain ⟨k, j, hk⟩ := h.expired u l (hlocks ▸ hl) (hrefs ▸ hnil)
    have hki : k ≠ i := fun he => hdrop j u (he ▸ hk)
    exact ⟨k, j, by rw [hstage, Function.update_of_ne hki, hk]⟩

theorem Mutexes.not_mem_refs (h : s.Mutexes) (hi : (s.stage i).ref = none) (l : Nat) : i ∉ s.refs l := by
  intro hmem
  obtain ⟨u, hu⟩ := h.referrers i l hmem
  rw [hi] at hu
  cases hu

/-- The object `ChannelLockFor` gives is no other channel's. -/
theorem Mutexes.lockFor_ne (h : s.Mutexes) {v : Bytes} (hv : v ≠ u) : s.channelLocks v ≠ some (s.lockFor u) := by
  intro htab
  unfold lockFor at htab
  split at htab
  · rename_i l hl
    split at htab
    · exact Nat.lt_irrefl _ (h.made v _ htab)
    · exact hv (h.single v u l htab hl)
  · exact Nat.lt_irrefl _ (h.made v _ htab)

theorem Mutexes.lockFor_lt (h : s.Mutexes) (i : Nat) (u : Bytes) : s.lockFor u < (s.refer i u).nextLock := by
  simp only [refer]
  split
  · rename_i heq
    rw [heq]
    exact Nat.lt_succ_self _
  · rename_i hne
    unfold lockFor at hne ⊢
    split
    · rename_i l hl
      rw [hl] at hne
      dsimp only at hne
      split
      · rename_i hnil
        rw [if_pos hnil] at hne
        exact absurd rfl hne
      · exact h.made u l hl
    · rename_i hl
      rw [hl] at hne
      exact absurd rfl hne

/-- `ChannelLockFor`, of a thread that has no pointer yet. -/
theorem Mutexes.take (h : s.Mutexes) (hinv : (s.take i j u).Inv) (hi : (s.stage i).ref = none)
    (hdrop : ∀ j u, s.stage i ≠ .dropped j u) : (s.take i j u).Mutexes := by
  have hlock : ∀ v, (s.take i j u).channelLocks v = if v = u then some (s.lockFor u) else s.channelLocks v := by
    intro v
    by_cases hv : v = u <;> simp [Registry.take, Registry.goto, refer, hv]
  have hrefs : ∀ l, (s.take i j u).refs l = if l = s.lockFor u then i :: s.refs l else s.refs l := by
    intro l
    by_cases hl : l = s.lockFor u <;> simp [Registry.take, Registry.goto, refer, hl]
  have hself : (s.take i j u).stage i = .waiting j u (s.lockFor u) := goto_stage_self ..
  have hother : ∀ k, k ≠ i → (s.take i j u).stage k = s.stage k := fun k hk => goto_stage_of_ne _ hk _
  refine ⟨hinv, fun k l hk => ?_, fun l => ?_, fun v l hl => ?_, fun v w l hv hw => ?_, fun v l hl hnil => ?_⟩
  · by_cases hki : k = i
    · subst hki
      rw [hrefs] at hk
      split at hk
      · rename_i hl
        exact ⟨u, by rw [hself, hl]; rfl⟩
      · exact absurd hk (h.not_mem_refs hi l)
    · rw [hother k hki]
      rw [hrefs] at hk
      split at hk
      · exact h.referrers k l ((List.mem_cons.1 hk).resolve_left hki)
      · exact h.referrers k l hk
  · rw [hrefs]
    split
    · exact List.nodup_cons.2 ⟨h.not_mem_refs hi l, h.nodup l⟩
    · exact h.nodup l
  · rw [hlock] at hl
    split at hl
    · cases hl
      exact h.lockFor_lt i u
    · refine Nat.lt_of_lt_of_le (h.made v l hl) ?_
      simp only [Registry.take, Registry.goto, refer]
      split <;> omega
  · rw [hlock] at hv hw
    split at hv
    · rename_i hvu
      split at hw
      · rename_i hwu
        rw [hvu, hwu]
      · rename_i hwu
        exact absurd (hw.trans hv.symm) (h.lockFor_ne hwu)
    · rename_i hvu
      split at hw
      · exact absurd (hv.trans hw.symm) (h.lockFor_ne hvu)
      · exact h.single v w l hv hw
  · rw [hrefs] at hnil
    split at hnil
    · cases hnil
    · rename_i hne
      rw [hlock] at hl
      split at hl
      · cases hl
        exact absurd rfl hne
      · obtain ⟨k, j', hk⟩ := h.expired v l hl hnil
        have hki : k ≠ i := fun he => hdrop j' v (he ▸ hk)
        exact ⟨k, j', by rw [hother k hki, hk]⟩

/-- `channel_lock.reset()`. -/
theorem Mutexes.drop (h : s.Mutexes) {l : Nat} (hp : s.stage i = .unlocked j u l)
    (hinv : ((s.goto i (.dropped j u)).unref i l).Inv) : ((s.goto i (.dropped j u)).unref i l).Mutexes := by
  have hrefs : ∀ l', ((s.goto i (.dropped j u)).unref i l).refs l' = if l' = l then (s.refs l).erase i else s.refs l' := by
    intro l'
    by_cases hl : l' = l <;> simp [Registry.unref, Registry.goto, hl]
  have hself : ((s.goto i (.dropped j u)).unref i l).stage i = .dropped j u := goto_stage_self ..
  have hother : ∀ k, k ≠ i → ((s.goto i (.dropped j u)).unref i l).stage k = s.stage k :=
    fun k hk => goto_stage_of_ne _ hk _
  have href : (s.stage i).ref = some (u, l) := by rw [hp]; rfl
  refine ⟨hinv, fun k l' hk => ?_, fun l' => ?_, h.made, h.single, fun v l' hl hnil => ?_⟩
  · rw [hrefs] at hk
    have hki : k ≠ i := by
      rintro rfl
      split at hk
      · exact (h.nodup l).not_mem_erase hk
      · rename_i hne
        obtain ⟨v, hv⟩ := h.referrers k l' hk
        rw [href] at hv
        cases hv
        exact hne rfl
    rw [hother k hki]
    split at hk
    · rename_i hl
      exact h.referrers k l' (hl ▸ List.mem_of_mem_erase hk)
    · exact h.referrers k l' hk
  · rw [hrefs]
    split
    · exact (h.nodup l).erase i
    · exact h.nodup l'
  · rw [hrefs] at hnil
    split at hnil
    · rename_i hll
      subst hll
      -- the object of the thread is the one the table has for its channel
      have hv : v = u := h.single v u l' hl (h.inv.refs i u l' href).2
      exact ⟨i, j, by rw [hself, hv]⟩
    · obtain ⟨k, j', hk⟩ := h.expired v l' hl hnil
      have hki : k ≠ i := by
        rintro rfl
        rw [hp] at hk
        cases hk
      exact ⟨k, j', by rw [hother k hki, hk]⟩

theorem finish_locks (s : Registry) (i : Nat) (j : Job) : (s.finish i j).stage = Function.update s.stage i .idle ∧
    (s.finish i j).channelLocks = s.channelLocks ∧ (s.finish i j).nextLock = s.nextLock ∧
    (s.finish i j).refs = s.refs := by
  unfold finish
  split <;> exact ⟨rfl, rfl, rfl, rfl⟩

/-- An entry that is left after the pruning was there before, and has not expired if it is this channel's. -/
theorem prune_channelLocks {v : Bytes} {l : Nat} (hl : (s.prune u).channelLocks v = some l) :
    s.channelLocks v = some l ∧ (s.refs l = [] → v ≠ u) := by
  unfold Registry.prune at hl
  split at hl
  · rename_i l₀ hl₀
    split at hl
    · by_cases hv : v = u
      · rw [hv] at hl
        simp at hl
      · simp only [Function.update_of_ne hv] at hl
        exact ⟨hl, fun _ => hv⟩
    · rename_i hne
      refine ⟨hl, ?_⟩
      rintro hnil rfl
      rw [hl₀] at hl
      cases hl
      exact hne hnil
  · rename_i hnone
    refine ⟨hl, ?_⟩
    rintro - rfl
    rw [hnone] at hl
    cases hl

/-- `PruneExpiredChannelLock`, and the return. -/
theorem Mutexes.prune (h : s.Mutexes) (hp : s.stage i = .dropped j u) (hinv : ((s.prune u).finish i j).Inv) :
    ((s.prune u).finish i j).Mutexes := by
  obtain ⟨hstage, hlocks, hnext, hrefs⟩ := finish_locks (s.prune u) i j
  obtain ⟨hpstage, -, -, -, hpnext, hprefs, -⟩ := prune_frame s u
  rw [hpstage] at hstage
  rw [hpnext] at hnext
  rw [hprefs] at hrefs
  have htable : ∀ v l, ((s.prune u).finish i j).channelLocks v = some l →
      s.channelLocks v = some l ∧ (s.refs l = [] → v ≠ u) := fun v l hl => prune_channelLocks (hlocks ▸ hl)
  have href : (s.stage i).ref = none := by rw [hp]; rfl
  refine ⟨hinv, fun k l hk => ?_, fun l => ?_, fun v l hl => ?_, fun v w l hv hw => ?_, fun v l hl hnil => ?_⟩
  · rw [hrefs] at hk
    have hki : k ≠ i := fun he => h.not_mem_refs href l (he ▸ hk)
    rw [hstage, Function.update_of_ne hki]
    exact h.referrers k l hk
  · rw [hrefs]
    exact h.nodup l
  · rw [hnext]
    exact h.made v l (htable v l hl).1
  · exact h.single v w l (htable v l hv).1 (htable w l hw).1
  · rw [hrefs] at hnil
    obtain ⟨hold, hvu⟩ := htable v l hl
    obtain ⟨k, j', hk⟩ := h.expired v l hold hnil
    have hki : k ≠ i := by
      rintro rfl
      rw [hp] at hk
      cases hk
      exact hvu hnil rfl
    exact ⟨k, j', by rw [hstage, Function.update_of_ne hki, hk]⟩

theorem Mutexes.go (h : s.Mutexes) (hs : s.go i = some s') : s'.Mutexes := by
  have hinv := h.inv.go hs
  have href : ∀ {q : Stage}, s.stage i = q → (s.stage i).ref = q.ref := fun hp => by rw [hp]
  have hstay : ∀ {q : Stage}, s.stage i = q → (∀ j u, q ≠ .dropped j u) → ∀ j u, s.stage i ≠ .dropped j u :=
    fun hp hq j u => by rw [hp]; exact hq j u
  cases turn_of_go hs with
  | attachAsks hp | detachAllAsks hp | detachAsks hp => exact h.take hinv (href hp) (hstay hp (by simp))
  | unknown hp _ =>
    obtain ⟨hstage, hlocks, hnext, hrefs⟩ := finish_locks s i (.detach _ _)
    exact h.keep hinv hstage hlocks hnext hrefs (href hp).symm (hstay hp (by simp))
  | refused hp | invalid hp | detaches hp | clean hp | adds hp | addFails hp | registers hp | swept hp | sweeps hp
  | unlocks hp => exact h.keep hinv rfl rfl rfl rfl (href hp).symm (hstay hp (by simp))
  | finds hp _ | enters hp _ | draws hp _ | lists hp _ =>
    exact h.keep hinv rfl rfl rfl rfl (href hp).symm (hstay hp (by simp))
  | drops hp => exact h.drop hp hinv
  | prunes hp => exact h.prune hp hinv

theorem Mutexes.step (h : s.Mutexes) (a : RegistryAct) (hs : s.step a = some s') : s'.Mutexes := by
  have hinv := h.inv.step a s' hs
  cases a with
  | go i => exact h.go hs
  | call i j =>
    have hidle : s.stage i = .idle := by
      simp only [Registry.step] at hs
      split at hs
      · assumption
      · assumption
      · cases hs
    have heq := step_call hs
    subst heq
    exact h.keep hinv rfl rfl rfl rfl (by rw [hidle]; rfl) (fun j u => by rw [hidle]; simp)

end step

/-- **Per-channel locks exclude each other**, in every interleaving: an object that somebody refers to is alive as the
mutex of a channel, and no channel has two of them; so no two threads are in the locked section of one channel.  Once
every thread has finished, the table has no entry left. -/
theorem channel_locks_exclude (acts : List RegistryAct) (s : Registry) (hrun : Run.exec step acts init = some s) :
    (∀ l, s.refs l ≠ [] → ∃ u, s.Alive u l) ∧
    (∀ u l l', s.Alive u l → s.Alive u l' → l = l') ∧
    (∀ i j u l l', (s.stage i).holds = some (u, l) → (s.stage j).holds = some (u, l') → i = j) ∧
    ((∀ i, s.stage i = .idle) → ∀ u, s.channelLocks u = none) := by
  have h : s.Mutexes := Run.exec_inv (fun _ a _ hi hs => hi.step a hs) acts _ s .init hrun
  refine ⟨fun l hne => ?_, ?_, ?_, fun hidle u => ?_⟩
  · obtain ⟨i, hi⟩ := List.exists_mem_of_ne_nil _ hne
    obtain ⟨u, hu⟩ := h.referrers i l hi
    exact ⟨u, i, hi, hu⟩
  · rintro u l l' ⟨i, -, hi⟩ ⟨j, -, hj⟩
    have heq := (h.inv.refs i u l hi).2.symm.trans (h.inv.refs j u l' hj).2
    exact Option.some.inj heq
  · intro i j u l l' hi hj
    exact h.inv.exclusive hi hj
  · cases hl : s.channelLocks u with
    | none => rfl
    | some l =>
      have hnil : s.refs l = [] := by
        rw [List.eq_nil_iff_forall_not_mem]
        intro i
        exact h.not_mem_refs (by rw [hidle i]; rfl) l
      obtain ⟨i, j, hi⟩ := h.expired u l hl hnil
      rw [hidle i] at hi
      cases hi

/-- Thread 0 is in the section of channel `a`, thread 1 waits for it, and thread 2 is in the one of channel `b`. -/
def threeThreads : List RegistryAct :=
  [.call 0 (.attach [97] ⟨.ttsPlayback, smbfWriteReplace, 8000, []⟩ 0), .go 0, .go 0,
    .call 1 (.detachAll [97]), .go 1, .call 2 (.detachAll [98]), .go 2, .go 2]

theorem channel_locks_exclude_threeThreads :
    ∃ s, Run.exec step threeThreads init = some s ∧
      (s.channelLocks [97], s.channelLocks [98], s.refs 0, s.refs 1, s.holder 0, s.holder 1)
        = (some 0, some 1, [1, 0], [2], some 0, some 2) ∧
      ∀ l, s.Alive [97] l → l = 0 := by
  refine ⟨_, rfl, rfl, fun l hl => ?_⟩
  exact (channel_locks_exclude threeThreads _ rfl).2.1 [97] l 0 hl ⟨0, by decide, rfl⟩

end Registry
end Media
end Osw
