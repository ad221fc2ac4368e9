import OpenSwitch.BotSteps
/-!
# DestroyedTargets — no bot stays on a destroyed channel

The hook of a channel reads the list of its bots once and stops those on it.  A bot enters that list when it is inserted,
long after its bugs were attached, so a bot inserted after the list was read stays, on a channel that is gone.  The list
is also kept by the target as it was written, while the session is located by its C string: a target with a NUL byte puts
its bot on a channel whose list does not have it.  As long as every insertion comes before the reading and puts the bot on
the lists of all its channels, a bot with a destroyed channel is on the list of the hook until it is stopped.
-/
namespace Osw
namespace Control

/-- The hook has not read the list of its bots. -/
def Hook.unread : Hook → Bool
  | .alive | .begun => true
  | _               => false

/-- A bot that targets the channel may be there: the hook has not read the list, or has yet to stop it. -/
def Hook.admits : Hook → Bytes → Prop
  | .alive, _ | .begun, _ => True
  | .stopping ks, k | .tearing _ ks, k => k ∈ ks
  | _, _ => False

/-- One of the bot's targets names the channel, as a C string. -/
def ActiveBot.on (b : ActiveBot BotOwner) (u : Bytes) : Prop := ∃ t ∈ b.targets, cStr t = u

theorem Hook.admits_of_unread {h : Hook} (hu : h.unread = true) (k : Bytes) : h.admits k := by
  cases h <;> trivial

namespace BotPlane

variable {s : BotPlane}

/-- **A bot on a channel is on its list, and once the channel is destroyed it is still to be stopped by the hook.** -/
def Awaited (s : BotPlane) : Prop :=
  ∀ u k b, s.bots.byId k = some b → b.on u → u ∈ b.targets ∧ (s.hook u).admits k

theorem Awaited.frame {s' : BotPlane} (h : s.Awaited) (hb : s'.bots = s.bots) (hh : s'.hook = s.hook) : s'.Awaited := by
  intro u k b hk hu
  rw [hh]
  exact h u k b (hb ▸ hk) hu

theorem Awaited.take (h : s.Awaited) {k : Bytes} {ob : Option (ActiveBot BotOwner)} {bots : ActiveBots BotOwner}
    (ht : s.bots.take k = (ob, bots)) : Awaited { s with bots := bots } :=
  fun u j b hj hu => h u j b (ActiveBots.of_take ht hj).2 hu

theorem Awaited.hookTo (h : s.Awaited) (u : Bytes) (p : Hook)
    (hp : ∀ k b, s.bots.byId k = some b → b.on u → p.admits k) : (s.hookTo u p).Awaited := by
  intro v k b hk hv
  by_cases hvu : v = u
  · subst hvu
    simp only [BotPlane.hookTo, Function.update_self]
    exact ⟨(h v k b hk hv).1, hp k b hk hv⟩
  · simp only [BotPlane.hookTo, Function.update_of_ne hvu]
    exact h v k b hk hv

/-- **The step inserts a bot on unread lists only**: the channel each target names as a C string is itself among the
targets, so that its list gets the bot, and has not had its list read. -/
def insertsUnread (s : BotPlane) : BotAct → Bool
  | .go i _ =>
    match s.phase i with
    | .starting b .inserting =>
      b.req.targets.all (fun t => b.req.targets.contains (cStr t) && (s.hook (cStr t)).unread)
    | _ => true
  | _ => true

theorem Awaited.advance (h : s.Awaited) (M : BotModule) (i : Nat) (b : BotStart) (o : Answers) (ph : StartPhase)
    (hg : ph = .inserting → ∀ t ∈ b.req.targets, cStr t ∈ b.req.targets ∧ (s.hook (cStr t)).unread = true) :
    (s.advance M i b o ph).Awaited := by
  obtain ⟨t, p, hstep, hadv⟩ := s.advance_cases M i b o ph
  rw [hstep]
  cases hadv with
  | quiet _ hbots hhook _ _ => exact h.frame hbots hhook
  | attach hat => exact h.frame rfl rfl
  | write u n v ws rest => exact h.frame rfl rfl
  | insert hinsert =>
    obtain ⟨-, -, -, hid, -⟩ := ActiveBots.insert_inserted hinsert
    intro u k b' hk hu
    change u ∈ b'.targets ∧ (s.hook u).admits k
    simp only [goto, hid] at hk
    by_cases hkb : k = b.botId
    · subst hkb
      rw [Function.update_self] at hk
      cases hk
      obtain ⟨t, ht, rfl⟩ := hu
      exact ⟨(hg rfl t ht).1, Hook.admits_of_unread (hg rfl t ht).2 _⟩
    · rw [Function.update_of_ne hkb] at hk
      exact h u k b' hk hu
  | refuse st _ _ => exact h.frame rfl rfl

theorem Awaited.begin (h : s.Awaited) (M : BotModule) (i : Nat) (j : BotJob) : (s.begin M i j).Awaited := by
  cases j with
  | start botId req =>
    simp only [BotPlane.begin]
    split <;> exact h.frame rfl rfl
  | stop botId =>
    simp only [BotPlane.begin]
    split
    · exact h.frame rfl rfl
    split
    · exact h.frame rfl rfl
    · rename_i b bots ht
      exact (h.take ht).frame rfl rfl
  | media c => exact h.frame rfl rfl

theorem Awaited.runHook (h : s.Awaited) {u : Bytes} {s' : BotPlane} (hs : s.runHook u = some s') : s'.Awaited := by
  -- most steps leave the bots alone, and admit those they did before
  have hmove : ∀ {q p : Hook} {t : BotPlane}, s.hook u = q → t.bots = s.bots → t.hook = s.hook →
      (∀ k, q.admits k → p.admits k) → (t.hookTo u p).Awaited := by
    rintro q p t rfl hb hh hp
    exact Awaited.hookTo (h.frame hb hh) u p (fun k b hk hu => hp k (h u k b (hb ▸ hk) hu).2)
  unfold BotPlane.runHook at hs
  split at hs
  · cases hs
  · -- the list has every bot that is on the channel
    cases hs
    refine h.hookTo u _ (fun k b hk hu => ?_)
    exact (s.bots.mem_channelBots).2 ⟨b, hk, (h u k b hk hu).1⟩
  · rename_i k ks hp
    have hrest : ∀ j b, j ≠ k → s.bots.byId j = some b → b.on u → j ∈ ks := by
      intro j b hj hb hu
      have hadm := (h u j b hb hu).2
      rw [hp] at hadm
      exact (List.mem_cons.1 hadm).resolve_left hj
    split at hs
    · rename_i bots ht
      cases hs
      refine h.hookTo u _ (fun j b hb hu => hrest j b ?_ hb hu)
      rintro rfl
      have hnone : s.bots.byId j = none := by rw [← s.bots.take_fst, ht]
      rw [hnone] at hb
      cases hb
    · rename_i bot bots ht
      cases hs
      refine (h.take ht).hookTo u _ (fun j b hb hu => ?_)
      obtain ⟨hj, hold⟩ := ActiveBots.of_take ht hb
      exact hrest j b hj hold hu
  all_goals
    rename_i hp
    cases hs <;> exact hmove hp rfl rfl (fun _ hk => by first | exact hk | cases hk)

theorem Awaited.step (h : s.Awaited) (M : BotModule) (a : BotAct) (s' : BotPlane) (hg : s.insertsUnread a = true)
    (hs : s.step M a = some s') : s'.Awaited := by
  cases a with
  | call i j =>
    simp only [BotPlane.step] at hs
    split at hs
    · cases hs
      exact h.begin M i j
    · cases hs
  | go i o =>
    simp only [BotPlane.step, BotPlane.go] at hs
    split at hs
    · cases hs
    · rename_i b ph hp
      cases hs
      refine h.advance M i b o ph (fun hins => ?_)
      subst hins
      simpa [insertsUnread, hp] using hg
    · rename_i lock st hp
      cases hs
      cases lock <;> exact h.frame rfl rfl
    · cases hs
      exact h.frame rfl rfl
    · obtain ⟨r, -, hr⟩ := Option.map_eq_some_iff.1 hs
      subst hr
      exact h.frame rfl rfl
    · cases hs
  | destroy u =>
    simp only [BotPlane.step] at hs
    split at hs
    · cases hs
      exact h.hookTo u _ (fun _ _ _ _ => trivial)
    · cases hs
  | hook u => exact h.runHook hs
  | close id =>
    cases hs
    exact h.frame rfl rfl
  | write channel name value =>
    cases hs
    exact h.frame rfl rfl

/-- **No bot on a dead channel**, in any run that inserts each bot on the lists of all its channels and before one of them
is read: when the hook of a channel is done, no bot in `ActiveBots` has a target that names the channel. -/
theorem no_bot_on_dead_channel (M : BotModule) (channels : Bytes → Channel) (as : List BotAct) (s : BotPlane)
    (hrun : Run.exec (fun s a => step s M a) as (init channels) = some s)
    (hguard : Run.along (fun s a => step s M a) insertsUnread as (init channels) = true) (u : Bytes)
    (hu : s.hook u = .done) (k : Bytes) (b : ActiveBot BotOwner) (hk : s.bots.byId k = some b) :
    ∀ t ∈ b.targets, cStr t ≠ u := by
  have h : s.Awaited := Run.exec_inv_along (I := Awaited) (fun _ a s' hi hg hs => hi.step M a s' hg hs) as _ s
    (fun _ _ _ hk => by cases hk) hguard hrun
  intro t ht hname
  have hadm := (h u k b hk ⟨t, ht, hname⟩).2
  rw [hu] at hadm
  exact hadm

/-- The call of thread 0 up to the release of the session lock after its attach. -/
def attachOnA : List BotAct := .call 0 (startOn [str "a"] .ttsBroadcast (str "b")) :: goes 0 8

/-- Channel `a` is destroyed, and its hook takes `n` steps. -/
def destroyA (n : Nat) : List BotAct := .destroy (str "a") :: List.replicate n (.hook (str "a"))

theorem no_bot_on_dead_channel_stopped :
    ∃ s, Run.exec (fun s a => step s oneBot a) (attachOnA ++ goes 0 9 ++ destroyA 7) (init fun _ => .up fun _ => none)
        = some s ∧ s.hook (str "a") = .done ∧ ∀ k b, s.bots.byId k = some b → ∀ t ∈ b.targets, cStr t ≠ str "a" := by
  have hm : (Run.exec (fun s a => step s oneBot a) (attachOnA ++ goes 0 9 ++ destroyA 7)
      (init fun _ => .up fun _ => none)).map (fun s => s.hook (str "a")) = some .done := by decide +kernel
  obtain ⟨s, hs, hdone⟩ := Option.map_eq_some_iff.1 hm
  exact ⟨s, hs, hdone, no_bot_on_dead_channel oneBot _ _ s hs (by decide +kernel) (str "a") hdone⟩

/-- A whole call on a target whose C string is `a`. -/
def startBesideA : List BotAct := .call 0 (startOn [str "a" ++ [0, 120]] .ttsBroadcast (str "b")) :: goes 0 17

/-- The hook runs between the attach and the insertion: it finds no bot, and the bot enters afterwards.  And where the
target is `a`, a NUL byte and one byte more, the bot stays although the hook begins after the call has returned. -/
theorem bot_on_dead_channel :
    (Run.exec (fun s a => step s oneBot a) (attachOnA ++ destroyA 5 ++ goes 0 4) (init fun _ => .up fun _ => none)).map
      (fun s => (s.hook (str "a"), (s.bots.byId (str "b")).map (·.targets))) = some (.done, some [str "a"]) ∧
    (Run.exec (fun s a => step s oneBot a) (startBesideA ++ destroyA 5) (init fun _ => .up fun _ => none)).map
      (fun s => (s.hook (str "a"), (s.bots.byId (str "b")).map (·.targets)))
      = some (.done, some [str "a" ++ [0, 120]]) := by
  decide +kernel

end BotPlane
end Control
end Osw
