import OpenSwitch.ChannelHandlers
/-!
# Rejection — what a rejected request has already done

A request that ends in `INVALID_ARGUMENT` should have done nothing: `SetVariables` says so of itself, and the contract
of `Hold` is that an empty uuid rejects the whole call.  It holds of `SetVariables`.  `Hangup` and `Hold` find a bad
element in the loop that acts, so what they did before it stays; the conditions under which that happens are exact.
-/
namespace Osw
namespace Control

open FreeSwitch (statusSuccess statusFalse)

/-- The requests of the three handlers. -/
inductive ChannelRequest
  | setVariables (req : SetVariablesRequest)
  | hangup (req : HangupRequest)
  | hold (req : HoldRequest)

def ChannelRequest.handle : ChannelRequest → FreeSwitch → FreeSwitch × Status
  | .setVariables req, fs => Control.setVariables req fs
  | .hangup req, fs       => Control.hangup req fs
  | .hold req, fs         => ((Control.hold req fs).1, (Control.hold req fs).2.1)

/-! ## SetVariables -/

theorem setVariables_rejected (req : SetVariablesRequest) (fs : FreeSwitch)
    (h : (setVariables req fs).2.code = .invalidArgument) : (setVariables req fs).1 = fs := by
  unfold setVariables at h ⊢
  split_ifs at h ⊢
  · rfl
  · rfl
  · cases hn : checkNames req.vars with
    | some st => rfl
    | none =>
      simp only [hn] at h ⊢
      cases hl : fs.locate req.uuid with
      | none => rfl
      | some ch =>
        simp only [hl] at h ⊢
        split_ifs at h ⊢
        · rfl
        · cases h

/-! ## Hangup -/

/-- The variables `Hangup` meets before the first reserved one are set, whatever becomes of the request. -/
theorem hangupVariables_eq (uuid : Bytes) : ∀ (vars : List (Bytes × Bytes)) (fs : FreeSwitch),
    hangupVariables uuid vars fs =
      (fs.setVariables uuid (vars.takeWhile (fun e => !isReservedVar e.1)),
       (vars.find? (fun e => isReservedVar e.1)).map (fun e => reservedName e.1))
  | [], _ => rfl
  | (k, v) :: vars, fs => by
    by_cases hk : isReservedVar k = true
    · simp only [hangupVariables, hk, if_true, List.takeWhile_cons, Bool.not_true, List.find?_cons_of_pos, Option.map]
      rfl
    · rw [Bool.not_eq_true] at hk
      simp only [hangupVariables, hk, Bool.false_eq_true, if_false, List.takeWhile_cons, Bool.not_false, if_true,
        List.find?_cons]
      exact hangupVariables_eq uuid vars _

theorem performed_channelSetVariable (fs : FreeSwitch) (uuid k v : Bytes) :
    (fs.channelSetVariable uuid k v).performed = fs.performed ++
      if cStr k ≠ [] ∧ fs.answer = statusSuccess then
        [(.setVariable (cStr uuid) (cStr k) (cStr v), statusSuccess)] else [] := by
  unfold FreeSwitch.channelSetVariable
  by_cases hk : cStr k = []
  · simp only [hk, if_true, FreeSwitch.performed_record, statusFalse, statusSuccess, ne_eq, not_true_eq_false,
      false_and, if_false, Nat.one_ne_zero]
  · by_cases ha : fs.answer = statusSuccess
    · simp only [hk, if_false, ha, if_true, FreeSwitch.performed_modify, FreeSwitch.performed_record, ne_eq,
        not_false_eq_true, and_self]
    · simp only [hk, if_false, ha, FreeSwitch.performed_record, and_false]

/-- The switch carries out one of the settings of `vars`, asked for in turn. -/
def TakesOne (fs : FreeSwitch) (vars : List (Bytes × Bytes)) : Prop :=
  ∃ i e, vars[i]? = some e ∧ cStr e.1 ≠ [] ∧ fs.answers (fs.log.length + i) = statusSuccess

theorem takesOne_nil (fs : FreeSwitch) : ¬ TakesOne fs [] := by
  rintro ⟨i, e, h, -⟩
  cases h

theorem channelSetVariable_answers (fs : FreeSwitch) (uuid k v : Bytes) :
    (fs.channelSetVariable uuid k v).answers = fs.answers ∧
      (fs.channelSetVariable uuid k v).log.length = fs.log.length + 1 := by
  unfold FreeSwitch.channelSetVariable
  dsimp only
  split_ifs <;> exact ⟨rfl, by simp only [FreeSwitch.modify_log, FreeSwitch.record, List.length_append,
    List.length_singleton]⟩

theorem takesOne_cons (fs : FreeSwitch) (uuid k v : Bytes) (vars : List (Bytes × Bytes)) :
    TakesOne fs ((k, v) :: vars) ↔
      (cStr k ≠ [] ∧ fs.answer = statusSuccess) ∨ TakesOne (fs.channelSetVariable uuid k v) vars := by
  obtain ⟨ha, hl⟩ := channelSetVariable_answers fs uuid k v
  unfold TakesOne
  rw [ha, hl]
  constructor
  · rintro ⟨i, e, he, hk, hi⟩
    cases i with
    | zero =>
      obtain rfl : (k, v) = e := by simpa using he
      exact .inl ⟨hk, hi⟩
    | succ i =>
      refine .inr ⟨i, e, by simpa using he, hk, ?_⟩
      rw [← hi, show fs.log.length + 1 + i = fs.log.length + (i + 1) by omega]
  · rintro (⟨hk, h0⟩ | ⟨i, e, he, hk, hi⟩)
    · exact ⟨0, (k, v), rfl, hk, h0⟩
    · refine ⟨i + 1, e, by simpa using he, hk, ?_⟩
      rw [← hi, show fs.log.length + 1 + i = fs.log.length + (i + 1) by omega]

/-- The record of a loop of settings grows exactly when the switch takes one. -/
theorem performed_setVariables (uuid : Bytes) : ∀ (vars : List (Bytes × Bytes)) (fs : FreeSwitch),
    ∃ done, (fs.setVariables uuid vars).performed = fs.performed ++ done ∧ (done ≠ [] ↔ TakesOne fs vars)
  | [], fs => ⟨[], (List.append_nil _).symm, by simp only [ne_eq, not_true_eq_false, false_iff]; exact takesOne_nil fs⟩
  | (k, v) :: vars, fs => by
    obtain ⟨done, hd, hiff⟩ := performed_setVariables uuid vars (fs.channelSetVariable uuid k v)
    have hstep := performed_channelSetVariable fs uuid k v
    refine ⟨_, (show _ = _ from hd).trans (by rw [hstep, List.append_assoc]), ?_⟩
    rw [takesOne_cons fs uuid k v, ← hiff]
    by_cases h0 : cStr k ≠ [] ∧ fs.answer = statusSuccess
    · simp [h0]
    · simp [h0]

/-- `Hangup` finds a reserved name after it has set a variable: the channel is up, and of the variables before the
first reserved one the switch takes at least one. -/
def HangupLate (req : HangupRequest) (fs : FreeSwitch) : Prop :=
  (∃ ch, fs.locate req.uuid = some ch ∧ ch.attached = true ∧ ch.hungUp = false) ∧
  ∃ pre e post, req.vars = pre ++ e :: post ∧ isReservedVar e.1 = true ∧
    (∀ x ∈ pre, isReservedVar x.1 = false) ∧ TakesOne fs pre

theorem find?_eq_some_split {α : Type} {p : α → Bool} {l : List α} {e : α} (h : l.find? p = some e) :
    ∃ post, l = l.takeWhile (fun x => !p x) ++ e :: post ∧ p e = true := by
  obtain ⟨he, pre, post, rfl, hpre⟩ := List.find?_eq_some_iff_append.1 h
  refine ⟨post, ?_, he⟩
  rw [List.takeWhile_append_of_pos (by simpa using hpre)]
  simp [he]

theorem hangup_rejected_iff (req : HangupRequest) (fs : FreeSwitch) :
    ((hangup req fs).2.code = .invalidArgument ∧ (hangup req fs).1.performed ≠ fs.performed) ↔
      HangupLate req fs := by
  unfold hangup HangupLate
  by_cases hu : req.uuid = []
  · simp [hu, FreeSwitch.locate]
  simp only [if_neg hu]
  cases hl : fs.locate req.uuid with
  | none => simp
  | some ch =>
    by_cases hup : ch.attached = true ∧ ch.hungUp = false
    · obtain ⟨hat, hhu⟩ := hup
      simp only [hat, hhu, Bool.not_true, Bool.false_eq_true, if_false, hangupVariables_eq]
      obtain ⟨done, hd, hiff⟩ :=
        performed_setVariables req.uuid (req.vars.takeWhile (fun e => !isReservedVar e.1)) fs
      cases hf : req.vars.find? (fun e => isReservedVar e.1) with
      | none =>
        simp only [Option.map]
        refine ⟨fun h => absurd h.1 (by decide), ?_⟩
        rintro ⟨-, pre, e, post, hv, he, -⟩
        exact absurd he (by simpa using List.find?_eq_none.1 hf e (by rw [hv]; simp))
      | some e =>
        simp only [Option.map, reservedName, invalidArgument, true_and]
        rw [hd, ne_eq, List.append_right_eq_self, ← ne_eq, hiff]
        obtain ⟨post, hsplit, he⟩ := find?_eq_some_split hf
        refine ⟨fun ht => ⟨⟨ch, rfl, hat, hhu⟩, _, e, post, hsplit, he, ?_, ht⟩, ?_⟩
        · intro x hx
          simpa using List.mem_takeWhile_imp hx
        · rintro ⟨-, pre, e', post', hv, he', hpre, ht⟩
          rw [hv, List.takeWhile_append_of_pos (by simpa using hpre)]
          simpa [he'] using ht
    · have hno : ¬ ∃ c, some ch = some c ∧ c.attached = true ∧ c.hungUp = false := by
        rintro ⟨c, hc, h⟩
        cases hc
        exact hup h
      simp only [hno, false_and, iff_false]
      cases hat : ch.attached with
      | false => simp
      | true =>
        have hhu : ch.hungUp = true := by simpa [hat] using hup
        simp [hhu]

/-! ## Hold -/

/-- The state of a channel in which `Hold` asks the switch. -/
def Holdable (c : Channel) : Prop := c.attached = true ∧ c.answered = true ∧ c.onHold = false

/-- Every uuid of the list is put on hold when asked for in turn: all are holdable now, none is named twice, and the
switch carries out each call. -/
structure HeldInTurn (fs : FreeSwitch) (uuids : List Bytes) : Prop where
  distinct : (uuids.map cStr).Nodup
  holdable : ∀ u ∈ uuids, u ≠ [] ∧ ∃ c, fs.channels (cStr u) = some c ∧ Holdable c
  taken : ∀ i < uuids.length, fs.answers (fs.log.length + i) = statusSuccess

theorem holdRefusal_none_iff (u : Bytes) (fs : FreeSwitch) :
    holdRefusal u fs = none ↔ u ≠ [] ∧ ∃ c, fs.channels (cStr u) = some c ∧ Holdable c := by
  unfold holdRefusal FreeSwitch.locate Holdable
  by_cases hu : u = []
  · simp [hu]
  simp only [if_neg hu]
  cases hc : fs.channels (cStr u) with
  | none => simp
  | some c => cases ha : c.attached <;> cases hn : c.answered <;> cases ho : c.onHold <;> simp [ha, hn, ho, hu]

theorem holdRefusal_invalid {u : Bytes} {fs : FreeSwitch} {st : Status} (h : holdRefusal u fs = some st) :
    st.code = .invalidArgument ↔ u = [] := by
  unfold holdRefusal at h
  by_cases hu : u = []
  · rw [if_pos hu] at h
    cases h
    exact ⟨fun _ => hu, fun _ => rfl⟩
  · rw [if_neg hu] at h
    refine ⟨fun hst => ?_, fun h => absurd h hu⟩
    split at h
    · cases h; cases hst
    · split_ifs at h <;> cases h <;> cases hst

theorem holdUuid_taken {fs : FreeSwitch} (u : Bytes) (h : fs.answer = statusSuccess) :
    fs.holdUuid u =
      ((fs.record (.hold (cStr u)) statusSuccess).modify (cStr u) (fun c => { c with onHold := true }),
       statusSuccess) := by
  simp only [FreeSwitch.holdUuid, h, if_true]

/-- Holding in turn is holding the first and then, from the state that leaves, the rest. -/
theorem heldInTurn_cons (fs : FreeSwitch) (u : Bytes) (us : List Bytes) :
    HeldInTurn fs (u :: us) ↔
      holdRefusal u fs = none ∧ fs.answer = statusSuccess ∧ HeldInTurn (fs.holdUuid u).1 us := by
  rw [holdRefusal_none_iff]
  constructor
  · rintro ⟨hd, hh, ht⟩
    rw [List.map_cons, List.nodup_cons] at hd
    have h0 : fs.answer = statusSuccess := ht 0 (by simp)
    refine ⟨hh u List.mem_cons_self, h0, hd.2, fun x hx => ?_, fun i hi => ?_⟩
    · obtain ⟨hx0, c, hc, hho⟩ := hh x (List.mem_cons_of_mem _ hx)
      refine ⟨hx0, c, ?_, hho⟩
      have hne : cStr x ≠ cStr u := fun he => hd.1 (he ▸ List.mem_map_of_mem hx)
      rw [holdUuid_taken u h0, FreeSwitch.modify_of_ne _ _ hne]
      exact hc
    · have := ht (i + 1) (by simpa using hi)
      rw [holdUuid_taken u h0]
      simpa [FreeSwitch.record, Nat.add_assoc, Nat.add_comm 1 i] using this
  · rintro ⟨hu, h0, hd, hh, ht⟩
    rw [holdUuid_taken u h0] at hh ht
    -- the channel just held is on hold, so none of the rest can name it again
    have hfresh : cStr u ∉ us.map cStr := by
      intro hm
      obtain ⟨x, hx, he⟩ := List.mem_map.1 hm
      obtain ⟨-, c, hc, -, -, hoff⟩ := hh x hx
      rw [he, FreeSwitch.modify_at] at hc
      obtain ⟨c', -, rfl⟩ := Option.map_eq_some_iff.1 hc
      cases hoff
    refine ⟨?_, fun x hx => ?_, fun i hi => ?_⟩
    · rw [List.map_cons]
      exact List.nodup_cons.2 ⟨hfresh, hd⟩
    · rcases List.mem_cons.1 hx with rfl | hx
      · exact hu
      · obtain ⟨hx0, c, hc, hho⟩ := hh x hx
        have hne : cStr x ≠ cStr u := fun he => hfresh (he ▸ List.mem_map_of_mem hx)
        rw [FreeSwitch.modify_of_ne _ _ hne] at hc
        exact ⟨hx0, c, hc, hho⟩
    · cases i with
      | zero => exact h0
      | succ i =>
        have := ht i (by simpa using hi)
        simpa [FreeSwitch.record, Nat.add_assoc, Nat.add_comm 1 i] using this

/-- **When `Hold` answers `INVALID_ARGUMENT`**: an empty uuid is met after every uuid before it was put on hold; each of
those stays on hold. -/
theorem holdEach_invalid_iff : ∀ (uuids : List Bytes) (fs : FreeSwitch) (held : List Bytes),
    (holdEach uuids fs held).2.1.code = .invalidArgument ↔
      ∃ pre post, uuids = pre ++ [] :: post ∧ HeldInTurn fs pre
  | [], fs, held => by
    refine ⟨fun h => (by cases h), ?_⟩
    rintro ⟨pre, post, h, -⟩
    exact absurd h (by simp)
  | u :: us, fs, held => by
    unfold holdEach
    cases hr : holdRefusal u fs with
    | some st =>
      simp only
      rw [holdRefusal_invalid hr]
      constructor
      · rintro rfl
        exact ⟨[], us, rfl, List.nodup_nil, fun _ h => (by cases h), fun _ h => (by cases h)⟩
      · rintro ⟨pre, post, h, hh⟩
        cases pre with
        | nil => exact (List.cons.inj h).1
        | cons x pre =>
          obtain ⟨rfl, -⟩ := List.cons.inj h
          rw [heldInTurn_cons, hr] at hh
          cases hh.1
    | none =>
      have hu : u ≠ [] := ((holdRefusal_none_iff u fs).1 hr).1
      have hpeel : (∃ pre post, u :: us = pre ++ [] :: post ∧ HeldInTurn fs pre) ↔
          fs.answer = statusSuccess ∧ ∃ pre post, us = pre ++ [] :: post ∧ HeldInTurn (fs.holdUuid u).1 pre := by
        constructor
        · rintro ⟨pre, post, h, hh⟩
          cases pre with
          | nil => exact absurd (List.cons.inj h).1 hu
          | cons x pre =>
            obtain ⟨rfl, rfl⟩ := List.cons.inj h
            obtain ⟨-, h0, hh⟩ := (heldInTurn_cons fs u pre).1 hh
            exact ⟨h0, pre, post, rfl, hh⟩
        · rintro ⟨h0, pre, post, rfl, hh⟩
          exact ⟨u :: pre, post, rfl, (heldInTurn_cons fs u pre).2 ⟨hr, h0, hh⟩⟩
      rw [hpeel]
      by_cases h0 : fs.answer = statusSuccess
      · have hrc : (fs.holdUuid u).2 = statusSuccess := by rw [holdUuid_taken u h0]
        simp only [hrc, ne_eq, not_true_eq_false, if_false, h0, true_and]
        exact holdEach_invalid_iff us _ _
      · have hrc : (fs.holdUuid u).2 ≠ statusSuccess := h0
        simp only [ne_eq, hrc, not_false_eq_true, if_true, h0, false_and, iff_false]
        exact fun h => by cases h

theorem holdEach_performed : ∀ (pre post : List Bytes) (fs : FreeSwitch) (held : List Bytes), HeldInTurn fs pre →
    (holdEach (pre ++ [] :: post) fs held).1.performed =
      fs.performed ++ pre.map (fun u => (Ask.hold (cStr u), statusSuccess))
  | [], post, fs, held, _ => (List.append_nil _).symm
  | u :: pre, post, fs, held, h => by
    obtain ⟨hr, h0, hh⟩ := (heldInTurn_cons fs u pre).1 h
    have ih := holdEach_performed pre post (fs.holdUuid u).1 (held ++ [u]) hh
    rw [holdUuid_taken u h0] at ih
    rw [List.cons_append, holdEach, hr]
    simp only [holdUuid_taken u h0, ne_eq, not_true_eq_false, if_false]
    rw [ih, FreeSwitch.performed_modify, FreeSwitch.performed_record, if_pos rfl, List.append_assoc]
    rfl

/-- `Hold` finds an empty uuid after it has put a channel on hold. -/
def HoldLate (req : HoldRequest) (fs : FreeSwitch) : Prop :=
  ∃ pre post, req.uuids = pre ++ [] :: post ∧ pre ≠ [] ∧ HeldInTurn fs pre

theorem hold_rejected_iff (req : HoldRequest) (fs : FreeSwitch) :
    ((hold req fs).2.1.code = .invalidArgument ∧ (hold req fs).1.performed ≠ fs.performed) ↔ HoldLate req fs := by
  unfold hold HoldLate
  by_cases hn : req.uuids = []
  · simp [hn]
  simp only [if_neg hn]
  rw [holdEach_invalid_iff]
  constructor
  · rintro ⟨⟨pre, post, he, hh⟩, hp⟩
    refine ⟨pre, post, he, ?_, hh⟩
    rintro rfl
    rw [he, holdEach_performed [] post fs [] hh] at hp
    exact hp (List.append_nil _)
  · rintro ⟨pre, post, he, hne, hh⟩
    refine ⟨⟨pre, post, he, hh⟩, ?_⟩
    rw [he, holdEach_performed pre post fs [] hh, ne_eq, List.append_right_eq_self, List.map_eq_nil_iff]
    exact hne

/-! ## The three handlers -/

/-- The request is found to be invalid after part of it was carried out. -/
def ChannelRequest.RejectedLate : ChannelRequest → FreeSwitch → Prop
  | .setVariables _, _ => False
  | .hangup req, fs    => HangupLate req fs
  | .hold req, fs      => HoldLate req fs

/-- **A rejected request has set no variable, hung up no channel and held none, unless it was rejected late.** -/
theorem rejected_unperformed_iff (r : ChannelRequest) (fs : FreeSwitch) :
    ((r.handle fs).2.code = .invalidArgument → (r.handle fs).1.performed = fs.performed) ↔
      ¬ r.RejectedLate fs := by
  have hdec : ∀ {p q : Prop}, (p → q) ↔ ¬ (p ∧ ¬ q) := by
    intro p q
    rw [not_and, Classical.not_not]
  rw [hdec]
  refine not_congr ?_
  cases r with
  | setVariables req =>
    refine ⟨fun h => h.2 ?_, False.elim⟩
    exact congrArg FreeSwitch.performed (setVariables_rejected req fs h.1)
  | hangup req => exact hangup_rejected_iff req fs
  | hold req => exact hold_rejected_iff req fs

/-- A `Hangup` that is rejected for its second variable has set the first; a `Hold` that is rejected for its second
uuid has held the first. -/
theorem late_rejections_performed :
    let fs := FreeSwitch.obliging (fun u => if u = str "a" then some (.up fun _ => none) else none)
    let hang := ChannelRequest.hangup ⟨str "a", [], [(str "note", str "x"), (str "osw_tenant", str "y")]⟩
    let hold := ChannelRequest.hold ⟨[str "a", []]⟩
    ((hang.handle fs).2.code = .invalidArgument ∧
      (hang.handle fs).1.performed = [(.setVariable (str "a") (str "note") (str "x"), statusSuccess)]) ∧
    ((hold.handle fs).2.code = .invalidArgument ∧
      (hold.handle fs).1.performed = [(.hold (str "a"), statusSuccess)]) := by
  decide +kernel

end Control
end Osw
