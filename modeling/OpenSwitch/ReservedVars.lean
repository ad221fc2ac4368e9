import OpenSwitch.Run
import OpenSwitch.Rejection
import OpenSwitch.Originate
import OpenSwitch.EavesdropPolicy
/-!
# ReservedVars — what clients can do to reserved variables

Four requests let a client name a channel variable.  `SetVariables` accepts only names without a `NUL`, so what it
checked is what the switch stores.  `Hangup` and `Execute` check the length-counted name and hand over the C string;
`Originate` checks nothing.  A reserved variable is safe in every sequence of requests in which no stored name is
reserved behind the check.
-/
namespace Osw
namespace Control

open FreeSwitch (statusSuccess)

inductive ClientRequest
  | setVariables (req : SetVariablesRequest)
  | hangup (req : HangupRequest)
  | execute (hit : Option Status) (req : ExecuteRequest)
  | originate (hit : Option Status) (req : OriginateRequest)

namespace ClientRequest

def handle : ClientRequest → FreeSwitch → FreeSwitch × Status
  | .setVariables req, fs  => Control.setVariables req fs
  | .hangup req, fs        => Control.hangup req fs
  | .execute hit req, fs   => Control.execute hit req fs
  | .originate hit req, fs => Control.originate hit req fs

def step (fs : FreeSwitch) (r : ClientRequest) : Option FreeSwitch := some (r.handle fs).1

/-- A name the check passes although the switch stores it under a reserved one. -/
def masked (name : Bytes) : Bool := isReservedVar (cStr name) && !isReservedVar name

/-- No name of the request is stored under a reserved one behind the check of its handler. -/
def unmasked (fs : FreeSwitch) : ClientRequest → Bool
  | .setVariables _ => true
  | .hangup req => req.vars.all (fun e => !masked e.1)
  | .execute _ req =>
    !(req.app == str "set" && isReservedVar (FreeSwitch.setName (cStr req.args)) &&
      !isReservedVar (FreeSwitch.setName req.args))
  | .originate _ req =>
    req.vars.all (fun e => !isReservedVar (cStr e.1)) &&
      (fs.dialVars (cStr (buildDialString req))).all (fun e => !isReservedVar e.1)

end ClientRequest

/-! ## Channels that agree on reserved variables -/

/-- `c'` has the reserved variables of `c`. -/
def SameReserved (c c' : Channel) : Prop := ∀ n, isReservedVar n = true → c'.vars n = c.vars n

theorem SameReserved.rfl' (c : Channel) : SameReserved c c := fun _ _ => rfl

theorem SameReserved.trans {a b c : Channel} (h : SameReserved a b) (h' : SameReserved b c) : SameReserved a c :=
  fun n hn => (h' n hn).trans (h n hn)

theorem sameReserved_setVariable (c : Channel) {name : Bytes} (value : Bytes) (h : isReservedVar name = false) :
    SameReserved c (c.setVariable name value) := by
  intro n hn
  refine Channel.setVariable_vars_of_ne c value ?_
  rintro rfl
  rw [h] at hn
  cases hn

theorem sameReserved_setVariables : ∀ (vars : List (Bytes × Bytes)) (c : Channel),
    (∀ e ∈ vars, isReservedVar e.1 = false) → SameReserved c (c.setVariables vars)
  | [], c, _ => .rfl' c
  | e :: vars, c, h =>
    (sameReserved_setVariable c e.2 (h e List.mem_cons_self)).trans
      (sameReserved_setVariables vars _ (fun x hx => h x (List.mem_cons_of_mem _ hx)))

/-- Every channel keeps its reserved variables from `fs` to `fs'`, and one made in between has those the switch made it
with. -/
structure KeepsReserved (fs fs' : FreeSwitch) : Prop where
  kept : ∀ u c, fs.channels u = some c → ∃ c', fs'.channels u = some c' ∧ SameReserved c c'
  made : ∀ u c', fs.channels u = none → fs'.channels u = some c' →
    ∃ i c, (fs.originates i).session = some (u, c) ∧ SameReserved c c'
  originates : fs'.originates = fs.originates

namespace KeepsReserved

variable {fs fs' fs'' : FreeSwitch}

theorem of_channels_eq (hc : fs'.channels = fs.channels) (ho : fs'.originates = fs.originates) :
    KeepsReserved fs fs' := by
  refine ⟨fun u c h => ⟨c, by rw [hc]; exact h, .rfl' c⟩, fun u c' hn hs => ?_, ho⟩
  rw [hc, hn] at hs
  cases hs

theorem refl (fs : FreeSwitch) : KeepsReserved fs fs := of_channels_eq rfl rfl

theorem trans (h : KeepsReserved fs fs') (h' : KeepsReserved fs' fs'') : KeepsReserved fs fs'' := by
  refine ⟨fun u c hc => ?_, fun u c'' hn hs => ?_, h'.originates.trans h.originates⟩
  · obtain ⟨c', hc', hs'⟩ := h.kept u c hc
    obtain ⟨c'', hc'', hs''⟩ := h'.kept u c' hc'
    exact ⟨c'', hc'', hs'.trans hs''⟩
  · cases hm : fs'.channels u with
    | none =>
      obtain ⟨i, c, hi, hc⟩ := h'.made u c'' hm hs
      exact ⟨i, c, by rw [← h.originates]; exact hi, hc⟩
    | some c' =>
      obtain ⟨i, c, hi, hc⟩ := h.made u c' hn hm
      obtain ⟨d, hd, hsd⟩ := h'.kept u c' hm
      rw [hs] at hd
      cases hd
      exact ⟨i, c, hi, hc.trans hsd⟩

theorem modify (fs : FreeSwitch) (key : Bytes) {f : Channel → Channel} (hf : ∀ c, SameReserved c (f c)) :
    KeepsReserved fs (fs.modify key f) := by
  refine ⟨fun u c hc => ?_, fun u c' hn hs => ?_, rfl⟩
  · by_cases hu : u = key
    · subst hu
      exact ⟨f c, by rw [FreeSwitch.modify_at, hc]; rfl, hf c⟩
    · exact ⟨c, by rw [FreeSwitch.modify_of_ne _ _ hu]; exact hc, .rfl' c⟩
  · by_cases hu : u = key
    · subst hu
      rw [FreeSwitch.modify_at, hn] at hs
      cases hs
    · rw [FreeSwitch.modify_of_ne _ _ hu, hn] at hs
      cases hs

theorem recorded (fs : FreeSwitch) (a : Ask) (rc : Nat) : KeepsReserved fs (fs.record a rc) :=
  of_channels_eq rfl rfl

end KeepsReserved

/-! ## What one request keeps -/

theorem channelSetVariable_keeps (fs : FreeSwitch) (uuid k v : Bytes) (h : isReservedVar (cStr k) = false) :
    KeepsReserved fs (fs.channelSetVariable uuid k v) := by
  unfold FreeSwitch.channelSetVariable
  dsimp only
  generalize (if cStr k = [] then FreeSwitch.statusFalse else fs.answer) = rc
  split
  · exact (KeepsReserved.recorded fs _ _).trans
      (.modify _ _ (fun c => sameReserved_setVariable c _ h))
  · exact .recorded fs _ _

theorem setVariables_keeps (uuid : Bytes) : ∀ (vars : List (Bytes × Bytes)) (fs : FreeSwitch),
    (∀ e ∈ vars, isReservedVar (cStr e.1) = false) → KeepsReserved fs (fs.setVariables uuid vars)
  | [], fs, _ => .refl fs
  | e :: vars, fs, h =>
    (channelSetVariable_keeps fs uuid e.1 e.2 (h e List.mem_cons_self)).trans
      (setVariables_keeps uuid vars _ (fun x hx => h x (List.mem_cons_of_mem _ hx)))

/-- A valid name has no `NUL`: it is stored as it was checked. -/
theorem cStr_of_isValidVarName {name : Bytes} (h : isValidVarName name = true) : cStr name = name := by
  refine cStr_of_no_nul name (fun b hb h0 => ?_)
  simp only [isValidVarName, Bool.and_eq_true, List.all_eq_true] at h
  have := h.2 b hb
  rw [h0] at this
  exact absurd this (by decide)

theorem checkNames_none : ∀ (vars : List (Bytes × Bytes)), checkNames vars = none →
    ∀ e ∈ vars, isReservedVar (cStr e.1) = false
  | [], _, _, he => by cases he
  | (k, v) :: vars, h, e, he => by
    unfold checkNames at h
    split_ifs at h with hv hr
    rw [Bool.not_eq_true, Bool.not_eq_false'] at hv
    rcases List.mem_cons.1 he with rfl | he
    · rw [cStr_of_isValidVarName hv]
      exact Bool.not_eq_true _ ▸ hr
    · exact checkNames_none vars h e he

theorem setVariables_request_keeps (req : SetVariablesRequest) (fs : FreeSwitch) :
    KeepsReserved fs (setVariables req fs).1 := by
  unfold setVariables
  split_ifs
  · exact .refl fs
  · exact .refl fs
  · exact .refl fs
  · cases hn : checkNames req.vars with
    | some st => exact .refl fs
    | none =>
      cases hl : fs.locate req.uuid with
      | none => exact .refl fs
      | some ch =>
        dsimp only
        split
        · exact .refl fs
        · exact setVariables_keeps req.uuid req.vars fs (checkNames_none _ hn)

theorem channelHangup_keeps (fs : FreeSwitch) (uuid : Bytes) (cause : Nat) :
    KeepsReserved fs (fs.channelHangup uuid cause) :=
  (KeepsReserved.recorded fs _ _).trans (.modify _ _ (fun c => .rfl' c))

theorem hangup_request_keeps (req : HangupRequest) (fs : FreeSwitch)
    (h : ∀ e ∈ req.vars, ClientRequest.masked e.1 = false) : KeepsReserved fs (hangup req fs).1 := by
  have hset : KeepsReserved fs
      (fs.setVariables req.uuid (req.vars.takeWhile (fun e => !isReservedVar e.1))) := by
    refine setVariables_keeps req.uuid _ fs (fun e he => ?_)
    have hfree : isReservedVar e.1 = false := by simpa using List.mem_takeWhile_imp he
    simpa [ClientRequest.masked, hfree] using h e ((List.takeWhile_sublist _).subset he)
  unfold hangup
  split
  · exact .refl fs
  cases hl : fs.locate req.uuid with
  | none => exact .refl fs
  | some ch =>
    dsimp only
    split
    · exact .refl fs
    split
    · exact .refl fs
    rw [hangupVariables_eq]
    cases req.vars.find? (fun e => isReservedVar e.1) with
    | some e => exact hset
    | none => exact hset.trans (channelHangup_keeps _ _ _)

theorem sameReserved_runApplication (app : Bytes) (args : Option Bytes) (c : Channel)
    (h : app = str "set" → ∀ a ∈ args, isReservedVar (FreeSwitch.setName a) = false) :
    SameReserved c (FreeSwitch.runApplication app args c) := by
  unfold FreeSwitch.runApplication
  split
  · rename_i happ
    cases args with
    | none => exact .rfl' c
    | some a => exact sameReserved_setVariable c _ (h happ a rfl)
  · split
    · exact .rfl' c
    · split <;> exact .rfl' c

/-- An application of the allow-list has no `NUL` in its name. -/
theorem cStr_allowedApp : ∀ app ∈ allowedApps, cStr app = app := by
  decide +kernel

theorem executeApplication_keeps (fs : FreeSwitch) (uuid app : Bytes) (args : Option Bytes)
    (h : cStr app = str "set" → ∀ a ∈ args, isReservedVar (FreeSwitch.setName (cStr a)) = false) :
    KeepsReserved fs (fs.executeApplication uuid app args).1 := by
  unfold FreeSwitch.executeApplication
  dsimp only
  split
  · refine (KeepsReserved.recorded fs _ _).trans (.modify _ _ (fun c => ?_))
    refine sameReserved_runApplication _ _ c (fun hs a ha => ?_)
    obtain ⟨b, hb, rfl⟩ := Option.map_eq_some_iff.1 ha
    exact h hs b hb
  · exact .recorded fs _ _

theorem executeLive_keeps (req : ExecuteRequest) (fs : FreeSwitch)
    (h : ClientRequest.unmasked fs (.execute none req) = true) : KeepsReserved fs (executeLive req fs).fs := by
  unfold executeLive
  split
  · exact .refl fs
  split
  · exact .refl fs
  split
  · exact .refl fs
  rename_i hallow
  have happ : cStr req.app = req.app := cStr_allowedApp _ (by simpa using hallow)
  cases hl : fs.locate req.uuid with
  | none => exact .refl fs
  | some ch =>
    dsimp only
    split
    · exact .refl fs
    split
    · exact .refl fs
    split
    · exact .refl fs
    rename_i hset
    have hexec : KeepsReserved fs (fs.executeApplication req.uuid req.app (nullIfEmpty req.args)).1 := by
      refine executeApplication_keeps fs _ _ _ (fun hs a ha => ?_)
      rw [happ] at hs
      unfold nullIfEmpty at ha
      split at ha
      · cases ha
      · rename_i hargs
        cases ha
        -- the handler let the length-counted name pass, so the stored one is free too
        have hfree : isReservedVar (FreeSwitch.setName req.args) = false := by
          simpa [hs, hargs] using hset
        simpa [ClientRequest.unmasked, hs, hfree] using h
    split <;> exact hexec

theorem execute_request_keeps (hit : Option Status) (req : ExecuteRequest) (fs : FreeSwitch)
    (h : ClientRequest.unmasked fs (.execute hit req) = true) : KeepsReserved fs (execute hit req fs).1 := by
  cases hit with
  | some st => exact .refl fs
  | none => exact executeLive_keeps req fs h

theorem originateSession_keeps (fs : FreeSwitch) (dial : Bytes) (t : Nat) (cn cm : Option Bytes)
    (ovars : List (Bytes × Bytes)) (ho : ∀ e ∈ ovars, isReservedVar e.1 = false)
    (hd : ∀ e ∈ fs.dialVars (cStr dial), isReservedVar e.1 = false) :
    KeepsReserved fs (fs.originateSession dial t cn cm ovars).1 := by
  unfold FreeSwitch.originateSession
  dsimp only
  cases hs : (fs.originates fs.log.length).session with
  | none => exact .recorded fs _ _
  | some uc =>
    obtain ⟨u, c⟩ := uc
    dsimp only
    split
    · rename_i hnew
      refine ⟨fun w d hw => ?_, fun w d hw hsd => ?_, rfl⟩
      · have hne : w ≠ u := by
          rintro rfl
          rw [hnew.2] at hw
          cases hw
        exact ⟨d, by simp only [Function.update_of_ne hne]; exact hw, .rfl' d⟩
      · by_cases hwu : w = u
        · subst hwu
          simp only [Function.update_self, Option.some.injEq] at hsd
          subst hsd
          exact ⟨_, c, hs, (sameReserved_setVariables _ c hd).trans (sameReserved_setVariables _ _ ho)⟩
        · simp only [Function.update_of_ne hwu] at hsd
          rw [hw] at hsd
          cases hsd
    · exact .recorded fs _ _

/-- What an accepted request hands to the switch: its dial string, and its variables as C strings. -/
theorem build_ok {alloc : Bool} {req : OriginateRequest} {opts : OriginateOptions}
    (h : OriginateOptions.build alloc req = .ok opts) :
    opts.dialString = buildDialString req ∧ opts.ovars = req.vars.map (fun kv => (cStr kv.1, cStr kv.2)) := by
  unfold OriginateOptions.build at h
  split at h
  · cases h
  split at h
  · cases h
  split at h
  · cases h
  split at h
  · cases h
  · cases h
    exact ⟨rfl, rfl⟩

theorem originateLive_keeps (req : OriginateRequest) (fs : FreeSwitch)
    (h : ClientRequest.unmasked fs (.originate none req) = true) : KeepsReserved fs (originateLive req fs).fs := by
  unfold originateLive
  cases hb : OriginateOptions.build (fs.allocates fs.log.length) req with
  | error e => exact .refl fs
  | ok opts =>
    obtain ⟨hdial, hov⟩ := build_ok hb
    simp only [ClientRequest.unmasked, Bool.and_eq_true, List.all_eq_true, Bool.not_eq_true'] at h
    have hkeep : KeepsReserved fs (fs.originateSession opts.dialString opts.timeoutSec (nullIfEmpty opts.cidName)
        (nullIfEmpty opts.cidNum) opts.ovars).1 := by
      refine originateSession_keeps fs _ _ _ _ _ (fun e he => ?_) (by rw [hdial]; exact h.2)
      rw [hov] at he
      obtain ⟨kv, hkv, rfl⟩ := List.mem_map.1 he
      exact h.1 kv hkv
    dsimp only
    split
    · exact hkeep
    split
    · exact hkeep
    split <;> exact hkeep

theorem originate_request_keeps (hit : Option Status) (req : OriginateRequest) (fs : FreeSwitch)
    (h : ClientRequest.unmasked fs (.originate hit req) = true) : KeepsReserved fs (originate hit req fs).1 := by
  cases hit with
  | some st => exact .refl fs
  | none => exact originateLive_keeps req fs h

/-- **One request**: when none of its names is masked, it keeps every reserved variable. -/
theorem request_keeps (r : ClientRequest) (fs : FreeSwitch) (h : r.unmasked fs = true) :
    KeepsReserved fs (r.handle fs).1 := by
  cases r with
  | setVariables req => exact setVariables_request_keeps req fs
  | hangup req =>
    refine hangup_request_keeps req fs (fun e he => ?_)
    simp only [ClientRequest.unmasked, List.all_eq_true, Bool.not_eq_true'] at h
    exact h e he
  | execute hit req => exact execute_request_keeps hit req fs h
  | originate hit req => exact originate_request_keeps hit req fs h

theorem markerVars_reserved : ∀ n ∈ Security.markerVars, isReservedVar n = true := by
  decide +kernel

/-- **In every sequence of requests without a masked name, every channel keeps its reserved variables**, a channel made
by `Originate` has those the switch made it with, and the marker of a bot's channel stands as it was written. -/
theorem reserved_vars_kept (rs : List ClientRequest) (fs fs' : FreeSwitch)
    (hrun : Run.exec ClientRequest.step rs fs = some fs')
    (hok : Run.along ClientRequest.step ClientRequest.unmasked rs fs = true) :
    (∀ u c, fs.channels u = some c →
      ∃ c', fs'.channels u = some c' ∧ ∀ n, isReservedVar n = true → c'.vars n = c.vars n) ∧
    (∀ u c', fs.channels u = none → fs'.channels u = some c' →
      ∃ i c, (fs.originates i).session = some (u, c) ∧ ∀ n, isReservedVar n = true → c'.vars n = c.vars n) ∧
    (∀ u c purpose policy tenant, fs.channels u = some (Security.markBotSession purpose policy tenant c) →
      ∃ c', fs'.channels u = some c' ∧ ∀ n ∈ Security.markerVars,
        c'.vars n = (Security.markBotSession purpose policy tenant c).vars n) := by
  have hkeep : KeepsReserved fs fs' := by
    refine Run.exec_inv_along (I := fun x => KeepsReserved fs x) ?_ rs fs fs' (.refl fs) hok hrun
    intro x r x' hx hr hstep
    cases hstep
    exact hx.trans (request_keeps r x hr)
  refine ⟨hkeep.kept, hkeep.made, fun u c purpose policy tenant hc => ?_⟩
  obtain ⟨c', hc', hs⟩ := hkeep.kept u _ hc
  exact ⟨c', hc', fun n hn => hs n (markerVars_reserved n hn)⟩

/-- A bot of tenant `acme` on channel `a`; a new leg is channel `b`, with no variable of its own. -/
def markedCall : FreeSwitch :=
  { FreeSwitch.obliging (fun u => if u = str "a" then
      some (Security.markBotSession (str "tts") .deny (str "acme") (.up fun _ => none)) else none) with
    originates := fun _ => ⟨0, 16, some (str "b", .up fun _ => none)⟩ }

/-- A note on the call, and a new leg with a variable. -/
def plainRequests : List ClientRequest :=
  [.hangup ⟨str "a", [], [(str "note", str "x")]⟩,
   .originate none ⟨[str "user/100"], .failover, [], [], none, [(str "note", str "x")]⟩]

theorem reserved_vars_kept_markedCall :
    Run.along ClientRequest.step ClientRequest.unmasked plainRequests markedCall = true ∧
    ∃ fs', Run.exec ClientRequest.step plainRequests markedCall = some fs' ∧
      ∃ c', fs'.channels (str "a") = some c' ∧ ∀ n ∈ Security.markerVars,
        c'.vars n = (Security.markBotSession (str "tts") .deny (str "acme") (.up fun _ => none)).vars n := by
  have hok : Run.along ClientRequest.step ClientRequest.unmasked plainRequests markedCall = true := by decide +kernel
  refine ⟨hok, _, rfl, ?_⟩
  exact (reserved_vars_kept plainRequests markedCall _ rfl hok).2.2 (str "a") _ _ _ _ (if_pos rfl)

/-- The value of a variable of a channel after a sequence of requests. -/
def varAfter (rs : List ClientRequest) (fs : FreeSwitch) (u n : Bytes) : Option (Option Bytes) :=
  (Run.exec ClientRequest.step rs fs).bind (fun fs' => (fs'.channels u).map (·.vars n))

/-- A `NUL` after the name lets `Hangup` overwrite the tenant of a marked channel and `Execute` clear it; `Originate`
makes a channel with a tenant of the client's choice. -/
theorem masked_names_change_tenant :
    varAfter [] markedCall (str "a") Security.tenantVar = some (some (str "acme")) ∧
    varAfter [.hangup ⟨str "a", [], [(str "osw_tenant" ++ [0], str "evil")]⟩] markedCall (str "a")
      Security.tenantVar = some (some (str "evil")) ∧
    varAfter [.execute none ⟨str "a", str "set", str "osw_tenant" ++ [0] ++ str "=x"⟩] markedCall (str "a")
      Security.tenantVar = some none ∧
    varAfter [.originate none ⟨[str "user/100"], .failover, [], [], none, [(str "osw_tenant", str "evil")]⟩]
      markedCall (str "b") Security.tenantVar = some (some (str "evil")) := by
  decide +kernel

end Control
end Osw
