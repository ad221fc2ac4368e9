import OpenSwitch.Basic
import Mathlib.Logic.Function.Basic
/-!
# FreeSwitch — channels, their variables, and what the module asks of the switch

The part of the switch the control handlers act on.  A session is found by the C string of its uuid, and a channel
variable is stored under the C string of its name.  Every call that can change a channel is recorded with the status
it returned, so "nothing was done" is a statement about the record.  The switch itself is not modelled further: what
it answers to the `n`-th call, whether it can allocate, what an `originate` gives and which variables a dial string
carries are arbitrary.
-/
namespace Osw

/-- A channel, as the handlers see it through a located session. -/
structure Channel where
  /-- `SessionGuard::Channel()` is not null. -/
  attached : Bool
  /-- The state is at or past `CS_HANGUP`. -/
  hungUp   : Bool
  /-- `CF_ANSWERED`. -/
  answered : Bool
  /-- `CF_HOLD`. -/
  onHold   : Bool
  vars     : Bytes → Option Bytes

/-- `switch_channel_set_variable` on C strings: no name, no effect; an empty value clears the variable. -/
def Channel.setVariable (c : Channel) (name value : Bytes) : Channel :=
  if name = [] then c
  else { c with vars := Function.update c.vars name (if value = [] then none else some value) }

theorem Channel.setVariable_vars_of_ne (c : Channel) {name n : Bytes} (value : Bytes) (h : n ≠ name) :
    (c.setVariable name value).vars n = c.vars n := by
  unfold Channel.setVariable
  split
  · rfl
  · exact Function.update_of_ne h _ _

theorem Channel.setVariable_vars_self (c : Channel) {name value : Bytes} (hn : name ≠ []) (hv : value ≠ []) :
    (c.setVariable name value).vars name = some value := by
  simp only [Channel.setVariable, if_neg hn, if_neg hv, Function.update_self]

/-- Variables set in turn. -/
def Channel.setVariables (c : Channel) (vars : List (Bytes × Bytes)) : Channel :=
  vars.foldl (fun c kv => c.setVariable kv.1 kv.2) c

/-- An answered call with these variables. -/
def Channel.up (vars : Bytes → Option Bytes) : Channel := ⟨true, false, true, false, vars⟩

/-- A call of the module that can change a channel; every string is the C string the switch reads. -/
inductive Ask
  | setVariable (uuid name value : Bytes)
  | hangup (uuid : Bytes) (cause : Nat)
  | hold (uuid : Bytes)
  | execute (uuid app : Bytes) (args : Option Bytes)
  | originate (dialString : Bytes) (timeoutSec : Nat) (cidName cidNum : Option Bytes) (ovars : List (Bytes × Bytes))
  deriving DecidableEq, Repr

/-- What `switch_ivr_originate` gives: its status, the cause, and the session of the new leg with the channel the
switch made for it. -/
structure Originated where
  rc      : Nat
  cause   : Nat
  session : Option (Bytes × Channel)

structure FreeSwitch where
  channels   : Bytes → Option Channel
  log        : List (Ask × Nat)
  answers    : Nat → Nat
  allocates  : Nat → Bool
  originates : Nat → Originated
  dialVars   : Bytes → List (Bytes × Bytes)

namespace FreeSwitch

/-- A switch with these channels up that carries out every call and makes no new leg. -/
def obliging (channels : Bytes → Option Channel) : FreeSwitch :=
  ⟨channels, [], fun _ => 0, fun _ => true, fun _ => ⟨0, 16, none⟩, fun _ => []⟩

/-- `SWITCH_STATUS_SUCCESS` and `SWITCH_STATUS_FALSE`. -/
def statusSuccess : Nat := 0
def statusFalse : Nat := 1

/-- `SessionGuard::Locate`. -/
def locate (fs : FreeSwitch) (uuid : Bytes) : Option Channel :=
  if uuid = [] then none else fs.channels (cStr uuid)

/-- The switch was asked `a` and answered `rc`. -/
def record (fs : FreeSwitch) (a : Ask) (rc : Nat) : FreeSwitch := { fs with log := fs.log ++ [(a, rc)] }

/-- What the switch answers to the next call. -/
def answer (fs : FreeSwitch) : Nat := fs.answers fs.log.length

/-- The calls the switch carried out. -/
def performed (fs : FreeSwitch) : List (Ask × Nat) := fs.log.filter (fun e => e.2 == statusSuccess)

def modify (fs : FreeSwitch) (key : Bytes) (f : Channel → Channel) : FreeSwitch :=
  { fs with channels := Function.update fs.channels key ((fs.channels key).map f) }

def channelSetVariable (fs : FreeSwitch) (uuid name value : Bytes) : FreeSwitch :=
  let rc := if cStr name = [] then statusFalse else fs.answer
  let fs' := fs.record (.setVariable (cStr uuid) (cStr name) (cStr value)) rc
  if rc = statusSuccess then fs'.modify (cStr uuid) (·.setVariable (cStr name) (cStr value)) else fs'

/-- The loop of a handler that sets variables and looks at no status. -/
def setVariables (fs : FreeSwitch) (uuid : Bytes) (vars : List (Bytes × Bytes)) : FreeSwitch :=
  vars.foldl (fun fs kv => fs.channelSetVariable uuid kv.1 kv.2) fs

def channelHangup (fs : FreeSwitch) (uuid : Bytes) (cause : Nat) : FreeSwitch :=
  (fs.record (.hangup (cStr uuid) cause) statusSuccess).modify (cStr uuid) (fun c => { c with hungUp := true })

def holdUuid (fs : FreeSwitch) (uuid : Bytes) : FreeSwitch × Nat :=
  let rc := fs.answer
  let fs' := fs.record (.hold (cStr uuid)) rc
  (if rc = statusSuccess then fs'.modify (cStr uuid) (fun c => { c with onHold := true }) else fs', rc)

/-- The name an argument of the `set` application assigns to: what stands before the first `=`. -/
def setName (args : Bytes) : Bytes := args.takeWhile (fun b => b != 61)

/-- The value: what stands after the first `=`, nothing without one. -/
def setValue (args : Bytes) : Bytes := (args.dropWhile (fun b => b != 61)).tail

/-- What the applications of the allow-list do to the channel that runs them; `args` is a C string or null. -/
def runApplication (app : Bytes) (args : Option Bytes) (c : Channel) : Channel :=
  if app = str "set" then
    match args with
    | none   => c
    | some a => c.setVariable (setName a) (setValue a)
  else if app = str "hangup" then { c with hungUp := true }
  else if app = str "answer" then { c with answered := true }
  else c

def executeApplication (fs : FreeSwitch) (uuid app : Bytes) (args : Option Bytes) : FreeSwitch × Nat :=
  let rc := fs.answer
  let fs' := fs.record (.execute (cStr uuid) (cStr app) (args.map cStr)) rc
  (if rc = statusSuccess then fs'.modify (cStr uuid) (runApplication (cStr app) (args.map cStr)) else fs', rc)

/-- The new leg carries the variables of its dial string and of the `ovars` event.  A uuid in use is not given to a new
session. -/
def originateSession (fs : FreeSwitch) (dialString : Bytes) (timeoutSec : Nat) (cidName cidNum : Option Bytes)
    (ovars : List (Bytes × Bytes)) : FreeSwitch × Originated :=
  let o := fs.originates fs.log.length
  let fs' := fs.record (.originate (cStr dialString) timeoutSec (cidName.map cStr) (cidNum.map cStr) ovars) o.rc
  match o.session with
  | none => (fs', o)
  | some (u, c) =>
    if o.rc = statusSuccess ∧ fs.channels u = none then
      ({ fs' with
         channels := Function.update fs.channels u
           (some ((c.setVariables (fs.dialVars (cStr dialString))).setVariables ovars)) }, o)
    else (fs', o)

section frame

variable (fs : FreeSwitch)

@[simp] theorem modify_log (key : Bytes) (f : Channel → Channel) : (fs.modify key f).log = fs.log := rfl

@[simp] theorem modify_answers (key : Bytes) (f : Channel → Channel) : (fs.modify key f).answers = fs.answers := rfl

theorem modify_at (key : Bytes) (f : Channel → Channel) :
    (fs.modify key f).channels key = (fs.channels key).map f := by
  simp only [modify, Function.update_self]

theorem modify_of_ne {key k : Bytes} (f : Channel → Channel) (h : k ≠ key) :
    (fs.modify key f).channels k = fs.channels k := by
  simp only [modify, Function.update_of_ne h]

theorem performed_record (a : Ask) (rc : Nat) :
    (fs.record a rc).performed = fs.performed ++ if rc = statusSuccess then [(a, rc)] else [] := by
  simp only [performed, record, List.filter_append, List.filter_cons, List.filter_nil, beq_iff_eq]

@[simp] theorem performed_modify (key : Bytes) (f : Channel → Channel) : (fs.modify key f).performed = fs.performed :=
  rfl

end frame

end FreeSwitch
end Osw
