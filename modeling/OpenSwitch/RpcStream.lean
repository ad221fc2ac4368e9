import OpenSwitch.Run
/-!
# RpcStream — what a client may do with a bidirectional stream

A stream object is made on a context.  The client writes until it says that it is done or a write fails, reads until a
read ends, then asks once for the final status, and drops the stream before the context.  The rules are a machine over the
client's operations, for any types of messages and statuses; a record of operations is legal when the machine takes it
(`Legal`).  Nothing here names a component.
-/
namespace Osw
namespace RpcStream

variable {α β σ : Type}

/-- An operation of the client, with its answer. -/
inductive Op (α β σ : Type)
  | create
  | write (m : α) (ok : Bool)
  | writesDone
  | read (m : Option β)
  | finish (st : σ)
  | tryCancel
  | dropStream
  | dropContext
  deriving DecidableEq, Repr

inductive Sends
  | open
  | halfClosed
  | broken
  deriving DecidableEq, Repr

inductive Reads
  | open
  | ended
  | finished
  deriving DecidableEq, Repr

/-- Which of the two objects there are. -/
inductive Objects
  | unmade
  | both
  | context
  | dropped
  deriving DecidableEq, Repr

structure State where
  sends   : Sends
  reads   : Reads
  objects : Objects
  deriving DecidableEq, Repr

def start : State := ⟨.open, .open, .unmade⟩

/-- The rules.  The final status comes after the last read, or after a write that failed. -/
def step (s : State) : Op α β σ → Option State
  | .create      => if s.objects = .unmade then some { s with objects := .both } else none
  | .write _ ok  =>
    if s.objects = .both ∧ s.sends = .open then some { s with sends := if ok then .open else .broken } else none
  | .writesDone  => if s.objects = .both ∧ s.sends = .open then some { s with sends := .halfClosed } else none
  | .read m      =>
    if s.objects = .both ∧ s.reads = .open then some { s with reads := if m.isSome then .open else .ended } else none
  | .finish _    =>
    if s.objects = .both ∧ (s.reads = .ended ∨ s.reads = .open ∧ s.sends = .broken) then some { s with reads := .finished }
    else none
  | .tryCancel   => if s.objects = .both ∨ s.objects = .context then some s else none
  | .dropStream  => if s.objects = .both then some { s with objects := .context } else none
  | .dropContext => if s.objects = .context then some { s with objects := .dropped } else none

/-- The record of operations keeps the rules, and leads to this state of the call. -/
def Leads (ops : List (Op α β σ)) (r : State) : Prop := Run.exec step ops start = some r

def Legal (ops : List (Op α β σ)) : Prop := ∃ r, Leads ops r

instance (ops : List (Op α β σ)) : Decidable (Legal ops) :=
  decidable_of_iff ((Run.exec step ops start).isSome = true) Option.isSome_iff_exists

/-- What was written, as far as the writes succeeded. -/
def sent (ops : List (Op α β σ)) : List α :=
  ops.filterMap fun
    | .write m true => some m
    | _ => none

def received (ops : List (Op α β σ)) : List β :=
  ops.filterMap fun
    | .read m => m
    | _ => none

/-- The final statuses that were asked for. -/
def statuses (ops : List (Op α β σ)) : List σ :=
  ops.filterMap fun
    | .finish st => some st
    | _ => none

theorem leads_nil : Leads ([] : List (Op α β σ)) start := rfl

theorem Leads.snoc {ops : List (Op α β σ)} {r r' : State} {op : Op α β σ} (h : Leads ops r) (hs : step r op = some r') :
    Leads (ops ++ [op]) r' := by
  rw [Leads, Run.exec_append, h]
  simp only [Option.bind_some, Run.exec, hs]

@[simp] theorem sent_append (ops ops' : List (Op α β σ)) : sent (ops ++ ops') = sent ops ++ sent ops' :=
  List.filterMap_append

@[simp] theorem received_append (ops ops' : List (Op α β σ)) : received (ops ++ ops') = received ops ++ received ops' :=
  List.filterMap_append

@[simp] theorem statuses_append (ops ops' : List (Op α β σ)) : statuses (ops ++ ops') = statuses ops ++ statuses ops' :=
  List.filterMap_append

end RpcStream
end Osw
