import Wordcode.Program
import Wordcode.Stack

/-!
# The machine

A `Machine` is the complete state of one run: the program, the position of the next opcode, the
operand stack, the registers, and whether — and why — it has stopped. Nothing else exists, so two
runs never disturb each other and a run can be put aside and taken up again.

The stack operations and register writes are the machine's to offer as well: whoever holds one may
prepare it before a run or inspect it in between. None of them starts, stops or moves it.

## How a run ends

A machine that is not halted is still running. A halted one ended normally unless it has a fault on
record, and then that fault is the reason: `Machine.outcome`.
-/

namespace Wordcode

/-- How a finished run ended. -/
inductive Outcome where
  | halted
  | faulted (fault : Fault)
deriving DecidableEq, Repr

namespace Outcome

def isOk : Outcome → Bool
  | halted => true
  | faulted _ => false

def fault? : Outcome → Option Fault
  | halted => none
  | faulted f => some f

end Outcome

/-- The state of one run. -/
structure Machine where
  program : Program
  ip : Address
  stack : Stack
  registers : RegisterFile
  halted : Bool
  fault : Option Fault
deriving DecidableEq

/-- What can be seen of a run from outside: no flags, and only the live part of the stack. -/
structure Snapshot where
  ip : Address
  registers : RegisterFile
  stack : List Word
  outcome : Option Outcome
deriving DecidableEq

namespace Machine

/-- A machine about to run `program` from the start. -/
def load (program : Program) : Machine where
  program := program
  ip := 0
  stack := .empty
  registers := .zero
  halted := false
  fault := none

/-- How the run ended; `none` while it is running. -/
def outcome (m : Machine) : Option Outcome :=
  if m.halted then
    some (match m.fault with
      | some f => .faulted f
      | none => .halted)
  else none

/-- The visible part of the state. -/
def snapshot (m : Machine) : Snapshot where
  ip := m.ip
  registers := m.registers
  stack := m.stack.entries
  outcome := m.outcome

/-! ### Stack and registers -/

def push (m : Machine) (v : Word) : Machine := { m with stack := m.stack.push v }

/-- Pop the top word, which is zero if there is none. -/
def pop (m : Machine) : Word × Machine := (m.stack.pop.1, { m with stack := m.stack.pop.2 })

/-- Look at the top word, which is zero if there is none. -/
def peek (m : Machine) : Word × Machine := (m.stack.peek.1, { m with stack := m.stack.peek.2 })

def register (m : Machine) (r : Register) : Word := m.registers.read r

def setRegister (m : Machine) (r : Register) (v : Word) : Machine :=
  { m with registers := m.registers.write r v }

/-! ### Moving and stopping -/

/-- Move on to `target`. A machine that has stopped stays where it is. -/
def moveTo (m : Machine) (target : Address) : Machine :=
  if m.halted then m else { m with ip := target }

def halt (m : Machine) : Machine := { m with halted := true }

/-- Stop because of a fault, which goes on record. -/
def faultWith (m : Machine) (f : Fault) : Machine := { m with halted := true, fault := some f }

/-! ### Outcomes -/

theorem outcome_eq_none_iff {m : Machine} : m.outcome = none ↔ m.halted = false := by
  unfold outcome; split <;> simp_all

theorem outcome_eq_halted_iff {m : Machine} :
    m.outcome = some .halted ↔ m.halted = true ∧ m.fault = none := by
  unfold outcome; split <;> cases m.fault <;> simp_all

theorem outcome_eq_faulted_iff {m : Machine} {f : Fault} :
    m.outcome = some (.faulted f) ↔ m.halted = true ∧ m.fault = some f := by
  unfold outcome; split <;> cases m.fault <;> simp_all

@[simp] theorem outcome_faultWith (m : Machine) (f : Fault) :
    (m.faultWith f).outcome = some (.faulted f) := rfl

end Machine

end Wordcode
