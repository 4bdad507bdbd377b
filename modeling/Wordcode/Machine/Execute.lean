import Wordcode.Machine.Transition

/-!
# Carrying out an instruction

`Machine.execute` applies one instruction, which need not come from the program. It works in two
halves. `Machine.perform` does what the opcode says, and answers with a **verdict** on how to go on:
move past the instruction, jump, halt, fault or trap. `execute` then acts on the verdict, and is the
only place where the machine moves or stops.

## What goes wrong, and when

* The position past the instruction is worked out before anything else is done. If it does not
  exist, nothing happens at all.
* Register operands are checked before the stack is touched.
* The stack never refuses aloud; `perform` asks its flags after every operation. `add` asks after
  each of its two pops, so that the first word is gone when the second is missing.
* A fault leaves the machine where it stands, on the instruction that is to blame.

Carrying out an instruction on a halted machine is allowed. It works on the stack and the registers
as ever, but the machine stays halted and does not move; only the fault on record can change.
-/

namespace Wordcode

/-- How to go on after an instruction's work is done. -/
inductive Verdict where
  | proceed
  | jump (target : Address)
  | halt
  | fault (f : Fault)
  | trap (t : Trap)
deriving DecidableEq

/-- An instruction's work: the machine after it, what to report, and how to go on. -/
structure Work where
  /-- The machine, which has neither moved nor stopped yet. -/
  machine : Machine
  verdict : Verdict
  events : List Event := []
deriving DecidableEq

namespace Machine

/-! ### Checked operands -/

/-- Push `v`, and fault if the stack was full. -/
def pushing (m : Machine) (v : Word) : Work :=
  let m := m.push v
  if m.stack.overflow then ⟨m, .fault .stackOverflow, []⟩ else ⟨m, .proceed, []⟩

/-- Pop a word for `use`, and fault if there was none. -/
def popping (m : Machine) (use : Word → Machine → Work) : Work :=
  let (v, m) := m.pop
  if m.stack.underflow then ⟨m, .fault .stackUnderflow, []⟩ else use v m

/-- Show the top word to `use`, and fault if there was none. -/
def peeking (m : Machine) (use : Word → Machine → Work) : Work :=
  let (v, m) := m.peek
  if m.stack.underflow then ⟨m, .fault .stackUnderflow, []⟩ else use v m

/-- Hand the register that an operand names to `use`, and fault if it names none. -/
def naming (m : Machine) (op : Opcode) (operand : Word) (use : Register → Work) : Work :=
  match Register.ofCode? operand with
  | some r => use r
  | none => ⟨m, .fault (.invalidRegister op operand), []⟩

def jumping (m : Machine) (offset : Word) : Work :=
  match m.ip.displace offset with
  | .ok (some target) => ⟨m, .jump target, []⟩
  | .ok none => ⟨m, .fault (.jumpOutOfRange m.ip offset), []⟩
  | .error t => ⟨m, .trap t, []⟩

/-! ### The opcodes -/

/-- Do an instruction's work. -/
def perform (m : Machine) (i : Instruction) : Work :=
  let first := i.slots[0]
  let second := i.slots[1]
  match i.opcode with
  | .nop => ⟨m, .proceed, []⟩
  | .push => m.pushing first
  | .pop => m.popping fun v m => ⟨m, .proceed, [.popped v]⟩
  | .set =>
    m.naming .set first fun r =>
    m.popping fun v m => ⟨m.setRegister r v, .proceed, [.stored r v]⟩
  | .add => m.popping fun v m => m.popping fun w m => m.pushing (v + w)
  | .radd =>
    m.naming .radd first fun r =>
    m.naming .radd second fun s => m.pushing (m.register r + m.register s)
  | .rdec => m.naming .rdec first fun r => ⟨m.setRegister r (m.register r - 1), .proceed, []⟩
  | .rjne =>
    m.naming .rjne first fun r =>
    m.peeking fun top m => if m.register r = top then ⟨m, .proceed, []⟩ else m.jumping second
  | .halt => ⟨m, .halt, []⟩
  | .ihalt =>
    match i.spelledFault with
    | .ok f => ⟨m, .fault f, []⟩
    | .error t => ⟨m, .trap t, []⟩

/-- Act on the verdict over a piece of work, where `next` is the position past the instruction. -/
def conclude (next : Address) (w : Work) : Transition :=
  match w.verdict with
  | .proceed => ⟨w.machine.moveTo next, w.events, none⟩
  | .jump target => ⟨w.machine.moveTo target, w.events, none⟩
  | .halt => ⟨w.machine.halt, w.events, none⟩
  | .fault f => ⟨w.machine.faultWith f, w.events ++ [.faulted f], none⟩
  | .trap t => ⟨w.machine, w.events, some t⟩

/-- Carry out an instruction. -/
def execute (m : Machine) (i : Instruction) : Transition :=
  match m.ip.past? i.count with
  | some next => conclude next (m.perform i)
  | none => ⟨m, [], some .addressOverflow⟩

end Machine

end Wordcode
