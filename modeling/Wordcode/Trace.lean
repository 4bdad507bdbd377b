import Wordcode.Machine.Transition

/-!
# Execution traces

A trace shows a run as text, a line or two per event:

    >>> PUSH 5
    >>> POP
    <<POP>> 11
    <<SET REG_A>> 3
    >> *** << Invalid program detected
    >> *** << Bytecode terminates without a HALT opcode

Instructions are shown before they are carried out, with the registers as they are at that moment: an
operand that names a register is shown as the register's name and, in brackets, its contents. The
machine's own way of stopping is not shown as an instruction, since the fault is reported right
after it.

All text in a trace is ASCII.
-/

namespace Wordcode

namespace Instruction

/-- An operand in a listing. A literal is a number; a register is named, and its contents are given;
an operand that ought to be a register and is not one is given as it is. -/
def renderOperand (registers : RegisterFile) (kind : OperandKind) (w : Word) : String :=
  match kind, Register.ofCode? w with
  | .register, some r => " " ++ r.name ++ " (" ++ Decimal.ofInt (registers.read r).toInt ++ ")"
  | .register, none => " REG_? (" ++ Decimal.ofInt w.toInt ++ ")"
  | .literal, _ => " " ++ Decimal.ofInt w.toInt

/-- The operands in a listing. Operands beyond those that the opcode takes are shown as literals. -/
def renderOperands (registers : RegisterFile) : List OperandKind → List Word → String
  | _, [] => ""
  | [], w :: ws => renderOperand registers .literal w ++ renderOperands registers [] ws
  | kind :: kinds, w :: ws =>
    renderOperand registers kind w ++ renderOperands registers kinds ws

/-- An instruction in a listing, given the registers. An internal halt shows its fault instead of
operands. -/
def render (i : Instruction) (registers : RegisterFile) : Except Trap String :=
  i.operands.map fun ws =>
    if i.isInternalHalt then i.opcode.mnemonic ++ " (" ++ (Fault.ofWords ws).message ++ ")"
    else i.opcode.mnemonic ++ renderOperands registers i.opcode.operandKinds ws

end Instruction

namespace Event

/-- The lines that an event adds to a trace. An instruction whose operands cannot be shown adds none;
decoding never yields such an instruction. -/
def traceLines : Event → List String
  | decoded before i =>
    if i.isInternalHalt then []
    else
      match i.render before.registers with
      | .ok text => [">>> " ++ text]
      | .error _ => []
  | popped v => ["<<POP>> " ++ Decimal.ofInt v.toInt]
  | stored r v => ["<<SET " ++ r.name ++ ">> " ++ Decimal.ofInt v.toInt]
  | faulted f => [">> *** << Invalid program detected", ">> *** << " ++ f.message]

end Event

/-- The full trace of a run: every line, each with its end. -/
def traceText (events : List Event) : String :=
  String.join ((events.flatMap Event.traceLines).map (· ++ "\n"))

end Wordcode
