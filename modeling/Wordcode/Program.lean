import Wordcode.Instruction
import Wordcode.Register

/-!
# Programs and their decoding

A program is nothing but its words. `Program.decode` finds the instruction that starts at a given
position, and it always finds one: where the stream holds no instruction, the answer is the internal
halt that says why. So the machine never has to deal with a failure to decode — it carries out an
internal halt like any other instruction.

## The order of complaints

Several things can be wrong at one position. The first of these that applies is the one reported:

1. there is no word at the position;
2. the word is no opcode;
3. it is the opcode reserved for the machine;
4. the program ends before the operands do;
5. an operand that has to be a register is none — and of several such operands, the first is named.
-/

namespace Wordcode

/-- A program: a flat stream of opcodes and operands. -/
abbrev Program := Array Word

/-- The first operand that has to be a register and is not one. -/
def Opcode.badRegister? (op : Opcode) (operands : List Word) : Option Word :=
  (op.operandKinds.zip operands).findSome? fun (kind, w) =>
    if kind = .register ∧ Register.ofCode? w = none then some w else none

namespace Program

/-- The `n` words from position `start` on, if the program has that many. -/
def words? (p : Program) (start n : Nat) : Option (List Word) :=
  if start + n ≤ p.size then some (p.extract start (start + n)).toList else none

/-- The instruction at position `ip`. -/
def decode (p : Program) (ip : Address) : Instruction :=
  match p[ip.toNat]? with
  | none => .internalHalt .missingOpcode
  | some code =>
    match Opcode.ofCode? code with
    | none => .internalHalt (.invalidOpcode code)
    | some .ihalt => .internalHalt .explicitIHalt
    | some op =>
      match p.words? (ip.toNat + 1) op.arity with
      | none => .internalHalt (.missingParameter op)
      | some operands =>
        match op.badRegister? operands with
        | some w => .internalHalt (.invalidRegister op w)
        | none => .ofOperands op operands

end Program

end Wordcode
