import Wordcode.Word

/-!
# Opcodes

A program is a flat stream of words. The first word of an instruction is its opcode, and the opcode
alone fixes how many operand words follow and what each of them holds — so instructions need no
separators, and where one starts is only known from where the ones before it end.

Ten opcodes exist. Nine of them may be written in a program; the tenth, `ihalt`, is how the machine
itself says that a program is malformed, and has no place in a stream.
-/

namespace Wordcode

/-- What the machine can be told to do. -/
inductive Opcode where
  /-- Do nothing. -/
  | nop
  /-- Push the operand. -/
  | push
  /-- Pop the top of the stack and show it to whoever watches the run. -/
  | pop
  /-- Pop the top of the stack into a register. -/
  | set
  /-- Pop two words and push their sum. -/
  | add
  /-- Push the sum of two registers. -/
  | radd
  /-- Decrement a register. -/
  | rdec
  /-- Jump, relative to this very opcode, when a register differs from the top of the stack. -/
  | rjne
  /-- Halt normally. -/
  | halt
  /-- Halt because the program is malformed. Reserved for the machine. -/
  | ihalt
deriving DecidableEq, Repr

/-- What an operand word holds. -/
inductive OperandKind where
  | literal
  | register
deriving DecidableEq, Repr

namespace Opcode

/-- Every opcode, in the order of their codes. -/
def all : List Opcode := [nop, push, pop, set, add, radd, rdec, rjne, halt, ihalt]

def code : Opcode → Word
  | nop => 0
  | push => 1
  | pop => 2
  | set => 3
  | add => 4
  | radd => 5
  | rdec => 6
  | rjne => 7
  | halt => 8
  | ihalt => 9

/-- The opcode that a word stands for, if it stands for one. -/
def ofCode? (w : Word) : Option Opcode := all.find? (·.code = w)

/-- The name an opcode goes by in listings. -/
def mnemonic : Opcode → String
  | nop => "NOP"
  | push => "PUSH"
  | pop => "POP"
  | set => "SET"
  | add => "ADD"
  | radd => "RADD"
  | rdec => "RDEC"
  | rjne => "RJNE"
  | halt => "HALT"
  | ihalt => "IHALT"

/-- The name an opcode goes by in structured output. -/
def label : Opcode → String
  | nop => "Nop"
  | push => "Push"
  | pop => "Pop"
  | set => "Set"
  | add => "Add"
  | radd => "RAdd"
  | rdec => "RDec"
  | rjne => "Rjne"
  | halt => "Halt"
  | ihalt => "IHalt"

/-- What the operands of an opcode hold, in stream order. `ihalt` has none to speak of: a stream that
contains it is rejected before its operands matter. -/
def operandKinds : Opcode → List OperandKind
  | push => [.literal]
  | set | rdec => [.register]
  | radd => [.register, .register]
  | rjne => [.register, .literal]
  | nop | pop | add | halt | ihalt => []

/-- How many operands follow an opcode in a program. -/
def arity (op : Opcode) : Nat := op.operandKinds.length

/-! ### Codes name opcodes -/

@[simp] theorem ofCode?_code (op : Opcode) : ofCode? op.code = some op := by
  cases op <;> decide

theorem ofCode?_eq_some_iff {w : Word} {op : Opcode} : ofCode? w = some op ↔ op.code = w := by
  constructor
  · intro h
    simpa using List.find?_some h
  · rintro rfl
    exact ofCode?_code op

theorem arity_le_two (op : Opcode) : op.arity ≤ 2 := by
  cases op <;> decide

end Opcode

end Wordcode
