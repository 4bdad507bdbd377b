import Wordcode.Opcode
import Wordcode.Decimal

/-!
# Faults

A fault is the machine's verdict on a malformed program: what was wrong, with as much detail as it
takes to say where. There are nine kinds, each with a code of its own, and four of them come with
details — the opcode, the word or the jump that is to blame.

`Fault.message` is the one place where a fault is put into words.
-/

namespace Wordcode

/-- Why a program was stopped. -/
inductive Fault where
  /-- The machine cannot tell. This says something about the machine and nothing about the
  program. -/
  | unknown
  | explicitIHalt
  | missingOpcode
  | missingParameter (op : Opcode)
  | stackOverflow
  | stackUnderflow
  | invalidOpcode (value : Word)
  | invalidRegister (op : Opcode) (value : Word)
  /-- The `rjne` at `source` jumps by `offset`, to before the start of the program. -/
  | jumpOutOfRange (source : Address) (offset : Word)
deriving DecidableEq, Repr

namespace Fault

/-- What sort of fault it is, details aside. -/
inductive Kind where
  | unknown
  | explicitIHalt
  | missingOpcode
  | missingParameter
  | stackOverflow
  | stackUnderflow
  | invalidOpcode
  | invalidRegister
  | jumpOutOfRange
deriving DecidableEq, Repr

namespace Kind

def all : List Kind :=
  [unknown, explicitIHalt, missingOpcode, missingParameter, stackOverflow, stackUnderflow,
    invalidOpcode, invalidRegister, jumpOutOfRange]

/-- The word that stands for a kind of fault. -/
def code : Kind → Word
  | unknown => 0
  | explicitIHalt => 1
  | missingOpcode => 2
  | missingParameter => 3
  | stackOverflow => 4
  | stackUnderflow => 5
  | invalidOpcode => 6
  | invalidRegister => 7
  | jumpOutOfRange => 8

/-- The kind of fault that a word stands for, if it stands for one. -/
def ofCode? (w : Word) : Option Kind := all.find? (·.code = w)

def label : Kind → String
  | unknown => "Unknown"
  | explicitIHalt => "ExplicitIHalt"
  | missingOpcode => "MissingOpcode"
  | missingParameter => "MissingOpcodeParameter"
  | stackOverflow => "StackOverflow"
  | stackUnderflow => "StackUnderflow"
  | invalidOpcode => "InvalidOpcode"
  | invalidRegister => "InvalidRegister"
  | jumpOutOfRange => "JumpOutOfRange"

@[simp] theorem ofCode?_code (k : Kind) : ofCode? k.code = some k := by
  cases k <;> decide

theorem ofCode?_eq_some_iff {w : Word} {k : Kind} : ofCode? w = some k ↔ k.code = w := by
  constructor
  · intro h
    simpa using List.find?_some h
  · rintro rfl
    exact ofCode?_code k

end Kind

def kind : Fault → Kind
  | unknown => .unknown
  | explicitIHalt => .explicitIHalt
  | missingOpcode => .missingOpcode
  | missingParameter _ => .missingParameter
  | stackOverflow => .stackOverflow
  | stackUnderflow => .stackUnderflow
  | invalidOpcode _ => .invalidOpcode
  | invalidRegister _ _ => .invalidRegister
  | jumpOutOfRange _ _ => .jumpOutOfRange

/-- Whether the program is to blame. It is, unless nobody knows what went wrong. -/
def blamesProgram (f : Fault) : Bool := f.kind ≠ .unknown

/-- A fault in words. -/
def message : Fault → String
  | unknown => "Unknown error (the interpreter halted without recording a reason)"
  | explicitIHalt => "IHALT instructions are not allowed in the bytecode stream"
  | missingOpcode => "Bytecode terminates without a HALT opcode"
  | missingParameter op =>
    "Opcode (" ++ op.mnemonic
      ++ ") requires more parameters than are available in the bytecode stream"
  | stackOverflow => "Stack overflow"
  | stackUnderflow => "Stack underflow"
  | invalidOpcode value => "Value " ++ Decimal.ofInt value.toInt ++ " is not a valid opcode"
  | invalidRegister op value =>
    "Opcode (" ++ op.mnemonic ++ ") refers to register " ++ Decimal.ofInt value.toInt
      ++ ", which does not exist"
  | jumpOutOfRange source offset =>
    "RJNE at " ++ Decimal.ofNat source.toNat ++ " jumps by " ++ Decimal.ofInt offset.toInt
      ++ ", before the start of the bytecode stream"

end Fault

end Wordcode
