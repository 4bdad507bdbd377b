import Wordcode.Fault

/-!
# Instructions

An instruction, once decoded, is an opcode with five operand **slots**, of which the first `count` are
in use. Most opcodes read their operands at fixed slots and never ask how many are in use; what the
count decides is how far the machine moves on, and what is shown of the operands in a listing.

## The reserved opcode

`ihalt` is different: it carries the fault that stops the machine, written out as words over its
slots — the code of the kind of fault, then the details. `Fault.toWords` is that form, and
`Fault.ofWords` reads it back. The form is tighter than the faults are: a slot has 32 bits, so the
source of a jump is cut down to the largest word, and words that spell no fault at all are read as
`Fault.unknown`.
-/

namespace Wordcode

def slotCount : Nat := 5

/-- The operand slots of an instruction. -/
abbrev Slots := Vector Word slotCount

namespace Slots

def fill (w : Word) : Slots := Vector.replicate slotCount w

/-- Write words over the slots from the first on. Slots beyond the last word keep what they hold, and
words beyond the last slot are dropped. -/
def overwrite (slots : Slots) (ws : List Word) : Slots :=
  Vector.ofFn fun i => ws.getD i slots[i]

end Slots

namespace Fault

/-! ### Faults as words -/

/-- The largest word, which stands for every address that is out of a word's reach. -/
def farSource : Word := Int32.maxValue

def sourceWord (source : Address) : Word :=
  if source.toNat ≤ farSource.toInt.toNat then Int32.ofNat source.toNat else farSource

/-- The details of a fault, one word each. -/
def details : Fault → List Word
  | unknown | explicitIHalt | missingOpcode | stackOverflow | stackUnderflow => []
  | missingParameter op => [op.code]
  | invalidOpcode value => [value]
  | invalidRegister op value => [op.code, value]
  | jumpOutOfRange source offset => [sourceWord source, offset]

/-- A fault as words: its kind, then its details. -/
def toWords (f : Fault) : List Word := f.kind.code :: f.details

/-- Write a fault over the slots from the first on. The number says how many of them it takes. -/
def encode (f : Fault) (slots : Slots) : Slots × Nat :=
  (slots.overwrite f.toWords, f.toWords.length)

/-- The fault of a kind whose details are given. Words beyond the ones that the kind needs do not
matter; it is `none` when one is missing or does not stand for what it has to. -/
def ofDetails? : Kind → List Word → Option Fault
  | .unknown, _ => some unknown
  | .explicitIHalt, _ => some explicitIHalt
  | .missingOpcode, _ => some missingOpcode
  | .missingParameter, op :: _ => (Opcode.ofCode? op).map missingParameter
  | .stackOverflow, _ => some stackOverflow
  | .stackUnderflow, _ => some stackUnderflow
  | .invalidOpcode, value :: _ => some (invalidOpcode value)
  | .invalidRegister, op :: value :: _ => (Opcode.ofCode? op).map (invalidRegister · value)
  | .jumpOutOfRange, source :: offset :: _ =>
    if 0 ≤ source.toInt then some (jumpOutOfRange (UInt64.ofNat source.toInt.toNat) offset) else none
  | _, _ => none

/-- The fault that words spell, which is `unknown` for words that spell none. -/
def ofWords : List Word → Fault
  | [] => unknown
  | code :: details => ((Kind.ofCode? code).bind (ofDetails? · details)).getD unknown

end Fault

/-! ### The instruction -/

/-- A decoded instruction. -/
structure Instruction where
  opcode : Opcode
  slots : Slots
  /-- How many of the slots are in use. An instruction built by hand can claim more than there are. -/
  count : Address
deriving DecidableEq

namespace Instruction

/-- An instruction with these operands. Of more than five, the first five are kept; slots that are
not in use hold zero. -/
def ofOperands (op : Opcode) (ws : List Word) : Instruction where
  opcode := op
  slots := (Slots.fill 0).overwrite ws
  count := UInt64.ofNat (min ws.length slotCount)

/-- The internal halt that carries `f`. -/
def internalHalt (f : Fault) : Instruction where
  opcode := .ihalt
  slots := (f.encode (Slots.fill 0)).1
  count := UInt64.ofNat (f.encode (Slots.fill 0)).2

/-- The operands in use. There are none to show if more are claimed than there are slots. -/
def operands (i : Instruction) : Except Trap (List Word) :=
  if i.count.toNat ≤ slotCount then .ok (i.slots.toList.take i.count.toNat)
  else .error .operandsBeyondSlots

def isInternalHalt (i : Instruction) : Bool := i.opcode = .ihalt

/-- The fault that the operands spell, which is what an internal halt stops the machine with. -/
def spelledFault (i : Instruction) : Except Trap Fault := i.operands.map Fault.ofWords

/-- The fault that an internal halt carries; other instructions carry none. -/
def fault? (i : Instruction) : Except Trap (Option Fault) :=
  if i.isInternalHalt then i.spelledFault.map some else .ok none

end Instruction

end Wordcode
