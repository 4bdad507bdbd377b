import Wordcode.Console.Log
import Wordcode.Json

/-!
# The final report

When a run is over, the final state is printed, as text or as structured output, and below it a
**tag** that tells a script how the run ended: it ended well, it faulted, or its budget ran out.
-/

namespace Wordcode

namespace Fault

/-- A fault in structured output: the kind alone, or the kind with its details. -/
def toJson (f : Fault) : Json :=
  match f with
  | missingParameter op => tagged (.text op.label)
  | invalidOpcode value => tagged (.number value.toInt)
  | invalidRegister op value =>
    tagged (.object [("opcode", .text op.label), ("value", .number value.toInt)])
  | jumpOutOfRange source offset =>
    tagged (.object [("from", .number source.toNat), ("offset", .number offset.toInt)])
  | unknown | explicitIHalt | missingOpcode | stackOverflow | stackUnderflow => .text f.kind.label
where
  tagged (details : Json) : Json := .object [(f.kind.label, details)]

end Fault

def Outcome.toJson : Outcome → Json
  | halted => .text "Halted"
  | faulted f => .object [("Faulted", f.toJson)]

def Snapshot.toJson (s : Snapshot) : Json :=
  .object [
    ("ip", .number s.ip.toNat),
    ("registers", .numbers (s.registers.toList.map Int32.toInt)),
    ("stack", .numbers (s.stack.map Int32.toInt)),
    ("outcome", (s.outcome.map Outcome.toJson).getD .null)]

namespace Console

/-- The forms that the final state can be printed in. -/
inductive Format where
  | text
  | json
deriving DecidableEq, Repr

def registersLine (registers : RegisterFile) : String :=
  "registers: " ++ " ".intercalate
    (Register.all.map fun r => r.name ++ "=" ++ Decimal.ofInt (registers.read r).toInt)

def stackLine (stack : List Word) : String := "stack: " ++ bracketed stack

/-- The final state, without its last line break. -/
def Format.render : Format → Snapshot → String
  | text, s => registersLine s.registers ++ "\n" ++ stackLine s.stack
  | json, s => s.toJson.pretty 0

/-- The tag below the final state. Only a run that had a budget can be left without an outcome. -/
def tag (maxSteps : UInt64) : Option Outcome → String
  | some .halted => "[VM:OK]"
  | some (.faulted f) => "[VM:IHALT:" ++ f.message ++ "]"
  | none => "[VM:LIMIT:" ++ Decimal.ofNat maxSteps.toNat ++ "]"

/-- The exit code for an outcome: zero if the program halted itself, and one otherwise. -/
def exitCode : Option Outcome → UInt32
  | some .halted => 0
  | _ => 1

end Console

end Wordcode
