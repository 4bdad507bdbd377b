import Wordcode.Machine.Transition

/-!
# The log

Beside its output, a run keeps a log. A **record** of the log says how much it matters (its level),
which part of the program it is from (its component), and what happened, in a message with named
values behind it. Whether a record is shown is for a filter to decide; how it is shown is
`Record.text`.

Three things are worth a record: that a run starts or ends, that an instruction was decoded, and that
the machine stopped a malformed program.
-/

namespace Wordcode

namespace Fault

/-- A fault in the log: the kind, and the details under their names. -/
def logText (f : Fault) : String :=
  f.kind.label ++
    match f with
    | missingParameter op => "(" ++ op.label ++ ")"
    | invalidOpcode value => "(" ++ Decimal.ofInt value.toInt ++ ")"
    | invalidRegister op value =>
      " \x7b opcode: " ++ op.label ++ ", value: " ++ Decimal.ofInt value.toInt ++ " \x7d"
    | jumpOutOfRange source offset =>
      " \x7b from: " ++ Decimal.ofNat source.toNat ++ ", offset: " ++ Decimal.ofInt offset.toInt
        ++ " \x7d"
    | unknown | explicitIHalt | missingOpcode | stackOverflow | stackUnderflow => ""

end Fault

def Outcome.logText : Outcome → String
  | halted => "Halted"
  | faulted f => "Faulted(" ++ f.logText ++ ")"

/-- Words between brackets, with commas between them. -/
def bracketed (ws : List Word) : String :=
  "[" ++ ", ".intercalate (ws.map fun w => Decimal.ofInt w.toInt) ++ "]"

namespace Console

/-- How much a record matters. -/
inductive Level where
  | error
  | warn
  | info
  | debug
  | trace
deriving DecidableEq, Repr

namespace Level

/-- The number of a level, from the most to the least important. -/
def rank : Level → Nat
  | error => 1
  | warn => 2
  | info => 3
  | debug => 4
  | trace => 5

def name : Level → String
  | error => "ERROR"
  | warn => "WARN"
  | info => "INFO"
  | debug => "DEBUG"
  | trace => "TRACE"

end Level

/-- The parts of the program that write to the log. -/
inductive Component where
  | commandLine
  | cycle
  | execution
deriving DecidableEq, Repr

/-- The path of a component, which is what it goes by in log settings. -/
def Component.path : Component → String
  | commandLine => "picovm"
  | cycle => "picovm_vm::vm"
  | execution => "picovm_vm::exec"

/-- A record of the log. -/
structure Record where
  level : Level
  component : Component
  message : String
  values : List (String × String)
deriving DecidableEq, Repr

namespace Record

/-- The names of everything in a record: the message has one, too. -/
def fields (r : Record) : List String := "message" :: r.values.map Prod.fst

def text (r : Record) : String :=
  r.level.name ++ " " ++ r.message
    ++ String.join (r.values.map fun (name, value) => " " ++ name ++ "=" ++ value)

/-! ### What is recorded -/

/-- A program is about to be run; the budget is zero if there is none. -/
def loaded (program : Program) (maxSteps : UInt64) : Record where
  level := .debug
  component := .commandLine
  message := "program loaded"
  values := [
    ("len", Decimal.ofNat program.size), ("max_steps", Decimal.ofNat maxSteps.toNat)]

def starting (m : Machine) : Record where
  level := .debug
  component := .cycle
  message := "interpreter starting"
  values := [("program_len", Decimal.ofNat m.program.size), ("ip", Decimal.ofNat m.ip.toNat)]

def halted (cycles : Nat) (outcome : Outcome) : Record where
  level := .debug
  component := .cycle
  message := "interpreter halted"
  values := [("steps", Decimal.ofNat cycles), ("outcome", outcome.logText)]

def decoded (ip : Address) (op : Opcode) (operands : List Word) : Record where
  level := .trace
  component := .cycle
  message := "decoded"
  values := [
    ("ip", Decimal.ofNat ip.toNat), ("opcode", op.mnemonic), ("params", bracketed operands)]

def faulted (ip : Address) (f : Fault) : Record where
  level := .warn
  component := .execution
  message := "invalid program detected: " ++ f.message
  values := [("ip", Decimal.ofNat ip.toNat), ("code", f.kind.label)]

end Record

end Console

end Wordcode
