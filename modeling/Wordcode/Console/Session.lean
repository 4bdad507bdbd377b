import Wordcode.Console.Arguments
import Wordcode.Console.Log.Filter
import Wordcode.Console.Samples
import Wordcode.Machine.Run
import Wordcode.Trace

/-!
# A command-line session

`Console.session` carries out what the command line asks for, and answers with an exit code. It writes
to a `Terminal`, which is two ways of putting a line out, one for results and one for everything
else; what putting a line out amounts to is left to the monad in which the terminal works. On a real
terminal the lines appear as the run goes on. In `Transcript.of` they are collected, and the whole
session is a pure function of the arguments.

What carries out a request (`Console.runProgram`) does not know how the request was read, nor what
decides about the log: it is given a function from records to the lines that are shown of them.

## Exit codes

* 0: the program halted itself, or there was no program to run.
* 1: anything else that a run can come to, and requests that make no sense.
* 2: the arguments could not be read.
* 101: the machine trapped.
-/

namespace Wordcode

namespace Console

/-- Where a session writes to, a line at a time. -/
structure Terminal (μ : Type → Type) where
  out : String → μ Unit
  err : String → μ Unit

/-- What is shown of an event while a program runs, the machine standing at `ip`: what the log has to
say about it, and then what the trace has. -/
def eventLines (log : Record → List String) (trace : Bool) (ip : Address) (e : Event) :
    List String :=
  let logged :=
    match e with
    | .decoded _ i =>
      match i.operands with
      | .ok ws => log (.decoded ip i.opcode ws)
      | .error _ => []
    | .faulted f => log (.faulted ip f)
    | .popped _ | .stored _ _ => []
  logged ++ if trace then e.traceLines else []

/-- Where the machine stands once an event has been reported: where the last instruction was
decoded. -/
def standsAt (ip : Address) : Event → Address
  | .decoded before _ => before.ip
  | _ => ip

/-- What goes wrong before a program is run. -/
inductive RequestError where
  | noProgram
  | unknownProgram (name : String)
deriving DecidableEq, Repr

def RequestError.message : RequestError → String
  | noProgram => "a program name or --code is required"
  | unknownProgram name => "unknown program '" ++ name ++ "' (see `picovm list`)"

/-- The program to run. -/
def RunRequest.program (r : RunRequest) : Except RequestError Program :=
  match r.code, r.sample with
  | some ws, _ => .ok ws.toArray
  | none, some name =>
    match Sample.find? name with
    | some s => .ok s.program
    | none => .error (.unknownProgram name)
  | none, none => .error .noProgram

def trapMessage : Trap → String
  | .operandsBeyondSlots => "more operands are in use than there are slots"
  | .addressOverflow => "an address does not fit 64 bits"
  | .cycleOverflow => "the count of cycles does not fit 64 bits"

variable {μ : Type → Type} [Monad μ]

/-- Show an event on a terminal. The state is where the machine stands. -/
@[inline]
def showEvent (t : Terminal μ) (log : Record → List String) (trace : Bool) (e : Event) :
    StateT Address μ Unit := do
  modify (standsAt · e)
  (eventLines log trace (← get) e).forM (t.err ·)

/-- What the log has to say when a run starts. Only one without a budget is worth a record. -/
def startLines (log : Record → List String) (maxSteps : UInt64) (m : Machine) : List String :=
  if maxSteps = 0 then log (.starting m) else []

/-- What it has to say when a run ends. A run that traps does not come to its end. -/
def endLines (log : Record → List String) (maxSteps : UInt64) (ending : Machine.Ending) :
    Option Outcome → List String
  | some outcome =>
    if maxSteps = 0 && ending.trap.isNone then log (.halted ending.cycles outcome) else []
  | none => []

/-- Run a machine within a budget, which is none if it is zero. -/
@[specialize]
def runMachine (t : Terminal μ) (log : Record → List String) (trace : Bool) (maxSteps : UInt64)
    (m : Machine) : μ (Machine.Ending × Option Outcome) := do
  (startLines log maxSteps m).forM t.err
  let (ending, outcome) ← (Machine.run (showEvent t log trace) maxSteps m).run' m.ip
  (endLines log maxSteps ending outcome).forM t.err
  pure (ending, outcome)

/-- Run a program and print its final state. -/
@[specialize]
def runProgram (t : Terminal μ) (log : Record → List String) (r : RunRequest) : μ UInt32 := do
  match r.program with
  | .error e =>
    t.err ("error: " ++ e.message)
    pure 1
  | .ok program =>
    let maxSteps := r.maxSteps.getD 0
    (log (.loaded program maxSteps)).forM t.err
    let (ending, outcome) ← runMachine t log r.trace maxSteps (Machine.load program)
    match ending.trap with
    | some trap =>
      t.err ("error: " ++ trapMessage trap)
      pure 101
    | none =>
      t.out ((r.format.getD .text).render ending.machine.snapshot)
      t.out (tag maxSteps outcome)
      pure (exitCode outcome)

def helpLines : Topic → List String
  | .all => [
    "picovm bytecode interpreter",
    "",
    "Usage: picovm <COMMAND>",
    "",
    "Commands:",
    "  run   Run a built-in program or an inline bytecode stream",
    "  list  List the built-in programs",
    "  help  Print this message or the help of the given subcommand(s)",
    "",
    "Options:",
    "  -h, --help  Print help"]
  | .run => [
    "Run a built-in program or an inline bytecode stream",
    "",
    "Usage: picovm run [OPTIONS] [PROGRAM]",
    "",
    "Arguments:",
    "  [PROGRAM]  Built-in program name (see `picovm list`)",
    "",
    "Options:",
    "      --code <CODE>            Comma-separated bytecode stream (e.g. 1,5,1,6,4,2,8)",
    "      --trace                  Print every executed instruction to stderr",
    "      --max-steps <MAX_STEPS>  Give up after this many cycles (0 = no limit) [default: 0]",
    "      --format <FORMAT>        How to print the final state [default: text] "
      ++ "[possible values: text, json]",
    "  -h, --help                   Print help"]
  | .list => [
    "List the built-in programs",
    "",
    "Usage: picovm list",
    "",
    "Options:",
    "  -h, --help  Print help"]
  | .help => [
    "Print this message or the help of the given subcommand(s)",
    "",
    "Usage: picovm help [COMMAND]...",
    "",
    "Arguments:",
    "  [COMMAND]...  Print help for the subcommand(s)"]

/-- Carry out what the arguments ask for. -/
@[specialize]
def session (t : Terminal μ) (filter : Filter) (arguments : List String) : μ UInt32 := do
  match Command.parse arguments with
  | .error e =>
    t.err ("error: " ++ e.message)
    pure 2
  | .ok (.help topic) =>
    (helpLines topic).forM t.out
    pure 0
  | .ok .list =>
    (Sample.all.map Sample.listing).forM t.out
    pure 0
  | .ok (.run r) => runProgram t filter.lines r

/-! ### Sessions as values -/

/-- Everything a session has put out. -/
structure Transcript where
  out : String := ""
  err : String := ""
deriving DecidableEq, Repr

/-- A terminal that writes everything down. -/
def Terminal.recording : Terminal (StateM Transcript) where
  out line := modify fun s => { s with out := s.out ++ line ++ "\n" }
  err line := modify fun s => { s with err := s.err ++ line ++ "\n" }

/-- A whole session: its exit code and all it put out. -/
def Transcript.of (filter : Filter) (arguments : List String) : UInt32 × Transcript :=
  (session Terminal.recording filter arguments).run {}

end Console

end Wordcode
