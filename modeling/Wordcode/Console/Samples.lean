import Wordcode.Program

/-!
# Built-in programs

A handful of short programs to try the machine on: three that end well, one that never ends, and three
that are malformed, each in a way of its own.
-/

namespace Wordcode

/-- The program that a sequence of opcodes and operands spells. It is not checked in any way. -/
def Program.assemble (lines : List (Opcode × List Word)) : Program :=
  (lines.flatMap fun (op, operands) => op.code :: operands).toArray

namespace Console

/-- A built-in program. -/
structure Sample where
  name : String
  about : String
  program : Program

namespace Sample

def all : List Sample := [
  { name := "add"
    about := "Push 5 and 6, add them, pop the result"
    program := .assemble [(.push, [5]), (.push, [6]), (.add, []), (.pop, []), (.halt, [])] },
  { name := "registers"
    about := "Load two registers, add them with RADD, then add 6"
    program := .assemble [
      (.push, [3]), (.set, [Register.a.code]), (.rdec, [Register.a.code]),
      (.push, [3]), (.set, [Register.b.code]),
      (.radd, [Register.a.code, Register.b.code]),
      (.push, [6]), (.add, []), (.pop, []), (.halt, [])] },
  { name := "countdown"
    about := "Count REG_F down from 10 with an RJNE loop"
    program := .assemble [
      (.push, [10]), (.set, [Register.f.code]), (.push, [0]),
      (.rdec, [Register.f.code]), (.rjne, [Register.f.code, -2]), (.halt, [])] },
  { name := "spin"
    about := "RJNE with offset 0; never halts (use --max-steps)"
    program := .assemble [(.push, [1]), (.rjne, [Register.a.code, 0]), (.halt, [])] },
  { name := "no-halt"
    about := "Runs off the end of the stream"
    program := .assemble [(.push, [1]), (.pop, [])] },
  { name := "truncated"
    about := "PUSH without its operand"
    program := .assemble [(.nop, []), (.push, [])] },
  { name := "underflow"
    about := "ADD with a single value on the stack"
    program := .assemble [(.push, [1]), (.add, []), (.halt, [])] }]

def find? (name : String) : Option Sample := all.find? (·.name = name)

/-- The line that lists a program: its name, filled up to twelve columns, and what it does. -/
def listing (s : Sample) : String :=
  s.name ++ String.ofList (List.replicate (12 - s.name.length) ' ') ++ " " ++ s.about

end Sample

end Console

end Wordcode
