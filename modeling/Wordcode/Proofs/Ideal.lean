import Mathlib.Algebra.Group.Nat.Defs
import Wordcode.Machine
import Wordcode.Proofs.Command

/-!
# The ideal machine

The machine as one would draw it on a board: a position that is a plain number, a list for a stack,
six registers, and how the run has ended if it has. It has no flags, no pointer and no cells; it
asks how long its list is. It knows no internal halts either: what is wrong at a position is found
while fetching from it, and stops the machine at once.

`Ideal.step` is all there is to it, and `Ideal.run` is so many of them. What a run reports is a list
of `Signal`s.
-/

namespace Wordcode

/-- What the ideal machine reports. -/
inductive Signal where
  | popped (v : Word)
  | stored (r : Register) (v : Word)
  | faulted (f : Fault)
deriving DecidableEq, Repr

/-- The state of the ideal machine. -/
@[ext]
structure Ideal where
  ip : Nat
  stack : List Word
  registers : Register → Word
  /-- How the run ended; `none` while it is running. -/
  outcome : Option Outcome
  /-- The stack holds no more than 256 words. -/
  bounded : stack.length ≤ 256

namespace Ideal

def start : Ideal where
  ip := 0
  stack := []
  registers := fun _ => 0
  outcome := none
  bounded := Nat.zero_le 256

/-! ## The parts of a step -/

def goto (s : Ideal) (target : Nat) : Ideal := { s with ip := target }

/-- The state with `v` on top. -/
def pushed (s : Ideal) (v : Word) (room : s.stack.length < 256) : Ideal :=
  { s with
    stack := s.stack ++ [v]
    bounded := by rw [List.length_append]; exact room }

/-- The state without the top word. -/
def popped (s : Ideal) : Ideal :=
  { s with
    stack := s.stack.dropLast
    bounded := by
      have := s.bounded
      rw [List.length_dropLast]
      omega }

def stored (s : Ideal) (r : Register) (v : Word) : Ideal :=
  { s with registers := fun q => if q = r then v else s.registers q }

@[simp] theorem goto_stack (s : Ideal) (target : Nat) : (s.goto target).stack = s.stack := rfl

@[simp] theorem pushed_stack (s : Ideal) (v : Word) (room : s.stack.length < 256) :
    (s.pushed v room).stack = s.stack ++ [v] := rfl

@[simp] theorem popped_stack (s : Ideal) : s.popped.stack = s.stack.dropLast := rfl

/-- Stop because of a fault. -/
def fail (s : Ideal) (f : Fault) : Ideal × List Signal :=
  ({ s with outcome := some (.faulted f) }, [.faulted f])

def push (s : Ideal) (v : Word) (next : Nat) : Ideal × List Signal :=
  if room : s.stack.length < 256 then ((s.pushed v room).goto next, [])
  else s.fail .stackOverflow

/-- Go on at `next` with the top word in hand. -/
def take (s : Ideal) (use : Word → Ideal × List Signal) : Ideal × List Signal :=
  match s.stack.getLast? with
  | some v => use v
  | none => s.fail .stackUnderflow

/-- Jump by `offset`. -/
def jump (s : Ideal) (offset : Word) : Ideal × List Signal :=
  if s.ip + offset.toInt < 0 then s.fail (.jumpOutOfRange (UInt64.ofNat s.ip) offset)
  else (s.goto (s.ip + offset.toInt).toNat, [])

theorem push_of_room {s : Ideal} {v : Word} {next : Nat} (room : s.stack.length < 256) :
    s.push v next = ((s.pushed v room).goto next, []) := dif_pos room

theorem push_of_full {s : Ideal} {v : Word} {next : Nat} (full : ¬ s.stack.length < 256) :
    s.push v next = s.fail .stackOverflow := dif_neg full

theorem take_of_getLast? {s : Ideal} {v : Word} {use : Word → Ideal × List Signal}
    (h : s.stack.getLast? = some v) : s.take use = use v := by
  unfold take
  rw [h]

/-! ## Steps and runs -/

/-- Carry out a command, where `next` is the position past it. -/
def obey (s : Ideal) (next : Nat) : Command → Ideal × List Signal
  | .nop => (s.goto next, [])
  | .push v => s.push v next
  | .pop => s.take fun v => (s.popped.goto next, [.popped v])
  | .set r => s.take fun v => ((s.popped.stored r v).goto next, [.stored r v])
  | .add => s.take fun v => s.popped.take fun w => s.popped.popped.push (v + w) next
  | .radd r q => s.push (s.registers r + s.registers q) next
  | .rdec r => ((s.stored r (s.registers r - 1)).goto next, [])
  | .rjne r offset =>
    s.take fun top => if s.registers r = top then (s.goto next, []) else s.jump offset
  | .halt => ({ s with outcome := some .halted }, [])

/-- One step on a program: fetch a command and carry it out, unless the run is over. -/
def step (p : Program) (s : Ideal) : Ideal × List Signal :=
  match s.outcome with
  | some _ => (s, [])
  | none =>
    match p.fetch s.ip with
    | .error f => s.fail f
    | .ok c => s.obey (s.ip + c.words.length) c

def run (p : Program) : Nat → Ideal → Ideal × List Signal
  | 0, s => (s, [])
  | n + 1, s =>
    ((run p n (step p s).1).1, (step p s).2 ++ (run p n (step p s).1).2)

end Ideal

end Wordcode
