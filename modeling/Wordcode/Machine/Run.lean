import Wordcode.Machine.Execute

/-!
# Running a machine

A **cycle** decodes the instruction that the machine stands on, reports it, and carries it out; a
halted machine has no cycles left in it, and `Machine.step` does nothing. Everything else is
iteration. There is no limit to how long a program may run, and a jump by zero is a legitimate way
of running forever, so whoever cares brings a budget.

## Ways to iterate

`Machine.steps` is the plain one: so many cycles, and all their events in one list. It is what there
is to say about runs.

Programs are run with loops that hand every event to an **observer** as it comes, in whatever monad
the observer works — collecting text, printing it, or doing nothing at all. There are two of them, and
they look at the machine at different times:

* `Machine.interpret` goes on while the machine is running, and asks *before* each cycle whether it is.
  There is no budget, but the cycles are counted, and the count has 64 bits.
* `Machine.drive` takes so many cycles, and leaves off *after* one that has stopped the machine.

`Machine.run` is what a budget given by a user comes to: zero is none at all, so the first loop is
taken then, and the second otherwise. It also says how the run has come out, which is nothing if the
budget has run out first.

Both loops are the same run as far as they go. An `interpret` that leaves room for the count is a
`drive` with any budget that reaches its end; on a machine that has stopped already, where the first
takes no cycle and the second takes an idle one, nothing is shown or changed by either. All that is
ever said about them goes through `steps` (`driveFrom_eq`, and `interpret_eq` further on).
-/

namespace Wordcode

namespace Machine

/-- Run one cycle, unless the machine has halted. -/
def step (m : Machine) : Transition :=
  if m.halted then .refl m
  else
    let i := m.program.decode m.ip
    let t := m.execute i
    { t with events := .decoded m i :: t.events }

/-- Run `n` cycles. -/
def steps : Nat → Machine → Transition
  | 0, m => .refl m
  | n + 1, m => m.step.andThen (steps n)

/-! ### Runs under observation -/

/-- The end of a run under observation. -/
structure Ending where
  machine : Machine
  /-- How many cycles it was asked for. -/
  cycles : Nat
  trap : Option Trap

/-- Run cycles, at most `budget` of them, until the machine stops. Each event is shown to `observe`
before the next cycle begins; `count` cycles are taken to have gone before. -/
@[specialize]
def driveFrom {μ : Type → Type} [Monad μ] (observe : Event → μ Unit) :
    (count budget : Nat) → Machine → μ Ending
  | count, 0, m => pure ⟨m, count, none⟩
  | count, budget + 1, m => do
    let t := m.step
    t.events.forM observe
    if t.trap.isSome || t.machine.halted then
      pure ⟨t.machine, count + 1, t.trap⟩
    else
      driveFrom observe (count + 1) budget t.machine

/-- Run at most `budget` cycles, or until the machine stops. -/
@[inline]
def drive {μ : Type → Type} [Monad μ] (observe : Event → μ Unit) (budget : Nat) (m : Machine) :
    μ Ending :=
  driveFrom observe 0 budget m

/-- One more than the count of cycles can hold. -/
def cycleLimit : Nat := UInt64.size

/-- Run cycles while the machine is running. After each of them the count goes up by one, for which
there has to be `room`; if there is none left that is a trap, even if the cycle was the last. -/
@[specialize]
def interpretFrom {μ : Type → Type} [Monad μ] (observe : Event → μ Unit) :
    (count room : Nat) → Machine → μ Ending
  | count, 0, m => pure ⟨m, count, some .cycleOverflow⟩
  | count, room + 1, m =>
    if m.halted then pure ⟨m, count, none⟩
    else do
      let t := m.step
      t.events.forM observe
      if t.trap.isSome then
        pure ⟨t.machine, count + 1, t.trap⟩
      else
        interpretFrom observe (count + 1) room t.machine

/-- Run until the machine stops. -/
@[inline]
def interpret {μ : Type → Type} [Monad μ] (observe : Event → μ Unit) (m : Machine) : μ Ending :=
  interpretFrom observe 0 cycleLimit m

/-- How a run to the end has come out. A machine that has stopped always has an outcome
(`outcome_eq_none_iff`); the other case is there to make this a function. -/
def Ending.outcome (e : Ending) : Outcome := e.machine.outcome.getD (.faulted .unknown)

/-- Run within a budget, or to the end if the budget is zero. There is no outcome if the budget has run
out before the machine has stopped. -/
@[inline]
def run {μ : Type → Type} [Monad μ] (observe : Event → μ Unit) (budget : UInt64) (m : Machine) :
    μ (Ending × Option Outcome) := do
  if budget = 0 then
    let ending ← interpret observe m
    pure (ending, some ending.outcome)
  else
    let ending ← drive observe budget.toNat m
    pure (ending, ending.machine.outcome)

/-! ### The ways agree

Whatever an observer does with the events, it is shown the ones that `steps` lists, in that order, and
the machine ends where `steps` takes it. In particular nothing that an observer does can change the
run. -/

theorem step_of_halted {m : Machine} (h : m.halted = true) : m.step = .refl m := by
  simp [step, h]

/-- A machine that has stopped is not moved by any number of cycles. -/
theorem steps_of_halted {m : Machine} (h : m.halted = true) (n : Nat) : steps n m = .refl m := by
  induction n with
  | zero => rfl
  | succ n ih =>
    rw [steps, step_of_halted h]
    show (Transition.refl m).andThen (steps n) = _
    simp [Transition.andThen, Transition.refl, ih]

/-- How many cycles a run asks for before it ends, or before `budget` of them are used up. -/
def cyclesWithin : (budget : Nat) → Machine → Nat
  | 0, _ => 0
  | budget + 1, m =>
    let t := m.step
    if t.trap.isSome || t.machine.halted then 1 else cyclesWithin budget t.machine + 1

theorem driveFrom_eq {μ : Type → Type} [Monad μ] [LawfulMonad μ] (observe : Event → μ Unit)
    (count budget : Nat) (m : Machine) :
    driveFrom observe count budget m = (do
      (steps budget m).events.forM observe
      pure ⟨(steps budget m).machine, count + cyclesWithin budget m, (steps budget m).trap⟩) := by
  induction budget generalizing count m with
  | zero => simp [driveFrom, steps, Transition.refl, cyclesWithin]
  | succ n ih =>
    simp only [driveFrom, steps, Transition.andThen, cyclesWithin]
    cases trapped : m.step.trap with
    | some t => simp [trapped]
    | none =>
      by_cases stopped : m.step.machine.halted = true
      · simp [stopped, steps_of_halted stopped, Transition.refl]
      · simp [stopped, ih, List.forM_append, Nat.add_comm 1, Nat.add_assoc]

theorem drive_eq {μ : Type → Type} [Monad μ] [LawfulMonad μ] (observe : Event → μ Unit)
    (budget : Nat) (m : Machine) :
    drive observe budget m = (do
      (steps budget m).events.forM observe
      pure ⟨(steps budget m).machine, cyclesWithin budget m, (steps budget m).trap⟩) := by
  simp [drive, driveFrom_eq]

end Machine

end Wordcode
