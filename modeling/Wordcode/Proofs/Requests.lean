import Wordcode.Proofs.Driving
import Wordcode.Proofs.Runs
import Wordcode.Proofs.Stack.Bounded

/-!
# What can be asked of a machine

Whoever holds a machine may do more than run it from the start. The stack and the registers are open
to calls at any time, cycles can be taken one by one or to the end, and an instruction may be carried
out that was made by hand and is in no program. Each of these is a `Request`, to be made in any order
and as often as one likes, of a machine that is running or of one that has stopped.

A request is served by the function that answers to it; `Machine.serve` only brings their results
into one form. For `interpret`, which shows its events to an observer, the observer is one that keeps
them in order (`Machine.interpreted`).
-/

namespace Wordcode

/-- What can be asked of a machine from outside. -/
inductive Request where
  | call (c : StackCall)
  | setRegister (r : Register) (v : Word)
  | step
  | interpret
  | execute (i : Instruction)

namespace Machine

/-- A run to the end, with everything that was reported. -/
def interpreted (m : Machine) : Transition :=
  let kept : Ending × List Event :=
    (interpret (μ := StateM (List Event)) (fun e => modify (· ++ [e])) m).run []
  ⟨kept.1.machine, kept.2, kept.1.trap⟩

/-- Do as asked. -/
def serve (m : Machine) : Request → Transition
  | .call c => .refl (m.call c).2
  | .setRegister r v => .refl (m.setRegister r v)
  | .step => m.step
  | .interpret => m.interpreted
  | .execute i => m.execute i

/-- Serve several requests, one after another. Nothing is served after a trap. -/
def serveAll : List Request → Machine → Transition
  | [], m => .refl m
  | r :: rs, m => (m.serve r).andThen (serveAll rs)

/-- What is returned to whoever has made a request. -/
inductive Reply where
  | nothing
  | word (v : Word)
  | running (yes : Bool)
  | outcome (o : Option Outcome)
deriving DecidableEq

/-- What a request returns when it completes. -/
def reply (m : Machine) : Request → Reply
  | .call c =>
    match (m.call c).1 with
    | some v => .word v
    | none => .nothing
  | .setRegister _ _ | .execute _ => .nothing
  | .step => .running !m.step.machine.halted
  | .interpret => .outcome m.interpreted.machine.outcome

/-- What several requests return. One that a trap cuts short returns nothing, and is the last. -/
def replies : List Request → Machine → List Reply
  | [], _ => []
  | r :: rs, m =>
    if (m.serve r).trap = none then m.reply r :: replies rs (m.serve r).machine else []

/-! ## Runs to the end -/

theorem forM_keep (es kept : List Event) :
    (es.forM fun e => modify (· ++ [e]) : StateM (List Event) Unit).run kept = ((), kept ++ es) := by
  rw [forM_modify fun kept e => kept ++ [e]]
  simp [← List.flatMap_def]

theorem interpreted_of_halted {m : Machine} (h : m.halted = true) : m.interpreted = .refl m := by
  unfold interpreted
  rw [interpret_of_halted _ h]
  rfl

theorem interpreted_of_running {m : Machine} (running : m.halted = false) :
    m.interpreted = ⟨m.ending.machine, (steps cycleLimit m).events, m.ending.trap⟩ := by
  unfold interpreted
  rw [interpret_eq _ running]
  simp only [StateT.run_bind, forM_keep]
  rfl

end Machine

end Wordcode
