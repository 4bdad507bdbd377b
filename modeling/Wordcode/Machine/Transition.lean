import Wordcode.Machine

/-!
# Events and transitions

Whatever happens to a machine is a `Transition`: the machine as it is afterwards, the **events** that
were reported on the way, in order, and the trap that cut things short, if one did. A trap does not
undo anything — the machine is left as it was when the trap sprang.

Events are all that an onlooker is told. They are values, not calls: what to make of them is up to
whoever reads them, and nobody who reads them can disturb the run.
-/

namespace Wordcode

/-- What is reported about a run. -/
inductive Event where
  /-- An instruction was decoded, and the machine is about to carry it out. -/
  | decoded (before : Machine) (instruction : Instruction)
  | popped (value : Word)
  | stored (r : Register) (value : Word)
  | faulted (fault : Fault)
deriving DecidableEq

/-- The effect of an operation on a machine. -/
structure Transition where
  machine : Machine
  events : List Event
  trap : Option Trap
deriving DecidableEq

namespace Transition

def refl (m : Machine) : Transition := ⟨m, [], none⟩

/-- One transition after another. Nothing follows a trap. -/
def andThen (t : Transition) (next : Machine → Transition) : Transition :=
  match t.trap with
  | some _ => t
  | none =>
    let u := next t.machine
    ⟨u.machine, t.events ++ u.events, u.trap⟩

end Transition

end Wordcode
