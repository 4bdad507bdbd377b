import Wordcode.Proofs.Verdicts

/-!
# A fault leaves the machine where it was

When an instruction cannot be carried out, the machine stops on it, and whoever looks for the reason
finds things as they were when the instruction came. That is not a matter of course: an instruction
may have taken something off the stack before it finds that it cannot go on. Only `add` does, and
only if there was a single word on the stack to begin with.

The live words and the registers stay, then, but the flags of the stack do not. The operation that
was refused has left its mark on one of them, and a jump out of range has looked at the stack
before. Which flag it is, and what it says, depends on the fault alone (`Fault.marks`).

All this is read off the ways to fail, `Machine.Faulting`. It holds whether or not the machine was
running, and of instructions that no program can contain (`Machine.execute_stands`).
-/

namespace Wordcode

def Stack.flags (s : Stack) : Bool × Bool := (s.overflow, s.underflow)

/-- The flags of a stack after a fault that carrying out an instruction has run into. -/
def Fault.marks : Fault → Bool × Bool → Bool × Bool
  | stackOverflow, (_, underflow) => (true, underflow)
  | stackUnderflow, (overflow, _) => (overflow, true)
  | jumpOutOfRange _ _, (overflow, _) => (overflow, false)
  | _, flags => flags

namespace Machine

/-! ## What is left behind -/

namespace Faulting

variable {m m' : Machine} {i : Instruction} {f : Fault}

theorem registers (h : m.Faulting i f m') : m'.registers = m.registers := by
  cases h <;> rfl

theorem entries (h : m.Faulting i f m') :
    m'.stack.entries =
      if i.opcode = .add ∧ m.stack.entries.length = 1 then [] else m.stack.entries := by
  cases h with
  | carried opcode _ => simp [opcode]
  | noRegister bad =>
      have hne : i.opcode ≠ .add := by
        obtain ⟨k, kind, -⟩ := bad
        rintro hop
        simp [hop, Opcode.operandKinds] at kind
      simp [hne]
  | full opcode full =>
      have hne : i.opcode ≠ .add := by rcases opcode with hop | hop <;> simp [hop]
      rw [Stack.length_entries] at full
      simp [Stack.entries_push, Stack.capacity, full, hne]
  | nothingToPop opcode empty => simp [Stack.entries_pop, empty]
  | nothingToSee opcode empty => simp [empty]
  | nothingToAdd opcode single =>
      obtain ⟨v, hv⟩ := List.length_eq_one_iff.mp single
      simp [Stack.entries_pop, opcode, hv]
  | outOfRange jumps _ => simp [jumps.opcode]

theorem flags (h : m.Faulting i f m') :
    m'.stack.flags = if i.opcode = .ihalt then m.stack.flags else f.marks m.stack.flags := by
  cases h with
  | carried opcode _ => simp [opcode]
  | noRegister _ => simp [Fault.marks]
  | full opcode full =>
      have hne : i.opcode ≠ .ihalt := by rcases opcode with hop | hop <;> simp [hop]
      rw [Stack.length_entries] at full
      simp [Stack.flags, Fault.marks, Stack.capacity, full, hne]
  | nothingToPop opcode empty =>
      have hne : i.opcode ≠ .ihalt := by rcases opcode with hop | hop | hop <;> simp [hop]
      simp [Stack.flags, Fault.marks, ← Stack.isEmpty_entries, empty, hne]
  | nothingToSee opcode empty =>
      simp [Stack.flags, Fault.marks, ← Stack.isEmpty_entries, empty, opcode]
  | nothingToAdd opcode single =>
      obtain ⟨v, hv⟩ := List.length_eq_one_iff.mp single
      simp [Stack.flags, Fault.marks, ← Stack.isEmpty_entries, Stack.entries_pop, hv, opcode]
  | outOfRange jumps _ =>
      have hlive := jumps.entries_ne_nil
      simp [Stack.flags, Fault.marks, ← Stack.isEmpty_entries, hlive, jumps.opcode]

/-- Two words have come off a stack that takes one sum. -/
theorem ne_stackOverflow_of_add (h : m.Faulting i f m') (hop : i.opcode = .add) :
    f ≠ .stackOverflow := by
  cases h with
  | full opcode _ | carried opcode _ => simp [hop] at opcode
  | _ => simp

end Faulting

/-! ## The machine that has stopped -/

/-- The machine `m'` is what the instruction `i` leaves of `m` when it fails with `f`. -/
structure Stands (m : Machine) (i : Instruction) (f : Fault) (m' : Machine) : Prop where
  program : m'.program = m.program
  ip : m'.ip = m.ip
  registers : m'.registers = m.registers
  halted : m'.halted = true
  fault : m'.fault = some f
  /-- The live words are the same, except that the only word there was is gone after an `add`. -/
  entries : m'.stack.entries =
    if i.opcode = .add ∧ m.stack.entries.length = 1 then [] else m.stack.entries
  /-- A fault that the instruction has carried leaves no mark. -/
  flags : m'.stack.flags =
    if i.opcode = .ihalt then m.stack.flags else f.marks m.stack.flags
  /-- There is always room for a sum. -/
  add : i.opcode = .add → f ≠ .stackOverflow

theorem conclude_stands {m : Machine} {i : Instruction} {f : Fault} {w : Work} (next : Address)
    (same : Unmoved m w.machine) (h : m.Faulting i f w.machine) (hf : w.verdict = .fault f) :
    (conclude next w).trap = none ∧ m.Stands i f (conclude next w).machine := by
  unfold conclude
  rw [hf]
  exact ⟨rfl, same.program, same.ip, h.registers, rfl, rfl, h.entries, h.flags,
    h.ne_stackOverflow_of_add⟩

theorem verdict_of_mem_faults {m : Machine} {i : Instruction} {f : Fault} {next : Address}
    (h : f ∈ (conclude next (m.perform i)).faults) : (m.perform i).verdict = .fault f := by
  rw [faults_conclude (m.perform_told i).faults] at h
  split at h
  · next g hg =>
    obtain rfl := List.mem_singleton.mp h
    exact hg
  · cases h

/-- **A fault leaves the machine where it was**, whether or not it was running, and whatever was
carried out: an instruction that was read from the program, or one that was made by hand. -/
theorem execute_stands {m : Machine} {i : Instruction} {f : Fault}
    (h : Event.faulted f ∈ (m.execute i).events) :
    (m.execute i).trap = none ∧ m.Stands i f (m.execute i).machine := by
  have hf := Transition.mem_faults.mpr h
  unfold execute at hf ⊢
  split at hf
  · next next hpast =>
    have hverdict := verdict_of_mem_faults hf
    exact conclude_stands next (m.perform_unmoved i) (faulting_of_verdict hverdict) hverdict
  · cases hf

/-- An `add` that finds a single word takes it away before it fails, also on a machine that has
stopped long ago. -/
theorem execute_stands_add_single :
    let m := ((load #[]).push 7).halt
    let add := Instruction.ofOperands .add []
    Event.faulted .stackUnderflow ∈ (m.execute add).events ∧
      m.Stands add .stackUnderflow (m.execute add).machine ∧
      (m.execute add).machine.stack.entries = [] ∧
      (m.execute add).machine.stack.flags = (false, true) := by
  intro m add
  have hfault : Event.faulted .stackUnderflow ∈ (m.execute add).events := by decide
  obtain ⟨-, hstands⟩ := execute_stands hfault
  exact ⟨hfault, hstands, hstands.entries, hstands.flags⟩

end Machine

end Wordcode
