import Wordcode.Proofs.Budget
import Wordcode.Proofs.Grammar
import Wordcode.Proofs.Jumping
import Wordcode.Proofs.Likeness.Visible

/-!
# A state that comes back, comes back for ever

The machine does not look for loops, and does not break them. A jump by zero is an instruction like
any other, and whoever runs a program without a budget may wait for ever.

How long that is can be told as soon as a run shows the same twice (`Machine.Recurs`): the same place,
registers and live words. What a machine does next depends on nothing else, neither on the flags nor
on words that have been popped (`SameView.steps`). So from then on the run goes in circles, and does
so for as many cycles as one likes (`Machine.recurs_forever`). A machine that `Machine.Spins` is the
shortest circle of all.
-/

namespace Wordcode

namespace Machine

variable {m m' : Machine}

/-- After `i` and after `j` cycles the machine is running, and both times shows the same: where it
stands, its registers, and the words on its stack. The flags may differ. -/
structure Recurs (m : Machine) (i j : Nat) : Prop where
  running : (steps i m).machine.halted = false
  running_again : (steps j m).machine.halted = false
  ip : (steps j m).machine.ip = (steps i m).machine.ip
  registers : (steps j m).machine.registers = (steps i m).machine.registers
  entries : (steps j m).machine.stack.entries = (steps i m).machine.stack.entries

/-- The machine stands on an `rjne` by zero, and has to jump. -/
structure Spins (m : Machine) (r : Register) : Prop where
  running : m.halted = false
  written : m.program.HasAt m.ip.toNat (.rjne r 0)
  differs : ∃ top, m.stack.entries.getLast? = some top ∧ m.register r ≠ top

namespace Recurs

variable {i j : Nat}

/-- A run that comes back has put nothing on record in between. -/
theorem sameView (h : m.Recurs i j) : (steps i m).machine.SameView (steps j m).machine where
  program := (program_steps m j).trans (program_steps m i).symm
  ip := h.ip
  registers := h.registers
  entries := h.entries
  halted := h.running_again.trans h.running.symm
  fault := (fault_steps_of_running h.running_again).trans (fault_steps_of_running h.running).symm

theorem of_sameView (view : (steps i m).machine.SameView (steps j m).machine)
    (running : (steps i m).machine.halted = false) : m.Recurs i j where
  running := running
  running_again := view.halted.trans running
  ip := view.ip
  registers := view.registers
  entries := view.entries

section

variable (done : ∀ n, (steps n m).trap = none) (h : m.Recurs i j)

include done h

theorem sameView_add (k : Nat) :
    (steps (i + k) m).machine.SameView (steps (j + k) m).machine := by
  rw [steps_add, steps_add, Transition.andThen_of_trap_eq_none (done i),
    Transition.andThen_of_trap_eq_none (done j)]
  exact (h.sameView.steps k).machine

theorem running_steps (hij : i < j) (n : Nat) : (steps n m).machine.halted = false := by
  -- A cycle beyond `j` is taken back by one round.
  induction n using Nat.strongRecOn with
  | _ n ih =>
      rcases Nat.lt_or_ge j n with hlt | hle
      · obtain ⟨k, rfl⟩ := Nat.exists_eq_add_of_lt hlt
        have hback := ih (i + (k + 1)) (by omega)
        rw [Nat.add_assoc, (h.sameView_add done (k + 1)).halted]
        exact hback
      · exact running_of_le hle h.running_again

theorem forever (hij : i < j) {n : Nat} (hn : i ≤ n) : m.Recurs n (n + (j - i)) := by
  obtain ⟨k, rfl⟩ := Nat.exists_eq_add_of_le hn
  have hround : i + k + (j - i) = j + k := by omega
  rw [hround]
  exact of_sameView (h.sameView_add done k) (h.running_steps done hij (i + k))

end

end Recurs

/-! ## Spinning -/

/-- A jump by zero leaves everything as it was, the underflow bit aside. -/
theorem Spins.sameView_step {r : Register} (h : m.Spins r) (low : m.ip.toNat < 2 ^ 63) :
    m.SameView m.step.machine := by
  obtain ⟨top, htop, hne⟩ := h.differs
  have jumps : m.Jumps (Command.rjne r 0).instruction := ⟨rfl, r, top, rfl, htop, hne⟩
  have hcount := (Command.rjne r 0).count_instruction
  have past : m.ip.toNat + (Command.rjne r 0).instruction.count.toNat + 1 < 2 ^ 64 := by
    simp only [Command.operands, List.length_cons, List.length_nil] at hcount
    omega
  have hsum : m.ip.signed + (0 : Word).toInt = m.ip.toNat := by
    rw [Address.signed_eq_toNat low]
    exact Int.add_zero _
  obtain ⟨target, htarget, hexecute⟩ :=
    lands_of_signed jumps past rfl h.running hsum (by omega) (by omega)
  have hmachine : m.step.machine = { m.peek.2 with ip := target } := by
    rw [step_of_running h.running, Program.decode_of_hasAt h.written, hexecute]
  have hstay : target = m.ip := UInt64.toNat_inj.mp (Int.ofNat.inj htarget)
  rw [hmachine]
  exact ⟨rfl, hstay, rfl, m.stack.entries_peek, rfl, rfl⟩

theorem Spins.recurs {r : Register} (h : m.Spins r) (size : m.program.size ≤ Program.maxSize)
    (low : m.ip.toNat < 2 ^ 63) (n : Nat) : m.Recurs 0 n := by
  have hm : m.Addressable := ⟨size, low⟩
  have hfirst : m.step.machine = (steps 1 m).machine := by
    rw [steps_succ_of_trap_eq_none rfl]
    rfl
  have honce : m.Recurs 0 1 := .of_sameView (hfirst ▸ h.sameView_step low) h.running
  induction n with
  | zero => exact ⟨h.running, h.running, rfl, rfl, rfl⟩
  | succ n ih =>
      have hmore := honce.forever hm.trap_steps Nat.one_pos (Nat.zero_le n)
      exact .of_sameView (ih.sameView.trans hmore.sameView) h.running

/-- **A state that comes back, comes back for ever.** Take any machine that stands in the lower half
of the address space, and let it show the same after `i` and after `j` cycles, running both times.
Then it does so again and again, `j - i` cycles apart, from `i` on: it never stops, and no budget
brings an outcome. In particular a machine that has to jump by zero never shows anything else. -/
theorem recurs_forever {m : Machine} (size : m.program.size ≤ Program.maxSize)
    (low : m.ip.toNat < 2 ^ 63) :
    (∀ n, (steps n m).trap = none) ∧
      (∀ i j, i < j → m.Recurs i j →
        (∀ n, i ≤ n → m.Recurs n (n + (j - i))) ∧
        (∀ n, (steps n m).machine.halted = false) ∧
        ∀ {μ : Type → Type} [Monad μ] [LawfulMonad μ] (observe : Event → μ Unit),
          (∀ b, drive observe b m = m.shown observe b b ∧ (steps b m).machine.outcome = none) ∧
          ∀ b : UInt64, b ≠ 0 →
            run observe b m = (·, none) <$> m.shown observe b.toNat b.toNat) ∧
      ∀ r, m.Spins r → ∀ n, m.Recurs 0 n := by
  have hm : m.Addressable := ⟨size, low⟩
  refine ⟨hm.trap_steps, ?_, fun r h => h.recurs size low⟩
  intro i j hij h
  have running := h.running_steps hm.trap_steps hij
  refine ⟨fun n => h.forever hm.trap_steps hij, running, ?_⟩
  intro μ _ _ observe
  constructor
  · intro b
    exact ⟨drive_eq_of_running observe (hm.trap_steps b) (running b),
      outcome_eq_none_iff.mpr (running b)⟩
  · intro b hne
    exact run_eq_of_running observe hne (hm.trap_steps _) (running _)

/-- `nop; rjne a (-1)`, with a word pushed from outside onto a stack that has been found empty: its
first round clears the underflow bit, so the state that comes back after two cycles is not quite the
same. The run has not stopped after a million of them. An `rjne a 0` spins on the spot. -/
theorem recurs_forever_nop_loop :
    let m := (load #[0, 7, 0, -1]).pop.2.push 1
    let spinning := (load #[7, 0, 0]).push 1
    m.program.size ≤ Program.maxSize ∧ m.ip.toNat < 2 ^ 63 ∧ m.Recurs 0 2 ∧
      m.stack.underflow = true ∧ (steps 2 m).machine.stack.underflow = false ∧
      (steps 1000000 m).machine.halted = false ∧
      m.Recurs 1000001 1000003 ∧
      spinning.Spins .a ∧ spinning.Recurs 0 1000000 := by
  intro m spinning
  have size : m.program.size ≤ Program.maxSize := by decide
  have hback : m.Recurs 0 2 := ⟨by decide, by decide, by decide, by decide, by decide⟩
  have hspins : spinning.Spins .a := ⟨rfl, ⟨[], rfl⟩, 1, by decide, by decide⟩
  obtain ⟨-, hrounds, -⟩ := recurs_forever size (by decide)
  obtain ⟨hforever, hrunning, -⟩ := hrounds 0 2 (by decide) hback
  obtain ⟨-, -, hstays⟩ := recurs_forever (m := spinning) (by decide) (by decide)
  exact ⟨size, by decide, hback, by decide, by decide, hrunning 1000000,
    hforever 1000001 (by decide), hspins, hstays .a hspins 1000000⟩

end Machine

end Wordcode
