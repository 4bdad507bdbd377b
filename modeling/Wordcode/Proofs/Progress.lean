import Mathlib.Data.Nat.Find
import Wordcode.Proofs.Budget
import Wordcode.Proofs.Grammar
import Wordcode.Proofs.Jumping

/-!
# Only backward jumps keep a program alive

Nothing limits a run, and a program may run forever. But to do so it has to jump back, again and
again: every other cycle either stops the machine or leaves it at a higher position than before
(`Machine.step_advances`), and positions behind the end of the program have no next cycle, since
there is nothing to decode. So the position itself is the measure. As long as no cycle jumps back,
the machine is at least as many words on as it has run cycles (`Machine.steps_advance`), and the
size of the program is all that it can run.

A jump by zero counts as one back here; it leads to the very same cycle. Jumps into the operands of
other instructions do not have to be told apart, and neither do jumps beyond the end: what matters
is where they lead and not what is there.
-/

namespace Wordcode

/-- Wherever there may be an `rjne`, its offset leads forward. -/
def Program.Forward (p : Program) : Prop :=
  ∀ (i : Nat) (v : Word), p[i]? = some 7 → p[i + 2]? = some v → 0 < v.toInt

namespace Machine

variable {m : Machine}

/-! ## Where a cycle leads -/

/-- The next cycle takes a jump, and not one that leads forward. -/
structure JumpsBack (m : Machine) : Prop where
  running : m.halted = false
  jumps : m.Jumps (m.program.decode m.ip)
  backward : ∃ r offset, m.program.HasAt m.ip.toNat (.rjne r offset) ∧ offset.toInt ≤ 0 ∧
    m.step.machine.halted = false ∧ (m.step.machine.ip.toNat : Int) = m.ip.toNat + offset.toInt

theorem Addressable.trap_step (h : m.Addressable) : m.step.trap = none :=
  trap_step_of_trap_steps (h.trap_steps 1)

theorem hasAt_of_step_running (h : m.Addressable) (goes : m.step.machine.halted = false) :
    ∃ c : Command, m.program.HasAt m.ip.toNat c ∧ m.program.decode m.ip = c.instruction := by
  have running := running_of_step_running goes
  rcases m.program.decode_cases m.ip with hcommand | ⟨f, -, hdecode⟩
  · exact hcommand
  · rw [step_of_running running, hdecode, execute_internalHalt_eq_clipped h.ip_lt] at goes
    cases goes

theorem step_advances (h : m.Addressable) (goes : m.step.machine.halted = false) :
    m.ip.toNat < m.step.machine.ip.toNat ∨ m.JumpsBack := by
  have running := running_of_step_running goes
  obtain ⟨c, hc, hdecode⟩ := hasAt_of_step_running h goes
  have hmachine : m.step.machine = (m.execute c.instruction).machine := by
    rw [step_of_running running, hdecode]
  have hdone : (m.execute c.instruction).trap = none := by
    rw [← h.trap_step, step_of_running running, hdecode]
  rcases execute_leads hdone (hmachine ▸ goes) with hpast | ⟨hjumps, hlands⟩
  · left
    rw [hmachine]
    omega
  · have hop : c.opcode = .rjne := hjumps.opcode
    cases c with
    | rjne r offset =>
        obtain ⟨htarget, -⟩ := Address.displace_eq_some_iff.mp hlands
        have hoffset : (Command.rjne r offset).instruction.slots[1] = offset := rfl
        rw [← hmachine, hoffset, Address.signed_eq_toNat h.ip_lt] at htarget
        by_cases hforward : 0 < offset.toInt
        · left
          omega
        · right
          refine ⟨running, ?_, r, offset, hc, by omega, goes, htarget⟩
          rw [hdecode]
          exact hjumps
    | _ => cases hop

/-! ## Where a run leads -/

/-- **The position is the measure.** As long as no cycle jumps back, each has led farther. -/
theorem steps_advance (h : m.Addressable) {k : Nat}
    (running : (steps k m).machine.halted = false)
    (forward : ∀ j < k, ¬ (steps j m).machine.JumpsBack) :
    m.ip.toNat + k ≤ (steps k m).machine.ip.toNat := by
  induction k with
  | zero => exact Nat.le_refl _
  | succ k ih =>
      have hlast : (steps (k + 1) m).machine = (steps k m).machine.step.machine := by
        rw [steps_succ_of_trap_eq_none (h.trap_steps k)]
      rw [hlast] at running ⊢
      have hfar := ih (running_of_step_running running) fun j hj => forward j (Nat.lt_succ_of_lt hj)
      rcases step_advances (addressable_steps h k) running with hmore | hback
      · omega
      · exact absurd hback (forward k (Nat.lt_succ_self k))

/-- So a run that does not jump back cannot have more cycles than the program has words, and one more
to end it. -/
theorem halted_of_forward (h : m.Addressable)
    (forward : ∀ k ≤ m.program.size, ¬ (steps k m).machine.JumpsBack) :
    (steps (m.program.size + 1) m).machine.halted = true := by
  by_contra hhalted
  have hgoes : (steps m.program.size m).machine.step.machine.halted = false := by
    rw [steps_succ_of_trap_eq_none (h.trap_steps _)] at hhalted
    simpa using hhalted
  -- By now the machine is behind the end, and yet it has found a command there.
  have hfar := steps_advance h (running_of_step_running hgoes) fun k hk =>
    forward k (Nat.le_of_lt hk)
  obtain ⟨c, hc, -⟩ := hasAt_of_step_running (addressable_steps h _) hgoes
  have hsize := hc.le_size
  have hlen := c.length_words
  rw [program_steps] at hsize
  omega

theorem not_jumpsBack_of_forward (h : m.program.Forward) : ¬ m.JumpsBack := by
  intro hback
  obtain ⟨r, offset, hc, hneg, -⟩ := hback.backward
  have hpos := h m.ip.toNat offset hc.spells.opcode (Program.getElem?_of_written hc (k := 1) rfl)
  omega

/-- A run that is over has come to its end at some cycle. -/
theorem exists_haltsAfter {n : Nat} (h : (steps n m).machine.halted = true) :
    ∃ k ≤ n, m.HaltsAfter k := by
  have hends : ∃ k, (steps k m).machine.halted = true := ⟨n, h⟩
  refine ⟨Nat.find hends, Nat.find_min' hends h, Nat.find_spec hends, ?_⟩
  intro k hk
  simpa using Nat.find_min hends hk

theorem exists_last_cycle {n : Nat} (running : m.halted = false)
    (h : (steps n m).machine.halted = true) :
    ∃ k < n, m.HaltsAfter (k + 1) ∧ (steps k m).trap = none ∧
      steps n m = (steps k m).andThen step := by
  obtain ⟨_ | k, hk, halts⟩ := exists_haltsAfter h
  · have hhalted : m.halted = true := halts.halted
    rw [running] at hhalted
    cases hhalted
  refine ⟨k, hk, halts, ?_, (steps_of_le_of_halted hk halts.halted).trans (steps_succ_last k m)⟩
  by_contra htrap
  have hhalted := halts.halted
  rw [steps_succ_of_trap_ne_none htrap, halts.running k (Nat.lt_succ_self k)] at hhalted
  cases hhalted

/-- **Only backward jumps keep a program alive.** Wherever a machine stands in the lower half of the
address space, and whatever it holds, within one cycle more than there are words in its program it
stops or jumps back. So a program in which no `rjne` leads back is over within so many cycles, and
may safely be run to its end. -/
theorem halted_or_jumpsBack {p : Program} (size : p.size ≤ Program.maxSize) :
    (∀ m : Machine, m.program = p → m.ip.toNat < 2 ^ 63 → m.halted = false →
      (∀ n, (steps n m).trap = none) ∧
        ((steps (p.size + 1) m).machine.halted = true ∨
          ∃ k < p.size + 1, (steps k m).machine.JumpsBack)) ∧
      (p.Forward → ∃ n ≤ p.size + 1, (load p).HaltsAfter n ∧
        (∃ o, (steps n (load p)).machine.outcome = some o) ∧
        ∀ {μ : Type → Type} [Monad μ] [LawfulMonad μ] (observe : Event → μ Unit),
          interpret observe (load p) = (load p).shown observe n n) := by
  constructor
  · rintro m rfl low running
    have h : m.Addressable := ⟨size, low⟩
    refine ⟨h.trap_steps, ?_⟩
    by_cases hback : ∃ k < m.program.size + 1, (steps k m).machine.JumpsBack
    · exact Or.inr hback
    · left
      apply halted_of_forward h
      intro k hk hjumps
      exact hback ⟨k, Nat.lt_succ_of_le hk, hjumps⟩
  · intro hforward
    have h : (load p).Addressable := ⟨size, Nat.two_pow_pos 63⟩
    have hover : (steps (p.size + 1) (load p)).machine.halted = true := by
      apply halted_of_forward h
      intro k _
      apply not_jumpsBack_of_forward
      rwa [program_steps]
    obtain ⟨n, hn, hends⟩ := exists_haltsAfter hover
    refine ⟨n, hn, hends, ?_, ?_⟩
    · apply Option.ne_none_iff_exists'.mp
      rw [Ne, outcome_eq_none_iff, hends.halted]
      simp
    · intro μ _ _ observe
      apply hends.interpret_eq observe h.trap_steps
      unfold Program.maxSize at size
      unfold cycleLimit UInt64.size
      omega

/-- `push 5; rjne a 2; halt` jumps into the operands of its own `rjne`, where the offset is a `pop`.
That is forward all the same. -/
theorem halted_or_jumpsBack_into_operand :
    let p : Program := #[1, 5, 7, 0, 2, 8]
    p.size ≤ Program.maxSize ∧ p.Forward ∧ ∃ n ≤ p.size + 1, (load p).HaltsAfter n := by
  intro p
  have size : p.size ≤ Program.maxSize := by decide
  have hforward : p.Forward := by
    intro i v hi hv
    rcases i with _ | _ | _ | _ | _ | _ | i
    case succ.succ.zero =>
      obtain rfl : 2 = v := by simpa [p] using hv
      decide
    all_goals simp [p] at hi
  obtain ⟨n, hn, hends, -⟩ := (halted_or_jumpsBack size).2 hforward
  exact ⟨size, hforward, n, hn, hends⟩

end Machine

end Wordcode
