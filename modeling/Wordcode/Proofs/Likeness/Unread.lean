import Wordcode.Proofs.Likeness
import Wordcode.Proofs.Protocol

/-!
# A register that is not read does not matter

Only two opcodes look at a register: `radd` adds registers, and `rjne` compares one. The others that
name a register write to it, and what `rdec` writes depends on what was there, but stays there. So a
run that never adds or compares `r` is the same whatever `r` holds (`Machine.steps_unread`): it decodes
the same, reports the same, stops in the same way, and leaves everything but `r` the same.

The difference in `r` itself lasts until a word is stored there. From then on the two machines are
alike in all respects, and cannot part again.
-/

namespace Wordcode

theorem Register.code_inj {r s : Register} (h : r.code = s.code) : r = s := by
  have hread := congrArg Register.ofCode? h
  rw [Register.ofCode?_code, Register.ofCode?_code] at hread
  exact Option.some.inj hread

theorem Instruction.consults_iff {i : Instruction} {r : Register} :
    i.Consults r ↔
      (i.opcode = .radd ∧
        (i.slots.toList[0]? = some r.code ∨ i.slots.toList[1]? = some r.code)) ∨
      (i.opcode = .rjne ∧ i.slots.toList[0]? = some r.code) := by
  have first : i.slots.toList[0]? = some i.slots[0] := by simp
  have second : i.slots.toList[1]? = some i.slots[1] := by simp
  rw [first, second, Option.some_inj, Option.some_inj]
  constructor
  · rintro (⟨hop, hr⟩ | ⟨hop, hr⟩)
    · exact .inl ⟨hop, hr⟩
    · exact .inr ⟨hop, hr⟩
  · rintro (⟨hop, hr⟩ | ⟨hop, hr⟩)
    · exact .added hop hr
    · exact .compared hop hr

instance (i : Instruction) (r : Register) : Decidable (i.Consults r) :=
  decidable_of_iff _ Instruction.consults_iff.symm

namespace Likeness

/-- Only `r` may hold something else. -/
def besides (r : Register) : Likeness := { registers := (· ≠ r) }

/-- It takes a read of `r`, and nothing else, to tell such machines apart. -/
theorem spared_besides (r : Register) (t : Transition) : t.Spared (besides r) :=
  ⟨fun _ => rfl, t.machine.ideal.bounded, fun _ _ _ => rfl⟩

theorem spared_same (t : Transition) : t.Spared {} :=
  ⟨fun _ => rfl, t.machine.ideal.bounded, fun _ _ _ => rfl⟩

end Likeness

namespace Machine

variable {m m' : Machine} {r : Register} {n : Nat}

/-- The next cycle of `m` carries out a `set` of the register `r`, without a fault. -/
structure Stores (m : Machine) (r : Register) : Prop where
  running : m.halted = false
  opcode : (m.program.decode m.ip).opcode = .set
  operand : (m.program.decode m.ip).slots[0] = r.code
  sound : m.step.faults = []

/-- None of the first `n` cycles of `m` carries out an instruction that adds or compares `r`. -/
def NeverConsults (m : Machine) (r : Register) (n : Nat) : Prop :=
  ∀ k < n, (steps k m).machine.halted = false →
    ¬ ((steps k m).machine.program.decode (steps k m).machine.ip).Consults r

instance (m : Machine) (r : Register) (n : Nat) : Decidable (m.NeverConsults r n) :=
  inferInstanceAs (Decidable (∀ k < n, _ → _))

theorem setRegister_alike (m : Machine) (r : Register) (v : Word) :
    m.Alike (.besides r) (m.setRegister r v) where
  ip := (Nat.zero_add _).symm
  halted := rfl
  fault := fun _ => rfl
  entries := rfl
  overflow := fun _ => rfl
  underflow := fun _ => rfl
  registers := fun _ hq => RegisterFile.read_write_of_ne _ hq.symm v

/-! ## What a store does -/

/-- What is stored is the top of the stack, and nothing of what the register held. -/
theorem Stores.getLast?_entries (h : m.Stores r) (done : m.step.trap = none) :
    m.stack.entries.getLast? = some (m.step.machine.register r) := by
  obtain ⟨running, hop, hoperand, sound⟩ := h
  rw [step_of_running running] at done sound ⊢
  generalize m.program.decode m.ip = i at hop hoperand done sound ⊢
  obtain ⟨hfair, -, hregisters, -⟩ := execute_of_faults_eq_nil done sound
  cases m.perform_told i with
  | stopped hunfair _ => exact absurd hfair hunfair
  | popped v hpop => simp [hop] at hpop
  | silent _ hset => exact absurd hop hset
  | stored q v _ hq htop hheld _ _ =>
      obtain rfl : q = r := Register.code_inj (hq.symm.trans hoperand)
      rw [htop, register, hregisters]
      exact congrArg some hheld.symm

theorem Stores.step_alike (h : m.Stores r) (halike : m.Alike (.besides r) m')
    (hp : m'.program = m.program) : m.step.Alike (.besides r) m'.step := by
  apply halike.step_of_program hp rfl
  · intro _ q hq
    cases hq with
    | added hop _ | compared hop _ => simp [h.opcode] at hop
  · exact Likeness.spared_besides r _

theorem Stores.of_alike (h : m.Stores r) (halike : m.Alike (.besides r) m')
    (hp : m'.program = m.program) : m'.Stores r := by
  have hip : m'.ip = m.ip := UInt64.toNat_inj.mp (halike.ip.trans (Nat.zero_add _))
  refine ⟨halike.halted.trans h.running, ?_, ?_, ?_⟩
  · rw [hp, hip]
    exact h.opcode
  · simp only [hp, hip]
    exact h.operand
  · rw [Transition.faults_eq_of_reports (h.step_alike halike hp).reports]
    exact h.sound

/-- After a store the two machines are alike in all respects. -/
theorem Stores.alike_step (h : m.Stores r) (halike : m.Alike (.besides r) m')
    (hp : m'.program = m.program) (done : m.step.trap = none) :
    m.step.machine.Alike {} m'.step.machine := by
  have hstep := h.step_alike halike hp
  refine { hstep.machine with registers := ?_ }
  intro q _
  by_cases hq : q = r
  · subst hq
    have hstored := h.getLast?_entries done
    have hstored' := (h.of_alike halike hp).getLast?_entries (hstep.trap.trans done)
    have hentries : m'.stack.entries = m.stack.entries := halike.entries
    rw [hentries, hstored] at hstored'
    exact (Option.some.inj hstored').symm
  · exact hstep.machine.registers q hq

/-! ## Runs -/

theorem steps_besides {v : Word} (hm : m.NeverConsults r n) {k : Nat} (hk : k ≤ n) :
    (steps k m).Alike (.besides r) (steps k (m.setRegister r v)) := by
  apply (m.setRegister_alike r v).steps_of_step
  intro j hj _ halike
  have hp : (steps j (m.setRegister r v)).machine.program = (steps j m).machine.program := by
    rw [program_steps, program_steps]
    rfl
  apply halike.step_of_program hp rfl
  · rintro running q hq rfl
    exact hm j (Nat.lt_of_lt_of_le hj hk) running hq
  · exact Likeness.spared_besides r _

theorem alike_of_alike {k d : Nat} (done : (steps k m).trap = none)
    (done' : (steps k m').trap = none) (hp : m'.program = m.program)
    (h : (steps k m).machine.Alike {} (steps k m').machine) :
    (steps (k + d) m).machine.Alike {} (steps (k + d) m').machine := by
  rw [steps_add, steps_add, Transition.andThen_of_trap_eq_none done,
    Transition.andThen_of_trap_eq_none done']
  refine (h.steps_of_program ?_ rfl d (fun _ _ _ _ => trivial) fun _ _ _ => ?_).machine
  · rw [program_steps, program_steps, hp]
  · exact Likeness.spared_same _

/-- **A register that is not read does not matter.** Let the machines `m` and `m.setRegister r v` differ
in what `r` holds, and let `m` stand in the lower half of the address space. If none of the first `n`
cycles of `m` carries out a `radd` or an `rjne` that names `r`, then both complete their `n` cycles,
report the same, and end alike in all respects but `r`: with the same position, the same live stack
and flags, the same fault on record if any, and the same words in all other registers. From the first
cycle on that carries out a `set` of `r` without a fault, they hold the same in `r` as well. -/
theorem steps_unread (size : m.program.size ≤ Program.maxSize) (low : m.ip.toNat < 2 ^ 63)
    (r : Register) (v : Word) (n : Nat) (hm : m.NeverConsults r n) :
    let m' := m.setRegister r v
    (steps n m).trap = none ∧
      (steps n m).Alike (.besides r) (steps n m') ∧
      ∀ k < n, (steps k m).machine.Stores r → ∀ j, k < j → j ≤ n →
        (steps j m').machine.register r = (steps j m).machine.register r := by
  intro m'
  have done : ∀ j, (steps j m).trap = none := Addressable.trap_steps ⟨size, low⟩
  have done' : ∀ j ≤ n, (steps j m').trap = none :=
    fun j hj => (steps_besides hm hj).trap.trans (done j)
  refine ⟨done n, steps_besides hm (Nat.le_refl n), ?_⟩
  intro k hk hstores j hkj hj
  obtain ⟨d, rfl⟩ := Nat.exists_eq_add_of_le hkj
  have hstored : (steps (k + 1) m).machine.Alike {} (steps (k + 1) m').machine := by
    have hp : (steps k m').machine.program = (steps k m).machine.program := by
      rw [program_steps, program_steps]
      rfl
    have hcycle := done (k + 1)
    rw [steps_succ_of_trap_eq_none (done k)] at hcycle ⊢
    rw [steps_succ_of_trap_eq_none (done' k (Nat.le_of_lt hk))]
    exact hstores.alike_step (steps_besides hm (Nat.le_of_lt hk)).machine hp hcycle
  exact (alike_of_alike (done _) (done' _ hk) rfl hstored).registers r trivial

/-- `push 3; rdec a; rjne b 3; set a; halt`: the `rdec` leaves 8 in `a` of the second machine and -1 in
that of the first, and neither of them notices. After the `set` both hold 3. -/
theorem steps_unread_rdec :
    let m := load #[1, 3, 6, 0, 7, 1, 3, 3, 0, 8]
    let m' := m.setRegister .a 9
    m.program.size ≤ Program.maxSize ∧
      m.ip.toNat < 2 ^ 63 ∧
      m.NeverConsults .a 5 ∧
      (steps 3 m).machine.Stores .a ∧
      (steps 3 m).machine.register .a = -1 ∧
      (steps 3 m').machine.register .a = 8 ∧
      (steps 5 m').reports = (steps 5 m).reports ∧
      (steps 5 m').machine.outcome = some .halted ∧
      (steps 5 m').machine.register .a = 3 := by
  intro m m'
  have size : m.program.size ≤ Program.maxSize := by decide
  have never : m.NeverConsults .a 5 := by decide
  have stores : (steps 3 m).machine.Stores .a := ⟨by decide, by decide, by decide, by decide⟩
  obtain ⟨-, halike, hstored⟩ := steps_unread size (by decide) .a 9 5 never
  refine ⟨size, by decide, never, stores, by decide, by decide, halike.reports, by decide, ?_⟩
  rw [hstored 3 (by decide) stores 5 (by decide) (Nat.le_refl 5)]
  decide

end Machine

end Wordcode
