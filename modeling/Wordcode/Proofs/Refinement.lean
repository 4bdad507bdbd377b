import Wordcode.Proofs.Execution
import Wordcode.Proofs.Ideal
import Wordcode.Proofs.Runs

/-!
# The machine is the ideal machine

`Machine.ideal` forgets what the ideal machine does not have: the flags, the pointer and the cells
above it, and the width of the position. One cycle of a machine is then one step of the ideal one
(`step_realises`), and so is any number of them (`steps_realise`), reports included.

## What a machine needs for that

A machine has to be `Healthy`: its program is no longer than a program can be, it stands in the
lower half of the address space, and it has no fault on record while it is running. A loaded machine
is healthy, and a cycle keeps a machine healthy although it may jump far beyond the program: from
there the next cycle cannot but fault where it stands (`Ideal.step_ip`).
-/

namespace Wordcode

/-- The most words a program can have: a slice of them takes up no more than half of the address
space, at four bytes each. -/
def Program.maxSize : Nat := 2 ^ 61 - 1

/-- An event as the ideal machine reports it. It does not report decoding. -/
def Event.signal? : Event → Option Signal
  | .decoded _ _ => none
  | .popped v => some (.popped v)
  | .stored r v => some (.stored r v)
  | .faulted f => some (.faulted f)

namespace Transition

/-- What a transition reports, decoding aside. -/
def signals (t : Transition) : List Signal := t.events.filterMap Event.signal?

end Transition

/-- What the ideal machine would be in place of this one. -/
def Machine.ideal (m : Machine) : Ideal where
  ip := m.ip.toNat
  stack := m.stack.entries
  registers := m.register
  outcome := m.outcome
  bounded := by
    rw [Stack.length_entries]
    exact m.stack.depth_le

@[simp] theorem Machine.ideal_ip (m : Machine) : m.ideal.ip = m.ip.toNat := rfl

@[simp] theorem Machine.ideal_stack (m : Machine) : m.ideal.stack = m.stack.entries := rfl

@[simp] theorem Machine.ideal_outcome (m : Machine) : m.ideal.outcome = m.outcome := rfl

theorem Machine.registers_eq_of_ideal {m m' : Machine}
    (h : m'.ideal.registers = m.ideal.registers) : m'.registers = m.registers :=
  RegisterFile.ext_read fun r => congrFun h r

/-- The transition completes, and does what the ideal machine does. -/
structure Transition.Realises (t : Transition) (r : Ideal × List Signal) : Prop where
  trap : t.trap = none
  machine : t.machine.ideal = r.1
  signals : t.signals = r.2

theorem Transition.Realises.andThen {t : Transition} {next : Machine → Transition}
    {r r' : Ideal × List Signal} (h : t.Realises r) (h' : (next t.machine).Realises r') :
    (t.andThen next).Realises (r'.1, r.2 ++ r'.2) := by
  rw [andThen_of_trap_eq_none h.trap]
  refine ⟨h'.trap, h'.machine, ?_⟩
  rw [← h.signals, ← h'.signals]
  exact List.filterMap_append

namespace Ideal

/-! ## Where a step leads -/

theorem popped_of_getLast?_eq_none {s : Ideal} (h : s.stack.getLast? = none) : s.popped = s := by
  have hnil := List.getLast?_eq_none_iff.mp h
  apply Ideal.ext
  · rfl
  · show s.stack.dropLast = s.stack
    rw [hnil]
    rfl
  · rfl
  · rfl

theorem push_ip (s : Ideal) (v : Word) (next : Nat) :
    (s.push v next).1.ip = s.ip ∨ (s.push v next).1.ip = next := by
  unfold push
  split
  · exact Or.inr rfl
  · exact Or.inl rfl

/-- A command stays where it is, moves on, or jumps; and only an `rjne` jumps. -/
theorem obey_ip (s : Ideal) (next : Nat) (c : Command) :
    (s.obey next c).1.ip = s.ip ∨ (s.obey next c).1.ip = next ∨
      ∃ r offset, c = .rjne r offset ∧ ((s.obey next c).1.ip : Int) = s.ip + offset.toInt := by
  cases c with
  | nop | rdec r => exact Or.inr (Or.inl rfl)
  | halt => exact Or.inl rfl
  | push v =>
      rcases s.push_ip v next with h | h
      · exact Or.inl h
      · exact Or.inr (Or.inl h)
  | radd r q =>
      rcases s.push_ip (s.registers r + s.registers q) next with h | h
      · exact Or.inl h
      · exact Or.inr (Or.inl h)
  | pop | set r =>
      simp only [obey, take]
      cases s.stack.getLast? with
      | none => exact Or.inl rfl
      | some v => exact Or.inr (Or.inl rfl)
  | add =>
      simp only [obey, take]
      cases s.stack.getLast? with
      | none => exact Or.inl rfl
      | some v =>
          cases s.popped.stack.getLast? with
          | none => exact Or.inl rfl
          | some w =>
              rcases s.popped.popped.push_ip (v + w) next with h | h
              · exact Or.inl h
              · exact Or.inr (Or.inl h)
  | rjne r offset =>
      simp only [obey, take]
      cases s.stack.getLast? with
      | none => exact Or.inl rfl
      | some top =>
          by_cases heq : s.registers r = top
          · simp only [if_pos heq]
            exact Or.inr (Or.inl rfl)
          · simp only [if_neg heq, jump]
            by_cases hneg : s.ip + offset.toInt < 0
            · simp only [if_pos hneg]
              exact Or.inl rfl
            · simp only [if_neg hneg]
              refine Or.inr (Or.inr ⟨r, offset, rfl, ?_⟩)
              exact Int.toNat_of_nonneg (Int.not_lt.mp hneg)

/-- A step stays where it is, or leads to some place that is at most the longest jump away from the
last place an `rjne` can be. -/
theorem step_ip (p : Program) (s : Ideal) :
    (step p s).1.ip = s.ip ∨ (step p s).1.ip ≤ p.size + 2 ^ 31 - 4 := by
  unfold step
  split
  · exact Or.inl rfl
  split
  · exact Or.inl rfl
  next c hfetch =>
  have hsize := (Program.fetch_eq_ok_iff.mp hfetch).le_size
  rcases s.obey_ip (s.ip + c.words.length) c with hstay | hnext | ⟨r, offset, rfl, hjump⟩
  · exact Or.inl hstay
  · right
    omega
  · right
    -- The three words of the `rjne` lie in the program, and offsets are less than `2 ^ 31`.
    have hlen : s.ip + 3 ≤ p.size := hsize
    have := offset.toInt_lt
    omega

end Ideal

namespace Machine

/-! ## The parts of a cycle -/

theorem ideal_push_of_room {m : Machine} (v : Word) (room : m.stack.entries.length < 256) :
    (m.push v).ideal = m.ideal.pushed v room := by
  apply Ideal.ext
  · rfl
  · show (m.stack.push v).entries = m.stack.entries ++ [v]
    rw [Stack.entries_push, if_neg]
    rw [← Stack.length_entries]
    exact Nat.ne_of_lt room
  · rfl
  · rfl

theorem ideal_push_of_full {m : Machine} (v : Word) (full : ¬ m.stack.entries.length < 256) :
    (m.push v).ideal = m.ideal := by
  have hle := m.ideal.bounded
  apply Ideal.ext
  · rfl
  · show (m.stack.push v).entries = m.stack.entries
    rw [Stack.entries_push, if_pos]
    rw [← Stack.length_entries]
    exact Nat.le_antisymm hle (Nat.le_of_not_lt full)
  · rfl
  · rfl

theorem ideal_pop (m : Machine) : m.pop.2.ideal = m.ideal.popped := by
  apply Ideal.ext
  · rfl
  · exact m.stack.entries_pop
  · rfl
  · rfl

theorem ideal_peek (m : Machine) : m.peek.2.ideal = m.ideal := by
  apply Ideal.ext
  · rfl
  · exact m.stack.entries_peek
  · rfl
  · rfl

theorem ideal_setRegister (m : Machine) (r : Register) (v : Word) :
    (m.setRegister r v).ideal = m.ideal.stored r v := by
  apply Ideal.ext
  · rfl
  · rfl
  · funext q
    show (m.registers.write r v).read q = if q = r then v else m.registers.read q
    rw [RegisterFile.read_write]
    by_cases h : r = q
    · rw [if_pos h, if_pos h.symm]
    · rw [if_neg h, if_neg (Ne.symm h)]
  · rfl

theorem ideal_moveTo {m : Machine} (running : m.halted = false) (target : Address) :
    (m.moveTo target).ideal = m.ideal.goto target.toNat := by
  unfold moveTo
  rw [if_neg (by rw [running]; decide)]
  rfl

/-! ### Verdicts

Each lemma takes the work of an operation to the verdict's conclusion, and compares it with the
operation of the same name on the ideal machine. -/

section

variable (m : Machine) {next : Address}

theorem conclude_proceed_realises (running : m.halted = false) (es : List Event) :
    (conclude next ⟨m, .proceed, es⟩).Realises
      (m.ideal.goto next.toNat, es.filterMap Event.signal?) :=
  ⟨rfl, ideal_moveTo running next, rfl⟩

theorem conclude_fault_realises (f : Fault) :
    (conclude next ⟨m, .fault f, []⟩).Realises (m.ideal.fail f) := ⟨rfl, rfl, rfl⟩

theorem conclude_halt_realises (hf : m.fault = none) :
    (conclude next ⟨m, .halt, []⟩).Realises ({ m.ideal with outcome := some .halted }, []) := by
  refine ⟨rfl, ?_, rfl⟩
  apply Ideal.ext
  · rfl
  · rfl
  · rfl
  · show m.halt.outcome = some .halted
    exact outcome_eq_halted_iff.mpr ⟨rfl, hf⟩

theorem conclude_pushing_realises (running : m.halted = false) (v : Word) :
    (conclude next (m.pushing v)).Realises (m.ideal.push v next.toNat) := by
  rw [pushing_eq]
  by_cases room : m.stack.entries.length < 256
  · rw [if_pos room, Ideal.push_of_room (s := m.ideal) room, ← ideal_push_of_room v room]
    exact conclude_proceed_realises (m.push v) running []
  · rw [if_neg room, Ideal.push_of_full (s := m.ideal) room, ← ideal_push_of_full v room]
    exact conclude_fault_realises (m.push v) .stackOverflow

theorem conclude_taking_realises {m' : Machine} {use : Word → Machine → Work}
    {use' : Word → Ideal × List Signal}
    (missing : m.stack.entries.getLast? = none → m'.ideal = m.ideal)
    (h : ∀ v, (conclude next (use v m')).Realises (use' v)) :
    (conclude next (match m.stack.entries.getLast? with
      | none => ⟨m', .fault .stackUnderflow, []⟩
      | some v => use v m')).Realises (m.ideal.take use') := by
  unfold Ideal.take
  rw [ideal_stack]
  cases hlast : m.stack.entries.getLast? with
  | some v => exact h v
  | none =>
      dsimp only
      rw [← missing hlast]
      exact conclude_fault_realises m' .stackUnderflow

theorem conclude_popping_realises {use : Word → Machine → Work}
    {use' : Word → Ideal × List Signal}
    (h : ∀ v, (conclude next (use v m.pop.2)).Realises (use' v)) :
    (conclude next (m.popping use)).Realises (m.ideal.take use') := by
  rw [popping_eq]
  refine conclude_taking_realises m ?_ h
  intro hlast
  rw [ideal_pop]
  exact Ideal.popped_of_getLast?_eq_none hlast

theorem conclude_peeking_realises {use : Word → Machine → Work}
    {use' : Word → Ideal × List Signal}
    (h : ∀ v, (conclude next (use v m.peek.2)).Realises (use' v)) :
    (conclude next (m.peeking use)).Realises (m.ideal.take use') := by
  rw [peeking_eq]
  exact conclude_taking_realises m (fun _ => m.ideal_peek) h

theorem conclude_jumping_realises (running : m.halted = false)
    (low : m.ip.toNat + 2 ^ 31 ≤ 2 ^ 63) (offset : Word) :
    (conclude next (m.jumping offset)).Realises (m.ideal.jump offset) := by
  unfold jumping Ideal.jump
  rw [Address.displace_eq low, ideal_ip]
  by_cases hneg : (m.ip.toNat : Int) + offset.toInt < 0
  · rw [if_pos hneg, if_pos hneg, UInt64.ofNat_toNat]
    exact conclude_fault_realises m _
  · rw [if_neg hneg, if_neg hneg]
    have hlt := offset.toInt_lt
    cases htarget : Address.ofNat? ((m.ip.toNat : Int) + offset.toInt).toNat with
    | none =>
        -- From the lower half of the address space no jump leads out of it at the top.
        have := Address.ofNat?_eq_none_iff.mp htarget
        unfold UInt64.size at this
        omega
    | some target =>
        rw [← Address.ofNat?_eq_some_iff.mp htarget]
        exact ⟨rfl, ideal_moveTo running target, rfl⟩

/-- **One command.** Its work, concluded, is what the ideal machine does. A fault on record makes no
difference, unless the command is to end the run normally. -/
theorem conclude_obey_realises (running : m.halted = false)
    (low : m.ip.toNat + 2 ^ 31 ≤ 2 ^ 63) {c : Command} (hf : c = .halt → m.fault = none) :
    (conclude next (m.obey c)).Realises (m.ideal.obey next.toNat c) := by
  cases c with
  | nop => exact conclude_proceed_realises m running []
  | push v => exact conclude_pushing_realises m running v
  | pop =>
      apply conclude_popping_realises
      intro v
      rw [← ideal_pop]
      exact conclude_proceed_realises m.pop.2 running [.popped v]
  | set r =>
      apply conclude_popping_realises
      intro v
      rw [← ideal_pop, ← ideal_setRegister]
      exact conclude_proceed_realises (m.pop.2.setRegister r v) running [.stored r v]
  | add =>
      apply conclude_popping_realises
      intro v
      rw [← ideal_pop]
      apply conclude_popping_realises
      intro w
      rw [← ideal_pop]
      exact conclude_pushing_realises m.pop.2.pop.2 running (v + w)
  | radd r s => exact conclude_pushing_realises m running _
  | rdec r =>
      show (conclude next ⟨m.setRegister r (m.register r - 1), .proceed, []⟩).Realises
        ((m.ideal.stored r (m.register r - 1)).goto next.toNat, [])
      rw [← ideal_setRegister]
      exact conclude_proceed_realises (m.setRegister r _) running []
  | rjne r offset =>
      apply conclude_peeking_realises
      intro top
      rw [← ideal_peek]
      show (conclude next (if m.register r = top then _ else _)).Realises
        (if m.register r = top then _ else _)
      by_cases heq : m.register r = top
      · rw [if_pos heq, if_pos heq]
        exact conclude_proceed_realises m.peek.2 running []
      · rw [if_neg heq, if_neg heq]
        exact conclude_jumping_realises m.peek.2 running low offset
  | halt => exact conclude_halt_realises m (hf rfl)

end

/-! ## Cycles -/

/-- What a machine needs to be the ideal machine. -/
structure Healthy (m : Machine) : Prop where
  /-- The program is no longer than a program can be. -/
  size_le : m.program.size ≤ Program.maxSize
  /-- The machine stands in the lower half of the address space. -/
  ip_lt : m.ip.toNat < 2 ^ 63
  /-- No fault is on record while the machine is running. -/
  fault_eq_none : m.halted = false → m.fault = none

/-- A fault is on record only if it is how the run ended. -/
theorem Healthy.outcome_of_fault {m : Machine} (h : m.Healthy) {f : Fault}
    (hf : m.fault = some f) : m.outcome = some (.faulted f) := by
  refine outcome_eq_faulted_iff.mpr ⟨?_, hf⟩
  cases hh : m.halted with
  | true => rfl
  | false =>
      rw [h.fault_eq_none hh] at hf
      cases hf

/-- Carrying out a command that is written where the machine stands. -/
theorem execute_instruction_realises {m : Machine} (size : m.program.size ≤ Program.maxSize)
    (running : m.halted = false) {c : Command} (hc : m.program.HasAt m.ip.toNat c)
    (hf : c = .halt → m.fault = none) :
    (m.execute c.instruction).Realises (m.ideal.obey (m.ip.toNat + c.words.length) c) := by
  have hsize := hc.le_size
  have hlen := c.length_words
  unfold Program.maxSize at size
  have hfits : m.ip.toNat + c.instruction.count.toNat + 1 < UInt64.size := by
    rw [c.count_instruction]
    unfold UInt64.size
    omega
  obtain ⟨next, hpast, hnext⟩ := Address.past?_eq_some hfits
  have htarget : m.ip.toNat + c.words.length = next.toNat := by
    rw [hnext, c.count_instruction, hlen]
    rfl
  unfold execute
  rw [hpast, htarget, perform_instruction]
  exact conclude_obey_realises m running (by omega) hf

/-- A running machine carries out what is fetched where it stands. -/
theorem execute_decode_realises {m : Machine} (h : m.Healthy) (running : m.halted = false) :
    (m.execute (m.program.decode m.ip)).Realises (Ideal.step m.program m.ideal) := by
  have hrun : m.ideal.outcome = none := outcome_eq_none_iff.mpr running
  unfold Ideal.step
  rw [Program.decode_eq_fetched, hrun, ideal_ip]
  cases hfetch : m.program.fetch m.ip.toNat with
  | ok c =>
      exact execute_instruction_realises h.size_le running (Program.fetch_eq_ok_iff.mp hfetch)
        fun _ => h.fault_eq_none running
  | error f =>
      have hkind := (Program.fetch_eq_error hfetch).kind_ne
      show (m.execute (.internalHalt f)).Realises (m.ideal.fail f)
      rw [execute_internalHalt h.ip_lt hkind]
      exact ⟨rfl, rfl, rfl⟩

/-- **One cycle** of a healthy machine is one step of the ideal machine. -/
theorem step_realises {m : Machine} (h : m.Healthy) :
    m.step.Realises (Ideal.step m.program m.ideal) := by
  cases hh : m.halted with
  | true =>
      have hover : Ideal.step m.program m.ideal = (m.ideal, []) := by
        unfold Ideal.step
        rw [ideal_outcome]
        unfold outcome
        rw [if_pos hh]
      rw [step_of_halted hh, hover]
      exact ⟨rfl, rfl, rfl⟩
  | false =>
      have hdone := execute_decode_realises h hh
      unfold step
      rw [if_neg (by rw [hh]; decide)]
      -- That an instruction was decoded is reported, but it is no signal.
      exact ⟨hdone.trap, hdone.machine, hdone.signals⟩

/-! ## Runs -/

theorem step_program (m : Machine) : m.step.machine.program = m.program := by
  unfold step
  split
  · rfl
  · exact m.execute_program _

theorem program_steps (m : Machine) (n : Nat) : (steps n m).machine.program = m.program := by
  induction n with
  | zero => rfl
  | succ n ih =>
      by_cases htrap : (steps n m).trap = none
      · rw [steps_succ_of_trap_eq_none htrap, step_program, ih]
      · rw [steps_succ_of_trap_ne_none htrap, ih]

theorem step_ip {m : Machine} (h : m.Healthy) :
    m.step.machine.ip.toNat = m.ip.toNat ∨
      m.step.machine.ip.toNat ≤ m.program.size + 2 ^ 31 - 4 := by
  rw [← ideal_ip, ← ideal_ip, (step_realises h).machine]
  exact Ideal.step_ip m.program m.ideal

theorem fault_step_of_running {m : Machine} (goes : m.step.machine.halted = false) :
    m.step.machine.fault = m.fault := by
  have hstep := step_of_running (running_of_step_running goes)
  rw [hstep] at goes ⊢
  exact (execute_fault goes).2

theorem step_fault {m : Machine} (hrec : m.halted = false → m.fault = none)
    (running : m.step.machine.halted = false) : m.step.machine.fault = none :=
  (fault_step_of_running running).trans (hrec (running_of_step_running running))

theorem fault_steps_of_running {m : Machine} {n : Nat}
    (running : (steps n m).machine.halted = false) : (steps n m).machine.fault = m.fault := by
  induction n with
  | zero => rfl
  | succ n ih =>
      by_cases htrap : (steps n m).trap = none
      · rw [steps_succ_of_trap_eq_none htrap] at running ⊢
        exact (fault_step_of_running running).trans (ih (running_of_step_running running))
      · rw [steps_succ_of_trap_ne_none htrap] at running ⊢
        exact ih running

/-- A cycle keeps a machine healthy. -/
theorem Healthy.step {m : Machine} (h : m.Healthy) : m.step.machine.Healthy where
  size_le := by
    rw [step_program]
    exact h.size_le
  ip_lt := by
    have hsize := h.size_le
    have hlow := h.ip_lt
    unfold Program.maxSize at hsize
    rcases step_ip h with hstay | hfar
    · omega
    · omega
  fault_eq_none := step_fault h.fault_eq_none

theorem healthy_load {p : Program} (hp : p.size ≤ Program.maxSize) : (load p).Healthy where
  size_le := hp
  ip_lt := Nat.two_pow_pos 63
  fault_eq_none := fun _ => rfl

theorem steps_succ {m : Machine} (h : m.Healthy) (n : Nat) :
    steps (n + 1) m =
      ⟨(steps n m.step.machine).machine, m.step.events ++ (steps n m.step.machine).events,
        (steps n m.step.machine).trap⟩ :=
  Transition.andThen_of_trap_eq_none (step_realises h).trap (steps n)

/-- **Any number of cycles** of a healthy machine are so many steps of the ideal machine. -/
theorem steps_realise {m : Machine} (h : m.Healthy) (n : Nat) :
    (steps n m).Realises (Ideal.run m.program n m.ideal) := by
  -- Both runs put the first step in front of the rest, so the induction is over where they start.
  induction n generalizing m with
  | zero => exact ⟨rfl, rfl, rfl⟩
  | succ n ih =>
      have hfirst := step_realises h
      have hrest := ih h.step
      rw [step_program, hfirst.machine] at hrest
      exact hfirst.andThen hrest

theorem steps_program {m : Machine} (h : m.Healthy) (n : Nat) :
    (steps n m).machine.program = m.program := by
  induction n generalizing m with
  | zero => rfl
  | succ n ih =>
      rw [steps_succ h]
      exact (ih h.step).trans m.step_program

theorem healthy_steps {m : Machine} (h : m.Healthy) (n : Nat) : (steps n m).machine.Healthy := by
  induction n generalizing m with
  | zero => exact h
  | succ n ih =>
      rw [steps_succ h]
      exact ih h.step

theorem ideal_load (p : Program) : (load p).ideal = Ideal.start := by
  apply Ideal.ext
  · rfl
  · rfl
  · funext r
    cases r <;> rfl
  · rfl

/-- **The machine refines the ideal machine.** After any number of cycles from the start of any
program, the machine has met no trap, stands where the ideal machine stands, holds what it holds,
has ended how it has ended, and has reported what it has reported. -/
theorem steps_load_refines_ideal (p : Program) (hp : p.size ≤ Program.maxSize) (n : Nat) :
    (steps n (load p)).trap = none ∧
      (steps n (load p)).machine.ideal = (Ideal.run p n .start).1 ∧
      (steps n (load p)).signals = (Ideal.run p n .start).2 := by
  have hrun := steps_realise (healthy_load hp) n
  rw [ideal_load] at hrun
  exact ⟨hrun.trap, hrun.machine, hrun.signals⟩

/-- Two cycles of `push 1; rjne a (-5)`: a jump to before the start of the program. -/
theorem steps_load_refines_ideal_jump_back :
    (#[1, 1, 7, 0, -5] : Program).size ≤ Program.maxSize ∧
      (steps 2 (load #[1, 1, 7, 0, -5])).trap = none ∧
      (steps 2 (load #[1, 1, 7, 0, -5])).machine.ideal.outcome =
        some (.faulted (.jumpOutOfRange 2 (-5))) ∧
      (steps 2 (load #[1, 1, 7, 0, -5])).signals = [.faulted (.jumpOutOfRange 2 (-5))] := by
  obtain ⟨htrap, hideal, hsignals⟩ := steps_load_refines_ideal #[1, 1, 7, 0, -5] (by decide) 2
  refine ⟨by decide, htrap, ?_, ?_⟩
  · rw [hideal]
    rfl
  · rw [hsignals]
    rfl

end Machine

end Wordcode
