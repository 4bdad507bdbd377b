import Mathlib.Algebra.Group.Int.Defs
import Mathlib.Algebra.Group.Nat.Defs
import Wordcode.Machine.Execute
import Wordcode.Proofs.Command
import Wordcode.Proofs.Stack.Bounded

/-!
# What carrying out an instruction comes to

`perform` asks the stack's flags after each operation and checks each operand as it goes. Neither
can be seen in what it does, and the lemmas here say so once for everybody else:

* `pushing_eq`, `popping_eq`, `peeking_eq` — a checked operation looks at the live words alone;
* `perform_instruction` — an instruction that stands for a command is never caught by an operand
  check, and does what `Machine.obey` says of the command;
* `perform_unmoved` — the work of an instruction touches the stack and the registers only, so that
  `conclude` is indeed the one place where a machine moves or stops;
* `exists_execute_eq` — what no trap has cut short is the conclusion of that work;
* `stopped_faultWith` — to stop with a fault is to change nothing else;
* `displace_eq`, `past?_eq_some` — below the middle of the address space, addresses add up.
-/

namespace Wordcode

namespace Address

/-- The position past an instruction, if it is an address at all. -/
theorem past?_eq_some {a count : Address} (h : a.toNat + count.toNat + 1 < UInt64.size) :
    ∃ next, a.past? count = some next ∧ next.toNat = a.toNat + count.toNat + 1 := by
  cases hp : a.past? count with
  | none =>
      have := ofNat?_eq_none_iff.mp hp
      omega
  | some next => exact ⟨next, rfl, ofNat?_eq_some_iff.mp hp⟩

theorem signed_eq_toNat {a : Address} (low : a.toNat < 2 ^ 63) : a.signed = a.toNat := by
  apply signed_of_lt
  unfold UInt64.size
  omega

/-- The sum that a jump lands at is taken over signed numbers: it may not exist, or be negative. -/
theorem displace_eq_ite (a : Address) (offset : Word) :
    a.displace offset =
      if a.signed + offset.toInt < -2 ^ 63 ∨ 2 ^ 63 ≤ a.signed + offset.toInt then
        .error .addressOverflow
      else if a.signed + offset.toInt < 0 then .ok none
      else .ok (ofNat? (a.signed + offset.toInt).toNat) := by
  have hmin : Int64.minValue.toInt = -2 ^ 63 := rfl
  have hmax : Int64.maxValue.toInt = 2 ^ 63 - 1 := rfl
  simp only [displace, hmin, hmax]
  grind

/-- Far enough below the middle of the address space a jump lands at the sum over the integers, or
before the start of the program. -/
theorem displace_eq {a : Address} (h : a.toNat + 2 ^ 31 ≤ 2 ^ 63) (offset : Word) :
    a.displace offset =
      .ok (if (a.toNat : Int) + offset.toInt < 0 then none
        else ofNat? ((a.toNat : Int) + offset.toInt).toNat) := by
  have hsigned : a.signed = a.toNat := signed_eq_toNat (by omega)
  have hlow := offset.le_toInt
  have hhigh := offset.toInt_lt
  rw [displace_eq_ite, hsigned, if_neg (by omega)]
  split <;> rfl

/-- A jump to the start or past it has a target. -/
theorem displace_eq_some {a : Address} (low : a.toNat + 2 ^ 31 ≤ 2 ^ 63) (offset : Word)
    (h : 0 ≤ (a.toNat : Int) + offset.toInt) :
    ∃ target, a.displace offset = .ok (some target) ∧
      (target.toNat : Int) = a.toNat + offset.toInt := by
  have hhigh := offset.toInt_lt
  rw [displace_eq low, if_neg (Int.not_lt.mpr h)]
  cases htarget : ofNat? ((a.toNat : Int) + offset.toInt).toNat with
  | none =>
      have := ofNat?_eq_none_iff.mp htarget
      unfold UInt64.size at this
      omega
  | some target =>
      have := ofNat?_eq_some_iff.mp htarget
      exact ⟨target, rfl, by omega⟩

end Address

namespace Machine

/-! ## Checked operations look at the live words -/

/-- Asking the flag after a pop or a peek is asking whether there was a last word. -/
theorem ite_underflow_eq {s t : Stack} {v : Word} (hflag : t.underflow = s.peek.2.underflow)
    (hvalue : v = s.peek.1) (missing : Work) (use : Word → Work) :
    (if t.underflow then missing else use v) =
      match s.entries.getLast? with
      | none => missing
      | some v => use v := by
  rw [hflag, Stack.peek_underflow, ← Stack.isEmpty_entries, hvalue, Stack.peek_fst]
  rcases List.eq_nil_or_concat s.entries with hnil | ⟨held, last, hconcat⟩
  · rw [hnil]
    rfl
  · rw [hconcat, List.concat_eq_append, List.getLastD_concat, List.getLast?_concat,
      if_neg (by simp)]

theorem pushing_eq (m : Machine) (v : Word) :
    m.pushing v =
      if m.stack.entries.length < 256 then ⟨m.push v, .proceed, []⟩
      else ⟨m.push v, .fault .stackOverflow, []⟩ := by
  have hcap : m.stack.depth ≤ 256 := m.stack.depth_le
  unfold pushing
  show (if (m.stack.push v).overflow then _ else _) = _
  rw [Stack.push_overflow, Stack.length_entries]
  by_cases hroom : m.stack.depth < 256
  · have hne : ¬ m.stack.depth = Stack.capacity := Nat.ne_of_lt hroom
    rw [if_neg (by simpa using hne), if_pos hroom]
  · have heq : m.stack.depth = Stack.capacity := Nat.le_antisymm hcap (Nat.le_of_not_lt hroom)
    rw [if_pos (by simpa using heq), if_neg hroom]

theorem popping_eq (m : Machine) (use : Word → Machine → Work) :
    m.popping use =
      match m.stack.entries.getLast? with
      | none => ⟨m.pop.2, .fault .stackUnderflow, []⟩
      | some v => use v m.pop.2 :=
  ite_underflow_eq m.stack.pop_underflow m.stack.pop_fst ⟨m.pop.2, .fault .stackUnderflow, []⟩
    (use · m.pop.2)

theorem peeking_eq (m : Machine) (use : Word → Machine → Work) :
    m.peeking use =
      match m.stack.entries.getLast? with
      | none => ⟨m.peek.2, .fault .stackUnderflow, []⟩
      | some v => use v m.peek.2 :=
  ite_underflow_eq rfl rfl ⟨m.peek.2, .fault .stackUnderflow, []⟩ (use · m.peek.2)

/-! ## Commands are carried out without operand checks -/

/-- The work of a command. -/
def obey (m : Machine) : Command → Work
  | .nop => ⟨m, .proceed, []⟩
  | .push v => m.pushing v
  | .pop => m.popping fun v m => ⟨m, .proceed, [.popped v]⟩
  | .set r => m.popping fun v m => ⟨m.setRegister r v, .proceed, [.stored r v]⟩
  | .add => m.popping fun v m => m.popping fun w m => m.pushing (v + w)
  | .radd r s => m.pushing (m.register r + m.register s)
  | .rdec r => ⟨m.setRegister r (m.register r - 1), .proceed, []⟩
  | .rjne r offset =>
    m.peeking fun top m => if m.register r = top then ⟨m, .proceed, []⟩ else m.jumping offset
  | .halt => ⟨m, .halt, []⟩

theorem naming_code (m : Machine) (op : Opcode) (r : Register) (use : Register → Work) :
    m.naming op r.code use = use r := by
  unfold naming
  rw [Register.ofCode?_code]

/-- An instruction that stands for a command does that command's work. -/
theorem perform_instruction (m : Machine) (c : Command) : m.perform c.instruction = m.obey c := by
  cases c with
  | nop | push v | pop | add | halt => rfl
  | set r => exact m.naming_code .set r _
  | rdec r => exact m.naming_code .rdec r _
  | rjne r offset => exact m.naming_code .rjne r _
  | radd r s =>
      show (m.naming .radd r.code fun r => m.naming .radd s.code fun s => _) = _
      rw [naming_code, naming_code]
      rfl

/-- The reserved opcode does no work but to read the fault that its operands spell. -/
theorem perform_of_spelledFault (m : Machine) {i : Instruction} {f : Fault}
    (hop : i.opcode = .ihalt) (hf : i.spelledFault = .ok f) :
    m.perform i = ⟨m, .fault f, []⟩ := by
  unfold perform
  rw [hop]
  dsimp only
  rw [hf]

/-! ## Work moves nothing -/

/-- The second machine differs from the first in the stack and the registers at most. -/
structure Unmoved (m m' : Machine) : Prop where
  program : m'.program = m.program
  ip : m'.ip = m.ip
  halted : m'.halted = m.halted
  fault : m'.fault = m.fault

theorem Unmoved.refl (m : Machine) : Unmoved m m := ⟨rfl, rfl, rfl, rfl⟩

theorem Unmoved.trans {m m' m'' : Machine} (h : Unmoved m m') (h' : Unmoved m' m'') :
    Unmoved m m'' :=
  ⟨h'.program.trans h.program, h'.ip.trans h.ip, h'.halted.trans h.halted, h'.fault.trans h.fault⟩

theorem push_unmoved (m : Machine) (v : Word) : Unmoved m (m.push v) := ⟨rfl, rfl, rfl, rfl⟩

theorem pop_unmoved (m : Machine) : Unmoved m m.pop.2 := ⟨rfl, rfl, rfl, rfl⟩

theorem peek_unmoved (m : Machine) : Unmoved m m.peek.2 := ⟨rfl, rfl, rfl, rfl⟩

theorem call_unmoved (m : Machine) (c : StackCall) : Unmoved m (m.call c).2 := by
  cases c with
  | push v => exact m.push_unmoved v
  | pop => exact m.pop_unmoved
  | peek => exact m.peek_unmoved

theorem setRegister_unmoved (m : Machine) (r : Register) (v : Word) :
    Unmoved m (m.setRegister r v) := ⟨rfl, rfl, rfl, rfl⟩

theorem pushing_unmoved (m : Machine) (v : Word) : Unmoved m (m.pushing v).machine := by
  rw [pushing_eq]
  split <;> exact m.push_unmoved v

theorem popping_unmoved {m : Machine} {use : Word → Machine → Work}
    (h : ∀ v m', Unmoved m m' → Unmoved m (use v m').machine) :
    Unmoved m (m.popping use).machine := by
  rw [popping_eq]
  split
  · exact m.pop_unmoved
  · exact h _ _ m.pop_unmoved

theorem peeking_unmoved {m : Machine} {use : Word → Machine → Work}
    (h : ∀ v m', Unmoved m m' → Unmoved m (use v m').machine) :
    Unmoved m (m.peeking use).machine := by
  rw [peeking_eq]
  split
  · exact m.peek_unmoved
  · exact h _ _ m.peek_unmoved

theorem naming_unmoved {m : Machine} {op : Opcode} {w : Word} {use : Register → Work}
    (h : ∀ r, Unmoved m (use r).machine) : Unmoved m (m.naming op w use).machine := by
  unfold naming
  split
  · exact h _
  · exact .refl m

theorem jumping_unmoved (m : Machine) (offset : Word) : Unmoved m (m.jumping offset).machine := by
  unfold jumping
  split <;> exact .refl m

theorem perform_unmoved (m : Machine) (i : Instruction) : Unmoved m (m.perform i).machine := by
  unfold perform
  cases i.opcode with
  | nop => exact .refl m
  | push => exact m.pushing_unmoved _
  | pop => exact popping_unmoved fun _ _ h => h
  | set =>
      apply naming_unmoved
      intro r
      exact popping_unmoved fun v m' h => h.trans (m'.setRegister_unmoved r v)
  | add =>
      apply popping_unmoved
      intro v m' h
      refine h.trans (popping_unmoved ?_)
      intro w m'' h'
      exact h'.trans (m''.pushing_unmoved _)
  | radd =>
      apply naming_unmoved
      intro r
      apply naming_unmoved
      intro s
      exact m.pushing_unmoved _
  | rdec =>
      apply naming_unmoved
      intro r
      exact m.setRegister_unmoved r _
  | rjne =>
      apply naming_unmoved
      intro r
      apply peeking_unmoved
      intro top m' h
      split
      · exact h
      · exact h.trans (m'.jumping_unmoved _)
  | halt => exact .refl m
  | ihalt =>
      dsimp only
      split <;> exact .refl m

/-! ## What a conclusion leaves alone -/

@[simp] theorem moveTo_program (m : Machine) (target : Address) :
    (m.moveTo target).program = m.program := by
  unfold moveTo
  split <;> rfl

@[simp] theorem moveTo_stack (m : Machine) (target : Address) :
    (m.moveTo target).stack = m.stack := by
  unfold moveTo
  split <;> rfl

@[simp] theorem moveTo_registers (m : Machine) (target : Address) :
    (m.moveTo target).registers = m.registers := by
  unfold moveTo
  split <;> rfl

@[simp] theorem moveTo_halted (m : Machine) (target : Address) :
    (m.moveTo target).halted = m.halted := by
  unfold moveTo
  split <;> rfl

@[simp] theorem moveTo_fault (m : Machine) (target : Address) :
    (m.moveTo target).fault = m.fault := by
  unfold moveTo
  split <;> rfl

theorem conclude_program (next : Address) (w : Work) :
    (conclude next w).machine.program = w.machine.program := by
  unfold conclude
  split
  · exact w.machine.moveTo_program next
  · exact w.machine.moveTo_program _
  all_goals rfl

theorem conclude_stack (next : Address) (w : Work) :
    (conclude next w).machine.stack = w.machine.stack := by
  unfold conclude
  split
  · exact w.machine.moveTo_stack next
  · exact w.machine.moveTo_stack _
  all_goals rfl

theorem conclude_running {next : Address} {w : Work}
    (running : (conclude next w).machine.halted = false) :
    w.machine.halted = false ∧ (conclude next w).machine.fault = w.machine.fault := by
  unfold conclude at running ⊢
  split at running
  · exact ⟨(w.machine.moveTo_halted next).symm.trans running, w.machine.moveTo_fault next⟩
  · exact ⟨(w.machine.moveTo_halted _).symm.trans running, w.machine.moveTo_fault _⟩
  · cases running
  · cases running
  · exact ⟨running, rfl⟩

/-- An instruction that no trap has cut short has been concluded, past itself. -/
theorem exists_execute_eq {m : Machine} {i : Instruction} (done : (m.execute i).trap = none) :
    ∃ next, next.toNat = m.ip.toNat + i.count.toNat + 1 ∧
      m.execute i = conclude next (m.perform i) := by
  cases hpast : m.ip.past? i.count with
  | none => simp [execute, hpast] at done
  | some next => exact ⟨next, Address.ofNat?_eq_some_iff.mp hpast, by simp [execute, hpast]⟩

/-! ## Stopping with a fault -/

/-- The machine `m'` is `m` to the last flag of its stack, but that it has stopped with the fault `f`. -/
structure Stopped (m : Machine) (f : Fault) (m' : Machine) : Prop where
  program : m'.program = m.program
  ip : m'.ip = m.ip
  registers : m'.registers = m.registers
  entries : m'.stack.entries = m.stack.entries
  overflow : m'.stack.overflow = m.stack.overflow
  underflow : m'.stack.underflow = m.stack.underflow
  halted : m'.halted = true
  fault : m'.fault = some f
  outcome : m'.outcome = some (.faulted f)

theorem stopped_faultWith (m : Machine) (f : Fault) : m.Stopped f (m.faultWith f) :=
  ⟨rfl, rfl, rfl, rfl, rfl, rfl, rfl, rfl, outcome_faultWith m f⟩

/-- Carrying out the internal halt for a fault stops the machine with what is left of the fault, where
it stands. -/
theorem execute_internalHalt_eq_clipped {m : Machine} (low : m.ip.toNat < 2 ^ 63) (f : Fault) :
    m.execute (.internalHalt f) = ⟨m.faultWith f.clipped, [.faulted f.clipped], none⟩ := by
  have hlen := f.length_toWords_le
  have hfits : m.ip.toNat + (Instruction.internalHalt f).count.toNat + 1 < UInt64.size := by
    rw [Instruction.count_internalHalt]
    unfold UInt64.size
    omega
  obtain ⟨next, hpast, -⟩ := Address.past?_eq_some hfits
  unfold execute
  rw [hpast, perform_of_spelledFault m rfl (Instruction.spelledFault_internalHalt_eq_clipped f)]
  rfl

theorem execute_internalHalt {m : Machine} (low : m.ip.toNat < 2 ^ 63) {f : Fault}
    (hf : f.kind ≠ .jumpOutOfRange) :
    m.execute (.internalHalt f) = ⟨m.faultWith f, [.faulted f], none⟩ := by
  rw [execute_internalHalt_eq_clipped low, Fault.clipped_of_kind_ne hf]

theorem execute_program (m : Machine) (i : Instruction) :
    (m.execute i).machine.program = m.program := by
  unfold execute
  split
  · rw [conclude_program]
    exact (m.perform_unmoved i).program
  · rfl

/-- An instruction that leaves a machine running puts nothing on its record. -/
theorem execute_fault {m : Machine} {i : Instruction}
    (running : (m.execute i).machine.halted = false) :
    m.halted = false ∧ (m.execute i).machine.fault = m.fault := by
  have hwork := m.perform_unmoved i
  unfold execute at running ⊢
  split at running
  · obtain ⟨hh, hf⟩ := conclude_running running
    exact ⟨hwork.halted.symm.trans hh, hf.trans hwork.fault⟩
  · exact ⟨running, rfl⟩

end Machine

end Wordcode
