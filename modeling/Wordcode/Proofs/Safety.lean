import Wordcode.Proofs.Refinement
import Wordcode.Proofs.Stack.Bounded

/-!
# No run leaves its numbers or its arrays

A machine computes with addresses of 64 bits, reads them as signed numbers when it jumps, and looks
into cells, slots and register files by index. Any of that could go wrong, and a machine that is
built by hand can make it go wrong. A machine that has been loaded cannot, whatever is done to it:
this file says so of every machine that is `Reachable` from the start of a program by cycles and by
calls from outside, in any order.

## The bound on the position

The cells and the slots look after themselves. The position does not: a jump may lead beyond the
program, and it is not obvious that a second one cannot lead farther still. What saves the machine
is that there is nothing to decode out there, so the next cycle faults on the spot. An `rjne` that
jumps has all of its three words in the program, and that makes the farthest place there is
`p.size + 2 ^ 31 - 4` (`Ideal.step_ip`).
-/

namespace Wordcode

/-! ## What is decoded fits its slots -/

theorem Command.slots_instruction (c : Command) {k : Nat}
    (hk : c.instruction.opcode.operandKinds[k]? = some OperandKind.register) :
    ∃ r : Register, c.instruction.slots.toList[k]? = some r.code := by
  obtain ⟨r, hr⟩ := c.operands_register hk
  obtain ⟨hlt, -⟩ := List.getElem?_eq_some_iff.mp hr
  refine ⟨r, ?_⟩
  rw [← List.getElem?_take_of_lt hlt, c.take_slots_instruction, hr]

namespace Program

/-- Two operands are the most that a command has, and three words the most that a fault takes. -/
theorem count_decode_le (p : Program) (ip : Address) : (p.decode ip).count.toNat ≤ 3 := by
  rw [decode_eq_fetched]
  cases p.fetch ip.toNat with
  | ok c =>
      show c.instruction.count.toNat ≤ 3
      have := c.length_operands_le
      rw [c.count_instruction]
      omega
  | error f =>
      show (Instruction.internalHalt f).count.toNat ≤ 3
      rw [Instruction.count_internalHalt]
      exact f.length_toWords_le

theorem operands_decode (p : Program) (ip : Address) :
    (p.decode ip).operands =
      .ok ((p.decode ip).slots.toList.take (p.decode ip).count.toNat) :=
  if_pos (Nat.le_trans (p.count_decode_le ip) (by decide))

/-- Where the opcode of a decoded instruction wants a register, there is one. -/
theorem slots_decode (p : Program) (ip : Address) {k : Nat}
    (hk : (p.decode ip).opcode.operandKinds[k]? = some OperandKind.register) :
    ∃ r : Register, (p.decode ip).slots.toList[k]? = some r.code := by
  rw [decode_eq_fetched] at hk ⊢
  cases hfetch : p.fetch ip.toNat with
  | ok c =>
      rw [hfetch] at hk
      exact c.slots_instruction hk
  | error f =>
      -- An internal halt names no registers.
      rw [hfetch] at hk
      cases hk

end Program

namespace Machine

/-! ## Reachable machines -/

/-- What can become of a program that is loaded: cycles are run, and in between whoever holds the
machine uses its stack and its registers. -/
inductive Reachable (p : Program) : Machine → Prop
  | load : Reachable p (load p)
  | step {m : Machine} : Reachable p m → Reachable p m.step.machine
  | push {m : Machine} (v : Word) : Reachable p m → Reachable p (m.push v)
  | pop {m : Machine} : Reachable p m → Reachable p m.pop.2
  | peek {m : Machine} : Reachable p m → Reachable p m.peek.2
  | setRegister {m : Machine} (r : Register) (v : Word) :
      Reachable p m → Reachable p (m.setRegister r v)

/-- What all of that preserves. -/
structure Confined (p : Program) (m : Machine) : Prop where
  program : m.program = p
  healthy : m.Healthy
  /-- The machine stands no farther from the start than the longest jump leads. -/
  ip_le : m.ip.toNat ≤ p.size + 2 ^ 31 - 4

theorem confined_load {p : Program} (hp : p.size ≤ Program.maxSize) : Confined p (load p) where
  program := rfl
  healthy := healthy_load hp
  ip_le := Nat.zero_le _

theorem Confined.step {p : Program} {m : Machine} (h : Confined p m) :
    Confined p m.step.machine where
  program := m.step_program.trans h.program
  healthy := h.healthy.step
  ip_le := by
    -- A machine that has not moved was within the bound already; the bound never adds up.
    have hbefore := h.ip_le
    rcases step_ip h.healthy with hstay | hfar
    · omega
    · rw [h.program] at hfar
      exact hfar

/-- Whoever only uses the stack and the registers keeps the machine confined. -/
theorem Confined.of_unmoved {p : Program} {m m' : Machine} (h : Confined p m)
    (same : Unmoved m m') : Confined p m' where
  program := same.program.trans h.program
  healthy :=
    { size_le := by
        rw [same.program]
        exact h.healthy.size_le
      ip_lt := by
        rw [same.ip]
        exact h.healthy.ip_lt
      fault_eq_none := by
        rw [same.halted, same.fault]
        exact h.healthy.fault_eq_none }
  ip_le := by
    rw [same.ip]
    exact h.ip_le

theorem Reachable.confined {p : Program} (hp : p.size ≤ Program.maxSize) {m : Machine}
    (h : Reachable p m) : Confined p m := by
  induction h with
  | load => exact confined_load hp
  | step _ ih => exact ih.step
  | push v _ ih => exact ih.of_unmoved (push_unmoved _ v)
  | pop _ ih => exact ih.of_unmoved (pop_unmoved _)
  | peek _ ih => exact ih.of_unmoved (peek_unmoved _)
  | setRegister r v _ ih => exact ih.of_unmoved (setRegister_unmoved _ r v)

/-! ## Safe cycles -/

/-- No number that the next cycle computes is too large for its width, and no index that it uses is
out of range. Of the stack this is asked after any number of calls, since a cycle makes several. -/
structure SafeCycle (m : Machine) : Prop where
  /-- The position past the instruction is an address. -/
  past_lt : m.ip.toNat + (m.program.decode m.ip).count.toNat + 1 < 2 ^ 64
  /-- So is the end of the operands, whatever the opcode. -/
  operands_lt : ∀ op : Opcode, m.ip.toNat + 1 + op.arity < 2 ^ 64
  /-- The position is the same number when it is read as a signed one. -/
  signed_eq : m.ip.signed = m.ip.toNat
  /-- Every jump leads to a signed number of 64 bits. -/
  jump_range : ∀ offset : Word,
    Int64.minValue.toInt ≤ m.ip.signed + offset.toInt ∧
      m.ip.signed + offset.toInt ≤ Int64.maxValue.toInt
  /-- The place above the top of the stack is a signed number of 64 bits, and not a negative one. -/
  above_range : ∀ calls : List StackCall,
    0 ≤ (m.calls calls).2.stack.top + 1 ∧
      (m.calls calls).2.stack.top + 1 ≤ Int64.maxValue.toInt
  /-- A push that is not refused writes to one of the cells. -/
  push_index : ∀ calls : List StackCall,
    (m.calls calls).2.stack.top ≠ 255 → ((m.calls calls).2.stack.top + 1).toNat < 256
  /-- A pop or a peek that finds something reads one of the cells. -/
  peek_index : ∀ calls : List StackCall,
    0 ≤ (m.calls calls).2.stack.top → (m.calls calls).2.stack.top.toNat < 256
  /-- No more than three slots are in use, -/
  count_le : (m.program.decode m.ip).count.toNat ≤ 3
  /-- so that the operands can be shown. -/
  operands_eq : ∃ ws, (m.program.decode m.ip).operands = .ok ws
  /-- An operand that is used as a register is the code of one. -/
  registers : ∀ k : Nat,
    (m.program.decode m.ip).opcode.operandKinds[k]? = some OperandKind.register →
      ∃ r : Register, (m.program.decode m.ip).slots.toList[k]? = some r.code
  /-- The cycle completes. -/
  completes : m.step.trap = none

theorem Healthy.signed_eq {m : Machine} (h : m.Healthy) : m.ip.signed = m.ip.toNat :=
  Address.signed_eq_toNat h.ip_lt

/-- The next cycle of a confined machine is safe. -/
theorem Confined.safeCycle {p : Program} {m : Machine} (h : Confined p m) : SafeCycle m := by
  have hsize := h.healthy.size_le
  have hip := h.ip_le
  have hcount := m.program.count_decode_le m.ip
  have hmin : Int64.minValue.toInt = -9223372036854775808 := rfl
  have hmax : Int64.maxValue.toInt = 9223372036854775807 := rfl
  unfold Program.maxSize at hsize
  rw [h.program] at hsize
  refine
    { past_lt := by omega
      operands_lt := ?_
      signed_eq := h.healthy.signed_eq
      jump_range := ?_
      above_range := ?_
      push_index := ?_
      peek_index := ?_
      count_le := hcount
      operands_eq := ⟨_, m.program.operands_decode m.ip⟩
      registers := fun k hk => m.program.slots_decode m.ip hk
      completes := (step_realises h.healthy).trap }
  · intro op
    have := op.arity_le_two
    omega
  · intro offset
    have hlow := offset.le_toInt
    have hhigh := offset.toInt_lt
    rw [h.healthy.signed_eq]
    constructor
    · omega
    · omega
  -- What is left is about the stack, whose pointer keeps its bounds by itself.
  all_goals
    intro calls
    have hge := (m.calls calls).2.stack.top_ge
    have hlt := (m.calls calls).2.stack.top_lt
  · constructor
    · omega
    · omega
  · intro hroom
    omega
  · intro hlive
    omega

/-- **Every run is safe.** However cycles, stack calls and register writes follow one another, the
pointer stays with the cells, the machine stays within the longest jump of its program, and the next
cycle is safe. -/
theorem reachable_safe {p : Program} (hp : p.size ≤ Program.maxSize) {m : Machine}
    (h : Reachable p m) :
    -1 ≤ m.stack.top ∧ m.stack.top ≤ 255 ∧ m.ip.toNat ≤ p.size + 2 ^ 31 - 4 ∧ SafeCycle m := by
  have hconfined := h.confined hp
  refine ⟨m.stack.top_ge, ?_, hconfined.ip_le, hconfined.safeCycle⟩
  have := m.stack.top_lt
  omega

/-- With a word pushed from outside, an `rjne` at the very end of its program takes the longest jump
there is. The machine then stands at the bound itself, and is safe there. -/
theorem reachable_safe_longest_jump :
    (#[7, 0, 2147483647] : Program).size ≤ Program.maxSize ∧
      Reachable #[7, 0, 2147483647] ((load #[7, 0, 2147483647]).push 1).step.machine ∧
      ((load #[7, 0, 2147483647]).push 1).step.machine.ip.toNat = 3 + 2 ^ 31 - 4 ∧
      SafeCycle ((load #[7, 0, 2147483647]).push 1).step.machine := by
  have hsize : (#[7, 0, 2147483647] : Program).size ≤ Program.maxSize := by decide
  have hreach : Reachable #[7, 0, 2147483647] ((load #[7, 0, 2147483647]).push 1).step.machine :=
    .step (.push 1 .load)
  obtain ⟨-, -, -, hsafe⟩ := reachable_safe hsize hreach
  exact ⟨hsize, hreach, by decide, hsafe⟩

end Machine

end Wordcode
