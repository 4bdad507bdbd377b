import Wordcode.Proofs.Requests
import Wordcode.Proofs.Verdicts

/-!
# Where an `rjne` leads

A jump adds its offset to the position of the `rjne`. Positions are unsigned and offsets are signed,
and the sum is taken over signed numbers; so the position is read as a signed one first
(`Address.signed`).

In the lower half of the address space that makes no difference. There the machine lands at the sum
over the integers if that is in the lower half too, and fails if it lies before the start, as it
should. A sum beyond the middle does not exist as a signed number, and the machine is at a loss.

In the upper half a position turns negative, and the machine takes itself to stand in front of its
program. A jump that stays in the upper half is out of range to it, one that would leave it at the
top lands at the start of the address space, and one that would leave it at the bottom has no sum.

`Machine.execute_jumps` lists these six cases. No program leads to the upper half. But an instruction
that is made by hand may claim any number of operands, and takes the machine to where a jump
*forward* is reported as one to before the start (`Machine.execute_jumps_forward_out_of_range`).
-/

namespace Wordcode

namespace Address

variable {a : Address} {offset : Word}

/-- In the upper half of the address space a position turns negative. -/
theorem signed_eq_sub (high : 2 ^ 63 ≤ a.toNat) : a.signed = a.toNat - 2 ^ 64 := by
  have high : ¬ 2 * a.toBitVec.toNat < 2 ^ 64 := by
    rw [UInt64.toNat_toBitVec]
    omega
  rw [signed, Int64.toInt, UInt64.toBitVec_toInt64, BitVec.toInt_eq_toNat_cond, if_neg high]
  rfl

theorem displace_eq_error
    (h : a.signed + offset.toInt < -2 ^ 63 ∨ 2 ^ 63 ≤ a.signed + offset.toInt) :
    a.displace offset = .error .addressOverflow := by
  rw [displace_eq_ite, if_pos h]

theorem displace_eq_none (fits : -2 ^ 63 ≤ a.signed + offset.toInt)
    (before : a.signed + offset.toInt < 0) : a.displace offset = .ok none := by
  rw [displace_eq_ite, if_neg (by omega), if_pos before]

/-- A jump lands where its sum is a position of the lower half, and nowhere else. -/
theorem displace_eq_some_iff {target : Address} :
    a.displace offset = .ok (some target) ↔
      (target.toNat : Int) = a.signed + offset.toInt ∧ a.signed + offset.toInt < 2 ^ 63 := by
  rw [displace_eq_ite]
  split
  · grind
  · split <;> grind [ofNat?_eq_some_iff]

end Address

namespace Machine

variable {m : Machine} {i : Instruction}

theorem Jumps.perform_eq (h : m.Jumps i) : m.perform i = m.peek.2.jumping i.slots[1] := by
  obtain ⟨r, top, hr, htop, hne⟩ := h.differs
  have hregister : m.peek.2.register r ≠ top := hne
  simp [perform, h.opcode, hr, naming_code, peeking_eq, htop, hregister]

/-! ## The three ends of a jump -/

/-- The jump lands at the position `n`. -/
def Lands (m : Machine) (i : Instruction) (n : Int) : Prop :=
  ∃ target : Address, (target.toNat : Int) = n ∧
    m.execute i = ⟨{ m.peek.2 with ip := target }, [], none⟩

/-- The jump fails. The machine stops where it stands, with nothing changed but that it has looked at
the stack, and found something there. -/
structure OutOfRange (m : Machine) (i : Instruction) (offset : Word) : Prop where
  execute : m.execute i = ⟨m.peek.2.faultWith (.jumpOutOfRange m.ip offset),
    [.faulted (.jumpOutOfRange m.ip offset)], none⟩
  program : (m.execute i).machine.program = m.program
  ip : (m.execute i).machine.ip = m.ip
  registers : (m.execute i).machine.registers = m.registers
  entries : (m.execute i).machine.stack.entries = m.stack.entries
  overflow : (m.execute i).machine.stack.overflow = m.stack.overflow
  underflow : (m.execute i).machine.stack.underflow = false
  halted : (m.execute i).machine.halted = true
  fault : (m.execute i).machine.fault = some (.jumpOutOfRange m.ip offset)
  outcome : (m.execute i).machine.outcome = some (.faulted (.jumpOutOfRange m.ip offset))

/-- The jump is not carried out: 64 bits do not hold its target. -/
def Overflows (m : Machine) (i : Instruction) : Prop :=
  m.execute i = ⟨m.peek.2, [], some .addressOverflow⟩

section

variable (jumps : m.Jumps i) (past : m.ip.toNat + i.count.toNat + 1 < 2 ^ 64) {offset : Word}
  (operand : i.slots[1] = offset)

include jumps past operand

theorem execute_jump : ∃ next : Address, m.execute i =
    conclude next (match m.ip.displace offset with
      | .ok (some target) => ⟨m.peek.2, .jump target, []⟩
      | .ok none => ⟨m.peek.2, .fault (.jumpOutOfRange m.ip offset), []⟩
      | .error t => ⟨m.peek.2, .trap t, []⟩) := by
  obtain ⟨next, hpast, -⟩ := Address.past?_eq_some past
  refine ⟨next, ?_⟩
  rw [execute, hpast, ← operand]
  exact congrArg (conclude next) jumps.perform_eq

theorem lands_of_signed (running : m.halted = false) {n : Int}
    (hsum : m.ip.signed + offset.toInt = n) (hlow : 0 ≤ n) (hhigh : n < 2 ^ 63) : m.Lands i n := by
  have htarget : ((UInt64.ofNat n.toNat).toNat : Int) = n := by
    have hfits : n.toNat < UInt64.size := by
      unfold UInt64.size
      omega
    rw [UInt64.toNat_ofNat_of_lt' hfits, Int.toNat_of_nonneg hlow]
  have hlands : m.ip.displace offset = .ok (some (UInt64.ofNat n.toNat)) :=
    Address.displace_eq_some_iff.mpr (by omega)
  have hmoves : m.peek.2.moveTo (UInt64.ofNat n.toNat) =
      { m.peek.2 with ip := UInt64.ofNat n.toNat } := if_neg (by simp [peek, running])
  obtain ⟨next, hexecute⟩ := execute_jump jumps past operand
  refine ⟨_, htarget, ?_⟩
  rw [hexecute, hlands, ← hmoves]
  rfl

theorem outOfRange_of_signed (hlow : -2 ^ 63 ≤ m.ip.signed + offset.toInt)
    (hhigh : m.ip.signed + offset.toInt < 0) : m.OutOfRange i offset := by
  obtain ⟨next, hexecute⟩ := execute_jump jumps past operand
  rw [Address.displace_eq_none hlow hhigh] at hexecute
  have hstopped := m.peek.2.stopped_faultWith (.jumpOutOfRange m.ip offset)
  have hlive : m.stack.peek.2.underflow = false := by
    rw [Stack.peek_underflow, ← Stack.isEmpty_entries, List.isEmpty_eq_false_iff]
    exact jumps.entries_ne_nil
  constructor
  case execute => exact hexecute
  all_goals rw [hexecute]
  case program => exact hstopped.program
  case ip => exact hstopped.ip
  case registers => exact hstopped.registers
  case entries => exact hstopped.entries.trans m.stack.entries_peek
  case overflow => exact hstopped.overflow.trans m.stack.peek_overflow
  case underflow => exact hstopped.underflow.trans hlive
  case halted => exact hstopped.halted
  case fault => exact hstopped.fault
  case outcome => exact hstopped.outcome

theorem overflows_of_signed
    (h : m.ip.signed + offset.toInt < -2 ^ 63 ∨ 2 ^ 63 ≤ m.ip.signed + offset.toInt) :
    m.Overflows i := by
  obtain ⟨next, hexecute⟩ := execute_jump jumps past operand
  rw [Overflows, hexecute, Address.displace_eq_error h]
  rfl

end

/-- **Where an `rjne` leads** if it has to jump on a machine that is running. In the lower half of the
address space it lands at the sum of its position and its offset, as long as that is in the lower
half as well; only a negative sum is out of range. In the upper half it can do no more than come
round to the start. -/
theorem execute_jumps (running : m.halted = false) (jumps : m.Jumps i)
    (past : m.ip.toNat + i.count.toNat + 1 < 2 ^ 64) :
    let offset := i.slots[1]
    let sum : Int := m.ip.toNat + offset.toInt
    (m.ip.toNat < 2 ^ 63 →
      (sum < 0 → m.OutOfRange i offset) ∧
      (0 ≤ sum → sum < 2 ^ 63 → m.Lands i sum) ∧
      (2 ^ 63 ≤ sum → m.Overflows i)) ∧
    (2 ^ 63 ≤ m.ip.toNat →
      (sum < 2 ^ 63 → m.Overflows i) ∧
      (2 ^ 63 ≤ sum → sum < 2 ^ 64 → m.OutOfRange i offset) ∧
      (2 ^ 64 ≤ sum → m.Lands i (sum - 2 ^ 64))) := by
  intro offset sum
  have operand : i.slots[1] = offset := rfl
  have hip := m.ip.toNat_lt
  have hoffset := offset.le_toInt
  have hoffset' := offset.toInt_lt
  rcases Nat.lt_or_ge m.ip.toNat (2 ^ 63) with hhalf | hhalf
  · have hsigned := Address.signed_eq_toNat hhalf
    refine ⟨fun _ => ⟨?_, ?_, ?_⟩, fun hupper => by omega⟩
    · intro hsum
      exact outOfRange_of_signed jumps past operand (by omega) (by omega)
    · intro hlow hhigh
      exact lands_of_signed jumps past operand running (by omega) hlow hhigh
    · intro hsum
      exact overflows_of_signed jumps past operand (by omega)
  · have hsigned := Address.signed_eq_sub hhalf
    refine ⟨fun hlower => by omega, fun _ => ⟨?_, ?_, ?_⟩⟩
    · intro hsum
      exact overflows_of_signed jumps past operand (by omega)
    · intro hlow hhigh
      exact outOfRange_of_signed jumps past operand (by omega) (by omega)
    · intro hsum
      exact lands_of_signed jumps past operand running (by omega) (by omega) (by omega)

/-- Three words forward from the middle of the address space, where an instruction that claims to have
`2 ^ 63 - 1` operands leads, is still in the address space. The machine stops there all the same,
and reports a jump to before the start. -/
theorem execute_jumps_forward_out_of_range :
    let far : Instruction := ⟨.nop, Slots.fill 0, 9223372036854775807⟩
    let jump : Instruction := .ofOperands .rjne [0, 3]
    let t := serveAll [.call (.push 1), .execute far] (load #[])
    t.trap = none ∧ t.machine.halted = false ∧ t.machine.Jumps jump ∧
      t.machine.ip.toNat = 2 ^ 63 ∧
      (0 ≤ (t.machine.ip.toNat : Int) + 3 ∧ (t.machine.ip.toNat : Int) + 3 < 2 ^ 64) ∧
      (t.machine.execute jump).trap = none ∧
      (t.machine.execute jump).machine.ip = t.machine.ip ∧
      (t.machine.execute jump).machine.outcome =
        some (.faulted (.jumpOutOfRange 9223372036854775808 3)) := by
  intro far jump t
  have jumps : t.machine.Jumps jump := ⟨rfl, .a, 1, by decide, by decide, by decide⟩
  refine ⟨by decide, by decide, jumps, by decide, by decide, by decide, by decide, by decide⟩

/-- From its first position, a machine lands three words on. -/
theorem execute_jumps_forward :
    let m := (load #[]).push 1
    let jump : Instruction := .ofOperands .rjne [0, 3]
    m.halted = false ∧ m.Jumps jump ∧ m.ip.toNat + jump.count.toNat + 1 < 2 ^ 64 ∧
      m.Lands jump 3 := by
  intro m jump
  have jumps : m.Jumps jump := ⟨rfl, .a, 1, by decide, by decide, by decide⟩
  have past : m.ip.toNat + jump.count.toNat + 1 < 2 ^ 64 := by decide
  obtain ⟨hlower, -⟩ := execute_jumps rfl jumps past
  obtain ⟨-, hlands, -⟩ := hlower (by decide)
  exact ⟨rfl, jumps, past, hlands (by decide) (by decide)⟩

end Machine

end Wordcode
