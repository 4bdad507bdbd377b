/-!
# Words, addresses and traps

The machine knows two kinds of number. A **word** is what programs are written in and what the
stack and the registers hold: 32 bits, signed, and all arithmetic on it wraps. An **address** is a
position in the program: 64 bits, unsigned, and arithmetic on it *never* wraps — a sum that does not
fit is a `Trap`, and the operation that needed it goes no further.

## Traps are not faults

A malformed program is stopped by a *fault*, which the machine records and reports like any other
result. A trap is the other thing: the machine itself cannot go on, because a number that it has to
compute does not exist in the width it computes with. No program that is decoded from a stream of a
realistic length traps; instructions built by hand can.
-/

namespace Wordcode

/-- What programs, the stack and the registers hold: a signed 32-bit number that wraps. -/
abbrev Word := Int32

/-- A position in a program, or a number of words: an unsigned 64-bit number. -/
abbrev Address := UInt64

/-- Why an operation was cut short. -/
inductive Trap where
  | operandsBeyondSlots
  | addressOverflow
  | cycleOverflow
deriving DecidableEq, Repr

namespace Address

def ofNat? (n : Nat) : Option Address :=
  if h : n < UInt64.size then some (UInt64.ofNatLT n h) else none

theorem ofNat?_eq_some_iff {n : Nat} {a : Address} : ofNat? n = some a ↔ a.toNat = n := by
  unfold ofNat?
  split
  · next h =>
    rw [Option.some.injEq, ← UInt64.toNat_inj, UInt64.toNat_ofNatLT]
    exact eq_comm
  · next h =>
    have := a.toNat_lt_size
    simp; omega

theorem ofNat?_eq_none_iff {n : Nat} : ofNat? n = none ↔ UInt64.size ≤ n := by
  unfold ofNat?
  split <;> simp <;> omega

/-- The address of what follows an opcode at `a` with `count` operands behind it. -/
def past? (a count : Address) : Option Address := ofNat? (a.toNat + count.toNat + 1)

/-- The reading of an address as a signed 64-bit number, which is how jumps see it: in the upper half of
its range it is negative. -/
def signed (a : Address) : Int := a.toInt64.toInt

/-- Where a jump by `offset` from `a` lands. The sum is taken over signed 64-bit numbers: one that
does not fit traps, and a negative one lies before the start of every program, so it is `none`. -/
def displace (a : Address) (offset : Word) : Except Trap (Option Address) :=
  let target := a.signed + offset.toInt
  if Int64.minValue.toInt ≤ target ∧ target ≤ Int64.maxValue.toInt then
    .ok (if target < 0 then none else ofNat? target.toNat)
  else
    .error .addressOverflow

/-- In the lower half of its range, an address is its own signed reading. -/
theorem signed_of_lt {a : Address} (h : 2 * a.toNat < UInt64.size) : a.signed = a.toNat := by
  have h : 2 * a.toBitVec.toNat < 2 ^ 64 := h
  simp only [signed, Int64.toInt, UInt64.toBitVec_toInt64, BitVec.toInt_eq_toNat_cond, if_pos h]
  rfl

end Address

end Wordcode
