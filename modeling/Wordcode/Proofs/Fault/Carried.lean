import Wordcode.Proofs.Execution
import Wordcode.Proofs.Fault.Words

/-!
# Faults survive being carried

A fault that is found while decoding does not reach the record directly. It is written over the slots
of an internal halt, handed on as an instruction, and read back by whoever carries that out. Two
tables that were written apart have to fit for this: how a fault is spelled, with its opcode, its
word or its jump, and how words are read.

They do fit (`Fault.encode_read_back`). Writing a fault touches no more slots than it says, any number
of slots from there on spells it again, and the machine records and reports it. The one thing that
gets lost is how far away a jump came from, beyond what a word can say.
-/

namespace Wordcode

namespace Fault

/-- The source of a jump fits a word; so do the details of all other faults. -/
def Fits : Fault → Prop
  | jumpOutOfRange source _ => source.toNat ≤ 2 ^ 31 - 1
  | _ => True

/-- Nothing is lost of a fault that fits. -/
theorem Fits.clipped_eq {f : Fault} (h : f.Fits) : f.clipped = f := by
  cases f with
  | jumpOutOfRange source offset =>
      have h : source.toNat ≤ 2 ^ 31 - 1 := h
      rw [clipped, Nat.min_eq_left h, UInt64.ofNat_toNat]
  | _ => rfl

theorem Fits.eq_of_clipped_eq {f g : Fault} (hf : f.Fits) (hg : g.Fits)
    (h : f.clipped = g.clipped) : f = g := by
  rw [← hf.clipped_eq, h, hg.clipped_eq]

/-! ## The slots that are written -/

theorem take_encode (f : Fault) (slots : Slots) :
    (f.encode slots).1.toList.take (f.encode slots).2 = f.toWords :=
  Slots.take_overwrite slots (Nat.le_trans f.length_toWords_le (by decide))

theorem getElem_encode_of_le (f : Fault) (slots : Slots) {k : Nat} (hk : k < slotCount)
    (hle : (f.encode slots).2 ≤ k) : (f.encode slots).1[k] = slots[k] := by
  have hnone : f.toWords[k]? = none := List.getElem?_eq_none hle
  show (slots.overwrite f.toWords)[k] = slots[k]
  rw [Slots.getElem_overwrite slots f.toWords hk, List.getD_eq_getElem?_getD, hnone]
  rfl

/-- Any number of slots that holds the words of a fault spells it. -/
theorem ofWords_take_encode (f : Fault) (slots : Slots) {k : Nat}
    (hle : (f.encode slots).2 ≤ k) : ofWords ((f.encode slots).1.toList.take k) = f.clipped := by
  have hfront : f.toWords <+: (f.encode slots).1.toList.take k := by
    rw [← f.take_encode slots]
    exact List.take_prefix_take_left hle
  obtain ⟨rest, hrest⟩ := hfront
  rw [← hrest]
  exact f.ofWords_toWords_append rest

theorem encode_snd_le (f : Fault) (slots : Slots) : (f.encode slots).2 ≤ 3 := f.length_toWords_le

/-- **Faults can be told apart** by the slots they are written over, and by those in use alone. -/
theorem encode_ne {f g : Fault} (hf : f.Fits) (hg : g.Fits) (hne : f ≠ g) (slots slots' : Slots) :
    (f.encode slots).1 ≠ (g.encode slots').1 ∧
      (f.encode slots).1.toList.take (f.encode slots).2 ≠
        (g.encode slots').1.toList.take (g.encode slots').2 := by
  constructor
  · intro hsame
    have hread := f.ofWords_take_encode slots (f.encode_snd_le slots)
    rw [hsame, g.ofWords_take_encode slots' (g.encode_snd_le slots')] at hread
    exact hne (hf.eq_of_clipped_eq hg hread.symm)
  · intro hsame
    have hread := f.ofWords_take_encode slots (Nat.le_refl _)
    rw [hsame, g.ofWords_take_encode slots' (Nat.le_refl _)] at hread
    exact hne (hf.eq_of_clipped_eq hg hread.symm)

/-- **Faults survive being carried.** Writing a fault over slots uses one to three of them and leaves
the others alone. Reading these, with or without slots behind them, returns the fault, except that a
jump comes from no farther away than the largest word. An internal halt for the fault makes any
machine in the lower half of the address space stop, report and record just that, and changes nothing
else. So faults that fit can be told apart by what is written. -/
theorem encode_read_back (f : Fault) (slots : Slots) :
    1 ≤ (f.encode slots).2 ∧ (f.encode slots).2 ≤ 3 ∧
      (∀ (k : Nat) (hk : k < slotCount), (f.encode slots).2 ≤ k →
        (f.encode slots).1[k] = slots[k]) ∧
      (∀ k, (f.encode slots).2 ≤ k → ofWords ((f.encode slots).1.toList.take k) = f.clipped) ∧
      (∀ m : Machine, m.ip.toNat < 2 ^ 63 →
        m.execute (.internalHalt f) = ⟨m.faultWith f.clipped, [.faulted f.clipped], none⟩ ∧
          m.Stopped f.clipped (m.execute (.internalHalt f)).machine) ∧
      (f.Fits → f.clipped = f) ∧
      ∀ (g : Fault) (slots' : Slots), f.Fits → g.Fits → f ≠ g →
        (f.encode slots).1 ≠ (g.encode slots').1 ∧
          (f.encode slots).1.toList.take (f.encode slots).2 ≠
            (g.encode slots').1.toList.take (g.encode slots').2 := by
  refine ⟨Nat.succ_pos _, f.encode_snd_le slots, ?_, ?_, ?_, Fits.clipped_eq, ?_⟩
  · intro k hk hle
    exact f.getElem_encode_of_le slots hk hle
  · intro k hle
    exact f.ofWords_take_encode slots hle
  · intro m low
    have hexecute := Machine.execute_internalHalt_eq_clipped low f
    refine ⟨hexecute, ?_⟩
    rw [hexecute]
    exact m.stopped_faultWith f.clipped
  · intro g slots' hf hg hne
    exact encode_ne hf hg hne slots slots'

/-- The farthest jump of all comes back from as far away as a word reaches. -/
example : ofWords (jumpOutOfRange 18446744073709551615 (-3)).toWords =
    jumpOutOfRange 2147483647 (-3) := by
  decide

end Fault

end Wordcode
