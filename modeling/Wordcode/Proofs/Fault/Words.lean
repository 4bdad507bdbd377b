import Mathlib.Algebra.Group.Nat.Defs
import Wordcode.Instruction

/-!
# Faults written as words

An internal halt carries its fault over the slots of an instruction, as words. Writing words over
slots and reading as many back returns them (`Slots.take_overwrite`), so what an internal halt
spells is what the words of its fault spell. Whatever stands behind them, these spell that fault again,
except that the source of a jump is cut down to fit a word (`Fault.clipped`,
`Fault.ofWords_toWords_append`).
-/

namespace Wordcode

namespace Slots

@[simp] theorem getElem_overwrite (slots : Slots) (ws : List Word) {i : Nat} (hi : i < slotCount) :
    (slots.overwrite ws)[i] = ws.getD i slots[i] :=
  Vector.getElem_ofFn hi

/-- The words written are the first ones to be read. -/
theorem take_overwrite (slots : Slots) {ws : List Word} (fits : ws.length ≤ slotCount) :
    (slots.overwrite ws).toList.take ws.length = ws := by
  apply List.ext_getElem
  · rw [List.length_take, Vector.length_toList]
    omega
  · intro i _ hi
    rw [List.getElem_take, Vector.getElem_toList, getElem_overwrite slots ws (by omega)]
    simp [hi]

end Slots

namespace Fault

theorem length_toWords_le (f : Fault) : f.toWords.length ≤ 3 := by
  cases f <;> simp [toWords, details]

/-- The fault as far as words can tell: a jump comes from no farther away than the largest word. -/
def clipped : Fault → Fault
  | jumpOutOfRange source offset =>
    jumpOutOfRange (UInt64.ofNat (min source.toNat (2 ^ 31 - 1))) offset
  | f => f

theorem clipped_of_kind_ne {f : Fault} (h : f.kind ≠ .jumpOutOfRange) : f.clipped = f := by
  cases f with
  | jumpOutOfRange source offset => exact absurd rfl h
  | _ => rfl

theorem toInt_sourceWord (source : Address) :
    (sourceWord source).toInt = (min source.toNat (2 ^ 31 - 1) : Nat) := by
  have hfar : farSource.toInt = 2 ^ 31 - 1 := rfl
  unfold sourceWord
  rw [hfar]
  split
  · next hnear =>
    have hnear : source.toNat ≤ 2 ^ 31 - 1 := hnear
    rw [Int32.toInt_ofNat_of_lt (by omega), Nat.min_eq_left hnear]
  · next hfarther =>
    have hfarther : ¬ source.toNat ≤ 2 ^ 31 - 1 := hfarther
    rw [Nat.min_eq_right (by omega)]
    exact hfar

/-- A fault's words spell it, whatever stands behind them. -/
theorem ofWords_toWords_append (f : Fault) (rest : List Word) :
    ofWords (f.toWords ++ rest) = f.clipped := by
  cases f with
  | jumpOutOfRange source offset =>
      have hsource := toInt_sourceWord source
      simp only [ofWords, toWords, kind, details, List.cons_append, Kind.ofCode?_code,
        Option.bind_some, ofDetails?]
      rw [if_pos (by omega), hsource]
      rfl
  | _ => simp [ofWords, toWords, kind, details, ofDetails?, clipped]

end Fault

namespace Instruction

theorem count_internalHalt (f : Fault) : (internalHalt f).count.toNat = f.toWords.length := by
  have hlt : f.toWords.length < UInt64.size :=
    Nat.lt_of_le_of_lt f.length_toWords_le (by decide)
  exact UInt64.toNat_ofNat_of_lt' hlt

/-- The operands of an internal halt are the words of its fault. -/
theorem operands_internalHalt (f : Fault) : (internalHalt f).operands = .ok f.toWords := by
  have hle : f.toWords.length ≤ slotCount := Nat.le_trans f.length_toWords_le (by decide)
  rw [operands, count_internalHalt, if_pos hle]
  exact congrArg Except.ok (Slots.take_overwrite _ hle)

/-- An internal halt spells the fault that it was made for, as far as words can tell. -/
theorem spelledFault_internalHalt_eq_clipped (f : Fault) :
    (internalHalt f).spelledFault = .ok f.clipped := by
  rw [spelledFault, operands_internalHalt, ← f.ofWords_toWords_append [], List.append_nil]
  rfl

theorem spelledFault_internalHalt {f : Fault} (h : f.kind ≠ .jumpOutOfRange) :
    (internalHalt f).spelledFault = .ok f := by
  rw [spelledFault_internalHalt_eq_clipped, Fault.clipped_of_kind_ne h]

end Instruction

end Wordcode
