import Wordcode.Word

/-!
# The operand stack

The stack is 256 cells and a pointer at the topmost live one, which is -1 when nothing is on the
stack. Cells above the pointer keep whatever was written to them last, and no operation can tell.
What counts is `entries`, the live words from the bottom up; the lemmas at the end say what each
operation does to them.

## The two flags

No operation fails. Instead each leaves a bit behind that says whether it did what it was asked to:

* `push` writes `overflow`, and nothing else does;
* `pop` and `peek` write `underflow`, and nothing else does.

A bit stays as it is until the next operation of its own sort. A refused push changes nothing but the
bit; a pop or a peek of the empty stack yields zero and changes nothing but the bit.
-/

namespace Wordcode

/-- The operand stack. Its pointer cannot leave the cells: that it stays in range is part of what a
stack is, and every operation below has to show it. -/
structure Stack where
  /-- All cells, live or not. -/
  cells : Vector Word 256
  /-- The index of the top cell; -1 when the stack is empty. -/
  top : Int
  /-- The pointer never falls below the empty stack. -/
  top_ge : -1 ≤ top
  /-- The pointer never leaves the cells. -/
  top_lt : top < 256
  /-- Whether the last push was refused. -/
  overflow : Bool
  /-- Whether the last pop or peek found nothing. -/
  underflow : Bool
deriving DecidableEq

namespace Stack

/-- How many words the stack can hold. -/
def capacity : Nat := 256

/-- The stack at the start of a run. -/
def empty : Stack where
  cells := Vector.replicate 256 0
  top := -1
  top_ge := by decide
  top_lt := by decide
  overflow := false
  underflow := false

/-- How many words are on the stack. -/
def depth (s : Stack) : Nat := (s.top + 1).toNat

/-- The words on the stack, bottom first. -/
def entries (s : Stack) : List Word := s.cells.toList.take s.depth

/-- Put a word on top, unless the stack is full. -/
def push (s : Stack) (v : Word) : Stack :=
  if full : s.top = 255 then { s with overflow := true }
  else
    { s with
      cells := s.cells.set (s.top + 1).toNat v (by have := s.top_ge; have := s.top_lt; omega)
      top := s.top + 1
      top_ge := by have := s.top_ge; omega
      top_lt := by have := s.top_lt; omega
      overflow := false }

/-- The word on top. -/
def peek (s : Stack) : Word × Stack :=
  if empty : s.top < 0 then (0, { s with underflow := true })
  else
    have bound : s.top.toNat < 256 := by have := s.top_lt; omega
    (s.cells[s.top.toNat], { s with underflow := false })

@[simp] theorem peek_top (s : Stack) : s.peek.2.top = s.top := by
  unfold peek; split <;> rfl

@[simp] theorem peek_cells (s : Stack) : s.peek.2.cells = s.cells := by
  unfold peek; split <;> rfl

@[simp] theorem peek_overflow (s : Stack) : s.peek.2.overflow = s.overflow := by
  unfold peek; split <;> rfl

/-- A peek finds nothing exactly when the pointer is below the cells. -/
@[simp] theorem peek_underflow (s : Stack) : s.peek.2.underflow = decide (s.top < 0) := by
  unfold peek; split <;> simp_all

/-- The word on top, which is removed. Whether there was one to remove is read off the bit that
looking for it has just written. -/
def pop (s : Stack) : Word × Stack :=
  match found : s.peek.2.underflow with
  | true => s.peek
  | false =>
    (s.peek.1, { s.peek.2 with
      top := s.peek.2.top - 1
      top_ge := by simp at found ⊢; omega
      top_lt := by have := s.peek.2.top_lt; omega })

/-! ### The live words

`entries` is all there is to a stack, flags aside: what an operation answers and what it leaves on the
stack depend on nothing else. -/

theorem depth_le (s : Stack) : s.depth ≤ capacity := by
  have := s.top_lt
  unfold depth capacity; omega

@[simp] theorem length_entries (s : Stack) : s.entries.length = s.depth := by
  have := s.depth_le
  unfold capacity at this
  simp [entries]; omega

@[simp] theorem entries_empty : empty.entries = [] := rfl

theorem depth_eq_zero_iff {s : Stack} : s.depth = 0 ↔ s.top < 0 := by
  unfold depth; omega

theorem depth_eq_capacity_iff {s : Stack} : s.depth = capacity ↔ s.top = 255 := by
  unfold depth capacity; omega

/-- A push appends its word, unless the stack is full. -/
theorem entries_push (s : Stack) (v : Word) :
    (s.push v).entries = if s.depth = capacity then s.entries else s.entries ++ [v] := by
  have hge := s.top_ge
  have hlt := s.top_lt
  unfold push
  split
  · next full => rw [if_pos (depth_eq_capacity_iff.2 full)]; rfl
  · next room =>
    rw [if_neg (mt depth_eq_capacity_iff.1 room)]
    have hd : (s.top + 1 + 1).toNat = s.depth + 1 := by unfold depth; omega
    have hs : s.depth < 256 := by unfold depth; omega
    simp only [entries, depth, hd]
    have hn : (s.top + 1).toNat < s.cells.toList.length := by simpa [depth] using hs
    rw [Vector.toList_set, List.take_add_one, List.take_set_of_le (Nat.le_refl _),
      List.getElem?_set_self hn, Option.toList_some]

@[simp] theorem push_overflow (s : Stack) (v : Word) :
    (s.push v).overflow = decide (s.depth = capacity) := by
  unfold push
  split <;> simp_all [depth_eq_capacity_iff]

@[simp] theorem push_underflow (s : Stack) (v : Word) : (s.push v).underflow = s.underflow := by
  unfold push; split <;> rfl

@[simp] theorem entries_peek (s : Stack) : s.peek.2.entries = s.entries := by
  simp [entries, depth]

/-- A peek answers the last entry, or zero if there is none. -/
theorem peek_fst (s : Stack) : s.peek.1 = s.entries.getLastD 0 := by
  have hlt := s.top_lt
  rw [List.getLastD_eq_getLast?, List.getLast?_eq_getElem?, length_entries]
  unfold peek
  split
  · next empty => simp [entries, depth_eq_zero_iff.2 empty]
  · next live =>
    have hd : s.depth - 1 = s.top.toNat := by unfold depth; omega
    have hs : s.top.toNat < s.depth := by unfold depth; omega
    rw [hd, entries, List.getElem?_take_of_lt hs]
    simp [show s.top.toNat < 256 by omega]

@[simp] theorem pop_fst (s : Stack) : s.pop.1 = s.peek.1 := by
  unfold pop; split <;> rfl

@[simp] theorem pop_underflow (s : Stack) : s.pop.2.underflow = s.peek.2.underflow := by
  unfold pop; split <;> rfl

@[simp] theorem pop_overflow (s : Stack) : s.pop.2.overflow = s.overflow := by
  unfold pop; split <;> simp

/-- A pop removes the last entry, if there is one. -/
theorem entries_pop (s : Stack) : s.pop.2.entries = s.entries.dropLast := by
  have hlt := s.top_lt
  unfold pop
  split
  · next h =>
    have h : s.top < 0 := by simpa using h
    simp [entries, depth_eq_zero_iff.2 h]
    simp [depth]; omega
  · next h =>
    have h : 0 ≤ s.top := by simpa using h
    have hd : s.top.toNat = min (s.depth - 1) s.depth := by unfold depth; omega
    rw [List.dropLast_eq_take, length_entries, entries, entries, List.take_take, ← hd]
    simp [depth]

end Stack

end Wordcode
