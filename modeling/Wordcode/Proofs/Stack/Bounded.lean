import Wordcode.Machine

/-!
# The stack is a bounded list

Cells, a pointer and two flags make up a `Stack`; a list that holds at most 256 words makes up what
it is *for*. This file says that nobody who only pushes, pops and peeks can tell the two apart.

The list side knows no flags. It says of one call, given what the list holds when the call comes:

* `StackCall.answer` — the word that is returned;
* `StackCall.effect` — what the list holds afterwards;
* `StackCall.refused` — whether the call is turned down, which a push is by a full list and a pop or
  a peek by an empty one.

The flags are then read off the whole history (`StackCall.trail`): each of them says whether the
most recent call *of its own sort* was turned down, no matter what was called since.
-/

namespace Wordcode

/-- What can be asked of a stack from outside. -/
inductive StackCall where
  | push (v : Word)
  | pop
  | peek
deriving DecidableEq, Repr

namespace StackCall

/-! ## The list side -/

def isPush : StackCall → Bool
  | push _ => true
  | pop | peek => false

/-- The word that is returned; a push returns none. -/
def answer (held : List Word) : StackCall → Option Word
  | push _ => none
  | pop | peek => some (held.getLastD 0)

/-- What the list holds afterwards. -/
def effect (held : List Word) : StackCall → List Word
  | push v => if held.length = 256 then held else held ++ [v]
  | pop => held.dropLast
  | peek => held

/-- Whether the call is turned down. -/
def refused (held : List Word) : StackCall → Bool
  | push _ => held.length = 256
  | pop | peek => held.isEmpty

/-- Each call of a sequence, together with what the list holds when it comes. -/
def trail (held : List Word) : List StackCall → List (StackCall × List Word)
  | [] => []
  | c :: calls => (c, held) :: trail (c.effect held) calls

/-- All answers to a sequence of calls. -/
def answers (held : List Word) (calls : List StackCall) : List (Option Word) :=
  (trail held calls).map fun step => step.1.answer step.2

/-- What the list holds after a sequence of calls. -/
def contents (held : List Word) (calls : List StackCall) : List Word :=
  calls.foldl effect held

/-- Whether the most recent call of a sort was turned down, if there was one of that sort. -/
def lastRefused (sort : StackCall → Bool) (steps : List (StackCall × List Word)) : Option Bool :=
  ((steps.filter fun step => sort step.1).getLast?).map fun step => step.1.refused step.2

theorem lastRefused_cons (sort : StackCall → Bool) (c : StackCall) (held : List Word)
    (steps : List (StackCall × List Word)) :
    lastRefused sort ((c, held) :: steps) =
      if sort c then some ((lastRefused sort steps).getD (c.refused held))
      else lastRefused sort steps := by
  unfold lastRefused
  by_cases h : sort c = true
  · rw [List.filter_cons_of_pos (by simpa using h), List.getLast?_cons, if_pos h]
    cases (steps.filter fun step => sort step.1).getLast? <;> rfl
  · rw [List.filter_cons_of_neg (by simpa using h), if_neg h]

/-! ### Filling and draining the list -/

theorem answers_append (held : List Word) (cs ds : List StackCall) :
    answers held (cs ++ ds) = answers held cs ++ answers (contents held cs) ds := by
  induction cs generalizing held with
  | nil => rfl
  | cons c cs ih =>
      show c.answer held :: answers (c.effect held) (cs ++ ds) = _
      rw [ih]
      rfl

/-- Pushes that find room append their words. -/
theorem contents_pushes {held vs : List Word} (room : held.length + vs.length ≤ 256) :
    contents held (vs.map push) = held ++ vs := by
  induction vs generalizing held with
  | nil => simp [contents]
  | cons v vs ih =>
      simp only [List.length_cons] at room
      have hv : effect held (push v) = held ++ [v] := if_neg (by omega)
      show contents (effect held (push v)) (vs.map push) = _
      rw [hv, ih (by simp; omega), List.append_assoc]
      rfl

theorem answers_pushes (held vs : List Word) :
    answers held (vs.map push) = List.replicate vs.length none := by
  induction vs generalizing held with
  | nil => rfl
  | cons v vs ih =>
      show none :: answers (effect held (push v)) (vs.map push) = _
      rw [ih]
      rfl

/-- As many pops as there are words on top remove just these. -/
theorem contents_pops (held vs : List Word) :
    contents (held ++ vs.reverse) (List.replicate vs.length pop) = held := by
  induction vs with
  | nil => simp [contents]
  | cons v vs ih =>
      show contents (effect (held ++ (v :: vs).reverse) pop) (List.replicate vs.length pop) = held
      rw [List.reverse_cons, ← List.append_assoc, effect, List.dropLast_concat, ih]

theorem answers_pops (held vs : List Word) :
    answers (held ++ vs.reverse) (List.replicate vs.length pop) = vs.map some := by
  induction vs with
  | nil => rfl
  | cons v vs ih =>
      -- `v` has been pushed last of all, and goes first.
      have hlast : answer (held ++ (v :: vs).reverse) pop = some v := by
        rw [List.reverse_cons, ← List.append_assoc, answer, List.getLastD_concat]
      have hrest : effect (held ++ (v :: vs).reverse) pop = held ++ vs.reverse := by
        rw [List.reverse_cons, ← List.append_assoc, effect, List.dropLast_concat]
      show answer (held ++ (v :: vs).reverse) pop ::
        answers (effect (held ++ (v :: vs).reverse) pop) (List.replicate vs.length pop) = _
      rw [hlast, hrest, ih]
      rfl

end StackCall

namespace Stack

/-- The pointer is at the last entry. -/
theorem top_eq (s : Stack) : s.top = s.entries.length - 1 := by
  have := s.top_ge
  rw [length_entries]
  unfold depth
  omega

theorem length_entries_le (s : Stack) : s.entries.length ≤ 256 := by
  rw [length_entries]
  exact s.depth_le

theorem isEmpty_entries (s : Stack) : s.entries.isEmpty = decide (s.top < 0) := by
  rw [Bool.eq_iff_iff, List.isEmpty_iff_length_eq_zero, length_entries, depth_eq_zero_iff,
    decide_eq_true_iff]

end Stack

namespace Machine

open StackCall (answers contents trail lastRefused)

/-! ## The machine side -/

/-- Make one call: the word that is returned, if one is, and the machine afterwards. -/
def call (m : Machine) : StackCall → Option Word × Machine
  | .push v => (none, m.push v)
  | .pop => (some m.pop.1, m.pop.2)
  | .peek => (some m.peek.1, m.peek.2)

/-- Make several calls, one after another. -/
def calls (m : Machine) : List StackCall → List (Option Word) × Machine
  | [] => ([], m)
  | c :: cs => ((m.call c).1 :: ((m.call c).2.calls cs).1, ((m.call c).2.calls cs).2)

/-! ### One call -/

theorem call_answer (m : Machine) (c : StackCall) : (m.call c).1 = c.answer m.stack.entries := by
  cases c with
  | push v => rfl
  | pop =>
      show some m.stack.pop.1 = _
      rw [Stack.pop_fst, Stack.peek_fst]
      rfl
  | peek =>
      show some m.stack.peek.1 = _
      rw [Stack.peek_fst]
      rfl

theorem call_entries (m : Machine) (c : StackCall) :
    (m.call c).2.stack.entries = c.effect m.stack.entries := by
  cases c with
  | push v =>
      show (m.stack.push v).entries = if m.stack.entries.length = 256 then _ else _
      rw [Stack.entries_push, Stack.length_entries]
      rfl
  | pop => exact m.stack.entries_pop
  | peek => exact m.stack.entries_peek

theorem call_overflow (m : Machine) (c : StackCall) :
    (m.call c).2.stack.overflow =
      if c.isPush then c.refused m.stack.entries else m.stack.overflow := by
  cases c with
  | push v =>
      show (m.stack.push v).overflow = decide (m.stack.entries.length = 256)
      rw [Stack.push_overflow, Stack.length_entries]
      rfl
  | pop => exact m.stack.pop_overflow
  | peek => exact m.stack.peek_overflow

theorem call_underflow (m : Machine) (c : StackCall) :
    (m.call c).2.stack.underflow =
      if !c.isPush then c.refused m.stack.entries else m.stack.underflow := by
  cases c with
  | push v => exact m.stack.push_underflow v
  | pop =>
      show m.stack.pop.2.underflow = m.stack.entries.isEmpty
      rw [Stack.pop_underflow, Stack.peek_underflow, Stack.isEmpty_entries]
  | peek =>
      show m.stack.peek.2.underflow = m.stack.entries.isEmpty
      rw [Stack.peek_underflow, Stack.isEmpty_entries]

/-! ### Many calls

Each by induction on the calls, over every machine to start from: the flags at the start matter only
as long as no call of their sort has been made. -/

theorem calls_answers (m : Machine) (cs : List StackCall) :
    (m.calls cs).1 = answers m.stack.entries cs := by
  induction cs generalizing m with
  | nil => rfl
  | cons c cs ih =>
      show (m.call c).1 :: ((m.call c).2.calls cs).1 = _
      rw [ih, call_answer, call_entries]
      rfl

theorem calls_entries (m : Machine) (cs : List StackCall) :
    (m.calls cs).2.stack.entries = contents m.stack.entries cs := by
  induction cs generalizing m with
  | nil => rfl
  | cons c cs ih =>
      show ((m.call c).2.calls cs).2.stack.entries = _
      rw [ih, call_entries]
      rfl

/-- A flag that the calls of one sort write, and no others, is about the last call of that sort. -/
theorem calls_flag {flag : Stack → Bool} {sort : StackCall → Bool}
    (one : ∀ (m : Machine) (c : StackCall), flag (m.call c).2.stack =
      if sort c then c.refused m.stack.entries else flag m.stack)
    (m : Machine) (cs : List StackCall) :
    flag (m.calls cs).2.stack =
      (lastRefused sort (trail m.stack.entries cs)).getD (flag m.stack) := by
  induction cs generalizing m with
  | nil => rfl
  | cons c cs ih =>
      show flag ((m.call c).2.calls cs).2.stack = _
      rw [ih, call_entries, one, trail, StackCall.lastRefused_cons]
      cases sort c <;> rfl

/-- Pushing words that find room, and popping as often, returns them in reverse and leaves the stack
as it was. -/
theorem calls_fill_drain {m : Machine} {vs : List Word}
    (room : vs.length ≤ 256 - m.stack.entries.length) :
    (m.calls (vs.map .push ++ List.replicate vs.length .pop)).1 =
        List.replicate vs.length none ++ vs.reverse.map some ∧
      (m.calls (vs.map .push ++ List.replicate vs.length .pop)).2.stack.entries =
        m.stack.entries := by
  have hcap := m.stack.length_entries_le
  have hfill : contents m.stack.entries (vs.map .push) = m.stack.entries ++ vs.reverse.reverse := by
    rw [List.reverse_reverse]
    exact StackCall.contents_pushes (by omega)
  have hlen : vs.length = vs.reverse.length := List.length_reverse.symm
  constructor
  · rw [calls_answers, StackCall.answers_append, StackCall.answers_pushes, hfill, hlen,
      StackCall.answers_pops]
  · rw [calls_entries, contents, List.foldl_append]
    show contents (contents m.stack.entries (vs.map .push)) (List.replicate vs.length .pop) = _
    rw [hfill, hlen, StackCall.contents_pops]

/-- **A fresh stack is a list of at most 256 words.** Whatever is called on it, its answers, its
entries, its depth and its pointer are those of the list, and each flag says whether the most recent
call of its own sort was turned down. -/
theorem load_calls_eq_bounded_list (p : Program) (cs : List StackCall) :
    let run := (load p).calls cs
    let held := contents [] cs
    run.1 = answers [] cs ∧
      run.2.stack.entries = held ∧
      run.2.stack.depth = held.length ∧
      run.2.stack.top = held.length - 1 ∧
      held.length ≤ 256 ∧
      run.2.stack.overflow = (lastRefused StackCall.isPush (trail [] cs)).getD false ∧
      run.2.stack.underflow = (lastRefused (!·.isPush) (trail [] cs)).getD false ∧
      ∀ vs : List Word, vs.length ≤ 256 - held.length →
        (run.2.calls (vs.map .push ++ List.replicate vs.length .pop)).1 =
            List.replicate vs.length none ++ vs.reverse.map some ∧
          (run.2.calls (vs.map .push ++ List.replicate vs.length .pop)).2.stack.entries = held := by
  intro run held
  have hentries : run.2.stack.entries = held := calls_entries (load p) cs
  have hdepth : run.2.stack.depth = held.length := by
    rw [← Stack.length_entries, hentries]
  refine ⟨calls_answers _ cs, hentries, hdepth, ?_, ?_, calls_flag call_overflow _ cs,
    calls_flag call_underflow _ cs, ?_⟩
  · rw [Stack.top_eq, hentries]
  · rw [← hdepth]
    exact run.2.stack.depth_le
  · intro vs room
    rw [← hentries] at room ⊢
    exact calls_fill_drain room

/-- With 9 on the stack, pushing 3 and 4 and popping twice returns 4 and 3, and leaves the 9. -/
theorem load_push_fill_drain :
    let run := (load #[]).calls [.push 9]
    ([3, 4] : List Word).length ≤ 256 - (contents [] [.push 9]).length ∧
      (run.2.calls [.push 3, .push 4, .pop, .pop]).1 = [none, none, some 4, some 3] ∧
      (run.2.calls [.push 3, .push 4, .pop, .pop]).2.stack.entries = [9] := by
  intro run
  have room : ([3, 4] : List Word).length ≤ 256 - (contents [] [.push 9]).length := by decide
  obtain ⟨-, -, -, -, -, -, -, hdrain⟩ := load_calls_eq_bounded_list #[] [.push 9]
  exact ⟨room, (hdrain [3, 4] room).1, (hdrain [3, 4] room).2⟩

end Machine

end Wordcode
