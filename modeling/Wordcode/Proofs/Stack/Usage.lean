import Wordcode.Proofs.Execution
import Wordcode.Proofs.Requests

/-!
# What is asked of the stack

Instructions work on the stack by the same three calls that are open to everybody else. This file says
which ones: `Machine.performCalls` lists the calls that an instruction's work makes, in order, and the
functions below it do so for everything that can be asked of a machine. That these lists are right is
one statement, `Machine.serveAll_stack`: the stack that is left behind, cells and flags included, is
the one that was there at the start with the listed calls made on it, and nothing else.

It follows that whatever is known of calls is known of requests. Here that is when a flag is known: as
soon as one call of its own sort has been made, no matter what the flag was at the start
(`Stack.overflow_replay`, `Stack.underflow_replay`).
-/

namespace Wordcode

namespace StackCall

/-- Make the call. -/
def apply (s : Stack) : StackCall → Stack
  | push v => s.push v
  | pop => s.pop.2
  | peek => s.peek.2

/-- Once there has been a call of a sort, there is a most recent one. -/
theorem lastRefused_trail (sort : StackCall → Bool) {cs : List StackCall}
    (h : ∃ c ∈ cs, sort c = true) (held : List Word) :
    ∃ b, lastRefused sort (trail held cs) = some b := by
  induction cs generalizing held with
  | nil =>
      obtain ⟨c, hc, -⟩ := h
      cases hc
  | cons c cs ih =>
      rw [trail, lastRefused_cons]
      by_cases hc : sort c = true
      · rw [if_pos hc]
        exact ⟨_, rfl⟩
      · rw [if_neg hc]
        apply ih
        obtain ⟨d, hd, hsort⟩ := h
        rcases List.mem_cons.mp hd with rfl | hd
        · exact absurd hsort hc
        · exact ⟨d, hd, hsort⟩

end StackCall

namespace Stack

def replay (s : Stack) (cs : List StackCall) : Stack := cs.foldl StackCall.apply s

theorem replay_append (s : Stack) (cs ds : List StackCall) :
    s.replay (cs ++ ds) = (s.replay cs).replay ds :=
  List.foldl_append

end Stack

namespace Machine

theorem calls_stack (m : Machine) (cs : List StackCall) :
    (m.calls cs).2.stack = m.stack.replay cs := by
  induction cs generalizing m with
  | nil => rfl
  | cons c cs ih =>
      have hone : (m.call c).2.stack = c.apply m.stack := by cases c <;> rfl
      show ((m.call c).2.calls cs).2.stack = (c.apply m.stack).replay cs
      rw [ih, hone]

end Machine

namespace Stack

/-! ## When a flag is known -/

section

variable {s s' : Stack} {cs : List StackCall} (h : s'.entries = s.entries)

include h

/-- Stacks that hold the same agree about overflow as soon as there has been a push. -/
theorem overflow_replay (hc : ∃ c ∈ cs, c.isPush = true) :
    (s'.replay cs).overflow = (s.replay cs).overflow := by
  have known (t : Stack) : (t.replay cs).overflow =
      (StackCall.lastRefused StackCall.isPush (StackCall.trail t.entries cs)).getD t.overflow := by
    have hcalls := Machine.calls_flag Machine.call_overflow { Machine.load #[] with stack := t } cs
    rwa [Machine.calls_stack] at hcalls
  obtain ⟨b, hb⟩ := StackCall.lastRefused_trail StackCall.isPush hc s.entries
  rw [known, known, h, hb]
  rfl

theorem underflow_replay (hc : ∃ c ∈ cs, c.isPush = false) :
    (s'.replay cs).underflow = (s.replay cs).underflow := by
  have known (t : Stack) : (t.replay cs).underflow =
      (StackCall.lastRefused (!·.isPush) (StackCall.trail t.entries cs)).getD t.underflow := by
    have hcalls := Machine.calls_flag Machine.call_underflow { Machine.load #[] with stack := t } cs
    rwa [Machine.calls_stack] at hcalls
  have hc' : ∃ c ∈ cs, (!c.isPush) = true := by simpa using hc
  obtain ⟨b, hb⟩ := StackCall.lastRefused_trail (!·.isPush) hc' s.entries
  rw [known, known, h, hb]
  rfl

end

end Stack

/-! ## Instructions -/

theorem zero_lt_slotCount : 0 < slotCount := by decide

theorem one_lt_slotCount : 1 < slotCount := by decide

namespace Machine

/-- The calls that an instruction's work makes on the stack. An operand that names no register comes
before them, and a word that is missing ends them. -/
def performCalls (m : Machine) (i : Instruction) : List StackCall :=
  let first := getElem i.slots 0 zero_lt_slotCount
  let second := getElem i.slots 1 one_lt_slotCount
  match i.opcode with
  | .nop | .rdec | .halt | .ihalt => []
  | .push => [.push first]
  | .pop => [.pop]
  | .set =>
    match Register.ofCode? first with
    | some _ => [.pop]
    | none => []
  | .add =>
    match m.stack.entries.reverse with
    | [] => [.pop]
    | [_] => [.pop, .pop]
    | v :: w :: _ => [.pop, .pop, .push (v + w)]
  | .radd =>
    match Register.ofCode? first, Register.ofCode? second with
    | some r, some s => [.push (m.register r + m.register s)]
    | _, _ => []
  | .rjne =>
    match Register.ofCode? first with
    | some _ => [.peek]
    | none => []

section

variable (m : Machine)

theorem pushing_stack (v : Word) : (m.pushing v).machine.stack = m.stack.push v := by
  rw [pushing_eq]
  split <;> rfl

variable {m} in
theorem popping_stack {use : Word → Machine → Work}
    (h : ∀ v m', (use v m').machine.stack = m'.stack) :
    (m.popping use).machine.stack = m.stack.pop.2 := by
  rw [popping_eq]
  split
  · rfl
  · exact h _ m.pop.2

variable {m} in
theorem peeking_stack {use : Word → Machine → Work}
    (h : ∀ v m', (use v m').machine.stack = m'.stack) :
    (m.peeking use).machine.stack = m.stack.peek.2 := by
  rw [peeking_eq]
  split
  · rfl
  · exact h _ m.peek.2

variable {m} in
/-- Nothing is called for an operand that names no register. -/
theorem naming_stack {op : Opcode} {w : Word} {use : Register → Work}
    {cs : Register → List StackCall}
    (h : ∀ r, (use r).machine.stack = m.stack.replay (cs r)) :
    (m.naming op w use).machine.stack =
      m.stack.replay (match Register.ofCode? w with
        | some r => cs r
        | none => []) := by
  unfold naming
  cases Register.ofCode? w with
  | some r => exact h r
  | none => rfl

theorem jumping_stack (offset : Word) : (m.jumping offset).machine.stack = m.stack := by
  unfold jumping
  split <;> rfl

/-- Two pops, and then the sum is pushed; unless one of the words is missing. -/
theorem popping_twice_stack :
    (m.popping fun v m => m.popping fun w m => m.pushing (v + w)).machine.stack =
      m.stack.replay (match m.stack.entries.reverse with
        | [] => [.pop]
        | [_] => [.pop, .pop]
        | v :: w :: _ => [.pop, .pop, .push (v + w)]) := by
  have hleft : m.pop.2.stack.entries = m.stack.entries.dropLast := m.stack.entries_pop
  rw [popping_eq]
  rcases List.eq_nil_or_concat m.stack.entries with hnil | ⟨held, v, hheld⟩
  · rw [hnil]
    rfl
  rw [List.concat_eq_append] at hheld
  rw [hheld, List.getLast?_concat, List.reverse_append]
  show (m.pop.2.popping fun w m => m.pushing (v + w)).machine.stack = _
  rw [popping_eq, hleft, hheld, List.dropLast_concat]
  rcases List.eq_nil_or_concat held with rfl | ⟨below, w, rfl⟩
  · rfl
  rw [List.concat_eq_append, List.getLast?_concat, List.reverse_append]
  exact pushing_stack _ (v + w)

/-- The work of an instruction leaves the stack as its calls do. -/
theorem perform_stack (i : Instruction) :
    (m.perform i).machine.stack = m.stack.replay (m.performCalls i) := by
  unfold perform performCalls
  cases i.opcode with
  | nop | halt => rfl
  | push => exact m.pushing_stack _
  | pop => exact popping_stack fun _ _ => rfl
  | set =>
      apply naming_stack
      intro r
      exact popping_stack fun _ _ => rfl
  | add => exact m.popping_twice_stack
  | radd =>
      dsimp only
      cases hr : Register.ofCode? i.slots[0] with
      | none => simp [naming, hr, Stack.replay]
      | some r =>
          simp only [naming, hr]
          cases Register.ofCode? i.slots[1] with
          | none => rfl
          | some s => exact m.pushing_stack _
  | rdec =>
      unfold naming
      dsimp only
      split <;> rfl
  | rjne =>
      apply naming_stack
      intro r
      apply peeking_stack
      intro top m'
      split
      · rfl
      · exact m'.jumping_stack _
  | ihalt =>
      dsimp only
      split <;> rfl

end

/-- The calls that are made when an instruction is carried out. There are none if the position past it
does not exist. -/
def executeCalls (m : Machine) (i : Instruction) : List StackCall :=
  match m.ip.past? i.count with
  | some _ => m.performCalls i
  | none => []

theorem execute_stack (m : Machine) (i : Instruction) :
    (m.execute i).machine.stack = m.stack.replay (m.executeCalls i) := by
  unfold execute executeCalls
  cases m.ip.past? i.count with
  | some next =>
      dsimp only
      rw [conclude_stack]
      exact m.perform_stack i
  | none => rfl

/-! ## Cycles and requests -/

/-- The calls that a cycle makes. -/
def stepCalls (m : Machine) : List StackCall :=
  if m.halted then [] else m.executeCalls (m.program.decode m.ip)

theorem step_stack (m : Machine) : m.step.machine.stack = m.stack.replay m.stepCalls := by
  unfold step stepCalls
  split
  · rfl
  · exact m.execute_stack _

def stepsCalls : Nat → Machine → List StackCall
  | 0, _ => []
  | n + 1, m => m.stepCalls ++ if m.step.trap = none then stepsCalls n m.step.machine else []

/-- What one transition and then another leave of a stack. -/
theorem andThen_stack {t : Transition} {s : Stack} {cs ds : List StackCall}
    {next : Machine → Transition} (ht : t.machine.stack = s.replay cs)
    (hnext : (next t.machine).machine.stack = t.machine.stack.replay ds) :
    (t.andThen next).machine.stack = s.replay (cs ++ if t.trap = none then ds else []) := by
  by_cases htrap : t.trap = none
  · rw [Transition.andThen_of_trap_eq_none htrap, if_pos htrap, Stack.replay_append, ← ht]
    exact hnext
  · rw [Transition.andThen_of_trap_ne_none htrap, if_neg htrap, List.append_nil]
    exact ht

theorem steps_stack (n : Nat) (m : Machine) :
    (steps n m).machine.stack = m.stack.replay (stepsCalls n m) := by
  induction n generalizing m with
  | zero => rfl
  | succ n ih => exact andThen_stack m.step_stack (ih m.step.machine)

/-- The calls that a request makes. -/
def serveCalls (m : Machine) : Request → List StackCall
  | .call c => [c]
  | .setRegister _ _ => []
  | .step => m.stepCalls
  | .interpret => if m.halted then [] else stepsCalls cycleLimit m
  | .execute i => m.executeCalls i

theorem serve_stack (m : Machine) (r : Request) :
    (m.serve r).machine.stack = m.stack.replay (m.serveCalls r) := by
  cases r with
  | call c => cases c <;> rfl
  | setRegister r v => rfl
  | step => exact m.step_stack
  | execute i => exact m.execute_stack i
  | interpret =>
      unfold serve serveCalls
      cases hh : m.halted with
      | true =>
          rw [interpreted_of_halted hh]
          rfl
      | false =>
          rw [interpreted_of_running hh]
          exact steps_stack cycleLimit m

def serveAllCalls : List Request → Machine → List StackCall
  | [], _ => []
  | r :: rs, m =>
    m.serveCalls r ++ if (m.serve r).trap = none then serveAllCalls rs (m.serve r).machine else []

/-- **Nothing else touches the stack.** Whatever a machine is asked for, its stack is left as the
listed calls leave it. -/
theorem serveAll_stack (rs : List Request) (m : Machine) :
    (serveAll rs m).machine.stack = m.stack.replay (serveAllCalls rs m) := by
  induction rs generalizing m with
  | nil => rfl
  | cons r rs ih => exact andThen_stack (m.serve_stack r) (ih (m.serve r).machine)

end Machine

end Wordcode
