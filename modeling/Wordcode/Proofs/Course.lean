import Wordcode.Proofs.Budget
import Wordcode.Proofs.Grammar
import Wordcode.Proofs.Refinement
import Wordcode.Proofs.Reports

/-!
# Courses

What a piece of code does is best told by the commands that are carried out, one after another, on the
way from one state of the ideal machine to another: an `Ideal.Course`. Courses can be laid end to end
(`Course.append`), so that code which is made of pieces is told piece by piece, wherever in a program
it stands.

A machine goes through the courses of its ideal machine (`Course.followed`). Each command then is one
cycle, which decodes that command and no other, and the machine is running until they are all done.
For this a machine need not be `Healthy`. A course never leaves the program, so it is enough that the
program is no longer than a program can be; and a fault that was put on record by hand, while the
machine is running, does no harm before a `halt`.
-/

namespace Wordcode

/-- Of words that are written in a row, the first ones are written where they all are, and the others
behind them. -/
theorem Program.written_append {p : Program} {a : Nat} {ws ws' : List Word}
    (h : ws ++ ws' <+: p.toList.drop a) :
    ws <+: p.toList.drop a ∧ ws' <+: p.toList.drop (a + ws.length) := by
  obtain ⟨rest, hrest⟩ := h
  rw [List.append_assoc] at hrest
  refine ⟨⟨ws' ++ rest, hrest⟩, rest, ?_⟩
  rw [← List.drop_drop, ← hrest, List.drop_left]

namespace Ideal

/-- The commands `cs` of a program, carried out one after another, lead from the state `s` to another
one. Meanwhile this much is reported. -/
inductive Course (p : Program) : Ideal → List Command → List Signal → Ideal → Prop
  | nil (s : Ideal) : Course p s [] [] s
  | cons {s t s' : Ideal} {c : Command} {cs : List Command} {ts es : List Signal}
      (running : s.outcome = none) (written : p.HasAt s.ip c)
      (obeys : s.obey (s.ip + c.words.length) c = (t, ts)) (rest : Course p t cs es s') :
      Course p s (c :: cs) (ts ++ es) s'

namespace Course

variable {p : Program} {s t s' : Ideal} {c : Command} {cs cs' : List Command} {es es' : List Signal}

theorem one (running : s.outcome = none) (written : p.HasAt s.ip c)
    (obeys : s.obey (s.ip + c.words.length) c = (t, es)) : Course p s [c] es t := by
  simpa using cons running written obeys (.nil t)

theorem append (h : Course p s cs es t) (h' : Course p t cs' es' s') :
    Course p s (cs ++ cs') (es ++ es') s' := by
  induction h with
  | nil s => exact h'
  | cons running written obeys _ ih =>
      rw [List.append_assoc]
      exact cons running written obeys (ih h')

theorem running_of_mem (h : Course p s cs es s') (hc : c ∈ cs) : s.outcome = none := by
  cases h with
  | nil => cases hc
  | cons running => exact running

end Course

end Ideal

namespace Machine

variable {m : Machine} {c : Command} {cs : List Command} {r : Ideal × List Signal}

/-- The machine carries out these commands, one a cycle, and is running before each of them. -/
structure Follows (m : Machine) (cs : List Command) (r : Ideal × List Signal) : Prop where
  realises : (steps cs.length m).Realises r
  decoded : (steps cs.length m).decoded = cs.map Command.instruction
  running : ∀ k < cs.length, (steps k m).machine.halted = false

namespace Follows

theorem nil (m : Machine) : m.Follows [] (m.ideal, []) where
  realises := ⟨rfl, rfl, rfl⟩
  decoded := rfl
  running k hk := absurd hk (Nat.not_lt_zero k)

theorem cons {t : Ideal × List Signal} (running : m.halted = false) (first : m.step.Realises t)
    (decoded : m.step.decoded = [c.instruction]) (rest : m.step.machine.Follows cs r) :
    m.Follows (c :: cs) (r.1, t.2 ++ r.2) where
  realises := first.andThen rest.realises
  decoded := by
    show (m.step.andThen (steps cs.length)).decoded = _
    rw [Transition.decoded_andThen_of_trap_eq_none first.trap, decoded, rest.decoded]
    rfl
  running := by
    intro k hk
    rcases k with _ | k
    · exact running
    · rw [steps, Transition.andThen_of_trap_eq_none first.trap]
      exact rest.running k (Nat.lt_of_succ_lt_succ hk)

/-- If the last command stops the machine, the commands are the whole run. -/
theorem haltsAfter (h : m.Follows cs r) (stopped : r.1.outcome ≠ none) : m.HaltsAfter cs.length where
  halted := by
    rw [← h.realises.machine, ideal_outcome, Ne, outcome_eq_none_iff] at stopped
    exact eq_true_of_ne_false stopped
  running := h.running

end Follows

theorem step_obeys (size : m.program.size ≤ Program.maxSize) (running : m.halted = false)
    (written : m.program.HasAt m.ip.toNat c) (record : c = .halt → m.fault = none) :
    m.step.Realises (m.ideal.obey (m.ip.toNat + c.words.length) c) ∧
      m.step.decoded = [c.instruction] := by
  have hdecode := Program.decode_of_hasAt written
  have hdone := execute_instruction_realises size running written record
  rw [decoded_step running, step_of_running running, hdecode]
  exact ⟨⟨hdone.trap, hdone.machine, hdone.signals⟩, rfl⟩

end Machine

/-- **A machine goes through every course** of its ideal machine. -/
theorem Ideal.Course.followed {p : Program} {s s' : Ideal} {cs : List Command} {es : List Signal}
    (h : Course p s cs es s') {m : Machine} (program : m.program = p) (start : m.ideal = s)
    (size : p.size ≤ Program.maxSize) (record : .halt ∈ cs → m.fault = none) :
    m.Follows cs (s', es) := by
  induction h generalizing m with
  | nil s =>
      subst start
      exact .nil m
  | @cons s t s' c cs ts es hs written obeys rest ih =>
      subst program start
      have running : m.halted = false := Machine.outcome_eq_none_iff.mp hs
      obtain ⟨hfirst, hdecoded⟩ := m.step_obeys size running written fun hc => record (by simp [hc])
      rw [← Machine.ideal_ip, obeys] at hfirst
      have hmachine : m.step.machine.ideal = t := hfirst.machine
      -- Up to a `halt` that is still to come the machine is running, so its record is what it was.
      have hrecord : .halt ∈ cs → m.step.machine.fault = none := by
        intro hc
        have goes := rest.running_of_mem hc
        rw [← hmachine, Machine.ideal_outcome, Machine.outcome_eq_none_iff] at goes
        exact (Machine.fault_step_of_running goes).trans (record (List.mem_cons_of_mem _ hc))
      exact .cons running hfirst hdecoded (ih m.step_program hmachine hrecord)

end Wordcode
