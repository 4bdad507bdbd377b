import Wordcode.Proofs.Likeness
import Wordcode.Proofs.Stack.Usage

/-!
# There is no hidden state

Two things about a machine cannot be read off what it shows: the cells above the top of its stack,
where popped words stay, and the flags, which may be left over from calls that were made long ago. The
machine carries both around, and the flags are even how it finds out that a word is missing. None of it
matters. Two machines that show the same (`Machine.SameView`) do the same, whatever is asked of them,
and go on showing the same (`Machine.serveAll_no_hidden_state`).

The flags themselves are hidden state only as long as nobody has used them: from the first push on
the two machines agree about overflow, and from the first pop or peek on about underflow. It does not
matter whether the call came from outside or from an instruction (`Machine.serveAllCalls`).
-/

namespace Wordcode

/-- The two machines show the same: they may differ in the flags, and in cells that are not live. -/
structure Machine.SameView (m m' : Machine) : Prop where
  program : m'.program = m.program
  ip : m'.ip = m.ip
  registers : m'.registers = m.registers
  entries : m'.stack.entries = m.stack.entries
  halted : m'.halted = m.halted
  fault : m'.fault = m.fault

/-- The two transitions lead to machines that show the same, and report the same. -/
structure Transition.SameView (t t' : Transition) : Prop where
  machine : t.machine.SameView t'.machine
  reports : t'.reports = t.reports
  trap : t'.trap = t.trap

theorem Transition.SameView.andThen {t t' : Transition} (h : t.SameView t')
    {next : Machine → Transition} (hnext : (next t.machine).SameView (next t'.machine)) :
    (t.andThen next).SameView (t'.andThen next) := by
  by_cases htrap : t.trap = none
  · rw [andThen_of_trap_eq_none htrap, andThen_of_trap_eq_none (h.trap.trans htrap)]
    refine ⟨hnext.machine, ?_, hnext.trap⟩
    show (t'.events ++ _).map Event.report = (t.events ++ _).map Event.report
    rw [List.map_append, List.map_append]
    exact congrArg₂ (· ++ ·) h.reports hnext.reports
  · rw [andThen_of_trap_ne_none htrap, andThen_of_trap_ne_none (h.trap ▸ htrap)]
    exact h

namespace Likeness

/-- Nothing is known of the flags. -/
def flagless : Likeness := { overflow := False, underflow := False }

theorem admits_flagless (m' : Machine) (i : Instruction) : flagless.Admits m' i :=
  ⟨fun _ _ => trivial, .inl rfl, fun _ => .inl rfl⟩

theorem spared_flagless (t : Transition) : t.Spared flagless :=
  ⟨fun _ => rfl, t.machine.ideal.bounded, fun _ _ _ => rfl⟩

end Likeness

namespace Machine

variable {m m' : Machine}

namespace SameView

theorem trans {m'' : Machine} (h : m.SameView m') (h' : m'.SameView m'') : m.SameView m'' where
  program := h'.program.trans h.program
  ip := h'.ip.trans h.ip
  registers := h'.registers.trans h.registers
  entries := h'.entries.trans h.entries
  halted := h'.halted.trans h.halted
  fault := h'.fault.trans h.fault

theorem alike (h : m.SameView m') : m.Alike .flagless m' where
  ip := by
    rw [h.ip]
    exact (Nat.zero_add _).symm
  halted := h.halted
  fault := fun _ => h.fault
  entries := h.entries
  overflow := False.elim
  underflow := False.elim
  registers := by
    intro r _
    rw [register, h.registers]
    rfl

theorem of_alike (h : m.Alike .flagless m') (hp : m'.program = m.program) : m.SameView m' where
  program := hp
  ip := UInt64.toNat_inj.mp (h.ip.trans (Nat.zero_add _))
  registers := RegisterFile.ext_read fun r => h.registers r trivial
  entries := h.entries
  halted := h.halted
  fault := h.fault trivial

theorem outcome (h : m.SameView m') : m'.outcome = m.outcome := by
  unfold Machine.outcome
  rw [h.halted, h.fault]

/-! ## One request -/

theorem call (h : m.SameView m') (c : StackCall) :
    (m'.call c).1 = (m.call c).1 ∧ (m.call c).2.SameView (m'.call c).2 := by
  obtain ⟨hanswer, halike⟩ := h.alike.call (c := c) (by rw [h.entries])
  refine ⟨hanswer, of_alike halike ?_⟩
  rw [(m.call_unmoved c).program, (m'.call_unmoved c).program, h.program]

theorem setRegister (h : m.SameView m') (r : Register) (v : Word) :
    (m.setRegister r v).SameView (m'.setRegister r v) :=
  { h with registers := congrArg (·.write r v) h.registers }

theorem execute (h : m.SameView m') (i : Instruction) : (m.execute i).SameView (m'.execute i) := by
  obtain ⟨hmachine, hreports, htrap⟩ :=
    h.alike.execute (Likeness.admits_flagless m' i) (Likeness.spared_flagless _)
  refine ⟨of_alike hmachine ?_, hreports, htrap⟩
  rw [execute_program, execute_program, h.program]

theorem step (h : m.SameView m') : m.step.SameView m'.step := by
  have hdecode : m'.program.decode m'.ip = m.program.decode m.ip := by rw [h.program, h.ip]
  obtain ⟨hmachine, hreports, htrap⟩ := h.alike.step (fun _ => hdecode)
    (fun _ => Likeness.admits_flagless m' _) (Likeness.spared_flagless _)
  refine ⟨of_alike hmachine ?_, hreports, htrap⟩
  rw [step_program, step_program, h.program]

theorem refl_refl (h : m.SameView m') : (Transition.refl m).SameView (.refl m') := ⟨h, rfl, rfl⟩

theorem steps (h : m.SameView m') (n : Nat) :
    (Machine.steps n m).SameView (Machine.steps n m') := by
  induction n generalizing m m' with
  | zero => exact h.refl_refl
  | succ n ih => exact h.step.andThen (ih h.step.machine)

theorem cyclesWithin (h : m.SameView m') (n : Nat) :
    Machine.cyclesWithin n m' = Machine.cyclesWithin n m := by
  induction n generalizing m m' with
  | zero => rfl
  | succ n ih =>
      unfold Machine.cyclesWithin
      dsimp only
      rw [h.step.trap, h.step.machine.halted, ih h.step.machine]

theorem interpreted (h : m.SameView m') : m.interpreted.SameView m'.interpreted := by
  cases hh : m.halted with
  | true =>
      rw [interpreted_of_halted hh, interpreted_of_halted (h.halted.trans hh)]
      exact h.refl_refl
  | false =>
      rw [interpreted_of_running hh, interpreted_of_running (h.halted.trans hh)]
      have hrun := h.steps cycleLimit
      refine ⟨hrun.machine, hrun.reports, ?_⟩
      unfold ending
      rw [h.cyclesWithin, hrun.trap]

theorem serve (h : m.SameView m') (r : Request) : (m.serve r).SameView (m'.serve r) := by
  cases r with
  | call c => exact (h.call c).2.refl_refl
  | setRegister r v => exact (h.setRegister r v).refl_refl
  | step => exact h.step
  | interpret => exact h.interpreted
  | execute i => exact h.execute i

theorem reply (h : m.SameView m') (r : Request) : m'.reply r = m.reply r := by
  cases r with
  | setRegister r v | execute i => rfl
  | call c =>
      unfold Machine.reply
      dsimp only
      rw [(h.call c).1]
  | step => exact congrArg (Reply.running !·) h.step.machine.halted
  | interpret => exact congrArg Reply.outcome h.interpreted.machine.outcome

/-! ### The calls on the stack are the same -/

theorem performCalls (h : m.SameView m') (i : Instruction) :
    m'.performCalls i = m.performCalls i := by
  unfold Machine.performCalls register
  rw [h.entries, h.registers]

theorem executeCalls (h : m.SameView m') (i : Instruction) :
    m'.executeCalls i = m.executeCalls i := by
  unfold Machine.executeCalls
  rw [h.ip, h.performCalls]

theorem stepCalls (h : m.SameView m') : m'.stepCalls = m.stepCalls := by
  unfold Machine.stepCalls
  rw [h.halted, h.program, h.ip, h.executeCalls]

theorem stepsCalls (h : m.SameView m') (n : Nat) :
    Machine.stepsCalls n m' = Machine.stepsCalls n m := by
  induction n generalizing m m' with
  | zero => rfl
  | succ n ih =>
      unfold Machine.stepsCalls
      rw [h.stepCalls, h.step.trap, ih h.step.machine]

theorem serveCalls (h : m.SameView m') (r : Request) : m'.serveCalls r = m.serveCalls r := by
  cases r with
  | call c | setRegister r v => rfl
  | step => exact h.stepCalls
  | execute i => exact h.executeCalls i
  | interpret =>
      unfold Machine.serveCalls
      rw [h.halted, h.stepsCalls]

/-! ## Many requests -/

theorem serveAll (h : m.SameView m') (rs : List Request) :
    (Machine.serveAll rs m).SameView (Machine.serveAll rs m') := by
  induction rs generalizing m m' with
  | nil => exact h.refl_refl
  | cons r rs ih => exact (h.serve r).andThen (ih (h.serve r).machine)

theorem replies (h : m.SameView m') (rs : List Request) :
    Machine.replies rs m' = Machine.replies rs m := by
  induction rs generalizing m m' with
  | nil => rfl
  | cons r rs ih =>
      unfold Machine.replies
      rw [(h.serve r).trap, h.reply r, ih (h.serve r).machine]

theorem serveAllCalls (h : m.SameView m') (rs : List Request) :
    Machine.serveAllCalls rs m' = Machine.serveAllCalls rs m := by
  induction rs generalizing m m' with
  | nil => rfl
  | cons r rs ih =>
      unfold Machine.serveAllCalls
      rw [h.serveCalls r, (h.serve r).trap, ih (h.serve r).machine]

end SameView

/-- **There is no hidden state.** Two machines that show the same return the same to the same requests,
report the same, and show the same afterwards; and since this is so of all requests, it is so after
each of them. They have made the same calls on their stacks, which are left as these calls leave
them. Of the flags, they agree about overflow if there was a push among these calls, and about
underflow if there was a pop or a peek. -/
theorem serveAll_no_hidden_state {m m' : Machine} (h : m.SameView m') (rs : List Request) :
    let t := serveAll rs m
    let t' := serveAll rs m'
    let cs := serveAllCalls rs m
    replies rs m' = replies rs m ∧
      t'.reports = t.reports ∧
      t'.trap = t.trap ∧
      t.machine.SameView t'.machine ∧
      t.machine.stack = m.stack.replay cs ∧
      t'.machine.stack = m'.stack.replay cs ∧
      ((∃ c ∈ cs, c.isPush = true) → t'.machine.stack.overflow = t.machine.stack.overflow) ∧
      ((∃ c ∈ cs, c.isPush = false) →
        t'.machine.stack.underflow = t.machine.stack.underflow) := by
  intro t t' cs
  have hrun : t.SameView t' := h.serveAll rs
  have hleft : t.machine.stack = m.stack.replay cs := serveAll_stack rs m
  have hleft' : t'.machine.stack = m'.stack.replay cs := by
    show t'.machine.stack = m'.stack.replay (serveAllCalls rs m)
    rw [← h.serveAllCalls rs]
    exact serveAll_stack rs m'
  refine ⟨h.replies rs, hrun.reports, hrun.trap, hrun.machine, hleft, hleft', ?_, ?_⟩
  · intro hpush
    rw [hleft, hleft']
    exact Stack.overflow_replay h.entries hpush
  · intro hlook
    rw [hleft, hleft']
    exact Stack.underflow_replay h.entries hlook

/-- A machine whose flags are both set, and whose empty stack has old words in every cell, runs `push 5`
and pops twice like a fresh one. The push has cleared its overflow bit by then. -/
theorem serveAll_no_hidden_state_old_words :
    let m := load #[1, 5]
    let old : Stack :=
      { Stack.empty with
        cells := Vector.replicate 256 9
        overflow := true
        underflow := true }
    let m' := { m with stack := old }
    let rs : List Request := [.step, .execute Command.pop.instruction, .call .pop]
    m.SameView m' ∧
      m'.stack.overflow = true ∧
      replies rs m' = [.running true, .nothing, .word 0] ∧
      (∃ c ∈ serveAllCalls rs m, c.isPush = true) ∧
      (∃ c ∈ serveAllCalls rs m, c.isPush = false) ∧
      (serveAll rs m').machine.stack.overflow = false ∧
      (serveAll rs m').machine.stack.underflow = true := by
  intro m old m' rs
  have hview : m.SameView m' := ⟨rfl, rfl, rfl, rfl, rfl, rfl⟩
  have hpush : ∃ c ∈ serveAllCalls rs m, c.isPush = true := ⟨.push 5, by decide, rfl⟩
  have hlook : ∃ c ∈ serveAllCalls rs m, c.isPush = false := ⟨.pop, by decide, rfl⟩
  obtain ⟨hreplies, -, -, -, -, -, hoverflow, hunderflow⟩ := serveAll_no_hidden_state hview rs
  refine ⟨hview, rfl, ?_, hpush, hlook, ?_, ?_⟩
  · rw [hreplies]
    decide
  · rw [hoverflow hpush]
    decide
  · rw [hunderflow hlook]
    decide

end Machine

end Wordcode
