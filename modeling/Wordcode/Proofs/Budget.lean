import Wordcode.Proofs.Driving
import Wordcode.Proofs.Likeness

/-!
# Budgets make no difference

A machine can be run to its end, or within a budget of cycles, and the loops that do so ask different
questions at different times: whether the machine has stopped *before* a cycle, or *after* it, or
whether there is any budget left. This file says that all of them are the same run
(`Machine.drivers_agree`).

The number that decides is the one after which the machine stops (`Machine.HaltsAfter`). A budget that
reaches it is as good as none — also one that is used up by the very cycle that stops the machine. A
budget below it leaves a machine that is still running, to be taken up again with another budget, and
it makes no difference where a budget was split.
-/

namespace Wordcode

namespace Machine

/-- The machine stops after `n` cycles, and not before. -/
structure HaltsAfter (m : Machine) (n : Nat) : Prop where
  halted : (steps n m).machine.halted = true
  running : ∀ k < n, (steps k m).machine.halted = false

/-- What is left of a run when it has ended: all but the count of its cycles. -/
def Ending.left (e : Ending) : Machine × Option Trap := (e.machine, e.trap)

/-- The run of `n` cycles shown to an observer, with `cycles` on the count. -/
def shown {μ : Type → Type} [Monad μ] (observe : Event → μ Unit) (n cycles : Nat) (m : Machine) :
    μ Ending := do
  (steps n m).events.forM observe
  pure ⟨(steps n m).machine, cycles, none⟩

variable {m : Machine} {n b : Nat}

/-! ## How many cycles are asked for -/

theorem trap_step_of_trap_steps (done : (steps (n + 1) m).trap = none) : m.step.trap = none := by
  by_contra htrap
  rw [steps, Transition.andThen_of_trap_ne_none htrap] at done
  exact htrap done

/-- After its first cycle, a machine stops one cycle sooner. -/
theorem HaltsAfter.step (h : m.HaltsAfter (n + 1)) (done : m.step.trap = none) :
    m.step.machine.HaltsAfter n := by
  have hrest : ∀ k, (steps (k + 1) m).machine = (steps k m.step.machine).machine := by
    intro k
    rw [steps, Transition.andThen_of_trap_eq_none done]
  refine ⟨?_, ?_⟩
  · rw [← hrest]
    exact h.halted
  · intro k hk
    rw [← hrest]
    exact h.running (k + 1) (Nat.succ_lt_succ hk)

theorem HaltsAfter.unique {k : Nat} (h : m.HaltsAfter n) (h' : m.HaltsAfter k) : n = k := by
  have not_lt {i j : Nat} (hi : m.HaltsAfter i) (hj : m.HaltsAfter j) : ¬ i < j := by
    intro hlt
    have hhalted := hi.halted
    rw [hj.running i hlt] at hhalted
    cases hhalted
  exact Nat.le_antisymm (Nat.le_of_not_lt (not_lt h' h)) (Nat.le_of_not_lt (not_lt h h'))

/-- A budget that is large enough is used for as long as the machine is running. -/
theorem HaltsAfter.cyclesWithin_of_running (h : m.HaltsAfter (n + 1))
    (done : (steps (n + 1) m).trap = none) (hle : n + 1 ≤ b) : cyclesWithin b m = n + 1 := by
  -- The induction is over where the run starts, as that of `cyclesWithin` is.
  induction n generalizing m b with
  | zero =>
      obtain ⟨b, rfl⟩ := Nat.exists_eq_add_of_le' hle
      have hstops : m.step.machine.halted = true := (h.step (trap_step_of_trap_steps done)).halted
      simp [cyclesWithin, hstops]
  | succ n ih =>
      obtain ⟨b, rfl⟩ : ∃ b', b = b' + 1 := Nat.exists_eq_add_of_le' (by omega)
      have htrap := trap_step_of_trap_steps done
      have hrest := h.step htrap
      have hgoes : m.step.machine.halted = false := hrest.running 0 (Nat.succ_pos n)
      have hdone : (steps (n + 1) m.step.machine).trap = none := by
        rwa [steps, Transition.andThen_of_trap_eq_none htrap] at done
      have hcycles := ih hrest hdone (Nat.le_of_succ_le_succ hle)
      simp [cyclesWithin, htrap, hgoes, hcycles]

/-- A machine that has stopped is asked for one cycle all the same, to find out. -/
theorem HaltsAfter.cyclesWithin_eq (h : m.HaltsAfter n) (done : (steps n m).trap = none)
    (hle : max n 1 ≤ b) : cyclesWithin b m = max n 1 := by
  rcases n with _ | n
  · obtain ⟨b, rfl⟩ : ∃ b', b = b' + 1 := Nat.exists_eq_add_of_le' hle
    have hh : m.halted = true := h.halted
    simp [cyclesWithin, step_of_halted hh, Transition.refl, hh]
  · rw [Nat.max_eq_left (Nat.succ_pos n)] at hle ⊢
    exact h.cyclesWithin_of_running done hle

theorem cyclesWithin_eq_budget (done : (steps b m).trap = none)
    (running : (steps b m).machine.halted = false) : cyclesWithin b m = b := by
  rcases Nat.lt_or_eq_of_le (cyclesWithin_le b m) with hlt | heq
  · rcases stopped_of_cyclesWithin_lt hlt with hsprung | hstopped
    · exact absurd done hsprung
    · rw [running] at hstopped
      cases hstopped
  · exact heq

theorem HaltsAfter.ending_eq (h : m.HaltsAfter (n + 1)) (done : (steps (n + 1) m).trap = none)
    (hn : n + 1 < cycleLimit) : m.ending = ⟨(steps (n + 1) m).machine, n + 1, none⟩ := by
  have hrun : steps cycleLimit m = steps (n + 1) m :=
    steps_of_le_of_halted (Nat.le_of_lt hn) h.halted
  have hcycles : cyclesWithin cycleLimit m = n + 1 :=
    h.cyclesWithin_of_running done (Nat.le_of_lt hn)
  unfold ending
  rw [hrun, hcycles, if_neg fun hlast => Nat.ne_of_lt hn hlast.2, done]

/-! ## Each way of running -/

section

variable {μ : Type → Type} [Monad μ] [LawfulMonad μ] (observe : Event → μ Unit)

theorem HaltsAfter.drive_eq (h : m.HaltsAfter n) (done : ∀ k, (steps k m).trap = none)
    (hle : max n 1 ≤ b) : drive observe b m = m.shown observe n (max n 1) := by
  rw [Machine.drive_eq, h.cyclesWithin_eq (done n) hle,
    steps_of_le_of_halted (Nat.le_trans (Nat.le_max_left n 1) hle) h.halted, done n]
  rfl

/-- A budget in which the machine does not stop is used up. -/
theorem drive_eq_of_running (done : (steps b m).trap = none)
    (running : (steps b m).machine.halted = false) :
    drive observe b m = m.shown observe b b := by
  rw [Machine.drive_eq, cyclesWithin_eq_budget done running, done]
  rfl

theorem HaltsAfter.interpret_eq (h : m.HaltsAfter n) (done : ∀ k, (steps k m).trap = none)
    (hn : n < cycleLimit) : interpret observe m = m.shown observe n n := by
  rcases n with _ | n
  · have hh : m.halted = true := h.halted
    rw [interpret_of_halted observe hh]
    simp [shown, steps, Transition.refl]
  · have running : m.halted = false := h.running 0 (Nat.succ_pos n)
    rw [Machine.interpret_eq observe running, h.ending_eq (done _) hn,
      steps_of_le_of_halted (Nat.le_of_lt hn) h.halted]
    rfl

/-- It makes no difference where a budget is split. -/
theorem left_drive_drive (done : ∀ k, (steps k m).trap = none) (b₁ b₂ : Nat) :
    Ending.left <$> (drive observe b₁ m >>= fun e => drive observe b₂ e.machine) =
      Ending.left <$> drive observe (b₁ + b₂) m := by
  have hsplit := Transition.andThen_of_trap_eq_none (done b₁) (steps b₂)
  rw [← steps_add] at hsplit
  simp only [Machine.drive_eq, hsplit, List.forM_eq_forM, List.forM_append, map_bind, map_pure,
    bind_assoc, pure_bind]
  rfl

/-! ### Budgets as a user gives them

A budget of zero is none, and the answer says how the run has come out. -/

theorem map_shown {α : Type} (f : Ending → α) (n cycles : Nat) :
    f <$> m.shown observe n cycles =
      (fun _ => f ⟨(steps n m).machine, cycles, none⟩) <$> m.shown observe n cycles := by
  simp [shown]

theorem run_zero : run observe 0 m = (fun e => (e, some e.outcome)) <$> interpret observe m := by
  rw [run, if_pos rfl, map_eq_pure_bind]

theorem run_of_ne_zero {b : UInt64} (hne : b ≠ 0) :
    run observe b m = (fun e => (e, e.machine.outcome)) <$> drive observe b.toNat m := by
  rw [run, if_neg hne, map_eq_pure_bind]

theorem HaltsAfter.exists_outcome (h : m.HaltsAfter n) :
    ∃ o, (steps n m).machine.outcome = some o := by
  apply Option.ne_none_iff_exists'.mp
  intro hnone
  rw [outcome_eq_none_iff, h.halted] at hnone
  cases hnone

/-- However a run is brought to its end, its outcome is the one that its last cycle leaves. -/
theorem HaltsAfter.run_eq (h : m.HaltsAfter n) (done : ∀ k, (steps k m).trap = none) {o : Outcome}
    (ho : (steps n m).machine.outcome = some o) :
    (n < cycleLimit → run observe 0 m = (·, some o) <$> m.shown observe n n) ∧
      ∀ b : UInt64, max n 1 ≤ b.toNat →
        run observe b m = (·, some o) <$> m.shown observe n (max n 1) := by
  constructor
  · intro hn
    rw [run_zero, h.interpret_eq observe done hn, map_shown, map_shown observe (·, some o)]
    simp [Ending.outcome, ho]
  · intro b hle
    have hne : b ≠ 0 := by
      rintro rfl
      simp at hle
    rw [run_of_ne_zero observe hne, h.drive_eq observe done hle, map_shown,
      map_shown observe (·, some o), ho]

theorem run_eq_of_running {b : UInt64} (hne : b ≠ 0) (done : (steps b.toNat m).trap = none)
    (running : (steps b.toNat m).machine.halted = false) :
    run observe b m = (·, none) <$> m.shown observe b.toNat b.toNat := by
  rw [run_of_ne_zero observe hne, drive_eq_of_running observe done running, map_shown,
    map_shown observe (·, none), outcome_eq_none_iff.mpr running]

/-- What is left of a run within a budget. -/
def answer (r : Ending × Option Outcome) : (Machine × Option Trap) × Option Outcome :=
  (r.1.left, r.2)

theorem answer_run_run (done : ∀ k, (steps k m).trap = none) {b₁ b₂ : UInt64} (hne₁ : b₁ ≠ 0)
    (hne₂ : b₂ ≠ 0) (fits : b₁.toNat + b₂.toNat < 2 ^ 64) :
    answer <$> (run observe b₁ m >>= fun r => run observe b₂ r.1.machine) =
      answer <$> run observe (b₁ + b₂) m := by
  have hsum : (b₁ + b₂).toNat = b₁.toNat + b₂.toNat := by
    rw [UInt64.toNat_add, Nat.mod_eq_of_lt fits]
  have hpos : b₁ + b₂ ≠ 0 := by
    intro hzero
    have hnat : b₁.toNat ≠ 0 := fun h => hne₁ (UInt64.toNat_inj.mp h)
    rw [hzero] at hsum
    exact hnat (Nat.eq_zero_of_add_eq_zero_right hsum.symm)
  -- The outcome is part of what is left, so the two budgets are those of `left_drive_drive`.
  have hanswer : ∀ x : μ Ending, answer <$> (fun e => (e, e.machine.outcome)) <$> x =
      (fun l => (l, l.1.outcome)) <$> Ending.left <$> x := by
    intro x
    simp only [Functor.map_map]
    rfl
  have hdrive := left_drive_drive observe done b₁.toNat b₂.toNat
  rw [run_of_ne_zero observe hpos, hanswer, hsum, ← hdrive, ← hanswer]
  simp only [run_of_ne_zero observe hne₁, run_of_ne_zero observe hne₂, map_bind, bind_map_left]

/-- **All ways of running agree.** Take any machine that stands in the lower half of the address
space. Its cycles complete. If it stops after `n` of them, it is shown and left as these leave it, and
it has the outcome that they leave — without a budget, if there are cycles enough to count them; and
within any budget that reaches `n`. Within a smaller one, and within any if it never stops, just the
cycles of the budget are shown, and there is no outcome. And whoever spends two budgets one after the
other might as well have spent their sum. -/
theorem drivers_agree {m : Machine} (size : m.program.size ≤ Program.maxSize)
    (low : m.ip.toNat < 2 ^ 63) :
    (∀ n, (steps n m).trap = none) ∧
      (∀ n, m.HaltsAfter n → ∃ o, (steps n m).machine.outcome = some o ∧
        (n < 2 ^ 64 → interpret observe m = m.shown observe n n ∧
          run observe 0 m = (·, some o) <$> m.shown observe n n) ∧
        (∀ b, max n 1 ≤ b → drive observe b m = m.shown observe n (max n 1)) ∧
        (∀ b : UInt64, max n 1 ≤ b.toNat →
          run observe b m = (·, some o) <$> m.shown observe n (max n 1)) ∧
        (∀ b < n, drive observe b m = m.shown observe b b ∧ (steps b m).machine.outcome = none) ∧
        ∀ b : UInt64, b ≠ 0 → b.toNat < n →
          run observe b m = (·, none) <$> m.shown observe b.toNat b.toNat) ∧
      ((∀ n, (steps n m).machine.halted = false) →
        (∀ b, drive observe b m = m.shown observe b b ∧ (steps b m).machine.outcome = none) ∧
        ∀ b : UInt64, b ≠ 0 →
          run observe b m = (·, none) <$> m.shown observe b.toNat b.toNat) ∧
      (∀ b₁ b₂, Ending.left <$> (drive observe b₁ m >>= fun e => drive observe b₂ e.machine) =
        Ending.left <$> drive observe (b₁ + b₂) m) ∧
      ∀ b₁ b₂ : UInt64, b₁ ≠ 0 → b₂ ≠ 0 → b₁.toNat + b₂.toNat < 2 ^ 64 →
        answer <$> (run observe b₁ m >>= fun r => run observe b₂ r.1.machine) =
          answer <$> run observe (b₁ + b₂) m := by
  have hm : m.Addressable := ⟨size, low⟩
  have done := hm.trap_steps
  have short : ∀ b, (steps b m).machine.halted = false →
      drive observe b m = m.shown observe b b ∧ (steps b m).machine.outcome = none :=
    fun b running =>
      ⟨drive_eq_of_running observe (done b) running, outcome_eq_none_iff.mpr running⟩
  refine ⟨done, ?_, ?_, left_drive_drive observe done,
    fun b₁ b₂ hne₁ hne₂ => answer_run_run observe done hne₁ hne₂⟩
  · intro n h
    obtain ⟨o, ho⟩ := h.exists_outcome
    obtain ⟨hfree, henough⟩ := h.run_eq observe done ho
    refine ⟨o, ho, fun hn => ⟨h.interpret_eq observe done hn, hfree hn⟩,
      fun b => h.drive_eq observe done, henough, fun b hb => short b (h.running b hb), ?_⟩
    intro b hne hb
    exact run_eq_of_running observe hne (done _) (h.running _ hb)
  · intro never
    refine ⟨fun b => short b (never b), ?_⟩
    intro b hne
    exact run_eq_of_running observe hne (done _) (never _)

end

/-- `push 5; halt` stops on its second cycle, which a budget of two just reaches: the run is the one
without a budget. A budget of one leaves it running. -/
theorem drivers_agree_last_cycle :
    let m := load #[1, 5, 8]
    let keep : Event → StateM (List Event) Unit := fun e => modify (· ++ [e])
    m.program.size ≤ Program.maxSize ∧
      m.ip.toNat < 2 ^ 63 ∧
      m.HaltsAfter 2 ∧
      (steps 2 m).machine.outcome = some .halted ∧
      drive keep 2 m = interpret keep m ∧
      drive keep 1 m = m.shown keep 1 1 ∧
      (steps 1 m).machine.outcome = none ∧
      run keep 2 m = run keep 0 m ∧
      run keep 1 m = (·, none) <$> m.shown keep 1 1 := by
  intro m keep
  have size : m.program.size ≤ Program.maxSize := by decide
  have halts : m.HaltsAfter 2 := ⟨by decide, by decide⟩
  obtain ⟨-, hstops, -⟩ := drivers_agree keep size (by decide)
  obtain ⟨o, -, hfree, hdrive, hrun, hshort, hnone⟩ := hstops 2 halts
  obtain ⟨hinterpret, hzero⟩ := hfree (by decide)
  obtain ⟨hdrive₁, hout⟩ := hshort 1 (by decide)
  refine ⟨size, by decide, halts, by decide, ?_, hdrive₁, hout, ?_, hnone 1 (by decide) (by decide)⟩
  · rw [hdrive 2 (Nat.le_refl 2), hinterpret]
    rfl
  · rw [hrun 2 (Nat.le_refl 2), hzero]
    rfl

end Machine

end Wordcode
