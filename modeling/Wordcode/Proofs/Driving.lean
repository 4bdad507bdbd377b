import Wordcode.Machine.Run

/-!
# When a run under observation ends

`drive` reports how many cycles it was asked for (`cyclesWithin`), and that number is the budget in
two different cases: the run was cut short, or it ended on the last cycle it had. A number *below*
the budget leaves no doubt.

* `stopped_of_cyclesWithin_lt` — a run that asks for less than its budget has come to its end.
* `running_of_cyclesWithin_eq` — a run that asks for all of it was still running one cycle earlier.
* `halted_of_ending` — a run that nobody limits is over when it ends, unless a trap has ended it.
* `interpret_eq` — what `interpret` shows to its observer and returns, in terms of `steps`;
  `run_eq` says the same of runs within a budget that a user has given.
* `forM_modify` — what becomes of an observer that keeps a state.
-/

namespace Wordcode

namespace Machine

theorem cyclesWithin_le (budget : Nat) (m : Machine) : cyclesWithin budget m ≤ budget := by
  induction budget generalizing m with
  | zero => exact Nat.le_refl 0
  | succ n ih =>
      unfold cyclesWithin
      dsimp only
      split
      · exact Nat.succ_le_succ (Nat.zero_le n)
      · exact Nat.succ_le_succ (ih _)

theorem stopped_of_cyclesWithin_lt {budget : Nat} {m : Machine}
    (h : cyclesWithin budget m < budget) :
    (steps budget m).trap ≠ none ∨ (steps budget m).machine.halted = true := by
  -- The cases are those of `cyclesWithin`: a trap, a machine that has stopped, and neither.
  induction budget generalizing m with
  | zero => exact absurd h (Nat.not_lt_zero _)
  | succ n ih =>
      show (m.step.andThen (steps n)).trap ≠ none ∨ (m.step.andThen (steps n)).machine.halted = true
      unfold cyclesWithin at h
      unfold Transition.andThen
      cases htrap : m.step.trap with
      | some t =>
          left
          dsimp only
          rw [htrap]
          exact Option.some_ne_none t
      | none =>
          dsimp only
          by_cases hh : m.step.machine.halted = true
          · right
            rw [steps_of_halted hh]
            exact hh
          · apply ih
            have hcycles : cyclesWithin n m.step.machine + 1 < n + 1 := by
              simpa [htrap, hh] using h
            exact Nat.lt_of_succ_lt_succ hcycles

theorem running_of_cyclesWithin_eq {n : Nat} {m : Machine} (running : m.halted = false)
    (h : cyclesWithin (n + 1) m = n + 1) : (steps n m).machine.halted = false := by
  induction n generalizing m with
  | zero => exact running
  | succ n ih =>
      unfold cyclesWithin at h
      dsimp only at h
      split at h
      · cases h
      · next hon =>
        obtain ⟨htrap, hh⟩ : m.step.trap = none ∧ m.step.machine.halted = false := by
          simpa using hon
        show (m.step.andThen (steps n)).machine.halted = false
        unfold Transition.andThen
        rw [htrap]
        exact ih hh (Nat.succ.inj h)

/-- The end of a run that nobody limits. -/
def ending (m : Machine) : Ending where
  machine := (steps cycleLimit m).machine
  cycles := cyclesWithin cycleLimit m
  trap :=
    if (steps cycleLimit m).trap = none ∧ cyclesWithin cycleLimit m = cycleLimit then
      some .cycleOverflow
    else (steps cycleLimit m).trap

theorem halted_of_ending {m : Machine} (h : m.ending.trap = none) :
    (steps cycleLimit m).trap = none ∧ (steps cycleLimit m).machine.halted = true := by
  unfold ending at h
  split at h
  · cases h
  · next hcounted =>
    have hne : cyclesWithin cycleLimit m ≠ cycleLimit := fun hlast => hcounted ⟨h, hlast⟩
    rcases stopped_of_cyclesWithin_lt (Nat.lt_of_le_of_ne (cyclesWithin_le _ m) hne) with
      hsprung | hhalted
    · exact absurd h hsprung
    · exact ⟨h, hhalted⟩

section

variable {μ : Type → Type} [Monad μ] (observe : Event → μ Unit)

theorem interpretFrom_of_halted {m : Machine} (h : m.halted = true) (count : Nat) {room : Nat}
    (hroom : 0 < room) : interpretFrom observe count room m = pure ⟨m, count, none⟩ := by
  obtain ⟨room, rfl⟩ := Nat.exists_eq_add_of_lt hroom
  rw [Nat.zero_add, interpretFrom, if_pos h]

theorem interpret_of_halted {m : Machine} (h : m.halted = true) :
    interpret observe m = pure ⟨m, 0, none⟩ :=
  interpretFrom_of_halted observe h 0 (by decide)

variable [LawfulMonad μ]

theorem interpretFrom_eq {m : Machine} (running : m.halted = false) (count room : Nat) :
    interpretFrom observe count room m = (do
      (steps room m).events.forM observe
      pure ⟨(steps room m).machine, count + cyclesWithin room m,
        if (steps room m).trap = none ∧ cyclesWithin room m = room then some .cycleOverflow
        else (steps room m).trap⟩) := by
  induction room generalizing count m with
  | zero => simp [interpretFrom, steps, Transition.refl, cyclesWithin]
  | succ room ih =>
      cases htrap : m.step.trap with
      | some t =>
          simp [interpretFrom, running, steps, cyclesWithin, htrap, Transition.andThen]
      | none =>
          simp only [steps, Transition.andThen, htrap]
          by_cases hh : m.step.machine.halted = true
          · -- The test before the next cycle finds the machine stopped, if it is still made.
            rcases room with _ | room
            · simp [interpretFrom, running, cyclesWithin, htrap, hh, steps, Transition.refl]
            · rw [interpretFrom]
              simp [running, cyclesWithin, htrap, hh, interpretFrom_of_halted, steps_of_halted,
                Transition.refl]
          · have hgoes := Bool.eq_false_iff.mpr hh
            simp [interpretFrom, running, cyclesWithin, htrap, hh, ih hgoes, List.forM_append,
              Nat.add_comm 1, Nat.add_assoc]

/-- `interpret` shows its observer the events of so many cycles as the count of cycles allows. -/
theorem interpret_eq {m : Machine} (running : m.halted = false) :
    interpret observe m = (do
      (steps cycleLimit m).events.forM observe
      pure m.ending) := by
  rw [interpret, interpretFrom_eq observe running, Nat.zero_add]
  rfl

end

/-! ### Budgets as a user gives them -/

/-- How many cycles a budget is good for. Without one, these are as many as can be counted. -/
def cyclesOf (budget : UInt64) : Nat := if budget = 0 then cycleLimit else budget.toNat

/-- The end of a run within a budget. -/
def endingWithin (budget : UInt64) (m : Machine) : Ending :=
  if budget = 0 then m.ending
  else
    ⟨(steps budget.toNat m).machine, cyclesWithin budget.toNat m, (steps budget.toNat m).trap⟩

theorem endingWithin_machine (budget : UInt64) (m : Machine) :
    (m.endingWithin budget).machine = (steps (cyclesOf budget) m).machine := by
  unfold endingWithin cyclesOf
  split <;> rfl

theorem halted_of_endingWithin {budget : UInt64} {m : Machine}
    (ends : (m.endingWithin budget).trap = none) :
    (steps (cyclesOf budget) m).trap = none ∧
      (budget = 0 → (m.endingWithin budget).machine.halted = true) := by
  by_cases hzero : budget = 0
  · simp only [endingWithin, cyclesOf, if_pos hzero] at ends ⊢
    obtain ⟨hdone, hhalted⟩ := halted_of_ending ends
    exact ⟨hdone, fun _ => hhalted⟩
  · simp only [endingWithin, cyclesOf, if_neg hzero] at ends ⊢
    exact ⟨ends, fun h => absurd h hzero⟩

/-- A run without a trap answers with the outcome of the machine that it leaves. -/
theorem run_eq {μ : Type → Type} [Monad μ] [LawfulMonad μ] (observe : Event → μ Unit)
    {budget : UInt64} {m : Machine} (running : m.halted = false)
    (ends : (m.endingWithin budget).trap = none) :
    run observe budget m = (do
      (steps (cyclesOf budget) m).events.forM observe
      pure (m.endingWithin budget, (m.endingWithin budget).machine.outcome)) := by
  obtain ⟨-, hstops⟩ := halted_of_endingWithin ends
  unfold run cyclesOf
  by_cases hzero : budget = 0
  · have hanswer : some (m.endingWithin budget).outcome =
        (m.endingWithin budget).machine.outcome := by
      unfold Ending.outcome
      cases hout : (m.endingWithin budget).machine.outcome with
      | none => simp [outcome_eq_none_iff.mp hout] at hstops; contradiction
      | some o => rfl
    rw [← hanswer]
    simp [hzero, interpret_eq observe running, endingWithin]
  · simp [hzero, drive_eq, endingWithin]

/-- An observer that keeps a state and changes it with each event ends as a fold over the events. -/
theorem forM_modify {σ : Type} (f : σ → Event → σ) (es : List Event) (s : σ) :
    (es.forM fun e => modify (f · e) : StateM σ Unit).run s = ((), es.foldl f s) := by
  induction es generalizing s with
  | nil => rfl
  | cons e es ih => exact ih (f s e)

end Machine

end Wordcode
