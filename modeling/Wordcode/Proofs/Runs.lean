import Wordcode.Machine.Run

/-!
# Runs, cycle by cycle

`steps` puts the first cycle in front of the rest, because that is how a run is made. To say what a
run has come to after so many cycles, the other end is the better one: one more cycle is one more
cycle *at the end* (`steps_succ_last`), and whatever has been reported stays reported
(`events_steps_of_le`).

None of this asks anything of the machine. A run that meets a trap goes no further, and then all
longer runs are the same run.
-/

namespace Wordcode

namespace Transition

variable {t : Transition}

theorem andThen_of_trap_eq_none (h : t.trap = none) (next : Machine → Transition) :
    t.andThen next =
      ⟨(next t.machine).machine, t.events ++ (next t.machine).events, (next t.machine).trap⟩ := by
  unfold andThen
  rw [h]

theorem andThen_of_trap_ne_none (h : t.trap ≠ none) (next : Machine → Transition) :
    t.andThen next = t := by
  obtain ⟨s, hs⟩ := Option.ne_none_iff_exists'.mp h
  unfold andThen
  rw [hs]

@[simp] theorem refl_andThen (m : Machine) (next : Machine → Transition) :
    (refl m).andThen next = next m := by
  simp [andThen_of_trap_eq_none, refl]

@[simp] theorem andThen_refl (t : Transition) : t.andThen refl = t := by
  by_cases h : t.trap = none
  · obtain ⟨m, es, trap⟩ := t
    obtain rfl : trap = none := h
    simp [andThen_of_trap_eq_none, refl]
  · exact andThen_of_trap_ne_none h refl

/-- What changes nothing may follow unnoticed. -/
theorem andThen_eq_self {next : Machine → Transition} (h : next t.machine = refl t.machine) :
    t.andThen next = t :=
  calc t.andThen next = t.andThen refl := by
        unfold andThen
        rw [h]
    _ = t := t.andThen_refl

theorem andThen_assoc (t : Transition) (f g : Machine → Transition) :
    (t.andThen f).andThen g = t.andThen fun m => (f m).andThen g := by
  by_cases ht : t.trap = none
  · rw [andThen_of_trap_eq_none ht, andThen_of_trap_eq_none ht]
    by_cases hf : (f t.machine).trap = none
    · simp [andThen_of_trap_eq_none, hf]
    · rw [andThen_of_trap_ne_none hf]
      apply andThen_of_trap_ne_none
      exact hf
  · simp only [andThen_of_trap_ne_none ht]

end Transition

namespace Machine

variable {m : Machine}

theorem step_of_running (running : m.halted = false) :
    m.step = { m.execute (m.program.decode m.ip) with
      events := .decoded m (m.program.decode m.ip) ::
        (m.execute (m.program.decode m.ip)).events } := by
  simp [step, running]

theorem running_of_step_running (goes : m.step.machine.halted = false) : m.halted = false := by
  cases hh : m.halted with
  | false => rfl
  | true =>
      rw [step_of_halted hh] at goes
      exact hh.symm.trans goes

theorem steps_succ_last (n : Nat) (m : Machine) : steps (n + 1) m = (steps n m).andThen step := by
  induction n generalizing m with
  | zero =>
      show m.step.andThen Transition.refl = (Transition.refl m).andThen step
      simp
  | succ n ih =>
      show m.step.andThen (steps (n + 1)) = (m.step.andThen (steps n)).andThen step
      rw [Transition.andThen_assoc]
      exact congrArg m.step.andThen (funext ih)

/-- A run goes on where a shorter one has ended. -/
theorem steps_add (k n : Nat) (m : Machine) : steps (k + n) m = (steps k m).andThen (steps n) := by
  induction n with
  | zero => exact ((steps k m).andThen_refl).symm
  | succ n ih =>
      rw [← Nat.add_assoc, steps_succ_last, ih, Transition.andThen_assoc]
      exact congrArg (steps k m).andThen (funext fun m' => (steps_succ_last n m').symm)

theorem steps_succ_of_trap_eq_none {n : Nat} (h : (steps n m).trap = none) :
    steps (n + 1) m =
      ⟨(steps n m).machine.step.machine, (steps n m).events ++ (steps n m).machine.step.events,
        (steps n m).machine.step.trap⟩ := by
  rw [steps_succ_last, Transition.andThen_of_trap_eq_none h]

theorem steps_succ_of_trap_ne_none {n : Nat} (h : (steps n m).trap ≠ none) :
    steps (n + 1) m = steps n m := by
  rw [steps_succ_last, Transition.andThen_of_trap_ne_none h]

/-- No trap has sprung before, if none has by the end. -/
theorem trap_steps_of_le {k n : Nat} (h : k ≤ n) (done : (steps n m).trap = none) :
    (steps k m).trap = none := by
  obtain ⟨d, rfl⟩ := Nat.exists_eq_add_of_le h
  by_cases htrap : (steps k m).trap = none
  · exact htrap
  · rwa [steps_add, Transition.andThen_of_trap_ne_none htrap] at done

/-- A run that has come to its end is the same run however much longer it could have been. -/
theorem steps_of_le_of_halted {k n : Nat} (h : k ≤ n)
    (halted : (steps k m).machine.halted = true) : steps n m = steps k m := by
  obtain ⟨d, rfl⟩ := Nat.exists_eq_add_of_le h
  rw [steps_add]
  exact Transition.andThen_eq_self (steps_of_halted halted d)

theorem running_of_le {k n : Nat} (h : k ≤ n) (running : (steps n m).machine.halted = false) :
    (steps k m).machine.halted = false := by
  cases hh : (steps k m).machine.halted with
  | false => rfl
  | true =>
      rw [steps_of_le_of_halted h hh] at running
      exact hh.symm.trans running

theorem events_steps_of_le {k n : Nat} (h : k ≤ n) : (steps k m).events <+: (steps n m).events := by
  induction h with
  | refl => exact List.prefix_rfl
  | @step n _ ih =>
      rw [Nat.succ_eq_add_one]
      by_cases hn : (steps n m).trap = none
      · rw [steps_succ_of_trap_eq_none hn]
        exact ih.trans (List.prefix_append _ _)
      · rwa [steps_succ_of_trap_ne_none hn]

theorem mem_events_steps {k n : Nat} (h : k < n) (done : (steps k m).trap = none) {e : Event}
    (he : e ∈ (steps k m).machine.step.events) : e ∈ (steps n m).events := by
  apply (events_steps_of_le h).subset
  rw [steps_succ_of_trap_eq_none done]
  exact List.mem_append_right _ he

/-- What is so of every event of every cycle is so of the events of a run. -/
theorem forall_mem_events_steps {P : Event → Prop} (h : ∀ m : Machine, ∀ e ∈ m.step.events, P e)
    (n : Nat) (m : Machine) : ∀ e ∈ (steps n m).events, P e := by
  induction n generalizing m with
  | zero => exact fun e he => absurd he List.not_mem_nil
  | succ n ih =>
      intro e he
      rw [steps] at he
      by_cases htrap : m.step.trap = none
      · rw [Transition.andThen_of_trap_eq_none htrap] at he
        rcases List.mem_append.mp he with he | he
        · exact h m e he
        · exact ih m.step.machine e he
      · rw [Transition.andThen_of_trap_ne_none htrap] at he
        exact h m e he

end Machine

end Wordcode
