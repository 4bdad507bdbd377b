import Wordcode.Proofs.Driving
import Wordcode.Proofs.Refinement
import Wordcode.Proofs.Reports

/-!
# What an onlooker is told

An onlooker sees nothing but events, and can rely on what they mean. Every cycle that a machine takes
begins with the instruction that was decoded, shown together with the machine it is about to change.
What follows depends on how the cycle goes (`Machine.Protocol`): the word that a `pop` removed, the
register that a `set` changed, the fault that stops the machine — or nothing more.

From that the protocol of a whole run follows (`Machine.steps_load_protocol`). A fault is reported
once if at all, after everything else, and it is the one on record in the end; and a machine that has
stopped is silent.
-/

namespace Wordcode

namespace Machine

/-! ## One cycle -/

/-- What a cycle `t` of the running machine `m` reports, where `i` is the instruction that `m` stands
on. -/
inductive Protocol (m : Machine) (i : Instruction) (t : Transition) : Prop
  /-- A cycle that faults shows its instruction and the fault. -/
  | faulted (f : Fault) (done : t.trap = none) (outcome : t.machine.outcome = some (.faulted f))
      (events : t.events = [.decoded m i, .faulted f])
  /-- A `pop` shows the word that was on top. -/
  | popped (v : Word) (done : t.trap = none) (record : t.machine.fault = none)
      (opcode : i.opcode = .pop) (top : m.stack.entries.getLast? = some v)
      (events : t.events = [.decoded m i, .popped v])
  /-- A `set` shows its register, and the word that was on top and is now in the register. -/
  | stored (r : Register) (v : Word) (done : t.trap = none) (record : t.machine.fault = none)
      (opcode : i.opcode = .set) (operand : i.slots[0] = r.code)
      (top : m.stack.entries.getLast? = some v) (held : t.machine.register r = v)
      (events : t.events = [.decoded m i, .stored r v])
  /-- Any other instruction shows nothing but itself. -/
  | silent (done : t.trap = none) (record : t.machine.fault = none) (not_pop : i.opcode ≠ .pop)
      (not_set : i.opcode ≠ .set) (events : t.events = [.decoded m i])
  /-- So does a cycle that a trap cuts short. -/
  | cut (trapped : t.trap ≠ none) (record : t.machine.fault = none)
      (events : t.events = [.decoded m i])

theorem conclude_of_fair (next : Address) {w : Work} (h : w.verdict.Fair) :
    (conclude next w).trap = none ∧ (conclude next w).events = w.events ∧
      (conclude next w).machine.fault = w.machine.fault ∧
      (conclude next w).machine.registers = w.machine.registers := by
  unfold conclude
  cases hv : w.verdict with
  | proceed | jump target =>
      exact ⟨rfl, rfl, w.machine.moveTo_fault _, w.machine.moveTo_registers _⟩
  | halt => exact ⟨rfl, rfl, rfl, rfl⟩
  | fault f | trap t =>
      rw [hv] at h
      exact h.elim

theorem fair_of_conclude {next : Address} {w : Work} (told : w.events.filterMap Event.fault? = [])
    (done : (conclude next w).trap = none) (sound : (conclude next w).faults = []) :
    w.verdict.Fair := by
  rw [faults_conclude told] at sound
  cases hv : w.verdict with
  | proceed | jump _ | halt => trivial
  | fault f => simp [hv] at sound
  | trap t => simp [conclude, hv] at done

/-- An instruction that is carried out without a fault leaves and reports what its work does. -/
theorem execute_of_faults_eq_nil {m : Machine} {i : Instruction}
    (done : (m.execute i).trap = none) (sound : (m.execute i).faults = []) :
    (m.perform i).verdict.Fair ∧ (m.execute i).events = (m.perform i).events ∧
      (m.execute i).machine.registers = (m.perform i).machine.registers ∧
      (m.execute i).machine.stack = (m.perform i).machine.stack := by
  obtain ⟨next, -, hexecute⟩ := exists_execute_eq done
  rw [hexecute] at done sound ⊢
  have hfair := fair_of_conclude (m.perform_told i).faults done sound
  obtain ⟨-, hevents, -, hregisters⟩ := conclude_of_fair next hfair
  exact ⟨hfair, hevents, hregisters, conclude_stack next _⟩

/-- **One cycle** follows the protocol. -/
theorem step_protocol {m : Machine} (running : m.halted = false) (hf : m.fault = none) :
    Protocol m (m.program.decode m.ip) m.step := by
  rw [step_of_running running]
  generalize m.program.decode m.ip = i
  have hrecord : (m.perform i).machine.fault = none := (m.perform_unmoved i).fault.trans hf
  unfold execute
  cases hpast : m.ip.past? i.count with
  | none => exact .cut (Option.some_ne_none _) hf rfl
  | some next =>
      dsimp only
      cases m.perform_told i with
      | stopped hunfair hevents =>
          unfold conclude
          cases hv : (m.perform i).verdict with
          | fault f => exact .faulted f rfl rfl (by simp [hevents])
          | trap t => exact .cut (Option.some_ne_none t) hrecord (by simp [hevents])
          | _ =>
              rw [hv] at hunfair
              exact absurd trivial hunfair
      | popped v hop htop hfair hevents =>
          obtain ⟨hdone, hsame, hfault, -⟩ := conclude_of_fair next hfair
          exact .popped v hdone (hfault.trans hrecord) hop htop (by simp [hsame, hevents])
      | stored r v hop hoperand htop hheld hfair hevents =>
          obtain ⟨hdone, hsame, hfault, hregisters⟩ := conclude_of_fair next hfair
          have held : (conclude next (m.perform i)).machine.register r = v := by
            rw [register, hregisters]
            exact hheld
          exact .stored r v hdone (hfault.trans hrecord) hop hoperand htop held
            (by simp [hsame, hevents])
      | silent hpop hset hfair hevents =>
          obtain ⟨hdone, hsame, hfault, -⟩ := conclude_of_fair next hfair
          exact .silent hdone (hfault.trans hrecord) hpop hset (by simp [hsame, hevents])

/-! ## The cycles that are taken -/

/-- Before each of the cycles that a run asks for, it has completed so far and is still running. -/
theorem running_of_lt_cyclesWithin {m : Machine} (running : m.halted = false) {k n : Nat}
    (h : k < cyclesWithin n m) :
    (steps k m).trap = none ∧ (steps k m).machine.halted = false := by
  induction n generalizing k m with
  | zero => exact absurd h (Nat.not_lt_zero k)
  | succ n ih =>
      rcases k with _ | k
      · exact ⟨rfl, running⟩
      unfold cyclesWithin at h
      dsimp only at h
      split at h
      · omega
      · next hon =>
        obtain ⟨htrap, hh⟩ : m.step.trap = none ∧ m.step.machine.halted = false := by
          simpa using hon
        rw [steps, Transition.andThen_of_trap_eq_none htrap]
        exact ih hh (Nat.lt_of_succ_lt_succ h)

/-- A run reports what its cycles report, one after another. -/
theorem events_steps (n : Nat) (m : Machine) :
    (steps n m).events =
      (List.range (cyclesWithin n m)).flatMap fun k => (steps k m).machine.step.events := by
  induction n generalizing m with
  | zero => rfl
  | succ n ih =>
      rw [steps, cyclesWithin]
      by_cases htrap : m.step.trap = none
      · rw [Transition.andThen_of_trap_eq_none htrap]
        by_cases hh : m.step.machine.halted = true
        · simp [hh, steps_of_halted hh, steps, Transition.refl]
        · have hrest : ∀ k, (steps (k + 1) m).machine = (steps k m.step.machine).machine := by
            intro k
            rw [steps, Transition.andThen_of_trap_eq_none htrap]
          simp only [htrap, hh, Option.isSome_none, Bool.false_or, Bool.false_eq_true, if_false]
          rw [List.range_succ_eq_map, List.flatMap_cons, List.flatMap_map, ih]
          simp only [Nat.succ_eq_add_one, hrest]
          rfl
      · rw [Transition.andThen_of_trap_ne_none htrap]
        obtain ⟨t, ht⟩ := Option.ne_none_iff_exists'.mp htrap
        simp [ht, steps, Transition.refl]

/-! ## The record -/

/-- The faults that have been reported are the one on record, and nothing was reported after it. -/
structure Accounted (t : Transition) : Prop where
  faults : t.faults = t.machine.fault.toList
  last : ∀ f ∈ t.faults, t.events.getLast? = some (.faulted f)
  running : t.machine.halted = false → t.machine.fault = none

theorem Protocol.accounted {m : Machine} {i : Instruction} {t : Transition} (h : Protocol m i t) :
    Accounted t := by
  cases h with
  | faulted f _ hout events =>
      obtain ⟨hh, hrecord⟩ := outcome_eq_faulted_iff.mp hout
      have hfaults : t.faults = [f] := by
        rw [Transition.faults, events]
        rfl
      refine ⟨?_, ?_, ?_⟩
      · rw [hfaults, hrecord]
        rfl
      · intro g hg
        obtain rfl : g = f := by simpa [hfaults] using hg
        rw [events]
        rfl
      · intro running
        rw [hh] at running
        cases running
  | popped _ _ record _ _ events | stored _ _ _ record _ _ _ _ events
  | silent _ record _ _ events | cut _ record events =>
      have hnone : t.faults = [] := by
        rw [Transition.faults, events]
        rfl
      refine ⟨?_, ?_, fun _ => record⟩
      · rw [hnone, record]
        rfl
      · simp [hnone]

theorem Accounted.andThen_step {t : Transition} (h : Accounted t) : Accounted (t.andThen step) := by
  by_cases htrap : t.trap = none
  · cases hh : t.machine.halted with
    | true =>
        -- A machine that has stopped is left as it is, and there is nothing to add.
        rwa [Transition.andThen_eq_self (step_of_halted hh)]
    | false =>
        -- Nothing has been reported of a fault so far, so the cycle's account is the whole one.
        have hfault := h.running hh
        have hcycle := (step_protocol hh hfault).accounted
        have hfaults : (t.andThen step).faults = t.machine.step.faults := by
          rw [Transition.faults_andThen_of_trap_eq_none htrap, h.faults, hfault]
          rfl
        have hmachine : (t.andThen step).machine = t.machine.step.machine := by
          rw [Transition.andThen_of_trap_eq_none htrap]
        refine ⟨?_, ?_, ?_⟩
        · rw [hfaults, hmachine]
          exact hcycle.faults
        · intro f hf
          have hlast := hcycle.last f (hfaults ▸ hf)
          rw [Transition.andThen_of_trap_eq_none htrap]
          simp [List.getLast?_append, hlast]
        · rw [hmachine]
          exact hcycle.running
  · rw [Transition.andThen_of_trap_ne_none htrap]
    exact h

theorem steps_load_accounted (p : Program) (n : Nat) : Accounted (steps n (load p)) := by
  induction n with
  | zero => exact ⟨rfl, fun _ hf => absurd hf List.not_mem_nil, fun _ => rfl⟩
  | succ n ih =>
      rw [steps_succ_last]
      exact ih.andThen_step

/-- A machine that has nothing on record while it is running has its fault for an outcome. -/
theorem outcome_bind_fault? {m : Machine} (h : m.halted = false → m.fault = none) :
    m.outcome.bind Outcome.fault? = m.fault := by
  unfold outcome
  cases hh : m.halted with
  | false => simp [h hh]
  | true => cases m.fault <;> rfl

/-- **The protocol of a run.** The run of a program reports what its cycles report, one after another,
and each of them follows the protocol; no trap cuts it short if the program is no longer than a
program can be. The run is not over before the last of these cycles; it is after it, if there are
fewer of them than were asked for. The faults reported are the one that the run has ended with, and
nothing is reported after a fault, nor by any machine that has stopped. -/
theorem steps_load_protocol (p : Program) (n : Nat) :
    let run := steps n (load p)
    let taken := cyclesWithin n (load p)
    let before (k : Nat) := (steps k (load p)).machine
    (p.size ≤ Program.maxSize → run.trap = none ∧ ∀ k, (before k).step.trap = none) ∧
      taken ≤ n ∧ (taken < n → run.trap ≠ none ∨ run.machine.halted = true) ∧
      (∀ k < taken, (before k).halted = false ∧
        Protocol (before k) (p.decode (before k).ip) (before k).step) ∧
      run.events = (List.range taken).flatMap (fun k => (before k).step.events) ∧
      run.faults = (run.machine.outcome.bind Outcome.fault?).toList ∧
      (∀ f ∈ run.faults, run.events.getLast? = some (.faulted f)) ∧
      ∀ m : Machine, m.halted = true → m.step.events = [] := by
  intro run taken before
  have haccount := steps_load_accounted p n
  refine ⟨?_, cyclesWithin_le n _, stopped_of_cyclesWithin_lt, ?_, events_steps n _, ?_,
    haccount.last, ?_⟩
  · intro hp
    have hstart := healthy_load hp
    refine ⟨(steps_realise hstart n).trap, ?_⟩
    intro k
    exact (step_realises (healthy_steps hstart k)).trap
  · intro k hk
    obtain ⟨-, running⟩ := running_of_lt_cyclesWithin (m := load p) rfl hk
    have hrecord := (steps_load_accounted p k).running running
    have hstep := step_protocol running hrecord
    rw [program_steps] at hstep
    exact ⟨running, hstep⟩
  · rw [outcome_bind_fault? haccount.running]
    exact haccount.faults
  · intro m hh
    rw [step_of_halted hh]
    rfl

end Machine

end Wordcode
