import Wordcode.Proofs.Reports
import Wordcode.Proofs.Requests

/-!
# Stopping is for good

Carrying out an instruction never asks whether the machine is running. That is left to the cycle, and
whoever makes an instruction by hand and has it carried out is past that question: there it is, a
stopped machine at work. What keeps it from getting up again is that no work starts or moves a
machine, and that every conclusion either moves it, which a stopped machine ignores, or stops it.

So the only thing that is left to happen to a machine that has stopped is one more fault, which takes
the place of the reason that was there (`Machine.Onward`). From that it follows, however a machine is
used, that a run can end, and a run that has ended well can still be found at fault, but there is no
way back (`Machine.serveAll_load_one_way`).
-/

namespace Wordcode

/-- How far a run has come, by its outcome: it is running, or has ended well, or is at fault. -/
def Outcome.rank : Option Outcome → Nat
  | none => 0
  | some .halted => 1
  | some (.faulted _) => 2

theorem Outcome.rank_le_two (o : Option Outcome) : rank o ≤ 2 := by
  rcases o with _ | _ | f
  · exact Nat.zero_le 2
  · exact Nat.le_succ 1
  · exact Nat.le_refl 2

namespace Machine

/-- All that the transition `t` of the machine `m` may do about the end of a run. -/
structure Onward (m : Machine) (t : Transition) : Prop where
  /-- The fault that is reported last goes on record. -/
  fault : t.machine.fault = t.faults.getLast?.or m.fault
  /-- A fault stops the machine. -/
  stops : t.faults ≠ [] → t.machine.halted = true
  halted : m.halted = true → t.machine.halted = true
  ip : m.halted = true → t.machine.ip = m.ip

namespace Onward

variable {m : Machine} {t : Transition}

/-- Whatever reports no fault and leaves the record alone, does no more than stop the machine. -/
theorem of_faults_eq_nil (silent : t.faults = []) (fault : t.machine.fault = m.fault)
    (halted : m.halted = true → t.machine.halted = true)
    (ip : m.halted = true → t.machine.ip = m.ip) : m.Onward t where
  fault := by
    rw [silent, fault]
    rfl
  stops h := absurd silent h
  halted := halted
  ip := ip

theorem of_unmoved {m' : Machine} (h : Unmoved m m') : m.Onward (.refl m') :=
  of_faults_eq_nil rfl h.fault h.halted.trans fun _ => h.ip

theorem refl (m : Machine) : m.Onward (.refl m) := of_unmoved (.refl m)

theorem andThen (h : m.Onward t) {next : Machine → Transition} (hnext : ∀ m : Machine, m.Onward (next m)) :
    m.Onward (t.andThen next) := by
  by_cases htrap : t.trap = none
  · have hfaults := Transition.faults_andThen_of_trap_eq_none htrap next
    have hmachine : (t.andThen next).machine = (next t.machine).machine := by
      rw [Transition.andThen_of_trap_eq_none htrap]
    have h' := hnext t.machine
    refine ⟨?_, ?_, ?_, ?_⟩
    · rw [hfaults, hmachine, h'.fault, h.fault, List.getLast?_append, Option.or_assoc]
    · intro hne
      rw [hmachine]
      by_cases hlast : (next t.machine).faults = []
      · apply h'.halted
        apply h.stops
        intro hnone
        simp [hfaults, hnone, hlast] at hne
      · exact h'.stops hlast
    · intro hh
      rw [hmachine]
      exact h'.halted (h.halted hh)
    · intro hh
      rw [hmachine, h'.ip (h.halted hh), h.ip hh]
  · rw [Transition.andThen_of_trap_ne_none htrap]
    exact h

/-! ## Consequences -/

/-- The outcome of a run that is over changes with the faults that are reported, and with nothing
else. -/
theorem outcome (h : m.Onward t) (hh : m.halted = true) :
    t.machine.outcome = (t.faults.getLast?.map Outcome.faulted).or m.outcome := by
  unfold Machine.outcome
  rw [h.halted hh, hh, h.fault]
  cases t.faults.getLast? <;> rfl

theorem rank_le (h : m.Onward t) : Outcome.rank m.outcome ≤ Outcome.rank t.machine.outcome := by
  cases hh : m.halted with
  | false =>
      rw [outcome_eq_none_iff.mpr hh]
      exact Nat.zero_le _
  | true =>
      rw [h.outcome hh]
      cases t.faults.getLast? with
      | none => exact Nat.le_refl _
      | some f => exact Outcome.rank_le_two _

/-- A fault on record is a sign that the machine has stopped, if it was one before. -/
theorem halted_of_fault (h : m.Onward t) (hm : m.fault ≠ none → m.halted = true)
    (hf : t.machine.fault ≠ none) : t.machine.halted = true := by
  by_cases hsilent : t.faults = []
  · apply h.halted
    apply hm
    rwa [h.fault, hsilent] at hf
  · exact h.stops hsilent

end Onward

/-! ## Nothing that can be asked for leads back -/

theorem conclude_onward (next : Address) {m : Machine} {w : Work} (same : Unmoved m w.machine)
    (told : w.events.filterMap Event.fault? = []) : m.Onward (conclude next w) := by
  have hfaults : (conclude next w).faults = _ := faults_conclude told
  -- A machine that goes on does so only if it has not stopped.
  have moved (target : Address) {t : Transition} (hmachine : t.machine = w.machine.moveTo target)
      (silent : t.faults = []) : m.Onward t := by
    apply Onward.of_faults_eq_nil silent
    · rw [hmachine, moveTo_fault, same.fault]
    · intro hh
      rw [hmachine, moveTo_halted, same.halted, hh]
    · intro hh
      rw [hmachine, moveTo, if_pos (same.halted.trans hh), same.ip]
  unfold conclude at hfaults ⊢
  cases hv : w.verdict with
  | proceed =>
      rw [hv] at hfaults
      exact moved next rfl hfaults
  | jump target =>
      rw [hv] at hfaults
      exact moved target rfl hfaults
  | halt =>
      rw [hv] at hfaults
      exact .of_faults_eq_nil hfaults same.fault (fun _ => rfl) fun _ => same.ip
  | fault f =>
      rw [hv] at hfaults
      refine ⟨?_, fun _ => rfl, fun _ => rfl, fun _ => same.ip⟩
      dsimp only at hfaults ⊢
      rw [hfaults]
      rfl
  | trap t =>
      rw [hv] at hfaults
      exact .of_faults_eq_nil hfaults same.fault same.halted.trans fun _ => same.ip

/-- **Any instruction** only leads onward, whether or not the machine is running. -/
theorem execute_onward (m : Machine) (i : Instruction) : m.Onward (m.execute i) := by
  unfold execute
  split
  · exact conclude_onward _ (m.perform_unmoved i) (m.perform_told i).faults
  · exact .of_faults_eq_nil rfl rfl id fun _ => rfl

theorem step_onward (m : Machine) : m.Onward m.step := by
  cases hh : m.halted with
  | true =>
      rw [step_of_halted hh]
      exact .refl m
  | false =>
      -- The report of the instruction comes on top, and is no fault.
      rw [step_of_running hh]
      obtain ⟨hfault, hstops, hhalted, hip⟩ := m.execute_onward (m.program.decode m.ip)
      exact ⟨hfault, hstops, hhalted, hip⟩

theorem steps_onward (n : Nat) (m : Machine) : m.Onward (steps n m) := by
  induction n generalizing m with
  | zero => exact .refl m
  | succ n ih => exact m.step_onward.andThen ih

theorem interpreted_onward (m : Machine) : m.Onward m.interpreted := by
  cases hh : m.halted with
  | true =>
      rw [interpreted_of_halted hh]
      exact .refl m
  | false =>
      rw [interpreted_of_running hh]
      obtain ⟨hfault, hstops, hhalted, hip⟩ := steps_onward cycleLimit m
      exact ⟨hfault, hstops, hhalted, hip⟩

theorem serve_onward (m : Machine) (r : Request) : m.Onward (m.serve r) := by
  cases r with
  | call c => exact .of_unmoved (m.call_unmoved c)
  | setRegister r v => exact .of_unmoved (m.setRegister_unmoved r v)
  | step => exact m.step_onward
  | interpret => exact m.interpreted_onward
  | execute i => exact m.execute_onward i

theorem serveAll_onward (rs : List Request) (m : Machine) : m.Onward (serveAll rs m) := by
  induction rs generalizing m with
  | nil => exact .refl m
  | cons r rs ih => exact (m.serve_onward r).andThen ih

/-! ## After a good end -/

/-- An instruction that is carried out reports one fault at most. -/
theorem faults_execute (m : Machine) (i : Instruction) :
    (m.execute i).faults = [] ∨ ∃ f, (m.execute i).faults = [f] := by
  unfold execute
  split
  · rw [faults_conclude (m.perform_told i).faults]
    split
    · exact .inr ⟨_, rfl⟩
    · exact .inl rfl
  · exact .inl rfl

theorem outcome_serve_of_halted {m : Machine} {r : Request} (h : m.outcome = some .halted)
    (hr : (m.serve r).machine.outcome ≠ some .halted) :
    ∃ i f, r = .execute i ∧ (m.serve r).faults = [f] ∧
      (m.serve r).machine.outcome = some (.faulted f) := by
  have hh := (outcome_eq_halted_iff.mp h).1
  have hout := (m.serve_onward r).outcome hh
  rw [h] at hout
  have hfaults : (m.serve r).faults ≠ [] := by
    intro hnone
    rw [hnone] at hout
    exact hr hout
  cases r with
  | call c => exact absurd rfl hfaults
  | setRegister r v => exact absurd rfl hfaults
  | step =>
      rw [serve, step_of_halted hh] at hfaults
      exact absurd rfl hfaults
  | interpret =>
      rw [serve, interpreted_of_halted hh] at hfaults
      exact absurd rfl hfaults
  | execute i =>
      obtain hnone | ⟨f, hf⟩ := m.faults_execute i
      · exact absurd hnone hfaults
      · refine ⟨i, f, rfl, hf, ?_⟩
        rw [hout, serve, hf]
        rfl

/-- **There is no way back.** Take a machine that has been loaded and used in any way, and go on using
it. It has stopped if a fault is on record. If it has stopped it stays so, and where it is, and its
outcome can only get worse; and if its run has ended well, the only request to change that is for an
instruction to be carried out, which reports one fault, the new outcome. -/
theorem serveAll_load_one_way (p : Program) (before after : List Request) :
    let m := (serveAll before (load p)).machine
    let m' := (serveAll after m).machine
    (m.fault ≠ none → m.halted = true) ∧
      (m.halted = true → m'.halted = true ∧ m'.ip = m.ip) ∧
      Outcome.rank m.outcome ≤ Outcome.rank m'.outcome ∧
      ∀ r : Request, m.outcome = some .halted → (m.serve r).machine.outcome ≠ some .halted →
        ∃ i f, r = .execute i ∧ (m.serve r).faults = [f] ∧
          (m.serve r).machine.outcome = some (.faulted f) := by
  intro m m'
  have hbefore := serveAll_onward before (load p)
  have hafter := serveAll_onward after m
  refine ⟨?_, ?_, hafter.rank_le, ?_⟩
  · exact hbefore.halted_of_fault fun hf => absurd rfl hf
  · intro hh
    exact ⟨hafter.halted hh, hafter.ip hh⟩
  · intro r
    exact outcome_serve_of_halted

/-- A `halt` does not turn a fault into a good end. -/
example :
    (serveAll [.step, .execute Command.halt.instruction] (load #[2])).machine.outcome =
      some (.faulted .stackUnderflow) := by
  decide

end Machine

end Wordcode
