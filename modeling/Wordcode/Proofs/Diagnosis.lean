import Wordcode.Proofs.Driving
import Wordcode.Proofs.Refinement

/-!
# Every diagnosis is right

When a run is over, it says why: the program halted itself, or there was a fault. `Outcome.Explains`
spells out what each of these has to mean for the program, the place where the machine stands, and
what is on the stack and in the registers. Nothing explains `unknown`.

## Two stages

Faults come from two stages. One that is found while fetching is a statement about the program alone
(`Program.Misspelt`). One that is found while a command is carried out depends on the stack as well,
and here the argument is that the stack is still as the fault has found it — which is not obvious of
an `add`, whose first pop may have succeeded.

Both are settled on the ideal machine, where a fault is raised in the same breath as it is found
(`Ideal.step_explained`, `Ideal.run_explained`), and carried over to the machine afterwards.
-/

namespace Wordcode

/-- What an outcome says about the place where the run ended, and what was there on the stack and in
the registers. -/
def Outcome.Explains (p : Program) (ip : Nat) (stack : List Word) (registers : Register → Word) :
    Outcome → Prop
  | .halted => p.HasAt ip .halt
  | .faulted .stackOverflow =>
    stack.length = 256 ∧ ((∃ v, p.HasAt ip (.push v)) ∨ ∃ r q, p.HasAt ip (.radd r q))
  | .faulted .stackUnderflow =>
    stack.length = 0 ∧
      (p.HasAt ip .pop ∨ (∃ r, p.HasAt ip (.set r)) ∨ p.HasAt ip .add ∨
        ∃ r offset, p.HasAt ip (.rjne r offset))
  | .faulted (.jumpOutOfRange source offset) =>
    source.toNat = ip ∧
      ∃ r top, p.HasAt ip (.rjne r offset) ∧ stack.getLast? = some top ∧ registers r ≠ top ∧
        (ip : Int) + offset.toInt < 0
  | .faulted .missingOpcode => p.Misspelt ip .missingOpcode
  | .faulted (.invalidOpcode v) => p.Misspelt ip (.invalidOpcode v)
  | .faulted .explicitIHalt => p.Misspelt ip .explicitIHalt
  | .faulted (.missingParameter op) => p.Misspelt ip (.missingParameter op)
  | .faulted (.invalidRegister op v) => p.Misspelt ip (.invalidRegister op v)
  | .faulted .unknown => False

theorem Outcome.explains_of_misspelt {p : Program} {ip : Nat} {f : Fault} (h : p.Misspelt ip f)
    (stack : List Word) (registers : Register → Word) :
    (Outcome.faulted f).Explains p ip stack registers := by
  cases f with
  | unknown | stackOverflow | stackUnderflow | jumpOutOfRange source offset => exact h.elim
  | _ => exact h

namespace Ideal

/-- If the run is over, its outcome says so truly. -/
def Explained (p : Program) (s : Ideal) : Prop :=
  ∀ o, s.outcome = some o → o.Explains p s.ip s.stack s.registers

theorem explained_of_running {p : Program} {s : Ideal} (running : s.outcome = none) :
    s.Explained p := by
  intro o ho
  rw [running] at ho
  cases ho

theorem fail_explained {p : Program} {s : Ideal} {f : Fault}
    (h : (Outcome.faulted f).Explains p s.ip s.stack s.registers) : (s.fail f).1.Explained p := by
  intro o ho
  obtain rfl : Outcome.faulted f = o := Option.some.inj ho
  exact h

/-! ## Commands -/

section

variable {p : Program} {s : Ideal} (running : s.outcome = none)

include running

theorem push_explained {v : Word} {next : Nat}
    (full : s.stack.length = 256 →
      (Outcome.faulted .stackOverflow).Explains p s.ip s.stack s.registers) :
    (s.push v next).1.Explained p := by
  unfold push
  by_cases room : s.stack.length < 256
  · rw [dif_pos room]
    exact explained_of_running running
  · rw [dif_neg room]
    apply fail_explained
    exact full (Nat.le_antisymm s.bounded (Nat.le_of_not_lt room))

omit running in
theorem take_explained {use : Word → Ideal × List Signal}
    (none_left : s.stack.length = 0 →
      (Outcome.faulted .stackUnderflow).Explains p s.ip s.stack s.registers)
    (some_left : ∀ v, s.stack.getLast? = some v → (use v).1.Explained p) :
    (s.take use).1.Explained p := by
  unfold take
  cases hlast : s.stack.getLast? with
  | some v => exact some_left v hlast
  | none =>
      apply fail_explained
      apply none_left
      rw [List.getLast?_eq_none_iff.mp hlast]
      rfl

theorem jump_explained (hp : p.size ≤ Program.maxSize) {r : Register} {offset top : Word}
    (hc : p.HasAt s.ip (.rjne r offset)) (hlast : s.stack.getLast? = some top)
    (hne : s.registers r ≠ top) : (s.jump offset).1.Explained p := by
  unfold jump
  by_cases hneg : (s.ip : Int) + offset.toInt < 0
  · rw [if_pos hneg]
    apply fail_explained
    refine ⟨?_, r, top, hc, hlast, hne, hneg⟩
    -- The place of an `rjne` is an address, since it lies in the program.
    have hsize := hc.le_size
    unfold Program.maxSize at hp
    exact UInt64.toNat_ofNat_of_lt' (show s.ip < 2 ^ 64 by omega)
  · rw [if_neg hneg]
    exact explained_of_running running

theorem add_explained (hc : p.HasAt s.ip .add) (next : Nat) :
    (s.take fun v => s.popped.take fun w => s.popped.popped.push (v + w) next).1.Explained p := by
  apply take_explained
  · intro hnil
    exact ⟨hnil, Or.inr (Or.inr (Or.inl hc))⟩
  intro v hv
  apply take_explained
  · intro hnil
    exact ⟨hnil, Or.inr (Or.inr (Or.inl hc))⟩
  intro w _
  have running' : s.popped.popped.outcome = none := running
  apply push_explained running'
  intro full
  -- Two words have just been taken off a stack of at most 256.
  have hle := s.bounded
  have hlen : s.popped.popped.stack.length = s.stack.length - 1 - 1 := by
    show s.stack.dropLast.dropLast.length = _
    rw [List.length_dropLast, List.length_dropLast]
  omega

/-- Carrying out a command that is written where the machine stands. -/
theorem obey_explained (hp : p.size ≤ Program.maxSize) {c : Command} (hc : p.HasAt s.ip c)
    (next : Nat) : (s.obey next c).1.Explained p := by
  cases c with
  | nop | rdec r => exact explained_of_running running
  | halt =>
      intro o ho
      obtain rfl : Outcome.halted = o := Option.some.inj ho
      exact hc
  | push v =>
      apply push_explained running
      intro full
      exact ⟨full, Or.inl ⟨v, hc⟩⟩
  | radd r q =>
      apply push_explained running
      intro full
      exact ⟨full, Or.inr ⟨r, q, hc⟩⟩
  | pop =>
      apply take_explained
      · intro hnil
        exact ⟨hnil, Or.inl hc⟩
      · intro v _
        exact explained_of_running running
  | set r =>
      apply take_explained
      · intro hnil
        exact ⟨hnil, Or.inr (Or.inl ⟨r, hc⟩)⟩
      · intro v _
        exact explained_of_running running
  | add => exact add_explained running hc next
  | rjne r offset =>
      apply take_explained
      · intro hnil
        exact ⟨hnil, Or.inr (Or.inr (Or.inr ⟨r, offset, hc⟩))⟩
      intro top htop
      show (if s.registers r = top then (s.goto next, []) else s.jump offset).1.Explained p
      by_cases heq : s.registers r = top
      · rw [if_pos heq]
        exact explained_of_running running
      · rw [if_neg heq]
        exact jump_explained running hp hc htop heq

end

/-! ## Runs -/

/-- **One step** diagnoses rightly what it stops at, and leaves a right diagnosis alone. -/
theorem step_explained {p : Program} (hp : p.size ≤ Program.maxSize) {s : Ideal}
    (h : s.Explained p) : (step p s).1.Explained p := by
  unfold step
  cases hout : s.outcome with
  | some o => exact h
  | none =>
      dsimp only
      cases hfetch : p.fetch s.ip with
      | ok c => exact obey_explained hout hp (Program.fetch_eq_ok_iff.mp hfetch) _
      | error f =>
          apply fail_explained
          exact Outcome.explains_of_misspelt (Program.fetch_eq_error_iff.mp hfetch) _ _

theorem run_explained {p : Program} (hp : p.size ≤ Program.maxSize) (n : Nat) {s : Ideal}
    (h : s.Explained p) : (run p n s).1.Explained p := by
  induction n generalizing s with
  | zero => exact h
  | succ n ih => exact ih (step_explained hp h)

end Ideal

namespace Machine

/-! ## On the machine -/

/-- A machine that is explained stays so, for any number of cycles. -/
theorem ideal_steps_explained {m : Machine} (h : m.Healthy) (he : m.ideal.Explained m.program)
    (n : Nat) : (steps n m).machine.ideal.Explained m.program := by
  rw [(steps_realise h n).machine]
  exact Ideal.run_explained h.size_le n he

/-- `interpret` either returns a machine that has an outcome, or the count of cycles has run out. -/
theorem interpret_outcome {μ : Type → Type} [Monad μ] [LawfulMonad μ] (observe : Event → μ Unit)
    {m : Machine} (h : m.Healthy) :
    ∃ e : Ending,
      interpret observe m = (do
        (steps cycleLimit m).events.forM observe
        pure e) ∧
      e.machine = (steps cycleLimit m).machine ∧
      ((e.trap = none ∧ e.machine.outcome ≠ none) ∨
        (e.trap = some .cycleOverflow ∧ (steps (cycleLimit - 1) m).machine.outcome = none)) := by
  cases hh : m.halted with
  | true =>
      have hstay := steps_of_halted hh cycleLimit
      refine ⟨⟨m, 0, none⟩, ?_, ?_, Or.inl ⟨rfl, ?_⟩⟩
      · rw [interpret_of_halted observe hh, hstay]
        simp [Transition.refl]
      · rw [hstay]
        rfl
      · intro hnone
        exact Bool.false_ne_true ((outcome_eq_none_iff.mp hnone).symm.trans hh)
  | false =>
      have htrap := (steps_realise h cycleLimit).trap
      refine ⟨m.ending, interpret_eq observe hh, rfl, ?_⟩
      by_cases hcycles : cyclesWithin cycleLimit m = cycleLimit
      · right
        refine ⟨if_pos ⟨htrap, hcycles⟩, ?_⟩
        exact outcome_eq_none_iff.mpr (running_of_cyclesWithin_eq hh hcycles)
      · left
        have hended : m.ending.trap = none := by
          show (if _ ∧ _ then _ else _) = none
          rw [if_neg (fun hboth => hcycles hboth.2)]
          exact htrap
        refine ⟨hended, ?_⟩
        intro hnone
        have hstopped := (halted_of_ending hended).2
        exact Bool.false_ne_true ((outcome_eq_none_iff.mp hnone).symm.trans hstopped)

theorem ideal_load_explained (p : Program) : (load p).ideal.Explained p :=
  Ideal.explained_of_running rfl

/-- **Every diagnosis is right.** Wherever the run of a program has come to, its outcome explains
what is there, if it has one. An unknown fault is never recorded, an overflow is never the fault of
an `add`, and a register is complained about by the decoder alone. Interpreting the program from
there on returns an outcome that is known and right as well, unless the count of cycles runs out
first. -/
theorem steps_load_explained {p : Program} (hp : p.size ≤ Program.maxSize) (n : Nat) :
    let m := (steps n (load p)).machine
    m.program = p ∧
      (∀ o, m.outcome = some o → o.Explains p m.ip.toNat m.stack.entries m.register) ∧
      m.fault ≠ some .unknown ∧
      (m.fault = some .stackOverflow → ¬ p.HasAt m.ip.toNat .add) ∧
      (∀ op v, m.fault = some (.invalidRegister op v) →
        p.decode m.ip = .internalHalt (.invalidRegister op v)) ∧
      ∀ {μ : Type → Type} [Monad μ] [LawfulMonad μ] (observe : Event → μ Unit),
        ∃ e : Ending,
          interpret observe m = (do
            (steps cycleLimit m).events.forM observe
            pure e) ∧
          ((e.trap = none ∧ ∃ o, e.machine.outcome = some o ∧ o ≠ .faulted .unknown ∧
              o.Explains p e.machine.ip.toNat e.machine.stack.entries e.machine.register) ∨
            (e.trap = some .cycleOverflow ∧
              (steps (cycleLimit - 1) m).machine.outcome = none)) := by
  intro m
  have hstart := healthy_load hp
  have hm : m.Healthy := healthy_steps hstart n
  have hprogram : m.program = p := steps_program hstart n
  have hexplained : m.ideal.Explained p := ideal_steps_explained hstart (ideal_load_explained p) n
  refine ⟨hprogram, hexplained, ?_, ?_, ?_, ?_⟩
  · intro hf
    exact hexplained _ (hm.outcome_of_fault hf)
  · -- A `push` or an `radd` explains an overflow, and only one command is written at a place.
    intro hf hadd
    obtain ⟨-, ⟨v, hc⟩ | ⟨r, q, hc⟩⟩ := hexplained _ (hm.outcome_of_fault hf)
    · cases hc.unique hadd
    · cases hc.unique hadd
  · intro op v hf
    have hspelt : p.Misspelt m.ip.toNat (.invalidRegister op v) :=
      hexplained _ (hm.outcome_of_fault hf)
    rw [Program.decode_eq_fetched, Program.fetch_eq_error_iff.mpr hspelt]
    rfl
  · intro μ _ _ observe
    obtain ⟨e, hrun, hmachine, hend⟩ := interpret_outcome observe hm
    refine ⟨e, hrun, hend.imp_left ?_⟩
    rintro ⟨htrap, hsome⟩
    have hlast : e.machine.ideal.Explained p := by
      rw [hmachine, ← hprogram]
      apply ideal_steps_explained hm
      rw [hprogram]
      exact hexplained
    obtain ⟨o, ho⟩ := Option.ne_none_iff_exists'.mp hsome
    refine ⟨htrap, o, ho, ?_, hlast o ho⟩
    rintro rfl
    exact hlast _ ho

/-- The run of `push 5; add`: it stops at the `add`, whose first pop has emptied the stack. -/
theorem steps_load_explained_add :
    (#[1, 5, 4] : Program).size ≤ Program.maxSize ∧
      (steps 2 (load #[1, 5, 4])).machine.outcome = some (.faulted .stackUnderflow) ∧
      (steps 2 (load #[1, 5, 4])).machine.stack.entries.length = 0 := by
  have hsize : (#[1, 5, 4] : Program).size ≤ Program.maxSize := by decide
  obtain ⟨-, hexplained, -⟩ := steps_load_explained hsize 2
  have hout : (steps 2 (load #[1, 5, 4])).machine.outcome = some (.faulted .stackUnderflow) := by
    decide
  exact ⟨hsize, hout, (hexplained _ hout).1⟩

end Machine

end Wordcode
