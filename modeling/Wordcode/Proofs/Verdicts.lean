import Wordcode.Proofs.Reports

/-!
# How the work of an instruction ends

`perform` answers with a verdict, and what led to it is spread over the opcodes and the checks that
they are made of. `Machine.Ends` turns that round: for each verdict it says what must have been the
case (`Machine.perform_ends`). Whoever wants to know what instructions never do, or only do under
some condition, looks it up there and has no need to go through the opcodes once more.

Two of the causes take more words to say:

* `Machine.Jumps` — the instruction is an `rjne` and finds its register different from the top of the
  stack, so that it has to jump.
* `Machine.Faulting` — the instruction fails. There are seven ways to do so, and with each of them it
  says what has become of the machine by then.

So an instruction that leaves a machine running leads to the position past it or is a jump
(`Machine.execute_leads`), and one that ends a run well is a `halt`
(`Machine.outcome_step_eq_halted_iff`).
-/

namespace Wordcode

/-- The verdict on the work, and the machine after it, are as `P` says. -/
def Work.EndsAs (w : Work) (P : Verdict → Machine → Prop) : Prop := P w.verdict w.machine

namespace Machine

@[simp] theorem push_stack (m : Machine) (v : Word) : (m.push v).stack = m.stack.push v := rfl

@[simp] theorem pop_stack (m : Machine) : m.pop.2.stack = m.stack.pop.2 := rfl

@[simp] theorem peek_stack (m : Machine) : m.peek.2.stack = m.stack.peek.2 := rfl

/-- The instruction has to jump: it is an `rjne`, and its register differs from the top word. -/
structure Jumps (m : Machine) (i : Instruction) : Prop where
  opcode : i.opcode = .rjne
  differs : ∃ r top, i.slots[0] = Register.code r ∧ m.stack.entries.getLast? = some top ∧
    m.register r ≠ top

theorem Jumps.entries_ne_nil {m : Machine} {i : Instruction} (h : m.Jumps i) :
    m.stack.entries ≠ [] := by
  obtain ⟨r, top, -, htop, -⟩ := h.differs
  rintro hnil
  simp [hnil] at htop

/-- The instruction fails with a fault, and leaves a machine behind. -/
inductive Faulting (m : Machine) (i : Instruction) : Fault → Machine → Prop
  | carried {f : Fault} (opcode : i.opcode = .ihalt) (spelled : i.spelledFault = .ok f) :
      Faulting m i f m
  | noRegister {w : Word} (bad : i.opcode.FirstBad i.slots.toList w) :
      Faulting m i (.invalidRegister i.opcode w) m
  | full {v : Word} (opcode : i.opcode = .push ∨ i.opcode = .radd)
      (full : m.stack.entries.length = 256) : Faulting m i .stackOverflow (m.push v)
  | nothingToPop (opcode : i.opcode = .pop ∨ i.opcode = .set ∨ i.opcode = .add)
      (empty : m.stack.entries = []) : Faulting m i .stackUnderflow m.pop.2
  | nothingToSee (opcode : i.opcode = .rjne) (empty : m.stack.entries = []) :
      Faulting m i .stackUnderflow m.peek.2
  | nothingToAdd (opcode : i.opcode = .add) (single : m.stack.entries.length = 1) :
      Faulting m i .stackUnderflow m.pop.2.pop.2
  | outOfRange (jumps : m.Jumps i) (before : m.ip.displace i.slots[1] = .ok none) :
      Faulting m i (.jumpOutOfRange m.ip i.slots[1]) m.peek.2

/-- The work of the instruction ends in a verdict, and leaves a machine behind. -/
inductive Ends (m : Machine) (i : Instruction) : Verdict → Machine → Prop
  | proceed {m' : Machine} : Ends m i .proceed m'
  | jump {target : Address} (jumps : m.Jumps i)
      (lands : m.ip.displace i.slots[1] = .ok (some target)) : Ends m i (.jump target) m.peek.2
  | halt (opcode : i.opcode = .halt) : Ends m i .halt m
  | fault {f : Fault} {m' : Machine} (h : m.Faulting i f m') : Ends m i (.fault f) m'
  | unreadable {t : Trap} (opcode : i.opcode = .ihalt) (spelled : i.spelledFault = .error t) :
      Ends m i (.trap t) m
  | baseless {t : Trap} (jumps : m.Jumps i) (overflows : m.ip.displace i.slots[1] = .error t) :
      Ends m i (.trap t) m.peek.2

/-! ## The parts of an instruction -/

section

variable {m : Machine} {P : Verdict → Machine → Prop} {use : Word → Machine → Work}

theorem pushing_endsAs {v : Word} (room : m.stack.entries.length < 256 → P .proceed (m.push v))
    (full : m.stack.entries.length = 256 → P (.fault .stackOverflow) (m.push v)) :
    (m.pushing v).EndsAs P := by
  have hcap := m.stack.length_entries_le
  rw [pushing_eq]
  split
  · next hroom => exact room hroom
  · exact full (by omega)

theorem taking_endsAs {m' : Machine}
    (empty : m.stack.entries = [] → P (.fault .stackUnderflow) m')
    (live : ∀ v, m.stack.entries.getLast? = some v → (use v m').EndsAs P) :
    Work.EndsAs (match m.stack.entries.getLast? with
      | none => ⟨m', .fault .stackUnderflow, []⟩
      | some v => use v m') P := by
  split
  · next hnone => exact empty (List.getLast?_eq_none_iff.mp hnone)
  · next v hsome => exact live v hsome

theorem popping_endsAs (empty : m.stack.entries = [] → P (.fault .stackUnderflow) m.pop.2)
    (live : ∀ v, m.stack.entries.getLast? = some v → (use v m.pop.2).EndsAs P) :
    (m.popping use).EndsAs P := by
  rw [popping_eq]
  exact taking_endsAs empty live

theorem peeking_endsAs (empty : m.stack.entries = [] → P (.fault .stackUnderflow) m.peek.2)
    (live : ∀ v, m.stack.entries.getLast? = some v → (use v m.peek.2).EndsAs P) :
    (m.peeking use).EndsAs P := by
  rw [peeking_eq]
  exact taking_endsAs empty live

theorem naming_endsAs {op : Opcode} {w : Word} {use : Register → Work}
    (bad : Register.ofCode? w = none → P (.fault (.invalidRegister op w)) m)
    (named : ∀ r, w = Register.code r → (use r).EndsAs P) : (m.naming op w use).EndsAs P := by
  unfold naming
  split
  · next r hr => exact named r (Register.ofCode?_eq_some_iff.mp hr).symm
  · next hnone => exact bad hnone

theorem jumping_endsAs {offset : Word}
    (lands : ∀ target, m.ip.displace offset = .ok (some target) → P (.jump target) m)
    (before : m.ip.displace offset = .ok none → P (.fault (.jumpOutOfRange m.ip offset)) m)
    (overflows : ∀ t, m.ip.displace offset = .error t → P (.trap t) m) :
    (m.jumping offset).EndsAs P := by
  unfold jumping
  split
  · next target h => exact lands target h
  · next h => exact before h
  · next t h => exact overflows t h

theorem faulting_first {i : Instruction}
    (kind : i.opcode.operandKinds[0]? = some OperandKind.register)
    (bad : Register.ofCode? i.slots[0] = none) :
    m.Faulting i (.invalidRegister i.opcode i.slots[0]) m := by
  refine .noRegister ⟨0, kind, by simp, Register.ofCode?_eq_none_iff.mp bad, ?_⟩
  intro j hj
  exact absurd hj (Nat.not_lt_zero j)

theorem faulting_second {i : Instruction} {r : Register}
    (kind : i.opcode.operandKinds[1]? = some OperandKind.register) (good : i.slots[0] = r.code)
    (bad : Register.ofCode? i.slots[1] = none) :
    m.Faulting i (.invalidRegister i.opcode i.slots[1]) m := by
  refine .noRegister ⟨1, kind, by simp, Register.ofCode?_eq_none_iff.mp bad, ?_⟩
  intro j hj _
  obtain rfl : j = 0 := by omega
  exact ⟨r, by simp [← good]⟩

end

/-! ## The instructions -/

theorem add_ends (m : Machine) {i : Instruction} (hop : i.opcode = .add) :
    (m.popping fun v m => m.popping fun w m => m.pushing (v + w)).EndsAs (m.Ends i) := by
  refine popping_endsAs (fun empty => .fault (.nothingToPop (.inr (.inr hop)) empty)) ?_
  intro v hlive
  refine popping_endsAs ?_ ?_
  · intro hempty
    have hpos := List.length_pos_of_mem (List.mem_of_getLast? hlive)
    have hlen := congrArg List.length hempty
    rw [pop_stack, Stack.entries_pop, List.length_dropLast, List.length_nil] at hlen
    exact .fault (.nothingToAdd hop (by omega))
  · -- Two words have made room for the sum.
    intro w _
    refine pushing_endsAs (fun _ => .proceed) ?_
    intro hfull
    have hcap := m.stack.length_entries_le
    rw [pop_stack, Stack.entries_pop, pop_stack, Stack.entries_pop, List.length_dropLast,
      List.length_dropLast] at hfull
    omega

theorem rjne_ends (m : Machine) {i : Instruction} (hop : i.opcode = .rjne) {r : Register}
    (hr : i.slots[0] = r.code) :
    (m.peeking fun top m => if m.register r = top then ⟨m, .proceed, []⟩
      else m.jumping i.slots[1]).EndsAs (m.Ends i) := by
  refine peeking_endsAs (fun empty => .fault (.nothingToSee hop empty)) ?_
  intro top htop
  split
  · exact .proceed
  · next hne =>
    have jumps : m.Jumps i := ⟨hop, r, top, hr, htop, hne⟩
    exact jumping_endsAs (fun _ lands => .jump jumps lands)
      (fun before => .fault (.outOfRange jumps before)) fun _ overflows => .baseless jumps overflows

/-- **What each verdict means.** -/
theorem perform_ends (m : Machine) (i : Instruction) : (m.perform i).EndsAs (m.Ends i) := by
  have first (hkind : i.opcode.operandKinds[0]? = some OperandKind.register)
      (bad : Register.ofCode? i.slots[0] = none) :
      m.Ends i (.fault (.invalidRegister i.opcode i.slots[0])) m :=
    .fault (faulting_first hkind bad)
  unfold perform
  cases hop : i.opcode with
  | nop => exact .proceed
  | halt => exact .halt hop
  | push =>
      refine pushing_endsAs (fun _ => .proceed) ?_
      intro full
      exact .fault (.full (.inl hop) full)
  | pop =>
      refine popping_endsAs (fun empty => .fault (.nothingToPop (.inl hop) empty)) ?_
      intro v _
      exact .proceed
  | set =>
      refine naming_endsAs (hop ▸ first (by simp [hop, Opcode.operandKinds])) ?_
      intro r _
      refine popping_endsAs (fun empty => .fault (.nothingToPop (.inr (.inl hop)) empty)) ?_
      intro v _
      exact .proceed
  | add => exact m.add_ends hop
  | radd =>
      refine naming_endsAs (hop ▸ first (by simp [hop, Opcode.operandKinds])) ?_
      intro r hr
      refine naming_endsAs ?_ ?_
      · intro bad
        exact hop ▸ .fault (faulting_second (by simp [hop, Opcode.operandKinds]) hr bad)
      · intro s _
        refine pushing_endsAs (fun _ => .proceed) ?_
        intro full
        exact .fault (.full (.inr hop) full)
  | rdec =>
      refine naming_endsAs (hop ▸ first (by simp [hop, Opcode.operandKinds])) ?_
      intro r _
      exact .proceed
  | rjne =>
      refine naming_endsAs (hop ▸ first (by simp [hop, Opcode.operandKinds])) ?_
      intro r hr
      exact m.rjne_ends hop hr
  | ihalt =>
      dsimp only
      split
      · next f hf => exact .fault (.carried hop hf)
      · next t ht => exact .unreadable hop ht

/-! ## What follows from a verdict -/

section

variable {m : Machine} {i : Instruction}

theorem faulting_of_verdict {f : Fault} (h : (m.perform i).verdict = .fault f) :
    m.Faulting i f (m.perform i).machine := by
  have hends : m.Ends i (m.perform i).verdict (m.perform i).machine := m.perform_ends i
  rw [h] at hends
  cases hends with
  | fault hfault => exact hfault

/-- **Only an** `rjne` **jumps**, and only if it has to. -/
theorem jumps_of_verdict {target : Address} (h : (m.perform i).verdict = .jump target) :
    m.Jumps i ∧ m.ip.displace i.slots[1] = .ok (some target) := by
  have hends : m.Ends i (m.perform i).verdict (m.perform i).machine := m.perform_ends i
  rw [h] at hends
  generalize (m.perform i).machine = m' at hends
  cases hends with
  | jump jumps lands => exact ⟨jumps, lands⟩

theorem halt_of_verdict (h : (m.perform i).verdict = .halt) : i.opcode = .halt := by
  have hends : m.Ends i (m.perform i).verdict (m.perform i).machine := m.perform_ends i
  rw [h] at hends
  generalize (m.perform i).machine = m' at hends
  cases hends with
  | halt opcode => exact opcode

theorem conclude_leads {next : Address} {w : Work} (done : (conclude next w).trap = none)
    (running : (conclude next w).machine.halted = false) :
    (conclude next w).machine.ip = next ∨ w.verdict = .jump (conclude next w).machine.ip := by
  have hgoes := (conclude_running running).1
  unfold conclude at done running ⊢
  cases hv : w.verdict with
  | proceed => exact Or.inl (by simp [moveTo, hgoes])
  | jump target => exact Or.inr (by simp [moveTo, hgoes])
  | halt => simp [hv, halt] at running
  | fault f => simp [hv, faultWith] at running
  | trap t => simp [hv] at done

theorem execute_leads (done : (m.execute i).trap = none)
    (running : (m.execute i).machine.halted = false) :
    (m.execute i).machine.ip.toNat = m.ip.toNat + i.count.toNat + 1 ∨
      (m.Jumps i ∧ m.ip.displace i.slots[1] = .ok (some (m.execute i).machine.ip)) := by
  obtain ⟨next, hpast, hexecute⟩ := exists_execute_eq done
  rw [hexecute] at done running ⊢
  rcases conclude_leads done running with hnext | hjump
  · left
    rw [hnext]
    exact hpast
  · exact Or.inr (jumps_of_verdict hjump)

/-- **Only a** `halt` **ends a run well**, and every one does. -/
theorem outcome_step_eq_halted_iff (running : m.halted = false) (record : m.fault = none)
    (done : m.step.trap = none) :
    m.step.machine.outcome = some .halted ↔ (m.program.decode m.ip).opcode = .halt := by
  rw [step_of_running running] at done ⊢
  generalize m.program.decode m.ip = i at done ⊢
  obtain ⟨next, -, hexecute⟩ := exists_execute_eq done
  simp only [hexecute, conclude] at done ⊢
  constructor
  · intro hout
    cases hv : (m.perform i).verdict with
    | halt => exact halt_of_verdict hv
    | proceed | jump target =>
        have hgoes := (m.perform_unmoved i).halted.trans running
        simp [hv, outcome_eq_halted_iff, hgoes] at hout
    | fault f => simp [hv] at hout
    | trap t => simp [hv] at done
  · intro hop
    have hwork : m.perform i = ⟨m, .halt, []⟩ := by simp [perform, hop]
    simp [hwork, outcome_eq_halted_iff, halt, record]

end

end Machine

end Wordcode
