import Mathlib.Tactic.ByContra
import Wordcode.Proofs.Refinement
import Wordcode.Proofs.Reports

/-!
# Two machines side by side

Much of what matters about the machine is about *two* runs: that moving a program, or putting other
words under its stack, or changing what it never reads, makes no difference. Each of these says that
two machines which are alike in some respects stay alike in these respects, cycle by cycle, and
report the same.

A `Likeness` lists the respects, and two machines that agree in all of them are `Machine.Alike`. By
default it asks for everything to be the same; each use loosens the one respect that it is about.
The simulation is then proved once, from the stack operations up (`Alike.perform`, `Alike.execute`,
`Alike.step`, `Alike.steps_of_step`).

## What can tell two alike machines apart

* The instruction, if it adds or compares a register in which they differ, or if the places it leads
  to do not fit into 64 bits on the machine that stands farther on: `Likeness.Admits`.
* The outcome, if the first machine finds its stack empty, or comes close to filling it, while the
  second has more words below; or if it jumps to before the start: `Likeness.Spares`.
-/

namespace Wordcode

/-- How a second machine is like a first one. -/
structure Likeness where
  /-- How much farther on the second machine stands. -/
  shift : Nat := 0
  /-- What the second machine has on its stack below the words of the first. -/
  base : List Word := []
  /-- The registers that hold the same. -/
  registers : Register → Prop := fun _ => True
  overflow : Prop := True
  underflow : Prop := True
  fault : Prop := True

/-- The machine `m'` is like `m`. Nothing is said about their programs. -/
structure Machine.Alike (l : Likeness) (m m' : Machine) : Prop where
  ip : m'.ip.toNat = l.shift + m.ip.toNat
  halted : m'.halted = m.halted
  fault : l.fault → m'.fault = m.fault
  entries : m'.stack.entries = l.base ++ m.stack.entries
  overflow : l.overflow → m'.stack.overflow = m.stack.overflow
  underflow : l.underflow → m'.stack.underflow = m.stack.underflow
  registers : ∀ r, l.registers r → m'.register r = m.register r

/-- The verdict `v'` is `v`, a jump leading `shift` words farther on. -/
inductive Verdict.Shifted (shift : Nat) : Verdict → Verdict → Prop
  | proceed : Shifted shift .proceed .proceed
  | jump {target target' : Address} (h : target'.toNat = shift + target.toNat) :
      Shifted shift (.jump target) (.jump target')
  | halt : Shifted shift .halt .halt
  | fault (f : Fault) : Shifted shift (.fault f) (.fault f)
  | trap (t : Trap) : Shifted shift (.trap t) (.trap t)

structure Work.Alike (l : Likeness) (w w' : Work) : Prop where
  machine : w.machine.Alike l w'.machine
  verdict : w.verdict.Shifted l.shift w'.verdict
  events : w'.events = w.events

structure Transition.Alike (l : Likeness) (t t' : Transition) : Prop where
  machine : t.machine.Alike l t'.machine
  reports : t'.reports = t.reports
  trap : t'.trap = t.trap

/-- The instruction adds the register to another, or compares it. -/
inductive Instruction.Consults (i : Instruction) (r : Register) : Prop
  | added (opcode : i.opcode = .radd) (operand : i.slots[0] = r.code ∨ i.slots[1] = r.code)
  | compared (opcode : i.opcode = .rjne) (operand : i.slots[0] = r.code)

namespace Likeness

/-- The instruction can be carried out on `m'`, like on a machine that `m'` is like, as far as can be
told beforehand. -/
structure Admits (l : Likeness) (m' : Machine) (i : Instruction) : Prop where
  registers : ∀ r, i.Consults r → l.registers r
  past : l.shift = 0 ∨ m'.ip.toNat + i.count.toNat + 1 < UInt64.size
  jump : i.opcode = .rjne → l.shift = 0 ∨ m'.ip.toNat + 2 ^ 31 ≤ 2 ^ 63

/-- What has become of the first machine would have become of the second as well; `faulted` says of a
fault that this is what stopped it. -/
structure Spares (l : Likeness) (m : Machine) (faulted : Fault → Prop) : Prop where
  found : faulted .stackUnderflow → l.base = []
  room : m.stack.entries.length + l.base.length ≤ 256
  range : ∀ source offset, faulted (.jumpOutOfRange source offset) → l.shift = 0

end Likeness

def Work.Spared (l : Likeness) (w : Work) : Prop := l.Spares w.machine (w.verdict = .fault ·)

def Transition.Spared (l : Likeness) (t : Transition) : Prop := l.Spares t.machine (· ∈ t.faults)

/-! ## Calls on the stack -/

namespace StackCall

variable {base held : List Word} {c : StackCall}

/-- A call that is not turned down because of what is below does not touch what is below. -/
theorem effect_append (h : c.refused (base ++ held) = c.refused held) :
    c.effect (base ++ held) = base ++ c.effect held := by
  cases c with
  | peek => rfl
  | push v =>
      simp only [refused, effect, decide_eq_decide] at h ⊢
      by_cases hfull : held.length = 256
      · rw [if_pos hfull, if_pos (h.mpr hfull)]
      · rw [if_neg hfull, if_neg (mt h.mp hfull), List.append_assoc]
  | pop =>
      rcases List.eq_nil_or_concat held with rfl | ⟨held, v, rfl⟩
      · obtain rfl : base = [] := by simpa [refused] using h
        rfl
      · simp [effect, ← List.append_assoc]

theorem answer_append (h : c.refused (base ++ held) = c.refused held) :
    c.answer (base ++ held) = c.answer held := by
  cases c with
  | push v => rfl
  | pop | peek =>
      rcases List.eq_nil_or_concat held with rfl | ⟨held, v, rfl⟩
      · obtain rfl : base = [] := by simpa [refused] using h
        rfl
      · simp [answer, ← List.append_assoc]

end StackCall

namespace Machine

theorem call_registers (m : Machine) (c : StackCall) : (m.call c).2.registers = m.registers := by
  cases c <;> rfl

namespace Alike

variable {l : Likeness} {m m' : Machine}

/-- The stack operations keep machines alike, if both machines turn them down or neither does. -/
theorem call (h : m.Alike l m') {c : StackCall}
    (hc : c.refused m'.stack.entries = c.refused m.stack.entries) :
    (m'.call c).1 = (m.call c).1 ∧ (m.call c).2.Alike l (m'.call c).2 := by
  have hbelow := h.entries ▸ hc
  have hm := m.call_unmoved c
  have hm' := m'.call_unmoved c
  refine ⟨?_, ?_, ?_, ?_, ?_, ?_, ?_, ?_⟩
  · rw [call_answer, call_answer, h.entries, StackCall.answer_append hbelow]
  · rw [hm.ip, hm'.ip, h.ip]
  · rw [hm.halted, hm'.halted, h.halted]
  · intro known
    rw [hm.fault, hm'.fault, h.fault known]
  · rw [call_entries, call_entries, h.entries, StackCall.effect_append hbelow]
  · intro known
    rw [call_overflow, call_overflow, hc, h.overflow known]
  · intro known
    rw [call_underflow, call_underflow, hc, h.underflow known]
  · intro r known
    show (m'.call c).2.registers.read r = (m.call c).2.registers.read r
    rw [call_registers, call_registers]
    exact h.registers r known

theorem setRegister (h : m.Alike l m') {r : Register} {v v' : Word} (hv : l.registers r → v' = v) :
    (m.setRegister r v).Alike l (m'.setRegister r v') :=
  { h with
    registers := by
      intro q known
      show (m'.registers.write r v').read q = (m.registers.write r v).read q
      rw [RegisterFile.read_write, RegisterFile.read_write]
      by_cases hq : r = q
      · subst hq
        rw [if_pos rfl, if_pos rfl, hv known]
      · rw [if_neg hq, if_neg hq]
        exact h.registers q known }

theorem moveTo (h : m.Alike l m') {target target' : Address}
    (ht : target'.toNat = l.shift + target.toNat) :
    (m.moveTo target).Alike l (m'.moveTo target') := by
  unfold Machine.moveTo
  by_cases hh : m.halted = true
  · rw [if_pos hh, if_pos (h.halted.trans hh)]
    exact h
  · rw [if_neg hh, if_neg (by rwa [h.halted])]
    exact { h with ip := ht }

/-! ## The parts of an instruction's work -/

theorem pushing (h : m.Alike l m') {v : Word} (hw : (m.pushing v).Spared l) :
    (m.pushing v).Alike l (m'.pushing v) := by
  have hmachine : (m.pushing v).machine = m.push v := by
    rw [pushing_eq]
    split <;> rfl
  have hpushed : (m.push v).stack.entries =
      if m.stack.entries.length = 256 then m.stack.entries else m.stack.entries ++ [v] :=
    m.call_entries (.push v)
  have hroom := hw.room
  rw [hmachine, hpushed] at hroom
  have hlen : m'.stack.entries.length = l.base.length + m.stack.entries.length := by
    rw [h.entries, List.length_append]
  have hcap := m'.ideal.bounded
  -- A word that just fits on the first stack needs all the room that the second one has.
  have hfull : m'.stack.entries.length = 256 ↔ m.stack.entries.length = 256 := by
    split at hroom
    · omega
    · rw [List.length_append, List.length_singleton] at hroom
      omega
  obtain ⟨-, hpush⟩ := h.call (c := .push v) (by simpa [StackCall.refused] using hfull)
  rw [ideal_stack] at hcap
  rw [pushing_eq, pushing_eq]
  by_cases hlt : m.stack.entries.length < 256
  · rw [if_pos hlt, if_pos (by omega)]
    exact ⟨hpush, .proceed, rfl⟩
  · rw [if_neg hlt, if_neg (by omega)]
    exact ⟨hpush, .fault _, rfl⟩

theorem getLast?_entries (h : m.Alike l m') (hw : m.stack.entries.getLast? = none → l.base = []) :
    m'.stack.entries.getLast? = m.stack.entries.getLast? := by
  cases hlast : m.stack.entries.getLast? with
  | some v =>
      rw [h.entries, List.getLast?_append, hlast]
      rfl
  | none => rw [h.entries, hw hlast, List.nil_append, hlast]

theorem taking (h : m.Alike l m') {c : StackCall} (hc : c.isPush = false)
    {use use' : Word → Machine → Work}
    (hw : (match m.stack.entries.getLast? with
      | none => (⟨(m.call c).2, .fault .stackUnderflow, []⟩ : Work)
      | some v => use v (m.call c).2).Spared l)
    (huse : ∀ v, (use v (m.call c).2).Spared l → (m.call c).2.Alike l (m'.call c).2 →
      (use v (m.call c).2).Alike l (use' v (m'.call c).2)) :
    (match m.stack.entries.getLast? with
      | none => (⟨(m.call c).2, .fault .stackUnderflow, []⟩ : Work)
      | some v => use v (m.call c).2).Alike l
    (match m'.stack.entries.getLast? with
      | none => (⟨(m'.call c).2, .fault .stackUnderflow, []⟩ : Work)
      | some v => use' v (m'.call c).2) := by
  have hlast : m'.stack.entries.getLast? = m.stack.entries.getLast? := by
    apply h.getLast?_entries
    intro hnone
    rw [hnone] at hw
    exact hw.found rfl
  have hrefused : c.refused m'.stack.entries = c.refused m.stack.entries := by
    cases c with
    | push v => cases hc
    | pop | peek =>
        show m'.stack.entries.isEmpty = m.stack.entries.isEmpty
        rw [Bool.eq_iff_iff, List.isEmpty_iff, List.isEmpty_iff, ← List.getLast?_eq_none_iff,
          ← List.getLast?_eq_none_iff, hlast]
  obtain ⟨-, halike⟩ := h.call hrefused
  rw [hlast]
  cases hm : m.stack.entries.getLast? with
  | none => exact ⟨halike, .fault _, rfl⟩
  | some v =>
      rw [hm] at hw
      exact huse v hw halike

theorem popping (h : m.Alike l m') {use use' : Word → Machine → Work}
    (hw : (m.popping use).Spared l)
    (huse : ∀ v, (use v m.pop.2).Spared l → m.pop.2.Alike l m'.pop.2 →
      (use v m.pop.2).Alike l (use' v m'.pop.2)) :
    (m.popping use).Alike l (m'.popping use') := by
  rw [popping_eq] at hw
  rw [popping_eq, popping_eq]
  exact h.taking (c := .pop) rfl hw huse

theorem peeking (h : m.Alike l m') {use use' : Word → Machine → Work}
    (hw : (m.peeking use).Spared l)
    (huse : ∀ v, (use v m.peek.2).Spared l → m.peek.2.Alike l m'.peek.2 →
      (use v m.peek.2).Alike l (use' v m'.peek.2)) :
    (m.peeking use).Alike l (m'.peeking use') := by
  rw [peeking_eq] at hw
  rw [peeking_eq, peeking_eq]
  exact h.taking (c := .peek) rfl hw huse

theorem naming (h : m.Alike l m') {op : Opcode} {w : Word} {use use' : Register → Work}
    (hw : (m.naming op w use).Spared l)
    (huse : ∀ r, w = r.code → (use r).Spared l → (use r).Alike l (use' r)) :
    (m.naming op w use).Alike l (m'.naming op w use') := by
  unfold Machine.naming at hw ⊢
  cases hr : Register.ofCode? w with
  | none => exact ⟨h, .fault _, rfl⟩
  | some r =>
      rw [hr] at hw
      exact huse r (Register.ofCode?_eq_some_iff.mp hr).symm hw

theorem jumping (h : m.Alike l m') {offset : Word}
    (low : l.shift = 0 ∨ m'.ip.toNat + 2 ^ 31 ≤ 2 ^ 63) (hw : (m.jumping offset).Spared l) :
    (m.jumping offset).Alike l (m'.jumping offset) := by
  have hip := h.ip
  unfold Machine.jumping at hw ⊢
  by_cases hshift : l.shift = 0
  · obtain hsame : m'.ip = m.ip := UInt64.toNat_inj.mp (by omega)
    rw [hsame]
    split
    · exact ⟨h, .jump (by omega), rfl⟩
    · exact ⟨h, .fault _, rfl⟩
    · exact ⟨h, .trap _, rfl⟩
  · -- The first machine does not jump to before the start, and the second stands farther on.
    have low' := low.resolve_left hshift
    have hstart : 0 ≤ (m.ip.toNat : Int) + offset.toInt := by
      by_contra hneg
      rw [Address.displace_eq (by omega), if_pos (by omega)] at hw
      exact hshift (hw.range _ _ rfl)
    obtain ⟨target, hjump, htarget⟩ := Address.displace_eq_some (by omega) offset hstart
    obtain ⟨target', hjump', htarget'⟩ := Address.displace_eq_some low' offset (by omega)
    rw [hjump, hjump']
    exact ⟨h, .jump (by omega), rfl⟩

/-! ## Instructions -/

theorem perform (h : m.Alike l m') {i : Instruction} (hi : l.Admits m' i)
    (hw : (m.perform i).Spared l) : (m.perform i).Alike l (m'.perform i) := by
  have hreads := hi.registers
  unfold Machine.perform at hw ⊢
  cases hop : i.opcode with
  | nop => exact ⟨h, .proceed, rfl⟩
  | halt => exact ⟨h, .halt, rfl⟩
  | push =>
      rw [hop] at hw
      exact h.pushing hw
  | pop =>
      rw [hop] at hw
      apply h.popping hw
      intro v _ h₁
      exact ⟨h₁, .proceed, rfl⟩
  | set =>
      rw [hop] at hw
      apply h.naming hw
      intro r _ hw₁
      apply h.popping hw₁
      intro v _ h₂
      exact ⟨h₂.setRegister fun _ => rfl, .proceed, rfl⟩
  | add =>
      rw [hop] at hw
      apply h.popping hw
      intro v hw₁ h₁
      apply h₁.popping hw₁
      intro w hw₂ h₂
      exact h₂.pushing hw₂
  | radd =>
      rw [hop] at hw
      apply h.naming hw
      intro r hr hw₁
      apply h.naming hw₁
      intro s hs hw₂
      have hrs : m'.register r + m'.register s = m.register r + m.register s := by
        rw [h.registers r (hreads r (.added hop (.inl hr))),
          h.registers s (hreads s (.added hop (.inr hs)))]
      rw [hrs]
      exact h.pushing hw₂
  | rdec =>
      rw [hop] at hw
      apply h.naming hw
      intro r _ _
      refine ⟨h.setRegister ?_, .proceed, rfl⟩
      intro known
      rw [h.registers r known]
  | rjne =>
      rw [hop] at hw
      apply h.naming hw
      intro r hr hw₁
      apply h.peeking hw₁
      intro top hw₂ h₂
      have hsame := h₂.registers r (hreads r (.compared hop hr))
      rw [hsame]
      by_cases heq : m.peek.2.register r = top
      · rw [if_pos heq, if_pos heq]
        exact ⟨h₂, .proceed, rfl⟩
      · rw [if_neg heq] at hw₂
        rw [if_neg heq, if_neg heq]
        exact h₂.jumping (hi.jump hop) hw₂
  | ihalt =>
      dsimp only
      split
      · exact ⟨h, .fault _, rfl⟩
      · exact ⟨h, .trap _, rfl⟩

theorem conclude {w w' : Work} (h : w.Alike l w') {next next' : Address}
    (hnext : next'.toNat = l.shift + next.toNat) :
    (Machine.conclude next w).Alike l (Machine.conclude next' w') := by
  obtain ⟨m, v, es⟩ := w
  obtain ⟨m', v', es'⟩ := w'
  obtain ⟨hm, hv, hes⟩ := h
  obtain rfl : es' = es := hes
  cases hv with
  | proceed => exact ⟨hm.moveTo hnext, rfl, rfl⟩
  | jump htarget => exact ⟨hm.moveTo htarget, rfl, rfl⟩
  | halt => exact ⟨{ hm with halted := rfl }, rfl, rfl⟩
  | fault f => exact ⟨{ hm with halted := rfl, fault := fun _ => rfl }, rfl, rfl⟩
  | trap t => exact ⟨hm, rfl, rfl⟩

theorem spared_of_conclude {w : Work} {next : Address}
    (hfaults : w.events.filterMap Event.fault? = []) (h : (Machine.conclude next w).Spared l) :
    w.Spared l := by
  have hmem : ∀ f, w.verdict = .fault f → f ∈ (Machine.conclude next w).faults := by
    intro f hf
    rw [faults_conclude hfaults, hf]
    exact List.mem_singleton_self f
  refine ⟨fun hf => h.found (hmem _ hf), ?_, fun source offset hf => h.range _ _ (hmem _ hf)⟩
  rw [← conclude_stack next w]
  exact h.room

theorem execute (h : m.Alike l m') {i : Instruction} (hi : l.Admits m' i)
    (ht : (m.execute i).Spared l) : (m.execute i).Alike l (m'.execute i) := by
  have hip := h.ip
  unfold Machine.execute at ht ⊢
  cases hpast : m.ip.past? i.count with
  | none =>
      -- Then the second machine cannot go on either: it stands no nearer to the start.
      have hpast' : m'.ip.past? i.count = none := by
        rw [Address.past?, Address.ofNat?_eq_none_iff] at hpast ⊢
        omega
      rw [hpast']
      exact ⟨h, rfl, rfl⟩
  | some next =>
      have hnext := Address.ofNat?_eq_some_iff.mp hpast
      obtain ⟨next', hpast', hnext'⟩ : ∃ next', m'.ip.past? i.count = some next' ∧
          next'.toNat = m'.ip.toNat + i.count.toNat + 1 := by
        apply Address.past?_eq_some
        have := next.toNat_lt_size
        rcases hi.past with hshift | hlow
        · omega
        · exact hlow
      rw [hpast] at ht
      rw [hpast']
      have hw : (m.perform i).Spared l := spared_of_conclude (m.perform_told i).faults ht
      exact conclude (h.perform hi hw) (by omega)

/-! ## Cycles and runs -/

/-- **One cycle** of two machines that are alike, if they decode the same. -/
theorem step (h : m.Alike l m')
    (hdecode : m.halted = false → m'.program.decode m'.ip = m.program.decode m.ip)
    (hi : m.halted = false → l.Admits m' (m.program.decode m.ip)) (ht : m.step.Spared l) :
    m.step.Alike l m'.step := by
  cases hh : m.halted with
  | true =>
      rw [step_of_halted hh, step_of_halted (h.halted.trans hh)]
      exact ⟨h, rfl, rfl⟩
  | false =>
      have hh' : m'.halted = false := h.halted.trans hh
      have hstep : m.step = { m.execute (m.program.decode m.ip) with
          events := .decoded m (m.program.decode m.ip) ::
            (m.execute (m.program.decode m.ip)).events } := by
        simp [Machine.step, hh]
      have hstep' : m'.step = { m'.execute (m.program.decode m.ip) with
          events := .decoded m' (m.program.decode m.ip) ::
            (m'.execute (m.program.decode m.ip)).events } := by
        simp [Machine.step, hh', hdecode hh]
      rw [hstep] at ht
      obtain ⟨hmachine, hreports, htrap⟩ := h.execute (hi hh) ⟨ht.found, ht.room, ht.range⟩
      rw [hstep, hstep']
      exact ⟨hmachine, congrArg (Report.decoded (m.program.decode m.ip) :: ·) hreports, htrap⟩

theorem andThen {t t' : Transition} (h : t.Alike l t') {next : Machine → Transition}
    (hnext : t.trap = none → (next t.machine).Alike l (next t'.machine)) :
    (t.andThen next).Alike l (t'.andThen next) := by
  by_cases htrap : t.trap = none
  · rw [Transition.andThen_of_trap_eq_none htrap,
      Transition.andThen_of_trap_eq_none (h.trap.trans htrap)]
    obtain ⟨hmachine, hreports, htrap'⟩ := hnext htrap
    refine ⟨hmachine, ?_, htrap'⟩
    show (t'.events ++ _).map Event.report = (t.events ++ _).map Event.report
    rw [List.map_append, List.map_append]
    exact congrArg₂ (· ++ ·) h.reports hreports
  · rw [Transition.andThen_of_trap_ne_none htrap,
      Transition.andThen_of_trap_ne_none (h.trap ▸ htrap)]
    exact h

/-- **Any number of cycles** of two machines, if each of them keeps the machines alike. -/
theorem steps_of_step (h : m.Alike l m') (n : Nat)
    (hstep : ∀ k < n, (steps k m).trap = none →
      (steps k m).machine.Alike l (steps k m').machine →
        (steps k m).machine.step.Alike l (steps k m').machine.step) :
    (steps n m).Alike l (steps n m') := by
  induction n with
  | zero => exact ⟨h, rfl, rfl⟩
  | succ n ih =>
      have hrun := ih fun k hk => hstep k (Nat.lt_succ_of_lt hk)
      rw [steps_succ_last, steps_succ_last]
      apply andThen hrun
      intro htrap
      exact hstep n (Nat.lt_succ_self n) htrap hrun.machine

/-- Two machines at the same place of the same program decode the same, and only registers that are
consulted, or words below the first stack, can make a difference. -/
theorem step_of_program (h : m.Alike l m') (hp : m'.program = m.program) (hshift : l.shift = 0)
    (hreads : m.halted = false → ∀ r, (m.program.decode m.ip).Consults r → l.registers r)
    (hspared : m.step.Spared l) : m.step.Alike l m'.step := by
  have hip : m'.ip = m.ip := by
    apply UInt64.toNat_inj.mp
    rw [h.ip, hshift, Nat.zero_add]
  apply h.step
  · intro _
    rw [hip, hp]
  · intro running
    exact ⟨hreads running, .inl hshift, fun _ => .inl hshift⟩
  · exact hspared

theorem steps_of_program (h : m.Alike l m') (hp : m'.program = m.program) (hshift : l.shift = 0)
    (n : Nat)
    (hreads : ∀ k < n, ∀ r, ((steps k m).machine.program.decode (steps k m).machine.ip).Consults r →
      l.registers r)
    (hspared : ∀ k < n, (steps k m).trap = none → (steps k m).machine.step.Spared l) :
    (steps n m).Alike l (steps n m') := by
  apply h.steps_of_step
  intro k hk htrap halike
  have hprogram : (steps k m').machine.program = (steps k m).machine.program := by
    rw [program_steps, program_steps, hp]
  exact halike.step_of_program hprogram hshift (fun _ => hreads k hk) (hspared k hk htrap)

end Alike

/-! ## Runs complete

That a cycle completes has nothing to do with the fault on record. A healthy machine has none while
it is running; but any machine is like the one whose record has been cleared, faults aside, and that
one is healthy as soon as addresses suffice for it. -/

/-- The program is no longer than a program can be, and the machine stands in the lower half of the
address space. -/
structure Addressable (m : Machine) : Prop where
  size_le : m.program.size ≤ Program.maxSize
  ip_lt : m.ip.toNat < 2 ^ 63

def cleared (m : Machine) : Machine := { m with fault := none }

theorem cleared_alike (m : Machine) : m.cleared.Alike { fault := False } m where
  ip := (Nat.zero_add _).symm
  halted := rfl
  fault := False.elim
  entries := rfl
  overflow := fun _ => rfl
  underflow := fun _ => rfl
  registers := fun _ _ => rfl

theorem steps_cleared_alike (m : Machine) (n : Nat) :
    (steps n m.cleared).Alike { fault := False } (steps n m) := by
  apply m.cleared_alike.steps_of_program rfl rfl
  · intro k _ r _
    trivial
  · intro k _ _
    exact ⟨fun _ => rfl, (steps k m.cleared).machine.step.machine.ideal.bounded, fun _ _ _ => rfl⟩

theorem Addressable.healthy_cleared {m : Machine} (h : m.Addressable) : m.cleared.Healthy :=
  ⟨h.size_le, h.ip_lt, fun _ => rfl⟩

theorem Addressable.trap_steps {m : Machine} (h : m.Addressable) (n : Nat) :
    (steps n m).trap = none :=
  (steps_cleared_alike m n).trap.trans (steps_realise h.healthy_cleared n).trap

theorem addressable_steps {m : Machine} (h : m.Addressable) (n : Nat) :
    (steps n m).machine.Addressable where
  size_le := by
    rw [program_steps]
    exact h.size_le
  ip_lt := by
    rw [(steps_cleared_alike m n).machine.ip, Nat.zero_add]
    exact (healthy_steps h.healthy_cleared n).ip_lt

end Machine

end Wordcode
