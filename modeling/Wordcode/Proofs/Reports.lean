import Wordcode.Proofs.Execution
import Wordcode.Proofs.Runs

/-!
# What is reported of an instruction

An `Event` of decoding carries the whole machine that decoded, so that an onlooker can look around.
Two runs that are compared are hardly ever on the same machine, and what can be compared of them is
the instruction: `Transition.reports` keeps that much. `Transition.faults` picks out the faults.

`Machine.perform_told` says what an instruction's work reports, whatever the instruction and the
machine: a word popped, a word stored, or nothing — and nothing ever of work that ends in a fault.
The fault itself is reported by the conclusion, once, and after everything else
(`Machine.events_conclude`).
-/

namespace Wordcode

/-- An event without the machine that it was seen on. -/
inductive Report where
  | decoded (i : Instruction)
  | popped (v : Word)
  | stored (r : Register) (v : Word)
  | faulted (f : Fault)
deriving DecidableEq

def Report.fault? : Report → Option Fault
  | decoded _ | popped _ | stored _ _ => none
  | faulted f => some f

namespace Event

def report : Event → Report
  | decoded _ i => .decoded i
  | popped v => .popped v
  | stored r v => .stored r v
  | faulted f => .faulted f

/-- The fault that is reported, if it is one. -/
def fault? : Event → Option Fault
  | decoded _ _ | popped _ | stored _ _ => none
  | faulted f => some f

def instruction? : Event → Option Instruction
  | decoded _ i => some i
  | popped _ | stored _ _ | faulted _ => none

end Event

namespace Transition

/-- What was reported, in order, whichever machines it was seen on. -/
def reports (t : Transition) : List Report := t.events.map Event.report

/-- The faults that were reported, in order. -/
def faults (t : Transition) : List Fault := t.events.filterMap Event.fault?

def decoded (t : Transition) : List Instruction := t.events.filterMap Event.instruction?

theorem faults_eq_of_reports {t t' : Transition} (h : t'.reports = t.reports) :
    t'.faults = t.faults := by
  have hfaults : ∀ u : Transition, u.faults = u.reports.filterMap Report.fault? := by
    intro u
    unfold faults reports
    rw [List.filterMap_map]
    congr 1
    funext e
    cases e <;> rfl
  rw [hfaults, hfaults, h]

theorem mem_faults {t : Transition} {f : Fault} : f ∈ t.faults ↔ Event.faulted f ∈ t.events := by
  constructor
  · intro h
    obtain ⟨e, he, hf⟩ := List.mem_filterMap.mp h
    cases e with
    | faulted g =>
        obtain rfl : g = f := Option.some.inj hf
        exact he
    | _ => cases hf
  · intro h
    exact List.mem_filterMap.mpr ⟨_, h, rfl⟩

theorem faults_andThen_of_trap_eq_none {t : Transition} (h : t.trap = none)
    (next : Machine → Transition) :
    (t.andThen next).faults = t.faults ++ (next t.machine).faults := by
  rw [andThen_of_trap_eq_none h]
  exact List.filterMap_append

theorem decoded_andThen_of_trap_eq_none {t : Transition} (h : t.trap = none)
    (next : Machine → Transition) :
    (t.andThen next).decoded = t.decoded ++ (next t.machine).decoded := by
  rw [andThen_of_trap_eq_none h]
  exact List.filterMap_append

end Transition

/-- The program may go on, or has ended as it is meant to. -/
def Verdict.Fair : Verdict → Prop
  | .proceed | .jump _ | .halt => True
  | .fault _ | .trap _ => False

namespace Machine

/-! ## Work -/

/-- What the work `w` of an instruction `i` reports, where `m` is the machine that it is done on. -/
inductive Told (m : Machine) (i : Instruction) (w : Work) : Prop
  | stopped (verdict : ¬ w.verdict.Fair) (events : w.events = [])
  | popped (v : Word) (opcode : i.opcode = .pop) (top : m.stack.entries.getLast? = some v)
      (verdict : w.verdict.Fair) (events : w.events = [.popped v])
  | stored (r : Register) (v : Word) (opcode : i.opcode = .set) (operand : i.slots[0] = r.code)
      (top : m.stack.entries.getLast? = some v) (held : w.machine.register r = v)
      (verdict : w.verdict.Fair) (events : w.events = [.stored r v])
  | silent (not_pop : i.opcode ≠ .pop) (not_set : i.opcode ≠ .set) (verdict : w.verdict.Fair)
      (events : w.events = [])

section

variable (m : Machine)

theorem events_pushing (v : Word) : (m.pushing v).events = [] := by
  rw [pushing_eq]
  split <;> rfl

theorem events_jumping (offset : Word) : (m.jumping offset).events = [] := by
  unfold jumping
  split <;> rfl

theorem events_popping {use : Word → Machine → Work} (h : ∀ v m', (use v m').events = []) :
    (m.popping use).events = [] := by
  rw [popping_eq]
  split
  · rfl
  · exact h _ _

theorem events_peeking {use : Word → Machine → Work} (h : ∀ v m', (use v m').events = []) :
    (m.peeking use).events = [] := by
  rw [peeking_eq]
  split
  · rfl
  · exact h _ _

theorem events_naming (op : Opcode) (w : Word) {use : Register → Work}
    (h : ∀ r, (use r).events = []) : (m.naming op w use).events = [] := by
  unfold naming
  split
  · exact h _
  · rfl

/-- Only a `pop` and a `set` have something to report. -/
theorem events_perform {i : Instruction} (not_pop : i.opcode ≠ .pop) (not_set : i.opcode ≠ .set) :
    (m.perform i).events = [] := by
  unfold perform
  cases hop : i.opcode with
  | nop | halt => rfl
  | push => exact m.events_pushing _
  | pop => exact absurd hop not_pop
  | set => exact absurd hop not_set
  | add =>
      apply events_popping
      intro v m'
      apply events_popping
      intro w m''
      exact m''.events_pushing _
  | radd =>
      apply events_naming
      intro r
      apply events_naming
      intro s
      exact m.events_pushing _
  | rdec =>
      apply events_naming
      intro r
      rfl
  | rjne =>
      apply events_naming
      intro r
      apply events_peeking
      intro top m'
      split
      · rfl
      · exact m'.events_jumping _
  | ihalt =>
      dsimp only
      split <;> rfl

theorem perform_told (i : Instruction) : Told m i (m.perform i) := by
  by_cases hpop : i.opcode = .pop
  · have hwork : m.perform i = m.popping fun v m => ⟨m, .proceed, [.popped v]⟩ := by
      simp [perform, hpop]
    rw [hwork, popping_eq]
    cases htop : m.stack.entries.getLast? with
    | none => exact .stopped id rfl
    | some v => exact .popped v hpop htop trivial rfl
  by_cases hset : i.opcode = .set
  · have hwork : m.perform i = m.naming .set i.slots[0] fun r =>
        m.popping fun v m => ⟨m.setRegister r v, .proceed, [.stored r v]⟩ := by
      simp [perform, hset]
    rw [hwork, naming]
    cases hr : Register.ofCode? i.slots[0] with
    | none => exact .stopped id rfl
    | some r =>
        have hcode : i.slots[0] = r.code := (Register.ofCode?_eq_some_iff.mp hr).symm
        dsimp only
        rw [popping_eq]
        cases htop : m.stack.entries.getLast? with
        | none => exact .stopped id rfl
        | some v => exact .stored r v hset hcode htop (RegisterFile.read_write_self _ r v) trivial rfl
  have hevents := m.events_perform hpop hset
  by_cases hfair : (m.perform i).verdict.Fair
  · exact .silent hpop hset hfair hevents
  · exact .stopped hfair hevents

end

/-- Work reports words that it has popped or stored, and nothing else. -/
theorem Told.filterMap_eq_nil {m : Machine} {i : Instruction} {w : Work} (h : Told m i w)
    {α : Type} {select : Event → Option α} (popped : ∀ v, select (.popped v) = none)
    (stored : ∀ r v, select (.stored r v) = none) : w.events.filterMap select = [] := by
  cases h with
  | stopped _ events | popped _ _ _ _ events | stored _ _ _ _ _ _ _ events
  | silent _ _ _ events => simp [events, popped, stored]

theorem Told.faults {m : Machine} {i : Instruction} {w : Work} (h : Told m i w) :
    w.events.filterMap Event.fault? = [] :=
  h.filterMap_eq_nil (fun _ => rfl) fun _ _ => rfl

/-! ## Conclusions and runs -/

theorem events_conclude (next : Address) (w : Work) :
    (conclude next w).events =
      match w.verdict with
      | .fault f => w.events ++ [.faulted f]
      | _ => w.events := by
  unfold conclude
  cases w.verdict <;> rfl

theorem faults_conclude {next : Address} {w : Work} (h : w.events.filterMap Event.fault? = []) :
    (conclude next w).faults =
      match w.verdict with
      | .fault f => [f]
      | _ => [] := by
  unfold Transition.faults
  rw [events_conclude]
  cases w.verdict with
  | fault f => simp [h, Event.fault?]
  | _ => exact h

theorem decoded_execute (m : Machine) (i : Instruction) : (m.execute i).decoded = [] := by
  have hwork : (m.perform i).events.filterMap Event.instruction? = [] :=
    (m.perform_told i).filterMap_eq_nil (fun _ => rfl) fun _ _ => rfl
  unfold execute Transition.decoded
  cases m.ip.past? i.count with
  | none => rfl
  | some next =>
      rw [events_conclude]
      cases (m.perform i).verdict <;> simp [hwork, Event.instruction?]

/-- A cycle decodes the one instruction that it carries out. -/
theorem decoded_step {m : Machine} (running : m.halted = false) :
    m.step.decoded = [m.program.decode m.ip] := by
  rw [step_of_running running]
  exact congrArg (m.program.decode m.ip :: ·) (m.decoded_execute _)

/-- What is shown as decoded is what the machine that is shown with it stood on. -/
theorem decode_of_mem_steps {m before : Machine} {i : Instruction} {n : Nat}
    (h : .decoded before i ∈ (steps n m).events) : before.program.decode before.ip = i := by
  have hcycle : ∀ m : Machine, ∀ e ∈ m.step.events,
      ∀ before i, e = .decoded before i → before.program.decode before.ip = i := by
    rintro m e he before i rfl
    cases hh : m.halted with
    | true =>
        rw [step_of_halted hh] at he
        cases he
    | false =>
        rw [step_of_running hh] at he
        rcases List.mem_cons.mp he with heq | he
        · cases heq
          rfl
        · have hmem : i ∈ (m.execute (m.program.decode m.ip)).decoded :=
            List.mem_filterMap.mpr ⟨_, he, rfl⟩
          rw [decoded_execute] at hmem
          cases hmem
  exact forall_mem_events_steps hcycle n m _ h before i rfl

theorem mem_faults_steps {m : Machine} {k n : Nat} (h : k < n) (done : (steps k m).trap = none)
    {f : Fault} (hf : f ∈ (steps k m).machine.step.faults) : f ∈ (steps n m).faults :=
  Transition.mem_faults.mpr (mem_events_steps h done (Transition.mem_faults.mp hf))

end Machine

end Wordcode
