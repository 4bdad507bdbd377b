import Wordcode.Proofs.Faulting
import Wordcode.Proofs.Progress
import Wordcode.Proofs.Protocol
import Wordcode.Proofs.Stack.Usage

/-!
# The books of a run balance

What is on the stack can be told without looking at it. Every opcode has a fixed effect on the depth
(`Opcode.growth`), so it is enough to have counted the instructions that were decoded. The same counts
tell how many words an onlooker has been shown. Three things that are kept apart — what was decoded,
what was reported, and where the stack pointer is — agree after any number of cycles, loops and jumps
included: they are `Balanced`.

An instruction that faults is not in these books. It has been decoded and that is all, and it leaves
the stack as it was. The exception is an `add` that finds a single word: the word is gone, and no
instruction accounts for that (`Machine.step_of_faulted`). Since a fault is the end of a run, there is
one such instruction at most, and it is the last (`Machine.steps_load_balanced`).
-/

namespace Wordcode

/-! ## Keeping books -/

namespace Opcode

/-- By how many words an instruction makes the stack grow, if it does not fail. -/
def growth : Opcode → Int
  | push | radd => 1
  | pop | set | add => -1
  | nop | rdec | rjne | halt | ihalt => 0

/-- How many of the instructions have this opcode. -/
def tally (op : Opcode) (is : List Instruction) : Nat := (is.map Instruction.opcode).count op

@[simp] theorem tally_nil (op : Opcode) : op.tally [] = 0 := rfl

@[simp] theorem tally_append (op : Opcode) (is js : List Instruction) :
    op.tally (is ++ js) = op.tally is + op.tally js := by
  simp [tally]

@[simp] theorem tally_singleton (op : Opcode) (i : Instruction) :
    op.tally [i] = if i.opcode = op then 1 else 0 := by
  simp [tally, List.count_singleton]

end Opcode

namespace Event

def isPopped : Event → Bool
  | popped _ => true
  | decoded _ _ | stored _ _ | faulted _ => false

def isStored : Event → Bool
  | stored _ _ => true
  | decoded _ _ | popped _ | faulted _ => false

end Event

/-- The instructions `is` account for a stack that held `start` words before them and holds `finish`
after them, and for all the words that `es` reports. None of them is reserved for the machine. -/
structure Balanced (is : List Instruction) (start finish : Nat) (es : List Event) : Prop where
  depth : (finish : Int) = start + Opcode.push.tally is + Opcode.radd.tally is
    - Opcode.pop.tally is - Opcode.set.tally is - Opcode.add.tally is
  popped : es.countP Event.isPopped = Opcode.pop.tally is
  stored : es.countP Event.isStored = Opcode.set.tally is
  ihalt : Opcode.ihalt.tally is = 0

namespace Balanced

variable {is js : List Instruction} {d d' d'' : Nat} {es es' : List Event}

theorem nil (d : Nat) : Balanced [] d d [] := ⟨by simp, rfl, rfl, rfl⟩

theorem append (h : Balanced is d d' es) (h' : Balanced js d' d'' es') :
    Balanced (is ++ js) d d'' (es ++ es') where
  depth := by
    have := h.depth
    have := h'.depth
    simp only [Opcode.tally_append]
    omega
  popped := by rw [List.countP_append, h.popped, h'.popped, Opcode.tally_append]
  stored := by rw [List.countP_append, h.stored, h'.stored, Opcode.tally_append]
  ihalt := by rw [Opcode.tally_append, h.ihalt, h'.ihalt]

/-- A fault is neither a word popped nor a word stored. -/
theorem append_faulted (h : Balanced is d d' es) (m : Machine) (i : Instruction) (f : Fault) :
    Balanced is d d' (es ++ [.decoded m i, .faulted f]) where
  depth := h.depth
  popped := by simpa [Event.isPopped] using h.popped
  stored := by simpa [Event.isStored] using h.stored
  ihalt := h.ihalt

/-- The books of a single instruction. -/
theorem one {i : Instruction} (grown : (d' : Int) = d + i.opcode.growth)
    (popped : es.countP Event.isPopped = if i.opcode = .pop then 1 else 0)
    (stored : es.countP Event.isStored = if i.opcode = .set then 1 else 0)
    (not_ihalt : i.opcode ≠ .ihalt) : Balanced [i] d d' es where
  depth := by
    rw [grown]
    cases hop : i.opcode <;> simp [hop, Opcode.growth] <;> omega
  popped := by rw [popped, Opcode.tally_singleton]
  stored := by rw [stored, Opcode.tally_singleton]
  ihalt := by rw [Opcode.tally_singleton, if_neg not_ihalt]

end Balanced

/-! ## How the stack grows -/

namespace Stack

variable {s : Stack} {v : Word}

theorem depth_push (room : s.entries.length < 256) : (s.push v).depth = s.depth + 1 := by
  have hne : s.depth ≠ capacity := Nat.ne_of_lt (s.length_entries ▸ room)
  rw [← length_entries, entries_push, if_neg hne, List.length_append, length_entries]
  rfl

theorem depth_pop (live : s.entries.getLast? = some v) : s.pop.2.depth + 1 = s.depth := by
  have hpos := List.length_pos_of_mem (List.mem_of_getLast? live)
  rw [← length_entries, ← length_entries, entries_pop, List.length_dropLast]
  omega

@[simp] theorem depth_peek (s : Stack) : s.peek.2.depth = s.depth := by
  simp [depth]

end Stack

namespace Machine

/-- The work on `m` has made the stack grow by `g` words, unless it has failed. -/
def GrownBy (m : Machine) (g : Int) (v : Verdict) (m' : Machine) : Prop :=
  v.Fair → (m'.stack.depth : Int) = m.stack.depth + g

theorem grownBy_of_depth_eq {m m' : Machine} (h : m'.stack.depth = m.stack.depth) (v : Verdict) :
    m.GrownBy 0 v m' := by
  intro _
  rw [h, Int.add_zero]

section

variable (m : Machine)

theorem pushing_grows (v : Word) : (m.pushing v).EndsAs (m.GrownBy 1) := by
  refine pushing_endsAs ?_ fun _ fair => fair.elim
  intro room _
  rw [push_stack, Stack.depth_push room]
  rfl

/-- A pop takes a word off, if its word is only looked at. -/
theorem popping_grows {use : Word → Machine → Work}
    (h : ∀ v m', (use v m').machine.stack = m'.stack) :
    (m.popping use).EndsAs (m.GrownBy (-1)) := by
  refine popping_endsAs (fun _ fair => fair.elim) ?_
  intro v hv _
  have hdepth := Stack.depth_pop hv
  rw [h, pop_stack]
  omega

/-- Two words come off before their sum goes on, for which there is room. -/
theorem adding_grows :
    (m.popping fun v m => m.popping fun w m => m.pushing (v + w)).EndsAs (m.GrownBy (-1)) := by
  refine popping_endsAs (fun _ fair => fair.elim) ?_
  intro v hv
  refine popping_endsAs (fun _ fair => fair.elim) ?_
  intro w hw
  refine pushing_endsAs ?_ fun _ fair => fair.elim
  intro room _
  have hfirst := Stack.depth_pop hv
  have hsecond := Stack.depth_pop hw
  rw [pop_stack] at hsecond
  rw [push_stack, Stack.depth_push room, pop_stack, pop_stack]
  omega

theorem peeking_grows {use : Word → Machine → Work}
    (h : ∀ v m', (use v m').machine.stack = m'.stack) :
    (m.peeking use).EndsAs (m.GrownBy 0) := by
  refine peeking_endsAs (fun _ fair => fair.elim) ?_
  intro v _
  apply grownBy_of_depth_eq
  rw [h, peek_stack, Stack.depth_peek]

theorem naming_grows {op : Opcode} {w : Word} {g : Int} {use : Register → Work}
    (h : ∀ r, (use r).EndsAs (m.GrownBy g)) : (m.naming op w use).EndsAs (m.GrownBy g) :=
  naming_endsAs (fun _ fair => fair.elim) fun r _ => h r

/-- **Every opcode has a fixed effect** on the depth of the stack. -/
theorem perform_grows (i : Instruction) : (m.perform i).EndsAs (m.GrownBy i.opcode.growth) := by
  unfold perform
  cases i.opcode with
  | nop | halt => exact grownBy_of_depth_eq rfl _
  | push => exact m.pushing_grows _
  | pop => exact m.popping_grows fun _ _ => rfl
  | set =>
      apply naming_grows
      intro r
      exact m.popping_grows fun _ _ => rfl
  | add => exact m.adding_grows
  | radd =>
      apply naming_grows
      intro r
      apply naming_grows
      intro s
      exact m.pushing_grows _
  | rdec =>
      apply naming_grows
      intro r
      show m.GrownBy 0 .proceed (m.setRegister r _)
      exact grownBy_of_depth_eq rfl _
  | rjne =>
      apply naming_grows
      intro r
      apply peeking_grows
      intro top m'
      split
      · rfl
      · exact m'.jumping_stack _
  | ihalt =>
      dsimp only
      split <;> exact fun fair => fair.elim

end

theorem not_fair_of_ihalt (m : Machine) {i : Instruction} (hop : i.opcode = .ihalt) :
    ¬ (m.perform i).verdict.Fair := by
  unfold perform
  rw [hop]
  dsimp only
  split <;> exact id

/-! ## Cycles and runs -/

/-- The books of work that does not fail. -/
theorem perform_balanced {m : Machine} {i : Instruction} (fair : (m.perform i).verdict.Fair) :
    Balanced [i] m.stack.depth (m.perform i).machine.stack.depth (m.perform i).events := by
  have hgrown := m.perform_grows i fair
  have hop : i.opcode ≠ .ihalt := fun hop => m.not_fair_of_ihalt hop fair
  cases m.perform_told i with
  | stopped hunfair _ => exact absurd fair hunfair
  | popped v hpop _ _ hevents =>
      rw [hevents]
      exact .one hgrown (by simp [hpop, Event.isPopped]) (by simp [hpop, Event.isStored]) hop
  | stored r v hset _ _ _ _ hevents =>
      rw [hevents]
      exact .one hgrown (by simp [hset, Event.isPopped]) (by simp [hset, Event.isStored]) hop
  | silent hpop hset _ hevents =>
      rw [hevents]
      exact .one hgrown (by simp [hpop]) (by simp [hset]) hop

/-- **One cycle** that does not fail keeps the books. -/
theorem step_balanced {m : Machine} (running : m.halted = false) (done : m.step.trap = none)
    (sound : m.step.faults = []) :
    Balanced m.step.decoded m.stack.depth m.step.machine.stack.depth m.step.events := by
  rw [decoded_step running, step_of_running running]
  rw [step_of_running running] at done sound
  generalize m.program.decode m.ip = i at done sound ⊢
  obtain ⟨hfair, hevents, -, hstack⟩ := execute_of_faults_eq_nil done sound
  have hbooks := perform_balanced hfair
  rw [← hevents, ← hstack] at hbooks
  -- That the instruction was decoded is reported as well, but it is no word.
  exact ⟨hbooks.depth, hbooks.popped, hbooks.stored, hbooks.ihalt⟩

/-- **A run** keeps the books, on any machine, for as long as nothing fails. -/
theorem steps_balanced {m : Machine} {n : Nat} (done : (steps n m).trap = none)
    (sound : (steps n m).faults = []) :
    Balanced (steps n m).decoded m.stack.depth (steps n m).machine.stack.depth
      (steps n m).events := by
  induction n with
  | zero => exact .nil _
  | succ n ih =>
      have hdone := trap_steps_of_le (Nat.le_succ n) done
      cases hh : (steps n m).machine.halted with
      | true =>
          rw [steps_of_le_of_halted (Nat.le_succ n) hh] at sound ⊢
          exact ih hdone sound
      | false =>
          rw [steps_succ_last] at done sound ⊢
          rw [Transition.faults_andThen_of_trap_eq_none hdone, List.append_eq_nil_iff] at sound
          rw [Transition.decoded_andThen_of_trap_eq_none hdone]
          rw [Transition.andThen_of_trap_eq_none hdone] at done ⊢
          exact (ih hdone sound.1).append (step_balanced hh done sound.2)

/-! ## The instruction that fails -/

/-- A cycle that faults leaves the depth as it was, unless there was a single word for an `add`, and
reports nothing but the instruction and the fault. -/
theorem step_of_faulted {m : Machine} {f : Fault} (running : m.halted = false)
    (record : m.fault = none) (h : m.step.machine.outcome = some (.faulted f)) :
    m.step.events = [.decoded m (m.program.decode m.ip), .faulted f] ∧
      m.stack.depth = m.step.machine.stack.depth +
        if (m.program.decode m.ip).opcode = .add ∧ m.stack.depth = 1 then 1 else 0 := by
  have hrecord := (outcome_eq_faulted_iff.mp h).2
  have hevents : m.step.events = [.decoded m (m.program.decode m.ip), .faulted f] := by
    cases step_protocol running record with
    | faulted g _ hout events =>
        obtain rfl : f = g := by simpa [h] using hout
        exact events
    | popped _ _ hnone | stored _ _ _ hnone | silent _ hnone | cut _ hnone =>
        rw [hnone] at hrecord
        cases hrecord
  refine ⟨hevents, ?_⟩
  rw [step_of_running running] at hevents ⊢
  have hfaulted : Event.faulted f ∈ (m.execute (m.program.decode m.ip)).events := by
    rw [(List.cons.inj hevents).2]
    exact List.mem_singleton_self _
  have hstands := (execute_stands hfaulted).2.entries
  have hdepth := congrArg List.length hstands
  rw [Stack.length_entries, Stack.length_entries] at hdepth
  rw [hdepth]
  split
  · next hsingle => simp [hsingle.2]
  · rw [Stack.length_entries, Nat.add_zero]

/-- **The books of a run balance.** As long as the run of a program goes on, and when it has ended well,
the instructions that were decoded account for the depth of the stack and for the words that were
reported as popped and as stored, and none of these instructions was the machine's own. When the run
has ended in a fault, this is so of the instructions before the last one, which has failed; only that
there is a word less on the stack if that is an `add`, and there was a single word for it. No trap cuts
the run short if the program is no longer than a program can be. -/
theorem steps_load_balanced (p : Program) (n : Nat) :
    let run := steps n (load p)
    (p.size ≤ Program.maxSize → run.trap = none) ∧
      (run.trap = none → run.machine.outcome = none ∨ run.machine.outcome = some .halted →
        Balanced run.decoded 0 run.machine.stack.depth run.events) ∧
      ∀ f, run.machine.outcome = some (.faulted f) → ∃ k < n,
        let before := steps k (load p)
        let last := p.decode before.machine.ip
        (load p).HaltsAfter (k + 1) ∧ run.decoded = before.decoded ++ [last] ∧
          Balanced before.decoded 0
            (run.machine.stack.depth +
              if last.opcode = .add ∧ before.machine.stack.depth = 1 then 1 else 0)
            run.events := by
  intro run
  -- As long as no fault is on record, none has been reported.
  have sound (k : Nat) (record : (steps k (load p)).machine.fault = none) :
      (steps k (load p)).faults = [] := by
    rw [(steps_load_accounted p k).faults, record]
    rfl
  refine ⟨fun hp => (steps_realise (healthy_load hp) n).trap, ?_, ?_⟩
  · intro done hout
    have record : run.machine.fault = none := by
      rcases hout with hrunning | hhalted
      · exact (steps_load_accounted p n).running (outcome_eq_none_iff.mp hrunning)
      · exact (outcome_eq_halted_iff.mp hhalted).2
    exact steps_balanced done (sound n record)
  · intro f hout
    obtain ⟨k, hk, halts, done, hrun⟩ : ∃ k < n, (load p).HaltsAfter (k + 1) ∧
        (steps k (load p)).trap = none ∧ run = (steps k (load p)).andThen step :=
      exists_last_cycle rfl (outcome_eq_faulted_iff.mp hout).1
    refine ⟨k, hk, halts, ?_⟩
    have running := halts.running k (Nat.lt_succ_self k)
    have record := (steps_load_accounted p k).running running
    have hbooks : Balanced _ 0 _ _ := steps_balanced done (sound k record)
    have hprogram : (steps k (load p)).machine.program = p := program_steps (load p) k
    rw [hrun] at hout ⊢
    rw [Transition.decoded_andThen_of_trap_eq_none done, decoded_step running, hprogram]
    rw [Transition.andThen_of_trap_eq_none done] at hout ⊢
    obtain ⟨hevents, hdepth⟩ := step_of_faulted running record hout
    rw [hprogram] at hevents hdepth
    refine ⟨rfl, ?_⟩
    rw [← hdepth, hevents]
    exact hbooks.append_faulted _ _ f

/-- The run of `push 7; set a; radd a a; add`, which finds the sum alone on the stack: in the end there
is nothing left of the one word that the first three instructions account for. -/
theorem steps_load_balanced_add_single :
    let m := load #[1, 7, 3, 0, 5, 0, 0, 4]
    (steps 4 m).trap = none ∧ (steps 4 m).machine.outcome = some (.faulted .stackUnderflow) ∧
      (steps 4 m).machine.stack.depth = 0 ∧
      Balanced (steps 3 m).decoded 0 1 (steps 4 m).events := by
  intro m
  obtain ⟨htrap, -, hfaulted⟩ := steps_load_balanced #[1, 7, 3, 0, 5, 0, 0, 4] 4
  have hout : (steps 4 m).machine.outcome = some (.faulted .stackUnderflow) := by decide
  refine ⟨htrap (by decide), hout, by decide, ?_⟩
  obtain ⟨k, -, halts, -, hbooks⟩ := hfaulted _ hout
  have hthis : m.HaltsAfter 4 := ⟨by decide, by decide⟩
  obtain rfl : k = 3 := Nat.succ.inj (halts.unique hthis)
  exact hbooks

end Machine

end Wordcode
