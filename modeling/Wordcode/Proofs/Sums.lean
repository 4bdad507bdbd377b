import Wordcode.Proofs.Course
import Wordcode.Proofs.Likeness.Relocation

/-!
# Sums, operands first

A sum of literals and registers is worked out on the stack by code that puts the operands first and
the `add` last (`Expression.code`). The right operand is worked out on top of the value of the left
one, so a sum that leans to the right takes up more of the stack than one that leans to the left:
`Expression.need` says how much.

With that much room on the stack, the code does what it is written for: it takes a cycle for each
node, and all that it leaves behind is the sum, wrapped around to the width of a word. Without, the
run ends on the first summand that finds the stack full (`Expression.FirstFull`). `Machine.steps_sum`
says both, of code of any size in the midst of any program.
-/

namespace Wordcode

/-! ## Sums and their code -/

/-- What can be pushed in order to be added. -/
inductive Summand where
  | literal (v : Word)
  | registers (r s : Register)
deriving DecidableEq, Repr

namespace Summand

def command : Summand → Command
  | literal v => .push v
  | registers r s => .radd r s

/-- The value of a summand as an integer, where `file` is what the registers hold. -/
def value (file : Register → Word) : Summand → Int
  | literal v => v.toInt
  | registers r s => (file r).toInt + (file s).toInt

theorem obey_command (x : Summand) (s : Ideal) (next : Nat) :
    s.obey next x.command = s.push (Int32.ofInt (x.value s.registers)) next := by
  cases x <;> simp [command, value, Ideal.obey, Int32.ofInt_add]

end Summand

/-- A sum, with all its brackets. -/
inductive Expression where
  | leaf (x : Summand)
  | plus (left right : Expression)
deriving DecidableEq, Repr

namespace Expression

/-- The commands that work out a sum. -/
def commands : Expression → List Command
  | leaf x => [x.command]
  | plus l r => l.commands ++ r.commands ++ [.add]

def code : Expression → List Word
  | leaf x => x.command.words
  | plus l r => l.code ++ r.code ++ [Opcode.add.code]

def nodes : Expression → Nat
  | leaf _ => 1
  | plus l r => l.nodes + r.nodes + 1

/-- How many more words there are at times on the stack. -/
def need : Expression → Nat
  | leaf _ => 1
  | plus l r => max l.need (1 + r.need)

/-- The sum over the integers. -/
def sum (file : Register → Word) : Expression → Int
  | leaf x => x.value file
  | plus l r => l.sum file + r.sum file

/-- The summand `x` stands `offset` words into the code of a sum. When its turn comes, the values of
`held` left operands are waiting on the stack. -/
inductive Has : Expression → (offset held : Nat) → Summand → Prop
  | leaf (x : Summand) : (leaf x).Has 0 0 x
  | left {l r : Expression} {o k : Nat} {x : Summand} (h : l.Has o k x) : (plus l r).Has o k x
  | right {l r : Expression} {o k : Nat} {x : Summand} (h : r.Has o k x) :
      (plus l r).Has (l.code.length + o) (k + 1) x

/-- With `depth` words on the stack to begin with, the summand at `offset` is the first one of `e` that
finds the stack full. -/
structure FirstFull (e : Expression) (depth offset : Nat) : Prop where
  full : ∃ held x, e.Has offset held x ∧ depth + held = 256
  room_before : ∀ {o held x}, e.Has o held x → o < offset → depth + held < 256

variable {l r e : Expression} {x : Summand} {depth o k : Nat}

theorem length_commands (e : Expression) : e.commands.length = e.nodes := by
  induction e with
  | leaf x => rfl
  | plus l r ihl ihr => simp [commands, nodes, ihl, ihr, Nat.add_assoc]

theorem halt_notMem_commands (e : Expression) : .halt ∉ e.commands := by
  induction e with
  | leaf x => cases x <;> simp [commands, Summand.command]
  | plus l r ihl ihr => simp [commands, ihl, ihr]

/-! ### The first summand that finds the stack full -/

theorem Has.offset_lt (h : e.Has o k x) : o < e.code.length := by
  induction h with
  | leaf x => exact Nat.succ_pos _
  | left _ ih | right _ ih => simp only [code, List.length_append]; omega

theorem Has.held_lt (h : e.Has o k x) : k < e.need := by
  induction h with
  | leaf x => exact Nat.one_pos
  | left _ ih | right _ ih => simp only [need]; omega

theorem FirstFull.leaf (x : Summand) : (leaf x).FirstFull 256 0 where
  full := ⟨0, x, .leaf x, rfl⟩
  room_before _ ho := absurd ho (Nat.not_lt_zero _)

theorem FirstFull.left (h : l.FirstFull depth o) : (plus l r).FirstFull depth o := by
  obtain ⟨held, x, hx, hfull⟩ := h.full
  refine ⟨⟨held, x, hx.left, hfull⟩, ?_⟩
  intro o' held' y hy ho
  cases hy with
  | left hy => exact h.room_before hy ho
  | right hy =>
      -- The whole code of the right operand comes later.
      have := hx.offset_lt
      omega

theorem FirstFull.right (room : depth + l.need ≤ 256) (h : r.FirstFull (depth + 1) o) :
    (plus l r).FirstFull depth (l.code.length + o) := by
  obtain ⟨held, x, hx, hfull⟩ := h.full
  refine ⟨⟨held + 1, x, hx.right, by omega⟩, ?_⟩
  intro o' held' y hy ho
  cases hy with
  | left hy =>
      have := hy.held_lt
      omega
  | right hy =>
      have := h.room_before hy (by omega)
      omega

end Expression

/-! ## Working a sum out -/

/-- An `add` takes back two pushes. -/
theorem Ideal.obey_add_pushed {s : Ideal} {v w : Word} {a b next : Nat}
    (h : s.stack.length < 256) (h' : ((s.pushed w h).goto a).stack.length < 256) :
    ((((s.pushed w h).goto a).pushed v h').goto b).obey next .add =
      ((s.pushed (w + v) h).goto next, []) := by
  let t := (((s.pushed w h).goto a).pushed v h').goto b
  have htop : t.stack.getLast? = some v := by simp [t]
  have hsecond : t.popped.stack.getLast? = some w := by simp [t]
  have hrest : t.popped.popped = s.goto b := Ideal.ext rfl (by simp [t]) rfl rfl
  show t.take _ = _
  rw [take_of_getLast? htop, take_of_getLast? hsecond, hrest, push_of_room (s := s.goto b) h,
    Int32.add_comm]
  rfl

/-- The run from `s` on has ended in `s'`, `offset` words further, for want of room on the stack. -/
structure Ideal.Overflown (s s' : Ideal) (offset : Nat) : Prop where
  outcome : s'.outcome = some (.faulted .stackOverflow)
  ip : s'.ip = s.ip + offset
  full : s'.stack.length = 256
  registers : s'.registers = s.registers
  kept : s.stack <+: s'.stack

/-- A run that went on past a push has come that much further. -/
theorem Ideal.Overflown.of_pushed {s s' : Ideal} {v : Word} {h : s.stack.length < 256} {k o : Nat}
    (hend : ((s.pushed v h).goto (s.ip + k)).Overflown s' o) : s.Overflown s' (k + o) where
  outcome := hend.outcome
  ip := hend.ip.trans (Nat.add_assoc s.ip k o)
  full := hend.full
  registers := hend.registers
  kept := (List.prefix_append s.stack [v]).trans hend.kept

namespace Expression

variable {p : Program} {s : Ideal}

/-- With enough room on the stack, a sum is worked out. -/
theorem course (e : Expression) (running : s.outcome = none)
    (written : e.code <+: p.toList.drop s.ip) (room : s.stack.length + e.need ≤ 256) :
    ∃ h : s.stack.length < 256, Ideal.Course p s e.commands []
      ((s.pushed (Int32.ofInt (e.sum s.registers)) h).goto (s.ip + e.code.length)) := by
  induction e generalizing s with
  | leaf x =>
      have h : s.stack.length < 256 := room
      refine ⟨h, .one running written ?_⟩
      rw [x.obey_command, Ideal.push_of_room h]
      rfl
  | plus l r ihl ihr =>
      have hneed : (plus l r).need = max l.need (1 + r.need) := rfl
      obtain ⟨hoperands, hadd⟩ := Program.written_append written
      obtain ⟨hl, hr⟩ := Program.written_append hoperands
      obtain ⟨h, left⟩ := ihl running hl (by omega)
      let t := (s.pushed (Int32.ofInt (l.sum s.registers)) h).goto (s.ip + l.code.length)
      have hlen : t.stack.length = s.stack.length + 1 := by simp [t]
      obtain ⟨h', right⟩ := ihr (s := t) running hr (by omega)
      rw [List.length_append, ← Nat.add_assoc] at hadd
      have hend : s.ip + (plus l r).code.length = s.ip + l.code.length + r.code.length + 1 := by
        simp [code, Nat.add_assoc]
      refine ⟨h, (left.append right).append (.one running hadd ?_)⟩
      rw [Ideal.obey_add_pushed, ← Int32.ofInt_add, hend]
      rfl

/-- Without, the course ends where the stack is found full. -/
theorem course_overflow (e : Expression) (running : s.outcome = none)
    (written : e.code <+: p.toList.drop s.ip) (full : 256 < s.stack.length + e.need) :
    ∃ o cs s', e.FirstFull s.stack.length o ∧ cs <+: e.commands ∧
      Ideal.Course p s cs [.faulted .stackOverflow] s' ∧ s.Overflown s' o := by
  induction e generalizing s with
  | leaf x =>
      have hbounded := s.bounded
      have hdepth : s.stack.length = 256 := Nat.le_antisymm hbounded (Nat.lt_succ_iff.mp full)
      refine ⟨0, [x.command], (s.fail .stackOverflow).1, hdepth ▸ .leaf x, List.prefix_rfl,
        .one running written ?_, rfl, rfl, hdepth, rfl, List.prefix_rfl⟩
      rw [x.obey_command, Ideal.push_of_full (by omega)]
      rfl
  | plus l r ihl ihr =>
      have hneed : (plus l r).need = max l.need (1 + r.need) := rfl
      obtain ⟨hoperands, -⟩ := Program.written_append written
      obtain ⟨hl, hr⟩ := Program.written_append hoperands
      by_cases room : s.stack.length + l.need ≤ 256
      · -- The left operand is worked out, and the right one has to make do with what is left.
        obtain ⟨h, left⟩ := l.course running hl room
        let t := (s.pushed (Int32.ofInt (l.sum s.registers)) h).goto (s.ip + l.code.length)
        have hlen : t.stack.length = s.stack.length + 1 := by simp [t]
        obtain ⟨o, cs, s', hfirst, hcs, right, hend⟩ := ihr (s := t) running hr (by omega)
        refine ⟨l.code.length + o, l.commands ++ cs, s', .right room (hlen ▸ hfirst), ?_,
          left.append right, hend.of_pushed⟩
        rw [commands, List.append_assoc]
        exact (List.prefix_append_right_inj _).mpr (hcs.trans (List.prefix_append _ _))
      · obtain ⟨o, cs, s', hfirst, hcs, left, hend⟩ := ihl running hl (by omega)
        refine ⟨o, cs, s', hfirst.left, ?_, left, hend⟩
        rw [commands, List.append_assoc]
        exact hcs.trans (List.prefix_append _ _)

end Expression

namespace Machine

/-- **Code works out its sum.** Let a running machine stand at the front of the code of `e`, wherever
that is in a program. If there is room for it on the stack, then after as many cycles as `e` has
nodes, the machine is running and stands behind the code; the sum, as a word, is on the stack on top
of what was there before, the registers are as they were, and nothing was reported. If there is not,
the run ends in a stack overflow, on the first summand that found the stack full; the registers are as
they were then, too, and so are the words that were on the stack in the beginning. -/
theorem steps_sum {q s : Program} {e : Expression} {m : Machine}
    (program : m.program = q ++ e.code.toArray ++ s) (size : m.program.size ≤ Program.maxSize)
    (running : m.halted = false) (front : m.ip.toNat = q.size) :
    (m.stack.depth + e.need ≤ 256 →
      let t := steps e.nodes m
      t.trap = none ∧ t.signals = [] ∧ t.machine.halted = false ∧
        t.machine.ip.toNat = q.size + e.code.length ∧ t.machine.registers = m.registers ∧
        t.machine.stack.entries = m.stack.entries ++ [Int32.ofInt (e.sum m.register)]) ∧
    (256 < m.stack.depth + e.need →
      ∃ n ≤ e.nodes, ∃ offset, m.HaltsAfter n ∧ e.FirstFull m.stack.depth offset ∧
        let t := steps n m
        t.trap = none ∧ t.signals = [.faulted .stackOverflow] ∧
          t.machine.outcome = some (.faulted .stackOverflow) ∧
          t.machine.ip.toNat = q.size + offset ∧ t.machine.stack.depth = 256 ∧
          t.machine.registers = m.registers ∧ m.stack.entries <+: t.machine.stack.entries) := by
  have written : e.code <+: m.program.toList.drop m.ideal.ip := by
    rw [ideal_ip, front, program]
    exact ⟨s.toList, (Program.drop_relocate q s (Nat.zero_le _)).symm⟩
  have hout : m.ideal.outcome = none := outcome_eq_none_iff.mpr running
  have hdepth : m.ideal.stack.length = m.stack.depth := m.stack.length_entries
  rw [← hdepth]
  constructor
  · intro room
    obtain ⟨h, hcourse⟩ := e.course hout written room
    have hrun := hcourse.followed rfl rfl size fun hc => absurd hc e.halt_notMem_commands
    have hdone := e.length_commands ▸ hrun.realises
    have hmachine := hdone.machine
    refine ⟨hdone.trap, hdone.signals, ?_, ?_, registers_eq_of_ideal ?_,
      congrArg Ideal.stack hmachine⟩
    · exact outcome_eq_none_iff.mp ((congrArg Ideal.outcome hmachine).trans hout)
    · rw [← ideal_ip, hmachine, ← front]
      rfl
    · rw [hmachine]
      rfl
  · intro full
    obtain ⟨offset, cs, s', hfirst, hcs, hcourse, hend⟩ := e.course_overflow hout written full
    have hrun := hcourse.followed rfl rfl size fun hc =>
      absurd (hcs.subset hc) e.halt_notMem_commands
    have hmachine := hrun.realises.machine
    have stopped : s'.outcome ≠ none := by simp [hend.outcome]
    refine ⟨cs.length, e.length_commands ▸ hcs.length_le, offset, hrun.haltsAfter stopped, hfirst,
      hrun.realises.trap, hrun.realises.signals, ?_, ?_, ?_, registers_eq_of_ideal ?_, ?_⟩
    · rw [← ideal_outcome, hmachine, hend.outcome]
    · rw [← ideal_ip, hmachine, hend.ip, ideal_ip, front]
    · rw [← Stack.length_entries, ← ideal_stack, hmachine, hend.full]
    · rw [hmachine]
      exact hend.registers
    · rw [← ideal_stack, ← ideal_stack, hmachine]
      exact hend.kept

/-- `2147483647 + ((a + b) + 1)`, with 1 in register `a`, between a `nop` and a `halt`: the sum wraps
around. With 254 words on the stack, the last summand finds it full. -/
theorem steps_sum_wraps_around :
    let e : Expression :=
      .plus (.leaf (.literal 2147483647)) (.plus (.leaf (.registers .a .b)) (.leaf (.literal 1)))
    let m := { (load (#[0] ++ e.code.toArray ++ #[8])).setRegister .a 1 with ip := 1 }
    let crowded : Stack := { Stack.empty with top := 253, top_ge := by decide, top_lt := by decide }
    let m' := { m with stack := crowded }
    m.program.size ≤ Program.maxSize ∧ m.halted = false ∧ m.ip.toNat = (#[0] : Program).size ∧
      m.stack.depth + e.need ≤ 256 ∧ (steps 5 m).machine.stack.entries = [-2147483647] ∧
      256 < m'.stack.depth + e.need ∧
      ∃ n ≤ 5, m'.HaltsAfter n ∧
        (steps n m').machine.outcome = some (.faulted .stackOverflow) ∧
        (steps n m').machine.ip.toNat = 1 + 5 := by
  intro e m crowded m'
  have size : m.program.size ≤ Program.maxSize := by decide
  have room : m.stack.depth + e.need ≤ 256 := by decide
  have full : 256 < m'.stack.depth + e.need := by decide
  have nodes : e.nodes = 5 := rfl
  have sum : m.stack.entries ++ [Int32.ofInt (e.sum m.register)] = [-2147483647] := by decide
  obtain ⟨fits, -⟩ := steps_sum (q := #[0]) (s := #[8]) (e := e) (m := m) rfl size rfl rfl
  obtain ⟨-, overflows⟩ := steps_sum (q := #[0]) (s := #[8]) (e := e) (m := m') rfl size rfl rfl
  obtain ⟨-, -, -, -, -, hentries⟩ := fits room
  obtain ⟨n, hn, offset, hhalts, hfirst, -, -, hout, hip, -⟩ := overflows full
  have hoffset : offset = 5 := by
    obtain ⟨held, x, hx, hfull⟩ := hfirst.full
    obtain rfl : held = 2 := Nat.add_left_cancel hfull
    simp only [e] at hx
    rcases hx with _ | hx | hx
    · cases hx
    · rcases hx with _ | hx | hx <;> cases hx
      rfl
  rw [nodes] at hentries hn
  rw [hoffset] at hip
  exact ⟨size, rfl, rfl, room, hentries.trans sum, full, n, hn, hhalts, hout, hip⟩

end Machine

end Wordcode
