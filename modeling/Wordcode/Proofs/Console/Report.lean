import Wordcode.Console.Report
import Wordcode.Proofs.Fault.Message

/-!
# What a report says

The final state is printed as text in three lines: the registers, the stack, and the tag that says how
the run came to its end. Each of these can be read back. The registers stand in a line of words, the
stack is numbers with commas between them, and a tag has the budget in it, or the message of a fault —
and faults are known by their messages. So whoever has seen the lines knows all of what they are about
(`reportLines_inj`).

A script will hardly read all that. It looks for a line, and the lines that it looks for are tags:
nothing but the tag of a report can be taken for one (`mem_reportLines`).
-/

namespace Wordcode

namespace Console

/-- What a run has come to, as it is told to a script. -/
inductive Result where
  | halted
  | faulted (f : Fault)
  | overBudget (maxSteps : UInt64)
deriving DecidableEq

/-- What a run with this budget has come to. -/
def Result.of (maxSteps : UInt64) : Option Outcome → Result
  | some .halted => halted
  | some (.faulted f) => faulted f
  | none => overBudget maxSteps

/-! ## Registers -/

theorem registersLine_eq (registers : RegisterFile) :
    registersLine registers = unwords ("registers:" ::
      Register.all.map fun r => r.name ++ "=" ++ Decimal.ofInt (registers.read r).toInt) := by
  rw [Register.all, List.map_cons, unwords_cons_cons]
  rfl

theorem isWord_registersLine (registers : RegisterFile) :
    ∀ w ∈ "registers:" ::
      Register.all.map fun r => r.name ++ "=" ++ Decimal.ofInt (registers.read r).toInt,
    IsWord w := by
  intro w hw
  rcases List.mem_cons.mp hw with rfl | hw
  · decide
  · obtain ⟨r, -, rfl⟩ := List.mem_map.mp hw
    exact isWord_append (isWord_append r.isWord_name (by decide)) (Decimal.isWord_ofInt _)

theorem registersLine_inj {x y : RegisterFile} : registersLine x = registersLine y ↔ x = y := by
  refine ⟨fun h => ?_, congrArg registersLine⟩
  rw [registersLine_eq, registersLine_eq] at h
  have hwords := (List.cons.inj (unwords_inj (isWord_registersLine x) (isWord_registersLine y) h)).2
  apply RegisterFile.ext_read
  intro r
  have hword := List.map_inj_left.mp hwords r (by cases r <;> decide)
  simpa [Decimal.ofInt_inj, Int32.toInt_inj] using hword

/-! ## The stack -/

theorem stackLine_inj {xs ys : List Word} : stackLine xs = stackLine ys ↔ xs = ys := by
  refine ⟨fun h => ?_, congrArg stackLine⟩
  have hpiece : ∀ ws : List Word, ∀ x ∈ ws.map fun w => (Decimal.ofInt w.toInt).toList,
      x ≠ [] ∧ ',' ∉ x := by
    intro ws x hx
    obtain ⟨w, -, rfl⟩ := List.mem_map.mp hx
    exact ⟨by simp [Decimal.ofInt_ne_empty], Decimal.notMem_ofInt (by decide) _⟩
  have hchars : [',', ' '].intercalate (xs.map fun w => (Decimal.ofInt w.toInt).toList) =
      [',', ' '].intercalate (ys.map fun w => (Decimal.ofInt w.toInt).toList) := by
    have htext := congrArg String.toList h
    simpa [stackLine, bracketed, String.toList_intercalate, Function.comp_def] using htext
  apply List.map_injective_iff.mpr _ (intercalate_inj (hpiece xs) (hpiece ys) hchars)
  intro v w hvw
  exact Int32.toInt_inj.mp (Decimal.ofInt_inj.mp (String.toList_inj.mp hvw))

theorem newline_notMem_stackLine (ws : List Word) : '\n' ∉ (stackLine ws).toList := by
  have hnumbers : '\n' ∉ [',', ' '].intercalate (ws.map fun w => (Decimal.ofInt w.toInt).toList) := by
    apply notMem_intercalate (by decide)
    intro x hx
    obtain ⟨w, -, rfl⟩ := List.mem_map.mp hx
    exact Decimal.notMem_ofInt (by decide) _
  simpa [stackLine, bracketed, String.toList_intercalate, Function.comp_def] using hnumbers

/-! ## Tags -/

section

variable {maxSteps : UInt64} {outcome : Option Outcome}

/-- The name in a tag tells the outcomes apart, and what stands behind it tells the rest. -/
theorem tag_eq_ok_iff : tag maxSteps outcome = "[VM:OK]" ↔ outcome = some .halted := by
  rcases outcome with _ | _ | f
  · simp [tag, ← String.toList_inj]
  · simp [tag]
  · simp [tag, ← String.toList_inj]

theorem tag_eq_ihalt_iff {t : String} :
    tag maxSteps outcome = "[VM:IHALT:" ++ t ++ "]" ↔
      ∃ f, outcome = some (.faulted f) ∧ f.message = t := by
  rcases outcome with _ | _ | f
  · simp [tag, ← String.toList_inj]
  · simp [tag, ← String.toList_inj]
  · simp [tag]

theorem tag_eq_limit_iff {m : Nat} :
    tag maxSteps outcome = "[VM:LIMIT:" ++ Decimal.ofNat m ++ "]" ↔
      outcome = none ∧ maxSteps.toNat = m := by
  rcases outcome with _ | _ | f
  · simp [tag, Decimal.ofNat_inj]
  · simp [tag, ← String.toList_inj]
  · simp [tag, ← String.toList_inj]

end

/-- Tags are known by what the run has come to, and the other way round. -/
theorem tag_inj {m m' : UInt64} {o o' : Option Outcome} :
    tag m o = tag m' o' ↔ Result.of m o = Result.of m' o' := by
  rcases o' with _ | _ | f
  · refine tag_eq_limit_iff.trans ?_
    rcases o with _ | _ | g <;> simp [Result.of, UInt64.toNat_inj]
  · refine tag_eq_ok_iff.trans ?_
    rcases o with _ | _ | g <;> simp [Result.of]
  · refine tag_eq_ihalt_iff.trans ?_
    rcases o with _ | _ | g <;> simp [Result.of, Fault.message_inj]

theorem newline_notMem_tag (m : UInt64) (o : Option Outcome) : '\n' ∉ (tag m o).toList := by
  rcases o with _ | _ | f
  · simpa [tag] using (Decimal.isWord_ofNat m.toNat).newline
  · simp [tag]
  · have hmessage := newline_notMem_unwords f.isWord_phrase
    rw [← f.message_eq] at hmessage
    simpa [tag] using hmessage

/-! ## Reports -/

def reportLines (maxSteps : UInt64) (s : Snapshot) : List String :=
  [registersLine s.registers, stackLine s.stack, tag maxSteps s.outcome]

theorem newline_notMem_reportLines (maxSteps : UInt64) (s : Snapshot) :
    ∀ l ∈ reportLines maxSteps s, '\n' ∉ l.toList := by
  have hregisters := newline_notMem_unwords (isWord_registersLine s.registers)
  rw [← registersLine_eq] at hregisters
  simp [reportLines, hregisters, newline_notMem_stackLine, newline_notMem_tag]

/-- **A report can be read back.** -/
theorem reportLines_inj {m m' : UInt64} {s s' : Snapshot} :
    reportLines m s = reportLines m' s' ↔
      s.registers = s'.registers ∧ s.stack = s'.stack ∧
        Result.of m s.outcome = Result.of m' s'.outcome := by
  simp [reportLines, registersLine_inj, stackLine_inj, tag_inj]

/-- Of the lines of a report only the tag begins with a bracket. -/
theorem mem_reportLines {m : UInt64} {s : Snapshot} {l : String} (h : l.toList.head? = some '[') :
    l ∈ reportLines m s ↔ tag m s.outcome = l := by
  have hregisters : l ≠ registersLine s.registers := by
    rintro rfl
    simp [registersLine] at h
  have hstack : l ≠ stackLine s.stack := by
    rintro rfl
    simp [stackLine] at h
  simp [reportLines, hregisters, hstack, eq_comm]

end Console

end Wordcode
