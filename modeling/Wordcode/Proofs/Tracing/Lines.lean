import Wordcode.Proofs.Fault.Message
import Wordcode.Trace

/-!
# The lines of a trace

What a line of a trace says is a `Line`, and an operand in it an `Operand`. The text of a line is made of
words (`Line.words`), and the words give the line away: its first word tells the sort of line, names of
registers are not numbers, and a fault has words of its own. So lines are known by their words
(`Line.words_inj`), words by the text of the line, and lines by the text of the trace: the trace of any
events is as good as the list of its lines (`traceText_inj`).
-/

namespace Wordcode

/-! ## Operands -/

/-- An operand as it is shown. -/
inductive Operand where
  /-- A register, and what it holds. -/
  | register (r : Register) (held : Word)
  /-- A word that ought to be a register and is not one. -/
  | stray (w : Word)
  | literal (w : Word)
deriving DecidableEq

namespace Operand

/-- The operand that `w` is, where the opcode wants an operand of this kind. -/
def of (registers : RegisterFile) (kind : OperandKind) (w : Word) : Operand :=
  match kind, Register.ofCode? w with
  | .register, some r => .register r (registers.read r)
  | .register, none => .stray w
  | .literal, _ => .literal w

/-- Operands as they are shown. There may be more of them than the opcode takes. -/
def list (registers : RegisterFile) : List OperandKind → List Word → List Operand
  | _, [] => []
  | [], w :: ws => of registers .literal w :: list registers [] ws
  | kind :: kinds, w :: ws => of registers kind w :: list registers kinds ws

def words : Operand → List String
  | register r held => [r.name, "(" ++ Decimal.ofInt held.toInt ++ ")"]
  | stray w => ["REG_?", "(" ++ Decimal.ofInt w.toInt ++ ")"]
  | literal w => [Decimal.ofInt w.toInt]

def word : Operand → Word
  | register r _ => r.code
  | stray w | literal w => w

def held? : Operand → Option Word
  | register _ held => some held
  | stray _ | literal _ => none

end Operand

/-! ## Lines -/

/-- What a line of a trace says. -/
inductive Line where
  | instruction (op : Opcode) (operands : List Operand)
  | popped (v : Word)
  | stored (r : Register) (v : Word)
  | alarm
  | fault (f : Fault)
deriving DecidableEq

namespace Line

def words : Line → List String
  | instruction op operands => ">>>" :: op.mnemonic :: operands.flatMap Operand.words
  | popped v => ["<<POP>>", Decimal.ofInt v.toInt]
  | stored r v => ["<<SET", r.name ++ ">>", Decimal.ofInt v.toInt]
  | alarm => [">>", "***", "<<", "Invalid", "program", "detected"]
  | fault f => ">>" :: "***" :: "<<" :: f.phrase

def text : Line → String
  | instruction op operands => ">>> " ++ unwords (op.mnemonic :: operands.flatMap Operand.words)
  | popped v => "<<POP>> " ++ Decimal.ofInt v.toInt
  | stored r v => "<<SET " ++ r.name ++ ">> " ++ Decimal.ofInt v.toInt
  | alarm => ">> *** << Invalid program detected"
  | fault f => ">> *** << " ++ f.message

/-- Lines as one text, each with its end. -/
def join (ls : List Line) : String := String.join (ls.map fun l => l.text ++ "\n")

theorem join_eq (ls : List Line) : join ls = String.join ((ls.map text).map (· ++ "\n")) := by
  rw [List.map_map]
  rfl

end Line

/-! ## Traces -/

/-- What the lines say that an event adds to a trace. -/
def Event.lines : Event → List Line
  | decoded before i =>
    if i.isInternalHalt then []
    else
      match i.operands with
      | .ok ws => [.instruction i.opcode (Operand.list before.registers i.opcode.operandKinds ws)]
      | .error _ => []
  | popped v => [.popped v]
  | stored r v => [.stored r v]
  | faulted f => [.alarm, .fault f]

theorem renderOperand_eq (registers : RegisterFile) (kind : OperandKind) (w : Word) :
    Instruction.renderOperand registers kind w =
      String.join ((Operand.of registers kind w).words.map (" " ++ ·)) := by
  rw [← String.toList_inj]
  unfold Instruction.renderOperand Operand.of
  cases kind with
  | literal => simp [Operand.words]
  | register => cases Register.ofCode? w <;> simp [Operand.words]

theorem renderOperands_eq (registers : RegisterFile) (kinds : List OperandKind) (ws : List Word) :
    Instruction.renderOperands registers kinds ws =
      String.join (((Operand.list registers kinds ws).flatMap Operand.words).map (" " ++ ·)) := by
  fun_induction Operand.list registers kinds ws with
  | case1 => rfl
  | case2 w ws ih => simp [Instruction.renderOperands, renderOperand_eq, ih]
  | case3 kind kinds w ws ih => simp [Instruction.renderOperands, renderOperand_eq, ih]

theorem Instruction.render_eq {i : Instruction} (hi : i.isInternalHalt = false)
    (registers : RegisterFile) :
    i.render registers = i.operands.map fun ws => unwords (i.opcode.mnemonic ::
      (Operand.list registers i.opcode.operandKinds ws).flatMap Operand.words) := by
  unfold render
  simp only [hi, Bool.false_eq_true, if_false, unwords_cons, renderOperands_eq]

theorem Event.traceLines_eq (e : Event) : e.traceLines = e.lines.map Line.text := by
  cases e with
  | decoded before i =>
      cases hi : i.isInternalHalt with
      | true => simp [traceLines, lines, hi]
      | false =>
          rw [traceLines, lines, Instruction.render_eq hi]
          cases i.operands with
          | error t => simp [hi, Except.map]
          | ok ws => simp [hi, Except.map, Line.text]
  | popped v | stored r v | faulted f => rfl

theorem traceText_eq (es : List Event) : traceText es = Line.join (es.flatMap Event.lines) := by
  rw [traceText, Line.join_eq, List.flatMap_congr fun e _ => e.traceLines_eq, ← List.map_flatMap]

end Wordcode
