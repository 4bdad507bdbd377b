import Wordcode.Fault
import Wordcode.Proofs.Text

/-!
# Faults are known by their messages

A message is a sentence for people, but nothing is lost in it: different faults have different messages
(`Fault.message_inj`), whatever opcodes, words and positions they come with. What tells them apart is
the words of the message, `Fault.phrase`: the first three of them give away the kind, and each detail
is a word of its own, perhaps with punctuation around it.
-/

namespace Wordcode

namespace Fault

/-- The words of a fault's message. -/
def phrase : Fault → List String
  | unknown =>
    ["Unknown", "error", "(the", "interpreter", "halted", "without", "recording", "a", "reason)"]
  | explicitIHalt =>
    ["IHALT", "instructions", "are", "not", "allowed", "in", "the", "bytecode", "stream"]
  | missingOpcode => ["Bytecode", "terminates", "without", "a", "HALT", "opcode"]
  | missingParameter op =>
    ["Opcode", "(" ++ op.mnemonic ++ ")", "requires", "more", "parameters", "than", "are", "available",
      "in", "the", "bytecode", "stream"]
  | stackOverflow => ["Stack", "overflow"]
  | stackUnderflow => ["Stack", "underflow"]
  | invalidOpcode value =>
    ["Value", Decimal.ofInt value.toInt, "is", "not", "a", "valid", "opcode"]
  | invalidRegister op value =>
    ["Opcode", "(" ++ op.mnemonic ++ ")", "refers", "to", "register",
      Decimal.ofInt value.toInt ++ ",", "which", "does", "not", "exist"]
  | jumpOutOfRange source offset =>
    ["RJNE", "at", Decimal.ofNat source.toNat, "jumps", "by", Decimal.ofInt offset.toInt ++ ",",
      "before", "the", "start", "of", "the", "bytecode", "stream"]

theorem message_eq (f : Fault) : f.message = unwords f.phrase := by
  rw [← String.toList_inj, unwords, String.toList_intercalate]
  cases f <;> simp [message, phrase]

theorem isWord_phrase (f : Fault) : ∀ w ∈ f.phrase, IsWord w := by
  have hcomma : ∀ i : Int, IsWord (Decimal.ofInt i ++ ",") :=
    fun i => isWord_append (Decimal.isWord_ofInt i) (by decide)
  have hbracketed : ∀ op : Opcode, IsWord ("(" ++ op.mnemonic ++ ")") :=
    fun op => isWord_append (isWord_append (by decide) op.isWord_mnemonic) (by decide)
  cases f with
  | unknown | explicitIHalt | missingOpcode | stackOverflow | stackUnderflow => decide
  | missingParameter op => simp +decide [phrase, hbracketed]
  | invalidOpcode v => simp +decide [phrase, Decimal.isWord_ofInt]
  | invalidRegister op v => simp +decide [phrase, hbracketed, hcomma]
  | jumpOutOfRange source offset => simp +decide [phrase, Decimal.isWord_ofNat, hcomma]

theorem phrase_inj {f g : Fault} (h : f.phrase = g.phrase) : f = g := by
  cases f <;> cases g <;>
    simp_all [phrase, Opcode.mnemonic_inj, Decimal.ofInt_inj, Decimal.ofNat_inj, Int32.toInt_inj,
      UInt64.toNat_inj]

/-- **Faults are known by their messages.** -/
theorem message_inj {f g : Fault} : f.message = g.message ↔ f = g := by
  refine ⟨fun h => ?_, congrArg message⟩
  rw [message_eq, message_eq] at h
  exact phrase_inj (unwords_inj f.isWord_phrase g.isWord_phrase h)

end Fault

end Wordcode
