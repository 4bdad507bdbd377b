import Wordcode.Program
import Wordcode.Proofs.Fault.Words

/-!
# Commands: what a program can say

An `Instruction` has slots, a count and an opcode, any of which can be wrong. A `Command` is what is
left when nothing is: one of the nine opcodes that may be written, with a register where a register
is due. `Command.words` is how a command is written, and `Program.HasAt` says that it is written at
a position.

`Program.fetch` reads commands back, the plain way: off the list of words that begins at the
position, with no arithmetic on positions and no table of arities.

* `decode_eq_fetched` — decoding a position is fetching from it, a command being passed on as an
  instruction and a fault as the internal halt that carries it.
* `fetch_eq_ok_iff` — a command is fetched exactly where it is written.
* `fetch_eq_error_iff` — a fault is found exactly where it is true of the words at the position, and
  what it then says of them is `Program.Misspelt`.
-/

namespace Wordcode

/-! ## Codes are numbers in a row -/

theorem Word.ofNat_toNat_toInt {w : Word} (h : 0 ≤ w.toInt) : Int32.ofNat w.toInt.toNat = w := by
  rw [← Int32.ofInt_eq_ofNat, Int.toNat_of_nonneg h, Int32.ofInt_toInt]

/-- In a table whose codes are the numbers from 0 to `n`, in a row, just the words outside of that
range are not to be found. -/
theorem Word.find?_code_eq_none_iff {α : Type} (code : α → Word) {table : List α} {n : Nat}
    (codes : table.map code = (List.range (n + 1)).map Int32.ofNat) (fits : n < 2 ^ 31) {w : Word} :
    table.find? (code · = w) = none ↔ w.toInt < 0 ∨ n < w.toInt := by
  have hmem : w ∈ table.map code ↔ 0 ≤ w.toInt ∧ w.toInt ≤ n := by
    rw [codes, List.mem_map]
    constructor
    · rintro ⟨k, hk, rfl⟩
      have hlt := List.mem_range.mp hk
      rw [Int32.toInt_ofNat_of_lt (by omega)]
      omega
    · rintro ⟨hlow, hhigh⟩
      exact ⟨w.toInt.toNat, List.mem_range.mpr (by omega), Word.ofNat_toNat_toInt hlow⟩
  have hmissing : table.find? (code · = w) = none ↔ w ∉ table.map code := by
    simp [List.find?_eq_none]
  rw [hmissing, hmem]
  omega

theorem Opcode.ofCode?_eq_none_iff {w : Word} :
    ofCode? w = none ↔ w.toInt < 0 ∨ 9 < w.toInt :=
  Word.find?_code_eq_none_iff code rfl (by decide)

theorem Register.ofCode?_eq_none_iff {w : Word} :
    ofCode? w = none ↔ w.toInt < 0 ∨ 5 < w.toInt :=
  Word.find?_code_eq_none_iff code rfl (by decide)

theorem Fault.Kind.ofCode?_eq_none_iff {w : Word} :
    ofCode? w = none ↔ w.toInt < 0 ∨ 8 < w.toInt :=
  Word.find?_code_eq_none_iff code rfl (by decide)

theorem Register.code_range (r : Register) : 0 ≤ r.code.toInt ∧ r.code.toInt ≤ 5 := by
  cases r <;> decide

/-- Of the operands `ws` of an opcode, `v` is the first that has to be a register and is none. -/
def Opcode.FirstBad (op : Opcode) (ws : List Word) (v : Word) : Prop :=
  ∃ k : Nat, op.operandKinds[k]? = some OperandKind.register ∧ ws[k]? = some v ∧
    (v.toInt < 0 ∨ 5 < v.toInt) ∧
    ∀ j < k, op.operandKinds[j]? = some OperandKind.register → ∃ r : Register, ws[j]? = some r.code

/-- A word that is out of range is no register's code. -/
theorem Register.code_ne_of_range {w : Word} (h : w.toInt < 0 ∨ 5 < w.toInt) (r : Register) :
    w ≠ r.code := by
  rintro rfl
  have hnone := ofCode?_eq_none_iff.mpr h
  rw [ofCode?_code] at hnone
  cases hnone

namespace Opcode

/-- An opcode whose first operand has to be a register blames that one first of all. -/
theorem firstBad_head {op : Opcode} {w : Word} {ws : List Word}
    (hkind : op.operandKinds[0]? = some OperandKind.register) (hw : Register.ofCode? w = none) :
    op.FirstBad (w :: ws) w := by
  refine ⟨0, hkind, rfl, Register.ofCode?_eq_none_iff.mp hw, ?_⟩
  intro j hj
  exact absurd hj (Nat.not_lt_zero j)

theorem FirstBad.unique {op : Opcode} {ws : List Word} {v w : Word} (hv : op.FirstBad ws v)
    (hw : op.FirstBad ws w) : v = w := by
  obtain ⟨k, hkind, hk, hrange, hbefore⟩ := hv
  obtain ⟨k', hkind', hk', hrange', hbefore'⟩ := hw
  rcases Nat.lt_trichotomy k k' with hlt | rfl | hgt
  · obtain ⟨r, hr⟩ := hbefore' k hlt hkind
    exact absurd (Option.some.inj (hk.symm.trans hr)) (Register.code_ne_of_range hrange r)
  · exact Option.some.inj (hk.symm.trans hk')
  · obtain ⟨r, hr⟩ := hbefore k' hgt hkind'
    exact absurd (Option.some.inj (hk'.symm.trans hr)) (Register.code_ne_of_range hrange' r)

/-- The check that runs finds the first operand that is to blame. -/
theorem badRegister?_of_firstBad {op : Opcode} {ws : List Word} {v : Word}
    (h : op.FirstBad ws v) : op.badRegister? ws = some v := by
  obtain ⟨k, hkind, hk, hrange, hbefore⟩ := h
  have hzip : (op.operandKinds.zip ws)[k]? = some (OperandKind.register, v) :=
    List.getElem?_zip_eq_some.mpr ⟨hkind, hk⟩
  obtain ⟨hlt, hget⟩ := List.getElem?_eq_some_iff.mp hzip
  unfold badRegister?
  rw [List.findSome?_eq_some_iff]
  refine ⟨(op.operandKinds.zip ws).take k, (OperandKind.register, v),
    (op.operandKinds.zip ws).drop (k + 1), ?_, ?_, ?_⟩
  · rw [← hget, ← List.drop_eq_getElem_cons hlt, List.take_append_drop]
  · exact if_pos ⟨rfl, Register.ofCode?_eq_none_iff.mpr hrange⟩
  · -- Whatever stands before it is no register operand, or it is the code of one.
    rintro ⟨kind, w⟩ hmem
    obtain ⟨j, hj, hjw⟩ := List.mem_take_iff_getElem.mp hmem
    obtain ⟨hkind', hw⟩ := List.getElem?_zip_eq_some.mp (List.getElem?_eq_some_iff.mpr ⟨_, hjw⟩)
    apply if_neg
    rintro ⟨rfl, hnone⟩
    obtain ⟨r, hr⟩ := hbefore j (by omega) hkind'
    exact Register.code_ne_of_range (Register.ofCode?_eq_none_iff.mp hnone) r
      (Option.some.inj (hw.symm.trans hr))

end Opcode

/-- An instruction that may stand in a program. -/
inductive Command where
  | nop
  | push (v : Word)
  | pop
  | set (r : Register)
  | add
  | radd (r s : Register)
  | rdec (r : Register)
  | rjne (r : Register) (offset : Word)
  | halt
deriving DecidableEq, Repr

namespace Command

def opcode : Command → Opcode
  | nop => .nop
  | push _ => .push
  | pop => .pop
  | set _ => .set
  | add => .add
  | radd _ _ => .radd
  | rdec _ => .rdec
  | rjne _ _ => .rjne
  | halt => .halt

/-- The operands of a command, a register by its code. -/
def operands : Command → List Word
  | nop | pop | add | halt => []
  | push v => [v]
  | set r | rdec r => [r.code]
  | radd r s => [r.code, s.code]
  | rjne r offset => [r.code, offset]

/-- A command as it is written in a program. -/
def words (c : Command) : List Word := c.opcode.code :: c.operands

def instruction (c : Command) : Instruction := .ofOperands c.opcode c.operands

theorem length_operands (c : Command) : c.operands.length = c.opcode.arity := by
  cases c <;> rfl

theorem length_words (c : Command) : c.words.length = c.operands.length + 1 := rfl

theorem length_operands_le (c : Command) : c.operands.length ≤ 2 :=
  c.length_operands ▸ c.opcode.arity_le_two

theorem count_instruction (c : Command) : c.instruction.count.toNat = c.operands.length := by
  cases c <;> rfl

theorem take_slots_instruction (c : Command) :
    c.instruction.slots.toList.take c.operands.length = c.operands :=
  Slots.take_overwrite (Slots.fill 0) (Nat.le_trans c.length_operands_le (by decide))

theorem operands_instruction (c : Command) : c.instruction.operands = .ok c.operands := by
  have hcount := c.count_instruction
  have hle : c.instruction.count.toNat ≤ slotCount := by
    rw [hcount]
    exact Nat.le_trans c.length_operands_le (by decide)
  rw [Instruction.operands, if_pos hle, hcount, c.take_slots_instruction]

/-- Where an opcode wants a register, a command has one. -/
theorem operands_register (c : Command) {k : Nat}
    (hk : c.opcode.operandKinds[k]? = some OperandKind.register) :
    ∃ r : Register, c.operands[k]? = some r.code := by
  cases c with
  | nop | pop | add | halt => cases hk
  | push v =>
      rcases k with _ | k
      · cases hk
      · cases hk
  | set r | rdec r =>
      rcases k with _ | k
      · exact ⟨r, rfl⟩
      · cases hk
  | radd r s =>
      rcases k with _ | _ | k
      · exact ⟨r, rfl⟩
      · exact ⟨s, rfl⟩
      · cases hk
  | rjne r offset =>
      rcases k with _ | _ | k
      · exact ⟨r, rfl⟩
      · cases hk
      · cases hk

theorem not_firstBad_operands (c : Command) (v : Word) : ¬ c.opcode.FirstBad c.operands v := by
  rintro ⟨k, hkind, hk, hrange, -⟩
  obtain ⟨r, hr⟩ := c.operands_register hkind
  exact Register.code_ne_of_range hrange r (Option.some.inj (hk.symm.trans hr))

theorem badRegister?_operands (c : Command) : c.opcode.badRegister? c.operands = none := by
  cases c <;> simp [Opcode.badRegister?, Opcode.operandKinds, opcode, operands]

/-! ## Reading -/

/-- The register that an operand of `op` names. -/
def register (op : Opcode) (w : Word) : Except Fault Register :=
  match Register.ofCode? w with
  | some r => .ok r
  | none => .error (.invalidRegister op w)

/-- The command that `op` begins, where `rest` is what follows it in the program. -/
def read (op : Opcode) (rest : List Word) : Except Fault Command :=
  match op, rest with
  | .nop, _ => .ok nop
  | .push, v :: _ => .ok (push v)
  | .pop, _ => .ok pop
  | .set, w :: _ => (register .set w).map set
  | .add, _ => .ok add
  | .radd, w :: x :: _ => (register .radd w).bind fun r => (register .radd x).map (radd r)
  | .rdec, w :: _ => (register .rdec w).map rdec
  | .rjne, w :: offset :: _ => (register .rjne w).map (rjne · offset)
  | .halt, _ => .ok halt
  | .ihalt, _ => .error .explicitIHalt
  | op, _ => .error (.missingParameter op)

@[simp] theorem register_code (op : Opcode) (r : Register) : register op r.code = .ok r := by
  simp [register]

/-- A register is read off an operand exactly when the operand is its code. -/
theorem register_eq_ok_iff {op : Opcode} {w : Word} {r : Register} :
    register op w = .ok r ↔ r.code = w := by
  rw [← Register.ofCode?_eq_some_iff]
  unfold register
  cases Register.ofCode? w <;> simp

theorem register_eq_error_iff {op : Opcode} {w : Word} {f : Fault} :
    register op w = .error f ↔ Register.ofCode? w = none ∧ f = .invalidRegister op w := by
  unfold register
  cases Register.ofCode? w <;> simp [eq_comm]

theorem map_register_eq_ok {α : Type} {op : Opcode} {w : Word} {make : Register → α} {a : α}
    (h : (register op w).map make = .ok a) : ∃ r, r.code = w ∧ make r = a := by
  cases hr : register op w with
  | ok r =>
      rw [hr] at h
      exact ⟨r, register_eq_ok_iff.mp hr, Except.ok.inj h⟩
  | error f =>
      rw [hr] at h
      cases h

theorem map_register_eq_error {α : Type} {op : Opcode} {w : Word} {make : Register → α} {f : Fault}
    (h : (register op w).map make = .error f) :
    Register.ofCode? w = none ∧ f = .invalidRegister op w := by
  cases hr : register op w with
  | ok r =>
      rw [hr] at h
      cases h
  | error g =>
      rw [hr] at h
      obtain rfl : g = f := Except.error.inj h
      exact register_eq_error_iff.mp hr

/-- Reading what has been written returns it, whatever follows. -/
theorem read_operands (c : Command) (rest : List Word) :
    read c.opcode (c.operands ++ rest) = .ok c := by
  cases c <;> simp [read, opcode, operands, Except.map, Except.bind]

/-- Nothing else can be read: the operands of a command that is read stand at the front. -/
theorem read_eq_ok {op : Opcode} {rest : List Word} {c : Command} (h : read op rest = .ok c) :
    c.opcode = op ∧ c.operands <+: rest := by
  unfold read at h
  split at h
  case h_4 w rest => -- set
    obtain ⟨r, rfl, rfl⟩ := map_register_eq_ok h
    exact ⟨rfl, rest, rfl⟩
  case h_6 w x rest => -- radd
    cases hr : register .radd w with
    | error f =>
        rw [hr] at h
        cases h
    | ok r =>
        rw [hr] at h
        obtain ⟨s, rfl, rfl⟩ := map_register_eq_ok h
        obtain rfl := register_eq_ok_iff.mp hr
        exact ⟨rfl, rest, rfl⟩
  case h_7 w rest => -- rdec
    obtain ⟨r, rfl, rfl⟩ := map_register_eq_ok h
    exact ⟨rfl, rest, rfl⟩
  case h_8 w offset rest => -- rjne
    obtain ⟨r, rfl, rfl⟩ := map_register_eq_ok h
    exact ⟨rfl, rest, rfl⟩
  all_goals cases h
  case h_2 v rest => exact ⟨rfl, rest, rfl⟩ -- push
  all_goals exact ⟨rfl, List.nil_prefix⟩

/-- What keeps a command from being read: the opcode itself, a missing operand, or one that should
have been a register. -/
theorem read_eq_error {op : Opcode} {rest : List Word} {f : Fault} (h : read op rest = .error f) :
    (op = .ihalt ∧ f = .explicitIHalt) ∨
      (op ≠ .ihalt ∧ rest.length < op.arity ∧ f = .missingParameter op) ∨
      (op ≠ .ihalt ∧ ∃ ws v, ws.length = op.arity ∧ ws <+: rest ∧ op.FirstBad ws v ∧
        f = .invalidRegister op v) := by
  unfold read at h
  split at h
  case h_4 w rest => -- set
    obtain ⟨hw, rfl⟩ := map_register_eq_error h
    exact Or.inr (Or.inr ⟨by decide, [w], w, rfl, ⟨rest, rfl⟩, Opcode.firstBad_head rfl hw, rfl⟩)
  case h_6 w x rest => -- radd
    refine Or.inr (Or.inr ⟨by decide, ?_⟩)
    cases hr : register .radd w with
    | error g =>
        rw [hr] at h
        obtain rfl : g = f := Except.error.inj h
        obtain ⟨hw, rfl⟩ := register_eq_error_iff.mp hr
        exact ⟨[w, x], w, rfl, ⟨rest, rfl⟩, Opcode.firstBad_head rfl hw, rfl⟩
    | ok r =>
        rw [hr] at h
        obtain ⟨hx, rfl⟩ := map_register_eq_error h
        refine ⟨[w, x], x, rfl, ⟨rest, rfl⟩, ?_, rfl⟩
        refine ⟨1, rfl, rfl, Register.ofCode?_eq_none_iff.mp hx, ?_⟩
        intro j hj _
        obtain rfl : j = 0 := by omega
        exact ⟨r, congrArg some (register_eq_ok_iff.mp hr).symm⟩
  case h_7 w rest => -- rdec
    obtain ⟨hw, rfl⟩ := map_register_eq_error h
    exact Or.inr (Or.inr ⟨by decide, [w], w, rfl, ⟨rest, rfl⟩, Opcode.firstBad_head rfl hw, rfl⟩)
  case h_8 w offset rest => -- rjne
    obtain ⟨hw, rfl⟩ := map_register_eq_error h
    refine Or.inr (Or.inr ⟨by decide, [w, offset], w, rfl, ⟨rest, rfl⟩, ?_, rfl⟩)
    exact Opcode.firstBad_head rfl hw
  all_goals cases h
  case h_10 => exact Or.inl ⟨rfl, rfl⟩ -- ihalt
  case h_11 => -- an operand is missing: had they all been there, a row above would have applied
    refine Or.inr (Or.inl ⟨by assumption, ?_, rfl⟩)
    cases op <;> rcases rest with _ | ⟨w, _ | ⟨x, rest⟩⟩ <;>
      simp_all [Opcode.arity, Opcode.operandKinds]

/-- An opcode that is cut off by the end of the program is reported. -/
theorem read_of_short {op : Opcode} {rest : List Word} (hne : op ≠ .ihalt)
    (hshort : rest.length < op.arity) : read op rest = .error (.missingParameter op) := by
  cases h : read op rest with
  | ok c =>
      obtain ⟨rfl, hpre⟩ := read_eq_ok h
      have := hpre.length_le
      have := c.length_operands
      omega
  | error f =>
      rcases read_eq_error h with ⟨rfl, -⟩ | ⟨-, -, rfl⟩ | ⟨-, ws, v, hlen, hpre, -⟩
      · exact absurd rfl hne
      · rfl
      · have := hpre.length_le
        omega

/-- An operand that should have been a register is reported, whatever follows. -/
theorem read_of_firstBad {op : Opcode} {ws rest : List Word} {v : Word}
    (hlen : ws.length = op.arity) (hpre : ws <+: rest) (hbad : op.FirstBad ws v) :
    read op rest = .error (.invalidRegister op v) := by
  cases h : read op rest with
  | ok c =>
      obtain ⟨rfl, hpre'⟩ := read_eq_ok h
      have hlen' : ws.length = c.operands.length := hlen.trans c.length_operands.symm
      -- Both are the first words of `rest`, and there are as many of them.
      obtain rfl : ws = c.operands :=
        (List.prefix_of_prefix_length_le hpre hpre' (Nat.le_of_eq hlen')).eq_of_length hlen'
      exact absurd hbad (c.not_firstBad_operands v)
  | error f =>
      rcases read_eq_error h with ⟨rfl, -⟩ | ⟨-, hshort, -⟩ | ⟨-, ws', v', hlen', hpre', hbad', rfl⟩
      · obtain ⟨k, hkind, -⟩ := hbad
        cases hkind
      · have := hpre.length_le
        omega
      · have hsame : ws.length = ws'.length := hlen.trans hlen'.symm
        obtain rfl : ws = ws' :=
          (List.prefix_of_prefix_length_le hpre hpre' (Nat.le_of_eq hsame)).eq_of_length hsame
        rw [hbad.unique hbad']

/-- As many words as an opcode wants operands are those of a command, or one of them is to blame. -/
theorem exists_or_firstBad {op : Opcode} {ws : List Word} (hne : op ≠ .ihalt)
    (hlen : ws.length = op.arity) :
    (∃ c : Command, c.opcode = op ∧ c.operands = ws) ∨ ∃ v, op.FirstBad ws v := by
  cases h : read op ws with
  | ok c =>
      obtain ⟨rfl, hpre⟩ := read_eq_ok h
      exact Or.inl ⟨c, rfl, hpre.eq_of_length (c.length_operands.trans hlen.symm)⟩
  | error f =>
      rcases read_eq_error h with ⟨rfl, -⟩ | ⟨-, hshort, -⟩ | ⟨-, ws', v, hlen', hpre, hbad, -⟩
      · exact absurd rfl hne
      · exact absurd hlen (Nat.ne_of_lt hshort)
      · obtain rfl := hpre.eq_of_length (hlen'.trans hlen.symm)
        exact Or.inr ⟨v, hbad⟩

end Command

namespace Program

/-! ## Fetching -/

/-- The command at position `ip`, or what is wrong there. -/
def fetch (p : Program) (ip : Nat) : Except Fault Command :=
  match p.toList.drop ip with
  | [] => .error .missingOpcode
  | w :: rest =>
    match Opcode.ofCode? w with
    | none => .error (.invalidOpcode w)
    | some op => Command.read op rest

/-- The command `c` is written at position `ip`. -/
def HasAt (p : Program) (ip : Nat) (c : Command) : Prop := c.words <+: p.toList.drop ip

/-- What a fault that is found while fetching from position `ip` says about the program. -/
def Misspelt (p : Program) (ip : Nat) : Fault → Prop
  | .missingOpcode => p.size ≤ ip
  | .invalidOpcode v => p[ip]? = some v ∧ (v.toInt < 0 ∨ 9 < v.toInt)
  | .explicitIHalt => p[ip]? = some 9
  | .missingParameter op => p[ip]? = some op.code ∧ op ≠ .ihalt ∧ p.size ≤ ip + op.arity
  | .invalidRegister op v =>
    op ≠ .ihalt ∧ ∃ ws, ws.length = op.arity ∧ op.code :: ws <+: p.toList.drop ip ∧ op.FirstBad ws v
  | .unknown | .stackOverflow | .stackUnderflow | .jumpOutOfRange _ _ => False

/-- Whether a jump is in range is not known while fetching. -/
theorem Misspelt.kind_ne {p : Program} {ip : Nat} {f : Fault} (h : p.Misspelt ip f) :
    f.kind ≠ .jumpOutOfRange := by
  cases f with
  | jumpOutOfRange source offset => exact h.elim
  | _ => simp [Fault.kind]

theorem getElem?_eq_of_drop {p : Program} {ip : Nat} {w : Word} {rest : List Word}
    (h : p.toList.drop ip = w :: rest) : p[ip]? = some w := by
  rw [← Array.getElem?_toList, ← List.head?_drop, h]
  rfl

theorem size_eq_of_drop {p : Program} {ip : Nat} {w : Word} {rest : List Word}
    (h : p.toList.drop ip = w :: rest) : p.size = ip + 1 + rest.length := by
  have hlen := congrArg List.length h
  rw [List.length_drop, Array.length_toList, List.length_cons] at hlen
  omega

/-- A command that is written somewhere ends within the program. -/
theorem HasAt.le_size {p : Program} {ip : Nat} {c : Command} (h : p.HasAt ip c) :
    ip + c.words.length ≤ p.size := by
  have hp : p.toList.length = p.size := Array.length_toList
  have hlen := List.IsPrefix.length_le h
  rw [List.length_drop, hp] at hlen
  have := c.length_words
  omega

theorem fetch_eq_ok_iff {p : Program} {ip : Nat} {c : Command} :
    p.fetch ip = .ok c ↔ p.HasAt ip c := by
  constructor
  · intro h
    unfold fetch at h
    split at h
    · cases h
    · next w rest hdrop =>
      split at h
      · cases h
      · next op hop =>
        obtain ⟨rfl, hpre⟩ := Command.read_eq_ok h
        obtain rfl := Opcode.ofCode?_eq_some_iff.mp hop
        unfold HasAt
        rw [hdrop]
        exact List.cons_prefix_cons.mpr ⟨rfl, hpre⟩
  · rintro ⟨rest, hdrop⟩
    unfold fetch
    rw [← hdrop]
    show (match Opcode.ofCode? c.opcode.code with
      | none => _
      | some op => Command.read op (c.operands ++ rest)) = _
    rw [Opcode.ofCode?_code]
    exact Command.read_operands c rest

theorem HasAt.unique {p : Program} {ip : Nat} {c d : Command} (hc : p.HasAt ip c)
    (hd : p.HasAt ip d) : c = d := by
  rw [← fetch_eq_ok_iff] at hc hd
  exact Except.ok.inj (hc.symm.trans hd)

theorem fetch_eq_error {p : Program} {ip : Nat} {f : Fault} (h : p.fetch ip = .error f) :
    p.Misspelt ip f := by
  unfold fetch at h
  split at h
  · next hdrop =>
    cases h
    show p.size ≤ ip
    have hlen := congrArg List.length hdrop
    rw [List.length_drop, Array.length_toList, List.length_nil] at hlen
    omega
  · next w rest hdrop =>
    have hw := getElem?_eq_of_drop hdrop
    split at h
    · next hop =>
      cases h
      exact ⟨hw, Opcode.ofCode?_eq_none_iff.mp hop⟩
    · next op hop =>
      obtain rfl := Opcode.ofCode?_eq_some_iff.mp hop
      rcases Command.read_eq_error h with ⟨rfl, rfl⟩ | ⟨hne, hlen, rfl⟩ |
        ⟨hne, ws, v, hlen, hpre, hbad, rfl⟩
      · exact hw
      · refine ⟨hw, hne, ?_⟩
        have := size_eq_of_drop hdrop
        omega
      · refine ⟨hne, ws, hlen, ?_, hbad⟩
        rw [hdrop]
        exact List.cons_prefix_cons.mpr ⟨rfl, hpre⟩

theorem drop_of_getElem? {p : Program} {ip : Nat} {w : Word} (h : p[ip]? = some w) :
    p.toList.drop ip = w :: p.toList.drop (ip + 1) := by
  rw [← Array.getElem?_toList] at h
  obtain ⟨hlt, rfl⟩ := List.getElem?_eq_some_iff.mp h
  exact List.drop_eq_getElem_cons hlt

theorem fetch_of_opcode {p : Program} {ip : Nat} {op : Opcode} (h : p[ip]? = some op.code) :
    p.fetch ip = Command.read op (p.toList.drop (ip + 1)) := by
  unfold fetch
  rw [drop_of_getElem? h]
  show (match Opcode.ofCode? op.code with
    | none => _
    | some op => _) = _
  rw [Opcode.ofCode?_code]

/-- A fault is found exactly where it is true of the program. -/
theorem fetch_eq_error_iff {p : Program} {ip : Nat} {f : Fault} :
    p.fetch ip = .error f ↔ p.Misspelt ip f := by
  refine ⟨fetch_eq_error, ?_⟩
  intro h
  cases f with
  | unknown | stackOverflow | stackUnderflow | jumpOutOfRange source offset => exact h.elim
  | missingOpcode =>
      have hlen : p.toList.length ≤ ip := by
        rw [Array.length_toList]
        exact h
      unfold fetch
      rw [List.drop_eq_nil_of_le hlen]
  | invalidOpcode v =>
      obtain ⟨hv, hrange⟩ := h
      unfold fetch
      rw [drop_of_getElem? hv]
      dsimp only
      rw [Opcode.ofCode?_eq_none_iff.mpr hrange]
  | explicitIHalt =>
      have hop : p[ip]? = some Opcode.ihalt.code := h
      rw [fetch_of_opcode hop]
      rfl
  | missingParameter op =>
      obtain ⟨hop, hne, hshort⟩ := h
      rw [fetch_of_opcode hop]
      apply Command.read_of_short hne
      have := size_eq_of_drop (drop_of_getElem? hop)
      omega
  | invalidRegister op v =>
      obtain ⟨-, ws, hlen, ⟨tail, hdrop⟩, hbad⟩ := h
      have hop : p[ip]? = some op.code := getElem?_eq_of_drop hdrop.symm
      rw [fetch_of_opcode hop]
      refine Command.read_of_firstBad hlen ⟨tail, ?_⟩ hbad
      rw [← List.tail_drop, ← hdrop]
      rfl

/-! ## Decoding is fetching -/

theorem words?_of_drop {p : Program} {ip : Nat} {w : Word} {rest : List Word}
    (h : p.toList.drop ip = w :: rest) (n : Nat) :
    p.words? (ip + 1) n = if n ≤ rest.length then some (rest.take n) else none := by
  have hsize := size_eq_of_drop h
  have hrest : p.toList.drop (ip + 1) = rest := by
    rw [← List.tail_drop, h]
    rfl
  unfold words?
  by_cases hn : n ≤ rest.length
  · rw [if_pos (by omega), if_pos hn, Array.toList_extract, List.extract_eq_take_drop, hrest]
    congr 2
    omega
  · rw [if_neg (by omega), if_neg hn]

/-- The instruction that stands for what has been fetched. -/
def fetched : Except Fault Command → Instruction
  | .ok c => c.instruction
  | .error f => .internalHalt f

/-- Reading operands one by one finds what checking them all at once finds. -/
theorem fetched_read {op : Opcode} (hop : op ≠ .ihalt) (rest : List Word) :
    fetched (Command.read op rest) =
      match if op.arity ≤ rest.length then some (rest.take op.arity) else none with
      | none => .internalHalt (.missingParameter op)
      | some operands =>
        match op.badRegister? operands with
        | some w => .internalHalt (.invalidRegister op w)
        | none => .ofOperands op operands := by
  cases h : Command.read op rest with
  | ok c =>
      obtain ⟨rfl, tail, rfl⟩ := Command.read_eq_ok h
      -- What has been read is what the check would have been given.
      have hlen := c.length_operands
      rw [List.length_append, if_pos (by omega), List.take_left' hlen]
      dsimp only
      rw [c.badRegister?_operands]
      rfl
  | error f =>
      rcases Command.read_eq_error h with ⟨rfl, -⟩ | ⟨-, hshort, rfl⟩ |
        ⟨-, ws, v, hlen, ⟨tail, rfl⟩, hbad, rfl⟩
      · exact absurd rfl hop
      · rw [if_neg (Nat.not_le_of_lt hshort)]
        rfl
      · rw [List.length_append, if_pos (by omega), List.take_left' hlen]
        dsimp only
        rw [Opcode.badRegister?_of_firstBad hbad]
        rfl

theorem decode_eq_fetched (p : Program) (ip : Address) :
    p.decode ip = fetched (p.fetch ip.toNat) := by
  unfold decode fetch
  cases hdrop : p.toList.drop ip.toNat with
  | nil =>
      have hnone : p[ip.toNat]? = none := by
        rw [← Array.getElem?_toList, ← List.head?_drop, hdrop]
        rfl
      rw [hnone]
      rfl
  | cons w rest =>
      simp only [getElem?_eq_of_drop hdrop, words?_of_drop hdrop]
      cases hop : Opcode.ofCode? w with
      | none => rfl
      | some op =>
          dsimp only
          split
          · next hnone => cases hnone
          · next hihalt =>
            obtain rfl : op = .ihalt := Option.some.inj hihalt
            rfl
          · next op' hne hsome =>
            obtain rfl : op = op' := Option.some.inj hsome
            exact (fetched_read hne rest).symm

end Program

end Wordcode
