import Wordcode.Proofs.Command

/-!
# The grammar that decoding accepts

What may be written in a program can be said of its words alone, without a word about how decoding
goes about it. `Program.Spells` is what a position has to hold for an instruction to be found there,
and `Instruction.Grammatical` is what an instruction that has been found looks like.

Both come down to commands: a position spells an instruction when a command is written there
(`HasAt.spells`, `Spells.not_misspelt`), and the grammatical instructions are those that commands
stand for (`Grammatical.exists_command`). Since commands can be read back from wherever they are
written, so can grammatical instructions.

## Complaints

Where nothing is spelled, several things can be wrong at once: a program can end too early and have a
wrong register before its end. `Program.Complaint` says of each fault by itself when it applies, and
`Fault.place` puts them in order. The one that an internal halt carries is the first that applies
(`Misspelt.first`).

`decode_grammar` is all of this together.
-/

namespace Wordcode

/-! ## What is written, and what is decoded -/

/-- The words from position `ip` on spell an instruction with opcode `op`: they begin with the code
of the opcode, which is not the reserved one, the operands end within the program, and those that
have to be registers are. -/
structure Program.Spells (p : Program) (ip : Nat) (op : Opcode) : Prop where
  opcode : p[ip]? = some op.code
  code_range : 0 ≤ op.code.toInt ∧ op.code.toInt ≤ 8
  fits : ip + 1 + op.arity ≤ p.size
  registers : ∀ (k : Nat) (w : Word), op.operandKinds[k]? = some OperandKind.register →
    p[ip + 1 + k]? = some w → 0 ≤ w.toInt ∧ w.toInt ≤ 5

/-- An instruction whose parts fit each other: the opcode is not the reserved one, as many slots are
in use as it has operands, those that have to be registers are, and the others hold zero. -/
structure Instruction.Grammatical (i : Instruction) : Prop where
  code_range : 0 ≤ i.opcode.code.toInt ∧ i.opcode.code.toInt ≤ 8
  count_eq : i.count.toNat = i.opcode.arity
  registers : ∀ (k : Nat) (hk : k < slotCount),
    i.opcode.operandKinds[k]? = some OperandKind.register →
      0 ≤ i.slots[k].toInt ∧ i.slots[k].toInt ≤ 5
  unused : ∀ (k : Nat) (hk : k < slotCount), i.count.toNat ≤ k → i.slots[k] = 0

theorem Opcode.code_range_iff {op : Opcode} :
    (0 ≤ op.code.toInt ∧ op.code.toInt ≤ 8) ↔ op ≠ .ihalt := by
  cases op <;> decide

theorem Opcode.code_inj {op op' : Opcode} (h : op.code = op'.code) : op = op' := by
  rw [← ofCode?_eq_some_iff, ofCode?_code] at h
  exact (Option.some.inj h).symm

/-- Which operand is to blame depends on the operands alone and not on what stands behind them. -/
theorem Opcode.FirstBad.congr {op : Opcode} {ws ws' : List Word} {v : Word} (h : op.FirstBad ws v)
    (hsame : ∀ k < op.arity, ws[k]? = ws'[k]?) : op.FirstBad ws' v := by
  obtain ⟨k, hkind, hk, hrange, hbefore⟩ := h
  obtain ⟨hlt, -⟩ := List.getElem?_eq_some_iff.mp hkind
  refine ⟨k, hkind, (hsame k hlt).symm.trans hk, hrange, ?_⟩
  intro j hj hkind'
  rw [← hsame j (Nat.lt_trans hj hlt)]
  exact hbefore j hj hkind'

/-! ## Grammatical instructions are commands -/

namespace Command

theorem opcode_ne_ihalt (c : Command) : c.opcode ≠ .ihalt := by
  cases c <;> simp [opcode]

theorem getElem_slots_instruction (c : Command) {k : Nat} (hk : k < slotCount) :
    c.instruction.slots[k] = c.operands[k]?.getD 0 := by
  show (Slots.overwrite _ c.operands)[k] = _
  rw [Slots.getElem_overwrite _ _ hk, List.getD_eq_getElem?_getD]
  simp [Slots.fill]

theorem grammatical_instruction (c : Command) : c.instruction.Grammatical where
  code_range := Opcode.code_range_iff.mpr c.opcode_ne_ihalt
  count_eq := c.count_instruction.trans c.length_operands
  registers k hk hkind := by
    obtain ⟨r, hr⟩ := c.operands_register hkind
    rw [c.getElem_slots_instruction hk, hr]
    exact r.code_range
  unused k hk hle := by
    rw [c.count_instruction] at hle
    rw [c.getElem_slots_instruction hk, List.getElem?_eq_none hle]
    rfl

end Command

namespace Instruction

theorem length_take_slots (i : Instruction) :
    (i.slots.toList.take i.opcode.arity).length = i.opcode.arity := by
  have harity := i.opcode.arity_le_two
  rw [List.length_take, Vector.length_toList, slotCount]
  omega

theorem getElem?_take_slots (i : Instruction) {k : Nat} (hk : k < slotCount)
    (hlt : k < i.opcode.arity) : (i.slots.toList.take i.opcode.arity)[k]? = some i.slots[k] := by
  rw [List.getElem?_take_of_lt hlt, Vector.getElem?_toList]
  exact Vector.getElem?_eq_getElem hk

namespace Grammatical

variable {i : Instruction}

/-- No operand of a grammatical instruction is to blame. -/
theorem not_firstBad (h : i.Grammatical) (v : Word) :
    ¬ i.opcode.FirstBad (i.slots.toList.take i.opcode.arity) v := by
  rintro ⟨k, hkind, hv, hrange, -⟩
  obtain ⟨hlt, -⟩ := List.getElem?_eq_some_iff.mp hkind
  have hk : k < slotCount :=
    Nat.lt_of_lt_of_le hlt (Nat.le_trans i.opcode.arity_le_two (by decide))
  rw [i.getElem?_take_slots hk hlt] at hv
  obtain rfl := Option.some.inj hv
  have := h.registers k hk hkind
  omega

theorem eq_instruction (h : i.Grammatical) {c : Command} (hop : c.opcode = i.opcode)
    (hoperands : c.operands = i.slots.toList.take i.opcode.arity) : c.instruction = i := by
  have hslots : c.instruction.slots = i.slots := by
    apply Vector.ext
    intro k hk
    rw [c.getElem_slots_instruction hk, hoperands]
    by_cases hlt : k < i.opcode.arity
    · rw [i.getElem?_take_slots hk hlt]
      rfl
    · have hge : i.opcode.arity ≤ k := Nat.le_of_not_lt hlt
      rw [List.getElem?_eq_none (by rwa [i.length_take_slots]), h.unused k hk (h.count_eq ▸ hge)]
      rfl
  have hcount : c.instruction.count = i.count := by
    rw [← UInt64.toNat_inj, c.count_instruction, h.count_eq, hoperands, i.length_take_slots]
  obtain ⟨op, slots, count⟩ := i
  obtain rfl : c.opcode = op := hop
  obtain rfl : c.instruction.slots = slots := hslots
  obtain rfl : c.instruction.count = count := hcount
  rfl

/-- A grammatical instruction is what a command stands for, namely the one that is read off its
slots. -/
theorem exists_command (h : i.Grammatical) : ∃ c : Command, c.instruction = i := by
  have hne := Opcode.code_range_iff.mp h.code_range
  rcases Command.exists_or_firstBad hne i.length_take_slots with ⟨c, hop, hoperands⟩ | ⟨v, hbad⟩
  · exact ⟨c, h.eq_instruction hop hoperands⟩
  · exact absurd hbad (h.not_firstBad v)

end Grammatical

end Instruction

namespace Program

/-! ## What is spelled is found -/

theorem getElem?_of_written {p : Program} {ip k : Nat} {w v : Word} {ws : List Word}
    (hpre : w :: ws <+: p.toList.drop ip) (hk : ws[k]? = some v) : p[ip + 1 + k]? = some v := by
  obtain ⟨tail, htail⟩ := hpre
  have hget : (p.toList.drop ip)[k + 1]? = some v := by
    obtain ⟨hlt, -⟩ := List.getElem?_eq_some_iff.mp hk
    rw [← htail, List.cons_append, List.getElem?_cons_succ, List.getElem?_append_left hlt, hk]
  rw [List.getElem?_drop, Array.getElem?_toList] at hget
  rw [← hget]
  congr 1
  omega

theorem HasAt.spells {p : Program} {ip : Nat} {c : Command} (h : p.HasAt ip c) :
    p.Spells ip c.opcode where
  opcode := by
    obtain ⟨tail, htail⟩ := h
    exact getElem?_eq_of_drop htail.symm
  code_range := Opcode.code_range_iff.mpr c.opcode_ne_ihalt
  fits := by
    have := h.le_size
    have := c.length_words
    have := c.length_operands
    omega
  registers k w hkind hw := by
    obtain ⟨r, hr⟩ := c.operands_register hkind
    have := getElem?_of_written h hr
    obtain rfl : w = r.code := Option.some.inj (hw.symm.trans this)
    exact r.code_range

theorem HasAt.words_eq {p : Program} {ip : Nat} {c : Command} (h : p.HasAt ip c) :
    c.words = (p.extract ip (ip + 1 + c.instruction.count.toNat)).toList := by
  have hlen : ip + 1 + c.instruction.count.toNat - ip = c.words.length := by
    rw [c.count_instruction, c.length_words]
    omega
  rw [Array.toList_extract, List.extract_eq_take_drop, hlen]
  exact List.prefix_iff_eq_take.mp h

theorem Spells.not_misspelt {p : Program} {ip : Nat} {op : Opcode} (h : p.Spells ip op)
    (f : Fault) : ¬ p.Misspelt ip f := by
  obtain ⟨hop, hrange, hfits, hregisters⟩ := h
  intro hf
  cases f with
  | unknown | stackOverflow | stackUnderflow | jumpOutOfRange source offset => exact hf
  | missingOpcode =>
      have hf : p.size ≤ ip := hf
      omega
  | invalidOpcode v =>
      obtain ⟨hv, hbad⟩ := hf
      obtain rfl : op.code = v := Option.some.inj (hop.symm.trans hv)
      omega
  | explicitIHalt =>
      have hihalt : op.code = Opcode.ihalt.code := Option.some.inj (hop.symm.trans hf)
      exact absurd (Opcode.code_inj hihalt) (Opcode.code_range_iff.mp hrange)
  | missingParameter op' =>
      obtain ⟨hop', -, hshort⟩ := hf
      obtain rfl : op = op' := Opcode.code_inj (Option.some.inj (hop.symm.trans hop'))
      omega
  | invalidRegister op' v =>
      obtain ⟨-, ws, -, hpre, k, hkind, hk, hbad, -⟩ := hf
      obtain ⟨tail, htail⟩ := hpre
      have hop' := getElem?_eq_of_drop htail.symm
      obtain rfl : op = op' := Opcode.code_inj (Option.some.inj (hop.symm.trans hop'))
      have := hregisters k v hkind (getElem?_of_written ⟨tail, htail⟩ hk)
      omega

/-! ## Complaints -/

/-- When a fault applies to position `ip`, whatever else may be wrong there. -/
def Complaint (p : Program) (ip : Nat) : Fault → Prop
  | .missingOpcode => p.size ≤ ip
  | .invalidOpcode v => p[ip]? = some v ∧ (v.toInt < 0 ∨ 9 < v.toInt)
  | .explicitIHalt => p[ip]? = some 9
  | .missingParameter op => p[ip]? = some op.code ∧ p.size < ip + 1 + op.arity
  | .invalidRegister op v => p[ip]? = some op.code ∧ op.FirstBad (p.toList.drop (ip + 1)) v
  | .unknown | .stackOverflow | .stackUnderflow | .jumpOutOfRange _ _ => False

end Program

/-- The place of a fault in the order of complaints. Those that are not found by decoding come
last. -/
def Fault.place : Fault → Nat
  | missingOpcode => 0
  | invalidOpcode _ => 1
  | explicitIHalt => 2
  | missingParameter _ => 3
  | invalidRegister _ _ => 4
  | unknown | stackOverflow | stackUnderflow | jumpOutOfRange _ _ => 5

namespace Program

/-- Of the faults that apply to position `ip`, `f` is the first. -/
def FirstComplaint (p : Program) (ip : Nat) (f : Fault) : Prop :=
  p.Complaint ip f ∧ ∀ g, p.Complaint ip g → g = f ∨ f.place < g.place

/-- What is wrong with a position applies to it. -/
theorem Misspelt.complaint {p : Program} {ip : Nat} {f : Fault} (h : p.Misspelt ip f) :
    p.Complaint ip f := by
  cases f with
  | unknown | stackOverflow | stackUnderflow | jumpOutOfRange source offset => exact h.elim
  | missingOpcode | invalidOpcode v | explicitIHalt => exact h
  | missingParameter op =>
      obtain ⟨hop, -, hshort⟩ := h
      exact ⟨hop, by omega⟩
  | invalidRegister op v =>
      obtain ⟨-, ws, hlen, ⟨tail, htail⟩, hbad⟩ := h
      have hop : p[ip]? = some op.code := getElem?_eq_of_drop htail.symm
      have hrest : ws ++ tail = p.toList.drop (ip + 1) := by
        rw [drop_of_getElem? hop] at htail
        exact List.tail_eq_of_cons_eq htail
      refine ⟨hop, hbad.congr ?_⟩
      intro k hk
      rw [← hrest, List.getElem?_append_left (hlen ▸ hk)]

/-- Most faults that apply are what is wrong with the position. Only a wrong register can stand
before the end of a program that ends too early. -/
theorem Complaint.misspelt_or {p : Program} {ip : Nat} {f : Fault} (h : p.Complaint ip f) :
    p.Misspelt ip f ∨ ∃ op v, f = .invalidRegister op v ∧ p.Misspelt ip (.missingParameter op) := by
  cases f with
  | unknown | stackOverflow | stackUnderflow | jumpOutOfRange source offset => exact h.elim
  | missingOpcode | invalidOpcode v | explicitIHalt => exact Or.inl h
  | missingParameter op =>
      obtain ⟨hop, hshort⟩ := h
      have hsize := size_eq_of_drop (drop_of_getElem? hop)
      refine Or.inl ⟨hop, ?_, by omega⟩
      rintro rfl
      have harity : Opcode.ihalt.arity = 0 := rfl
      omega
  | invalidRegister op v =>
      obtain ⟨hop, hbad⟩ := h
      have hne : op ≠ .ihalt := by
        rintro rfl
        obtain ⟨k, hkind, -⟩ := hbad
        cases hkind
      have hdrop := drop_of_getElem? hop
      have hsize := size_eq_of_drop hdrop
      by_cases hshort : p.size ≤ ip + op.arity
      · exact Or.inr ⟨op, v, rfl, hop, hne, hshort⟩
      · refine Or.inl ⟨hne, (p.toList.drop (ip + 1)).take op.arity, ?_, ?_, hbad.congr ?_⟩
        · rw [List.length_take]
          omega
        · rw [hdrop]
          exact List.cons_prefix_cons.mpr ⟨rfl, List.take_prefix _ _⟩
        · intro k hk
          exact (List.getElem?_take_of_lt hk).symm

theorem Misspelt.unique {p : Program} {ip : Nat} {f g : Fault} (hf : p.Misspelt ip f)
    (hg : p.Misspelt ip g) : f = g := by
  rw [← fetch_eq_error_iff] at hf hg
  exact Except.error.inj (hf.symm.trans hg)

/-- What is wrong with a position is the first fault that applies to it. -/
theorem Misspelt.first {p : Program} {ip : Nat} {f : Fault} (h : p.Misspelt ip f) :
    p.FirstComplaint ip f := by
  refine ⟨h.complaint, ?_⟩
  intro g hg
  rcases hg.misspelt_or with hg | ⟨op, v, rfl, hshort⟩
  · exact Or.inl (hg.unique h)
  · obtain rfl := h.unique hshort
    exact Or.inr (Nat.lt_succ_self 3)

/-! ## Decoding -/

theorem decode_of_hasAt {p : Program} {ip : Address} {c : Command} (h : p.HasAt ip.toNat c) :
    p.decode ip = c.instruction := by
  rw [decode_eq_fetched, fetch_eq_ok_iff.mpr h]
  rfl

theorem decode_of_misspelt {p : Program} {ip : Address} {f : Fault} (h : p.Misspelt ip.toNat f) :
    p.decode ip = .internalHalt f := by
  rw [decode_eq_fetched, fetch_eq_error_iff.mpr h]
  rfl

/-- A position holds a command or something is wrong with it, and decoding says which. -/
theorem decode_cases (p : Program) (ip : Address) :
    (∃ c : Command, p.HasAt ip.toNat c ∧ p.decode ip = c.instruction) ∨
      ∃ f, p.Misspelt ip.toNat f ∧ p.decode ip = .internalHalt f := by
  rw [decode_eq_fetched]
  cases hfetch : p.fetch ip.toNat with
  | ok c => exact Or.inl ⟨c, fetch_eq_ok_iff.mp hfetch, rfl⟩
  | error f => exact Or.inr ⟨f, fetch_eq_error_iff.mp hfetch, rfl⟩

theorem isInternalHalt_decode_eq_false_iff (p : Program) (ip : Address) :
    (p.decode ip).isInternalHalt = false ↔ ∃ op, p.Spells ip.toNat op := by
  constructor
  · intro h
    rcases p.decode_cases ip with ⟨c, hc, -⟩ | ⟨f, -, hdecode⟩
    · exact ⟨_, hc.spells⟩
    · rw [hdecode] at h
      cases h
  · rintro ⟨op, hop⟩
    rcases p.decode_cases ip with ⟨c, -, hdecode⟩ | ⟨f, hf, -⟩
    · rw [hdecode]
      exact decide_eq_false c.opcode_ne_ihalt
    · exact absurd hf (hop.not_misspelt f)

theorem decode_of_not_internalHalt {p : Program} {ip : Address}
    (h : (p.decode ip).isInternalHalt = false) :
    p.Spells ip.toNat (p.decode ip).opcode ∧ (p.decode ip).Grammatical ∧
      ∃ ws, (p.decode ip).operands = .ok ws ∧
        (p.decode ip).opcode.code :: ws =
          (p.extract ip.toNat (ip.toNat + 1 + (p.decode ip).count.toNat)).toList := by
  rcases p.decode_cases ip with ⟨c, hc, hdecode⟩ | ⟨f, -, hdecode⟩
  · rw [hdecode]
    exact ⟨hc.spells, c.grammatical_instruction, _, c.operands_instruction, hc.words_eq⟩
  · rw [hdecode] at h
    cases h

/-- A grammatical instruction is decoded from its words, wherever they are written. -/
theorem decode_grammatical {i : Instruction} (h : i.Grammatical) :
    ∃ ws, i.operands = .ok ws ∧
      ∀ (before after : List Word) (ip : Address), ip.toNat = before.length →
        decode (before ++ (i.opcode.code :: ws) ++ after).toArray ip = i := by
  obtain ⟨c, rfl⟩ := h.exists_command
  refine ⟨_, c.operands_instruction, ?_⟩
  intro before after ip hip
  apply decode_of_hasAt
  refine ⟨after, ?_⟩
  rw [hip, List.append_assoc, List.drop_left]
  rfl

/-- Where nothing is spelled, the first complaint is decoded. -/
theorem decode_of_not_spells {p : Program} {ip : Address} (h : ∀ op, ¬ p.Spells ip.toNat op) :
    ∃ f, p.decode ip = .internalHalt f ∧ (p.decode ip).fault? = .ok (some f) ∧
      p.FirstComplaint ip.toNat f := by
  rcases p.decode_cases ip with ⟨c, hc, -⟩ | ⟨f, hf, hdecode⟩
  · exact absurd hc.spells (h _)
  · refine ⟨f, hdecode, ?_, hf.first⟩
    rw [hdecode]
    show (Instruction.internalHalt f).spelledFault.map some = _
    rw [Instruction.spelledFault_internalHalt hf.kind_ne]
    rfl

/-- **Decoding accepts exactly its grammar.** An instruction other than the internal halt is decoded
where one is spelled and nowhere else. It is grammatical, and its opcode with its operands is what
the program has there, word for word. Conversely every grammatical instruction can be written, and is
decoded again wherever that is done. Where none is spelled, an internal halt carries the first
complaint that applies. -/
theorem decode_grammar (p : Program) (ip : Address) :
    ((p.decode ip).isInternalHalt = false ↔ ∃ op, p.Spells ip.toNat op) ∧
      ((p.decode ip).isInternalHalt = false →
        p.Spells ip.toNat (p.decode ip).opcode ∧ (p.decode ip).Grammatical ∧
          ∃ ws, (p.decode ip).operands = .ok ws ∧
            (p.decode ip).opcode.code :: ws =
              (p.extract ip.toNat (ip.toNat + 1 + (p.decode ip).count.toNat)).toList) ∧
      (∀ i : Instruction, i.Grammatical →
        ∃ ws, i.operands = .ok ws ∧
          ∀ (before after : List Word) (position : Address), position.toNat = before.length →
            decode (before ++ (i.opcode.code :: ws) ++ after).toArray position = i) ∧
      ((∀ op, ¬ p.Spells ip.toNat op) →
        ∃ f, p.decode ip = .internalHalt f ∧ (p.decode ip).fault? = .ok (some f) ∧
          p.FirstComplaint ip.toNat f) := by
  refine ⟨p.isInternalHalt_decode_eq_false_iff ip, decode_of_not_internalHalt, ?_,
    decode_of_not_spells⟩
  intro i hi
  exact decode_grammatical hi

/-- The same 6 in every place where an instruction may have an operand: it will do as the word of a
`push` and as the offset of an `rjne`, and anywhere else it would have to be a register. The `pop` at
the end has no operands. -/
theorem decode_grammar_operands :
    let p : Program := #[1, 6, 3, 6, 6, 6, 5, 6, 0, 5, 0, 6, 7, 6, 0, 7, 0, 6, 2]
    (p.Spells 0 .push ∧ (p.decode 0).operands = .ok [6]) ∧
      p.FirstComplaint 2 (.invalidRegister .set 6) ∧
      p.FirstComplaint 4 (.invalidRegister .rdec 6) ∧
      p.FirstComplaint 6 (.invalidRegister .radd 6) ∧
      p.FirstComplaint 9 (.invalidRegister .radd 6) ∧
      p.FirstComplaint 12 (.invalidRegister .rjne 6) ∧
      (p.Spells 15 .rjne ∧ (p.decode 15).operands = .ok [0, 6]) ∧
      (p.Spells 18 .pop ∧ (p.decode 18).operands = .ok []) := by
  intro p
  have spells (ip : Address) (h : (p.decode ip).isInternalHalt = false) :
      p.Spells ip.toNat (p.decode ip).opcode :=
    ((decode_grammar p ip).2.1 h).1
  have complains (ip : Address) {f : Fault} (h : (p.decode ip).isInternalHalt = true)
      (hf : (p.decode ip).fault? = .ok (some f)) : p.FirstComplaint ip.toNat f := by
    obtain ⟨haccepts, -, -, hfirst⟩ := decode_grammar p ip
    have hnone : ∀ op, ¬ p.Spells ip.toNat op := by
      intro op hop
      rw [haccepts.mpr ⟨op, hop⟩] at h
      cases h
    obtain ⟨g, -, hg, hcomplaint⟩ := hfirst hnone
    rw [hf] at hg
    obtain rfl := Option.some.inj (Except.ok.inj hg)
    exact hcomplaint
  exact ⟨⟨spells 0 rfl, rfl⟩, complains 2 rfl rfl, complains 4 rfl rfl, complains 6 rfl rfl,
    complains 9 rfl rfl, complains 12 rfl rfl, ⟨spells 15 rfl, rfl⟩, ⟨spells 18 rfl, rfl⟩⟩

/-- A program that ends too early, with a wrong register in front of its end, just ends too early. -/
example : decode #[5, 7] 0 = .internalHalt (.missingParameter .radd) := by
  decide

end Program

end Wordcode
