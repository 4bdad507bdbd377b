import Wordcode.Proofs.Faulting
import Wordcode.Proofs.Grammar

/-!
# Two checks of one operand

An operand that has to be a register is checked twice. Decoding goes through the table of operand
kinds (`Opcode.badRegister?`); that keeps it out of an instruction which comes from a program.
Carrying out an instruction checks once more, since the instruction may have been made by hand, and
does so opcode by opcode, at slots that are written into the code.

The two are one check. Whether the operands are blamed in place, by decoding, or as an instruction,
by carrying it out, it is for the same word and in the same cases
(`Machine.decode_blames_iff_execute_blames`). The second check leaves no trace but the fault, for it
comes before the stack is touched: on a stack with nothing to pop, it is still the register that is
blamed.
-/

namespace Wordcode

/-- Only an `radd` wants a register in any place but the first. -/
theorem Opcode.eq_radd_of_second {op : Opcode} {k : Nat}
    (h : op.operandKinds[k + 1]? = some OperandKind.register) : op = .radd ∧ k = 0 := by
  cases op <;> rcases k with _ | k <;> simp [operandKinds] at h ⊢

theorem Instruction.slot_eq {i : Instruction} {k : Nat} {v : Word} (hk : k < slotCount)
    (h : i.slots.toList[k]? = some v) : i.slots[k] = v := by
  rw [Vector.getElem?_toList, Vector.getElem?_eq_getElem hk] at h
  exact Option.some.inj h

theorem Instruction.firstBad_slots_iff {op : Opcode} {ws : List Word} (hlen : ws.length = op.arity)
    {v : Word} : op.FirstBad (ofOperands op ws).slots.toList v ↔ op.FirstBad ws v := by
  have harity := op.arity_le_two
  have htake : (ofOperands op ws).slots.toList.take ws.length = ws :=
    Slots.take_overwrite (Slots.fill 0) (by unfold slotCount; omega)
  have hsame : ∀ k < op.arity, (ofOperands op ws).slots.toList[k]? = ws[k]? := by
    intro k hk
    rw [← List.getElem?_take_of_lt (hlen ▸ hk), htake]
  exact ⟨fun h => h.congr hsame, fun h => h.congr fun k hk => (hsame k hk).symm⟩

theorem Instruction.internalHalt_inj {f g : Fault} (hf : f.kind ≠ .jumpOutOfRange)
    (hg : g.kind ≠ .jumpOutOfRange) (h : internalHalt f = internalHalt g) : f = g := by
  have hspelled := congrArg Instruction.spelledFault h
  rw [spelledFault_internalHalt hf, spelledFault_internalHalt hg] at hspelled
  exact Except.ok.inj hspelled

namespace Machine

variable {m : Machine} {i : Instruction} {op : Opcode} {v : Word}

/-! ## Carrying out -/

theorem naming_of_range {w : Word} (bad : w.toInt < 0 ∨ 5 < w.toInt) (use : Register → Work) :
    m.naming op w use = ⟨m, .fault (.invalidRegister op w), []⟩ := by
  unfold naming
  rw [Register.ofCode?_eq_none_iff.mpr bad]

/-- An opcode whose first operand has to be a register looks at it before anything else. -/
theorem perform_eq_naming (m : Machine)
    (kind : i.opcode.operandKinds[0]? = some OperandKind.register) :
    ∃ use, m.perform i = m.naming i.opcode i.slots[0] use := by
  unfold perform
  cases hop : i.opcode with
  | set | radd | rdec | rjne => exact ⟨_, rfl⟩
  | _ => simp [hop, Opcode.operandKinds] at kind

/-- The operand that the table blames is the one that the work of the instruction ends at. -/
theorem perform_of_firstBad (m : Machine) (h : i.opcode.FirstBad i.slots.toList v) :
    m.perform i = ⟨m, .fault (.invalidRegister i.opcode v), []⟩ := by
  obtain ⟨k, kind, hv, bad, before⟩ := h
  rcases k with _ | k
  · obtain ⟨use, huse⟩ := m.perform_eq_naming kind
    obtain rfl : i.slots[0] = v := Instruction.slot_eq (by decide) hv
    rw [huse, naming_of_range bad]
  · obtain ⟨hop, rfl⟩ := Opcode.eq_radd_of_second kind
    obtain ⟨r, hr⟩ := before 0 Nat.one_pos (by simp [hop, Opcode.operandKinds])
    have hfirst : i.slots[0] = r.code := Instruction.slot_eq (by decide) hr
    obtain rfl : i.slots[1] = v := Instruction.slot_eq (by decide) hv
    simp [perform, hop, hfirst, naming_code, naming_of_range bad]

theorem firstBad_of_verdict (hop : i.opcode ≠ .ihalt)
    (h : (m.perform i).verdict = .fault (.invalidRegister op v)) :
    i.opcode.FirstBad i.slots.toList v := by
  have hfault := faulting_of_verdict h
  generalize (m.perform i).machine = m' at hfault
  cases hfault with
  | carried opcode _ => exact absurd opcode hop
  | noRegister bad => exact bad

/-- Far enough below the middle of the address space, only an internal halt can be at a loss. -/
theorem verdict_ne_trap (hop : i.opcode ≠ .ihalt) (low : m.ip.toNat + 2 ^ 31 ≤ 2 ^ 63) (t : Trap) :
    (m.perform i).verdict ≠ .trap t := by
  intro hv
  have hends : m.Ends i (m.perform i).verdict (m.perform i).machine := m.perform_ends i
  rw [hv] at hends
  generalize (m.perform i).machine = m' at hends
  cases hends with
  | unreadable opcode _ => exact hop opcode
  | baseless _ overflows =>
      rw [Address.displace_eq low] at overflows
      cases overflows

theorem trap_conclude {next : Address} {w : Work} (h : ∀ t, w.verdict ≠ .trap t) :
    (conclude next w).trap = none := by
  unfold conclude
  cases hv : w.verdict with
  | trap t => exact absurd hv (h t)
  | _ => rfl

section

variable {ws : List Word} (hop : op ≠ .ihalt) (hlen : ws.length = op.arity)
  (low : m.ip.toNat < 2 ^ 62)

include hlen low

theorem past?_ofOperands : ∃ next, m.ip.past? (Instruction.ofOperands op ws).count = some next := by
  have harity := op.arity_le_two
  have hcount : (Instruction.ofOperands op ws).count.toNat = ws.length := by
    show (UInt64.ofNat (min ws.length slotCount)).toNat = ws.length
    have hle : ws.length ≤ slotCount := by
      unfold slotCount
      omega
    rw [Nat.min_eq_left hle]
    exact UInt64.toNat_ofNat_of_lt' (Nat.lt_of_le_of_lt hle (by decide))
  have fits : m.ip.toNat + (Instruction.ofOperands op ws).count.toNat + 1 < UInt64.size := by
    unfold UInt64.size
    omega
  obtain ⟨next, hpast, -⟩ := Address.past?_eq_some fits
  exact ⟨next, hpast⟩

/-- Carried out, an operand that is to blame does no harm but to stop the machine. -/
theorem execute_of_firstBad (bad : op.FirstBad ws v) :
    m.execute (.ofOperands op ws) =
      ⟨m.faultWith (.invalidRegister op v), [.faulted (.invalidRegister op v)], none⟩ := by
  obtain ⟨next, hpast⟩ := past?_ofOperands hlen low
  have hwork : m.perform (.ofOperands op ws) = ⟨m, .fault (.invalidRegister op v), []⟩ :=
    m.perform_of_firstBad ((Instruction.firstBad_slots_iff hlen).mpr bad)
  rw [execute, hpast, hwork]
  rfl

include hop

theorem firstBad_of_mem_execute {op' : Opcode}
    (h : Event.faulted (.invalidRegister op' v) ∈ (m.execute (.ofOperands op ws)).events) :
    op.FirstBad ws v := by
  obtain ⟨next, hpast⟩ := past?_ofOperands hlen low
  have hfaults := Transition.mem_faults.mpr h
  rw [execute, hpast] at hfaults
  exact (Instruction.firstBad_slots_iff hlen).mp
    (firstBad_of_verdict hop (verdict_of_mem_faults hfaults))

theorem trap_execute_ofOperands : (m.execute (.ofOperands op ws)).trap = none := by
  obtain ⟨next, hpast⟩ := past?_ofOperands hlen low
  rw [execute, hpast]
  exact trap_conclude (verdict_ne_trap hop (by omega))

end

end Machine

/-! ## Decoding -/

namespace Program

variable {p : Program} {a : Address} {op : Opcode} {ws : List Word} {v : Word}
  (hop : op ≠ .ihalt) (hlen : ws.length = op.arity)
  (written : op.code :: ws <+: p.toList.drop a.toNat)

include hop hlen written

theorem decode_of_firstBad (bad : op.FirstBad ws v) :
    p.decode a = .internalHalt (.invalidRegister op v) :=
  decode_of_misspelt ⟨hop, ws, hlen, written, bad⟩

theorem decode_of_forall_not_firstBad (good : ∀ v, ¬ op.FirstBad ws v) :
    p.decode a = .ofOperands op ws := by
  rcases Command.exists_or_firstBad hop hlen with ⟨c, rfl, rfl⟩ | ⟨v, hbad⟩
  · exact decode_of_hasAt written
  · exact absurd hbad (good v)

theorem firstBad_of_decode (h : p.decode a = .internalHalt (.invalidRegister op v)) :
    op.FirstBad ws v := by
  rcases Command.exists_or_firstBad hop hlen with ⟨c, rfl, rfl⟩ | ⟨w, hbad⟩
  · have hinstruction : c.instruction = .internalHalt (.invalidRegister c.opcode v) :=
      (decode_of_hasAt written).symm.trans h
    exact absurd (congrArg Instruction.opcode hinstruction) c.opcode_ne_ihalt
  · have hsame := (decode_of_firstBad hop hlen written hbad).symm.trans h
    obtain ⟨-, rfl⟩ := Fault.invalidRegister.inj
      (Instruction.internalHalt_inj (by simp [Fault.kind]) (by simp [Fault.kind]) hsame)
    exact hbad

end Program

namespace Machine

/-- **The two checks agree.** Let an opcode and its operands be written somewhere in a program, and
let the instruction that is made of them be carried out on any machine, running or not, that stands
far below the middle of the address space. It completes. Decoding blames an operand just when
carrying out does, and both blame the first that has to be a register and is none. Then nothing has
happened to the machine but that it has stopped with that fault, and nothing else is reported. If no
operand is blamed, the instruction is decoded as it was made, and carrying it out blames none. -/
theorem decode_blames_iff_execute_blames {op : Opcode} {ws : List Word} (hop : op ≠ .ihalt)
    (hlen : ws.length = op.arity) {p : Program} {a : Address}
    (written : op.code :: ws <+: p.toList.drop a.toNat) {m : Machine} (low : m.ip.toNat < 2 ^ 62) :
    let i := Instruction.ofOperands op ws
    let blamed (v : Word) := Fault.invalidRegister op v
    (m.execute i).trap = none ∧
      (∀ v, p.decode a = .internalHalt (blamed v) ↔
        Event.faulted (blamed v) ∈ (m.execute i).events) ∧
      (∀ v, p.decode a = .internalHalt (blamed v) →
        op.FirstBad ws v ∧ m.execute i = ⟨m.faultWith (blamed v), [.faulted (blamed v)], none⟩ ∧
          m.Stopped (blamed v) (m.execute i).machine) ∧
      ((∀ v, p.decode a ≠ .internalHalt (blamed v)) →
        p.decode a = i ∧
          ∀ op' v, Event.faulted (.invalidRegister op' v) ∉ (m.execute i).events) := by
  intro i blamed
  have hbad {v : Word} : p.decode a = .internalHalt (blamed v) → op.FirstBad ws v :=
    Program.firstBad_of_decode hop hlen written
  have hexecute {v : Word} (bad : op.FirstBad ws v) :
      m.execute i = ⟨m.faultWith (blamed v), [.faulted (blamed v)], none⟩ :=
    execute_of_firstBad hlen low bad
  have hstopped {v : Word} (bad : op.FirstBad ws v) :
      m.Stopped (blamed v) (m.execute i).machine := by
    rw [hexecute bad]
    exact m.stopped_faultWith (blamed v)
  refine ⟨trap_execute_ofOperands hop hlen low, ?_,
    fun v h => ⟨hbad h, hexecute (hbad h), hstopped (hbad h)⟩, ?_⟩
  · intro v
    constructor
    · intro h
      rw [hexecute (hbad h)]
      exact List.mem_singleton_self _
    · intro h
      exact Program.decode_of_firstBad hop hlen written (firstBad_of_mem_execute hop hlen low h)
  · intro h
    have good : ∀ v, ¬ op.FirstBad ws v := fun v bad =>
      h v (Program.decode_of_firstBad hop hlen written bad)
    refine ⟨Program.decode_of_forall_not_firstBad hop hlen written good, ?_⟩
    intro op' v hmem
    exact good v (firstBad_of_mem_execute hop hlen low hmem)

/-- An `radd` of register `a` and a word that is no register, behind a `nop`: the second operand is
blamed in both ways. So is the operand of a `set` on an empty stack, where there is nothing to pop, and
the stack does not show that anything was asked of it. -/
theorem decode_blames_iff_execute_blames_second :
    let p : Program := #[0, 5, 0, 9, 3, -1]
    let m := load #[]
    Opcode.radd ≠ .ihalt ∧ ([0, 9] : List Word).length = Opcode.radd.arity ∧
      Opcode.radd.code :: [0, 9] <+: p.toList.drop (1 : Address).toNat ∧
      m.ip.toNat < 2 ^ 62 ∧
      p.decode 1 = .internalHalt (.invalidRegister .radd 9) ∧
      Event.faulted (.invalidRegister .radd 9) ∈ (m.execute (.ofOperands .radd [0, 9])).events ∧
      m.execute (.ofOperands .set [-1]) =
        ⟨m.faultWith (.invalidRegister .set (-1)), [.faulted (.invalidRegister .set (-1))], none⟩ ∧
      m.Stopped (.invalidRegister .set (-1)) (m.execute (.ofOperands .set [-1])).machine ∧
      (m.execute (.ofOperands .set [-1])).machine.stack.underflow = false := by
  intro p m
  have hop : Opcode.radd ≠ .ihalt := by decide
  have hlen : ([0, 9] : List Word).length = Opcode.radd.arity := rfl
  have written : Opcode.radd.code :: [0, 9] <+: p.toList.drop (1 : Address).toNat := ⟨[3, -1], rfl⟩
  have hdecode : p.decode 1 = .internalHalt (.invalidRegister .radd 9) := by decide
  obtain ⟨-, hradd, -⟩ := decode_blames_iff_execute_blames hop hlen written (m := m) (by decide)
  have written' : Opcode.set.code :: [-1] <+: p.toList.drop (4 : Address).toNat := ⟨[], rfl⟩
  obtain ⟨-, -, hset, -⟩ :=
    decode_blames_iff_execute_blames (by decide) rfl written' (m := m) (by decide)
  obtain ⟨-, hexecute, hstopped⟩ := hset (-1) (by decide)
  exact ⟨hop, hlen, written, by decide, hdecode, (hradd 9).mp hdecode, hexecute, hstopped,
    hstopped.underflow⟩

end Machine

end Wordcode
