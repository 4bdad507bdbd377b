import Wordcode.Proofs.Course

/-!
# Counting down

The loop that programs are written with puts a word into a register, and takes 1 off it until it is
the word on top of the stack (`Program.countdown`). The test comes last, so there is at least one
round. It is a test for equality, and does not find out that the register has been below the bound all
along; but words wrap around, and in the end the register gets there. `Countdown.Rounds` says how many
rounds that takes: `2 ^ 32` of them, if the register starts out on the bound itself.

A round is a course of two commands, from one state in which a round can begin (`Countdown.head`) to
the next. What all rounds come to follows by induction, and `Machine.countdown_exact` says what becomes
of the program as a whole, down to the number of cycles.
-/

namespace Wordcode

theorem Word.eq_iff_emod_eq {v w : Word} : v = w ↔ v.toInt % 2 ^ 32 = w.toInt % 2 ^ 32 := by
  have := v.le_toInt
  have := v.toInt_lt
  have := w.le_toInt
  have := w.toInt_lt
  rw [← Int32.toInt_inj]
  omega

theorem Word.sub_one_emod (w : Word) : (w - 1).toInt % 2 ^ 32 = (w.toInt - 1) % 2 ^ 32 := by
  rw [Int32.toInt_sub]
  exact Int.bmod_emod

/-- `push n; set r; push v; rdec r; rjne r (-2); halt`. -/
def Program.countdown (r : Register) (n v : Word) : Program :=
  #[Opcode.push.code, n, Opcode.set.code, r.code, Opcode.push.code, v,
    Opcode.rdec.code, r.code, Opcode.rjne.code, r.code, -2, Opcode.halt.code]

example : Program.countdown .a 10 0 = #[1, 10, 3, 0, 1, 0, 6, 0, 7, 0, -2, 8] := rfl

namespace Countdown

/-! ## How many rounds there are -/

/-- `n` less `k` is `v`, up to a multiple of `2 ^ 32`. There is at least one round, and at most one for
each word. -/
structure Rounds (n v : Word) (k : Nat) : Prop where
  pos : 1 ≤ k
  le : k ≤ 2 ^ 32
  reaches : (n.toInt - k) % 2 ^ 32 = v.toInt % 2 ^ 32

variable {n v w : Word} {k : Nat}

theorem exists_rounds (n v : Word) : ∃ k, Rounds n v k :=
  ⟨((n.toInt - v.toInt - 1) % 2 ^ 32).toNat + 1, by omega, by omega, by omega⟩

theorem Rounds.unique {k' : Nat} (h : Rounds n v k) (h' : Rounds n v k') : k' = k := by
  have := h.pos
  have := h.le
  have := h.reaches
  have := h'.pos
  have := h'.le
  have := h'.reaches
  omega

/-- A round either is the last one, or brings the register one step closer. -/
theorem Rounds.sub_one (h : Rounds w v (k + 1)) :
    (k = 0 ∧ w - 1 = v) ∨ (w - 1 ≠ v ∧ Rounds (w - 1) v k) := by
  have hle := h.le
  have hreaches := h.reaches
  have hsub := Word.sub_one_emod w
  rcases Nat.eq_zero_or_pos k with rfl | hpos
  · exact Or.inl ⟨rfl, Word.eq_iff_emod_eq.mpr (by omega)⟩
  · refine Or.inr ⟨?_, hpos, by omega, by omega⟩
    rw [Ne, Word.eq_iff_emod_eq]
    omega

/-! ## What is carried out -/

/-- The state in which a round begins: the bound is on the stack, and `w` is in the register. -/
def head (r : Register) (w v : Word) : Ideal where
  ip := 6
  stack := [v]
  registers := fun q => if q = r then w else 0
  outcome := none
  bounded := by simp

def body (r : Register) : List Command := [.rdec r, .rjne r (-2)]

/-- The commands of a run of `k` rounds. -/
def commands (r : Register) (n v : Word) (k : Nat) : List Command :=
  [.push n, .set r, .push v] ++ (List.replicate k (body r)).flatten ++ [.halt]

variable (r : Register)

theorem length_commands (n v : Word) (k : Nat) : (commands r n v k).length = 2 * k + 4 := by
  simp [commands, body]
  omega

theorem count_commands (n v : Word) (k : Nat) :
    ((commands r n v k).map Command.opcode).count .rdec = k ∧
      ((commands r n v k).map Command.opcode).count .rjne = k := by
  simp [commands, body, List.count_flatten, Command.opcode]

/-! ### Courses of these commands -/

theorem head_stored (w w' v : Word) : (head r w v).stored r w' = head r w' v := by
  refine Ideal.ext rfl rfl (funext fun q => ?_) rfl
  by_cases hq : q = r <;> simp [Ideal.stored, head, hq]

theorem course_setup (n v : Word) :
    Ideal.Course (.countdown r n v) .start [.push n, .set r, .push v] [.stored r n]
      (head r n v) :=
  .cons rfl ⟨_, rfl⟩ rfl (.cons rfl ⟨_, rfl⟩ rfl (.one rfl ⟨_, rfl⟩ rfl))

theorem hasAt_rdec (n v : Word) : (Program.countdown r n v).HasAt 6 (.rdec r) := ⟨_, rfl⟩

theorem hasAt_rjne (n v : Word) : (Program.countdown r n v).HasAt 8 (.rjne r (-2)) := ⟨_, rfl⟩

theorem obey_rdec (w v : Word) (next : Nat) :
    (head r w v).obey next (.rdec r) = ((head r (w - 1) v).goto next, []) := by
  have hw : (head r w v).registers r = w := if_pos rfl
  rw [Ideal.obey, hw, head_stored]

/-- The second one goes back to the front of the body, unless the bound is reached. -/
theorem obey_rjne (w v : Word) :
    ((head r w v).goto 8).obey 11 (.rjne r (-2)) =
      (if w = v then (head r v v).goto 11 else head r w v, []) := by
  have hw : (head r w v).registers r = w := if_pos rfl
  rw [Ideal.obey, Ideal.take_of_getLast? (v := v) rfl]
  show (if (head r w v).registers r = v then _ else _) = _
  rw [hw]
  split
  · next h => rw [h]; rfl
  · rfl

/-- **One round.** -/
theorem course_body (n v w : Word) :
    Ideal.Course (.countdown r n v) (head r w v) (body r) []
      (if w - 1 = v then (head r v v).goto 11 else head r (w - 1) v) := by
  have first := Ideal.Course.one (s := head r w v) rfl (hasAt_rdec r n v) (obey_rdec r w v 8)
  have second := Ideal.Course.one (s := (head r (w - 1) v).goto 8) rfl (hasAt_rjne r n v)
    (obey_rjne r (w - 1) v)
  exact first.append second

/-- **All rounds.** -/
theorem course_rounds (n : Word) (h : Rounds w v k) :
    Ideal.Course (.countdown r n v) (head r w v) (List.replicate k (body r)).flatten []
      ((head r v v).goto 11) := by
  induction k generalizing w with
  | zero => exact absurd h.pos (Nat.not_succ_le_zero 0)
  | succ k ih =>
      have round := course_body r n v w
      rcases h.sub_one with ⟨rfl, hlast⟩ | ⟨hne, hrest⟩
      · rw [if_pos hlast] at round
        simpa using round
      · rw [if_neg hne] at round
        exact round.append (ih hrest)

theorem course (h : Rounds n v k) :
    Ideal.Course (.countdown r n v) .start (commands r n v k) [.stored r n]
      { (head r v v).goto 11 with outcome := some .halted } :=
  ((course_setup r n v).append (course_rounds r n h)).append (.one rfl ⟨_, rfl⟩ rfl)

end Countdown

/-- **Counting down is exact.** Whatever the words and the register, the program halts normally. With
`k` for the one number of rounds there can be, that is after `2 * k + 4` cycles, `k` of which decrement
the register and `k` of which test it. The register was stored to once, from the stack, and that is all
that was reported. In the end the machine stands on the `halt`, the bound is in the register and still
on the stack, and the other registers have not been touched. -/
theorem Machine.countdown_exact (r : Register) (n v : Word) :
    ∃ k, (Countdown.Rounds n v k ∧ ∀ k', Countdown.Rounds n v k' → k' = k) ∧
      let m := load (.countdown r n v)
      let t := steps (2 * k + 4) m
      m.HaltsAfter (2 * k + 4) ∧ t.trap = none ∧ t.machine.outcome = some .halted ∧
        (t.decoded.map Instruction.opcode).count .rdec = k ∧
        (t.decoded.map Instruction.opcode).count .rjne = k ∧
        t.signals = [.stored r n] ∧ t.machine.ip = 11 ∧ t.machine.register r = v ∧
        (∀ q ≠ r, t.machine.register q = 0) ∧ t.machine.stack.entries = [v] := by
  obtain ⟨k, h⟩ := Countdown.exists_rounds n v
  refine ⟨k, ⟨h, fun k' h' => h.unique h'⟩, ?_⟩
  have size : (Program.countdown r n v).size ≤ Program.maxSize := by
    show 12 ≤ Program.maxSize
    decide
  have hrun := (Countdown.course r h).followed (m := load (.countdown r n v)) rfl (ideal_load _) size
    fun _ => rfl
  have hhalts := hrun.haltsAfter (by simp)
  have hdone := hrun.realises
  have hdecoded := hrun.decoded
  rw [Countdown.length_commands] at hhalts hdone hdecoded
  refine ⟨hhalts, ?_⟩
  -- What is left to say is about the state in the end alone.
  generalize steps (2 * k + 4) (load (.countdown r n v)) = t at hdone hdecoded ⊢
  have hopcodes : t.decoded.map Instruction.opcode =
      (Countdown.commands r n v k).map Command.opcode := by
    rw [hdecoded, List.map_map]
    rfl
  obtain ⟨hrdec, hrjne⟩ := Countdown.count_commands r n v k
  have hregister (q : Register) : t.machine.register q = if q = r then v else 0 :=
    congrFun (congrArg Ideal.registers hdone.machine) q
  refine ⟨hdone.trap, congrArg Ideal.outcome hdone.machine, ?_, ?_, hdone.signals, ?_, ?_, ?_,
    congrArg Ideal.stack hdone.machine⟩
  · rw [hopcodes, hrdec]
  · rw [hopcodes, hrjne]
  · exact UInt64.toNat_inj.mp (congrArg Ideal.ip hdone.machine)
  · rw [hregister, if_pos rfl]
  · intro q hq
    rw [hregister, if_neg hq]

end Wordcode
