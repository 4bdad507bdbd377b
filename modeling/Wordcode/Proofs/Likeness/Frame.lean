import Wordcode.Proofs.Likeness

/-!
# What lies below is left alone

A run works on the words at the top of its stack. As long as it never finds the stack empty, it does
not matter what the stack stands on: other words may lie below, and the run neither reads nor moves
them. That is the frame rule (`Machine.steps_frame`), and it is what a caller needs who leaves words of
its own on the stack.

Room is the only thing that the words below take away. A push is refused by absolute depth, so the
rule asks for the depth that the run reaches *plus* the words below to stay within the 256. An
underflow is the other thing that the absolute depth decides, and the rule asks that there is none.
-/

namespace Wordcode

namespace Machine

/-- **The frame rule.** Let `m'` be like `m`, but with the words `base` on its stack below those of
`m`. If the run of `m` records no underflow, and at none of its cycles leaves too little room for
`base`, then the run of `m'` completes as well, reports the same, and ends like that of `m`, with
`base` still below. -/
theorem steps_frame {base : List Word} {m m' : Machine} (size : m.program.size ≤ Program.maxSize)
    (low : m.ip.toNat < 2 ^ 63) (hp : m'.program = m.program) (h : m.Alike { base := base } m')
    (n : Nat) (hfound : Fault.stackUnderflow ∉ (steps n m).faults)
    (hroom : ∀ k ≤ n, (steps k m).machine.stack.depth + base.length ≤ 256) :
    (steps n m).trap = none ∧ (steps n m).Alike { base := base } (steps n m') := by
  have hm : m.Addressable := ⟨size, low⟩
  refine ⟨hm.trap_steps n, h.steps_of_program hp rfl n (fun _ _ _ _ => trivial) ?_⟩
  intro k hk htrap
  refine ⟨?_, ?_, fun _ _ _ => rfl⟩
  · intro hf
    exact absurd (mem_faults_steps hk htrap hf) hfound
  · have hdepth := hroom (k + 1) hk
    rwa [steps_succ_of_trap_eq_none htrap, ← Stack.length_entries] at hdepth

/-- `push 1; push 2; add; rjne a 3; halt`, run on an empty stack and on top of two words: the `add`
takes two words and the `rjne` looks at one, and none of these lies below. -/
theorem steps_frame_add_rjne :
    let m := load #[1, 1, 1, 2, 4, 7, 0, 3, 8]
    let m' := (m.push 8).push 9
    m.program.size ≤ Program.maxSize ∧
      m.ip.toNat < 2 ^ 63 ∧
      m'.program = m.program ∧
      m.Alike { base := [8, 9] } m' ∧
      Fault.stackUnderflow ∉ (steps 5 m).faults ∧
      (∀ k ≤ 5, (steps k m).machine.stack.depth + ([8, 9] : List Word).length ≤ 256) ∧
      (steps 5 m).machine.outcome = some .halted ∧
      (steps 5 m).machine.stack.entries = [3] ∧
      (steps 5 m').machine.stack.entries = [8, 9, 3] := by
  intro m m'
  have size : m.program.size ≤ Program.maxSize := by decide
  have hp : m'.program = m.program := rfl
  have halike : m.Alike { base := [8, 9] } m' :=
    ⟨rfl, rfl, fun _ => rfl, rfl, fun _ => rfl, fun _ => rfl, fun _ _ => rfl⟩
  have hfound : Fault.stackUnderflow ∉ (steps 5 m).faults := by decide
  have hroom : ∀ k ≤ 5, (steps k m).machine.stack.depth + ([8, 9] : List Word).length ≤ 256 := by decide
  have hentries : (steps 5 m).machine.stack.entries = [3] := by decide
  obtain ⟨-, hrun⟩ := steps_frame size (by decide) hp halike 5 hfound hroom
  refine ⟨size, by decide, hp, halike, hfound, hroom, by decide, hentries, ?_⟩
  rw [hrun.machine.entries, hentries]
  rfl

end Machine

end Wordcode
