import Wordcode.Proofs.Likeness
import Wordcode.Proofs.Safety

/-!
# A program can be put anywhere

Nothing in a program says where the program is. Commands are read from where the machine stands, and
jumps are relative to themselves; so the words `q` may be put in front of a program, and the words `s`
behind it, and a machine that stands `q.size` words farther on runs as it did.

Two things do depend on the place, and both are faults. A jump to before the start of the program may
find the start farther away, and who runs out of program may find that it goes on. A run that
records neither is the same run in both places (`Machine.steps_relocated`).

The programs are compared by what is fetched from them. A command that is written in `p` is written
in `q ++ p ++ s` as well (`Program.HasAt.relocate`), and what is wrong with `p` is wrong with
`q ++ p ++ s`, unless more words would have helped (`Program.Misspelt.relocate`).
-/

namespace Wordcode

/-- More words behind the program would have helped. -/
def Fault.Truncated : Fault → Prop
  | .missingOpcode | .missingParameter _ => True
  | _ => False

namespace Program

variable (q s : Program) {p : Program} {ip : Nat}

theorem drop_relocate (h : ip ≤ p.size) :
    (q ++ p ++ s).toList.drop (q.size + ip) = p.toList.drop ip ++ s.toList := by
  have hq : q.toList.length = q.size := Array.length_toList
  have hp : p.toList.length = p.size := Array.length_toList
  rw [Array.toList_append, Array.toList_append, List.append_assoc, ← hq, List.drop_length_add_append,
    List.drop_append_of_le_length (by omega)]

theorem getElem?_relocate {w : Word} (h : p[ip]? = some w) :
    (q ++ p ++ s)[q.size + ip]? = some w := by
  have hlt : ip < p.size := (Array.getElem?_eq_some_iff.mp h).1
  have hdrop := drop_relocate q s (Nat.le_of_lt hlt)
  rw [drop_of_getElem? h, List.cons_append] at hdrop
  exact getElem?_eq_of_drop hdrop

theorem HasAt.relocate {c : Command} (h : p.HasAt ip c) : (q ++ p ++ s).HasAt (q.size + ip) c := by
  have hle := h.le_size
  unfold HasAt
  rw [drop_relocate q s (by omega)]
  exact List.IsPrefix.trans h (List.prefix_append _ _)

theorem Misspelt.relocate {f : Fault} (h : p.Misspelt ip f) (hs : s ≠ #[] → ¬ f.Truncated) :
    (q ++ p ++ s).Misspelt (q.size + ip) f := by
  cases f with
  | unknown | stackOverflow | stackUnderflow | jumpOutOfRange source offset => exact h.elim
  | invalidOpcode v => exact ⟨getElem?_relocate q s h.1, h.2⟩
  | explicitIHalt => exact getElem?_relocate q s h
  | missingOpcode =>
      obtain rfl : s = #[] := by simpa [Fault.Truncated] using hs
      have hle : p.size ≤ ip := h
      show (q ++ p ++ #[]).size ≤ q.size + ip
      simp
      omega
  | missingParameter op =>
      obtain rfl : s = #[] := by simpa [Fault.Truncated] using hs
      obtain ⟨hop, hne, hle⟩ := h
      refine ⟨getElem?_relocate q #[] hop, hne, ?_⟩
      simp
      omega
  | invalidRegister op v =>
      obtain ⟨hne, ws, hlen, hpre, hbad⟩ := h
      have hle : ip ≤ p.size := by
        by_contra hlt
        have hnil : p.toList.drop ip = [] := by
          apply List.drop_eq_nil_of_le
          rw [Array.length_toList]
          omega
        rw [hnil] at hpre
        cases List.prefix_nil.mp hpre
      refine ⟨hne, ws, hlen, ?_, hbad⟩
      rw [drop_relocate q s hle]
      exact hpre.trans (List.prefix_append _ _)

/-- What is fetched does not depend on the place. -/
theorem fetch_relocate (hs : s ≠ #[] → ∀ f, p.fetch ip = .error f → ¬ f.Truncated) :
    (q ++ p ++ s).fetch (q.size + ip) = p.fetch ip := by
  cases hfetch : p.fetch ip with
  | ok c => exact fetch_eq_ok_iff.mpr ((fetch_eq_ok_iff.mp hfetch).relocate q s)
  | error f =>
      have hspelt := fetch_eq_error_iff.mp hfetch
      exact fetch_eq_error_iff.mpr (hspelt.relocate q s fun hne => hs hne f hfetch)

end Program

namespace Machine

theorem faults_step_of_fetch_error {m : Machine} (low : m.ip.toNat < 2 ^ 63)
    (running : m.halted = false) {f : Fault} (h : m.program.fetch m.ip.toNat = .error f) :
    m.step.faults = [f] := by
  have hkind := (Program.fetch_eq_error h).kind_ne
  have hdecode : m.program.decode m.ip = .internalHalt f := by
    rw [Program.decode_eq_fetched, h]
    rfl
  have hstep : m.step = ⟨m.faultWith f, [.decoded m (.internalHalt f), .faulted f], none⟩ := by
    simp [step, running, hdecode, execute_internalHalt low hkind]
  rw [hstep]
  rfl

theorem le_size_of_decode_rjne {p : Program} {ip : Address} (h : (p.decode ip).opcode = .rjne) :
    ip.toNat + 3 ≤ p.size := by
  rw [Program.decode_eq_fetched] at h
  cases hfetch : p.fetch ip.toNat with
  | ok c =>
      have hle := (Program.fetch_eq_ok_iff.mp hfetch).le_size
      rw [hfetch] at h
      cases c with
      | rjne r offset => exact hle
      | _ => cases h
  | error f =>
      rw [hfetch] at h
      cases h

/-- One cycle in both places. -/
theorem step_relocated (q s : Program) {m m' : Machine} (h : m.Alike { shift := q.size } m')
    (hp : m'.program = q ++ m.program ++ s) (hm : m.Addressable) (hm' : m'.Addressable)
    (hjump : ∀ source offset, Fault.jumpOutOfRange source offset ∉ m.step.faults)
    (hend : s ≠ #[] → ∀ f ∈ m.step.faults, ¬ f.Truncated) :
    m.step.Alike { shift := q.size } m'.step := by
  have hdecode : m.halted = false → m'.program.decode m'.ip = m.program.decode m.ip := by
    intro running
    rw [Program.decode_eq_fetched, Program.decode_eq_fetched, hp, h.ip]
    refine congrArg Program.fetched (Program.fetch_relocate q s ?_)
    intro hs f hf
    apply hend hs
    rw [faults_step_of_fetch_error hm.ip_lt running hf]
    exact List.mem_singleton_self f
  apply h.step hdecode
  · intro running
    refine ⟨fun _ _ => trivial, Or.inr ?_, ?_⟩
    · have hlow := hm'.ip_lt
      have hcount := m.program.count_decode_le m.ip
      unfold UInt64.size
      omega
    · -- The whole of a jump lies in the longer program, far from the end of the address space.
      intro hop
      rw [← hdecode running] at hop
      have hle := le_size_of_decode_rjne hop
      have hmax := hm'.size_le
      unfold Program.maxSize at hmax
      omega
  · refine ⟨fun _ => rfl, m.step.machine.ideal.bounded, ?_⟩
    intro source offset hf
    exact absurd hf (hjump source offset)

/-- **Relocation.** Take any machine, put the words `q` in front of its program and the words `s`
behind it, and let the machine stand `q.size` words farther on. Unless its run records a jump to
before the start — or, when there is anything behind it, the end of the program — the run in the new
place completes, reports the same, and ends with the same machine, `q.size` words farther on. -/
theorem steps_relocated (q s : Program) {m : Machine} {a : Address}
    (size : (q ++ m.program ++ s).size ≤ Program.maxSize) (ha : a.toNat = q.size + m.ip.toNat)
    (low : a.toNat < 2 ^ 63) (n : Nat)
    (hjump : ∀ source offset, Fault.jumpOutOfRange source offset ∉ (steps n m).faults)
    (hend : s ≠ #[] → ∀ f ∈ (steps n m).faults, ¬ f.Truncated) :
    (steps n m).trap = none ∧
      (steps n m).Alike { shift := q.size }
        (steps n { m with program := q ++ m.program ++ s, ip := a }) := by
  have hsize : m.program.size ≤ Program.maxSize := by
    rw [Array.size_append, Array.size_append] at size
    omega
  have hm : m.Addressable := ⟨hsize, by omega⟩
  have hm' : Addressable { m with program := q ++ m.program ++ s, ip := a } := ⟨size, low⟩
  refine ⟨hm.trap_steps n, ?_⟩
  have hstart : m.Alike { shift := q.size } { m with program := q ++ m.program ++ s, ip := a } :=
    ⟨ha, rfl, fun _ => rfl, rfl, fun _ => rfl, fun _ => rfl, fun _ _ => rfl⟩
  apply hstart.steps_of_step
  intro k hk htrap halike
  have hsub : ∀ f ∈ (steps k m).machine.step.faults, f ∈ (steps n m).faults := by
    intro f hf
    exact mem_faults_steps hk htrap hf
  apply step_relocated q s halike
  · rw [program_steps, program_steps]
  · exact addressable_steps hm k
  · exact addressable_steps hm' k
  · intro source offset hf
    exact hjump source offset (hsub _ hf)
  · intro hs f hf
    exact hend hs f (hsub f hf)

/-- Three rounds of a loop that counts down, with three words in front of it and one behind. -/
theorem steps_relocated_loop :
    let p : Program := #[1, 1, 6, 0, 7, 0, -2, 8]
    let q : Program := #[8, 8, 8]
    let s : Program := #[9]
    (q ++ p ++ s).size ≤ Program.maxSize ∧
      (3 : Address).toNat = q.size + (load p).ip.toNat ∧
      (3 : Address).toNat < 2 ^ 63 ∧
      (steps 7 (load p)).faults = [] ∧
      (steps 7 (load p)).machine.register .a = -3 ∧
      (steps 7 (load p)).Alike { shift := 3 }
        (steps 7 { load p with program := q ++ p ++ s, ip := 3 }) := by
  intro p q s
  have size : (q ++ p ++ s).size ≤ Program.maxSize := by decide
  have none_recorded : (steps 7 (load p)).faults = [] := by decide
  have hrun := steps_relocated q s (m := load p) (a := 3) size rfl (by decide) 7
    (by simp [none_recorded]) (by simp [none_recorded])
  exact ⟨size, rfl, by decide, none_recorded, by decide, hrun.2⟩

end Machine

end Wordcode
