import Wordcode.Proofs.Command
import Wordcode.Proofs.Fault.Carried

/-!
# Which words spell a fault

`Fault.encode` and `Fault.ofWords` were made for words that a fault was written to. But an internal
halt may be made by hand, and then it carries any words whatever. This file is about reading those.

Two questions have to be answered of a reader, and the second is the one that tests forget:

* `Fault.toWords_isPrefix_of_ne_unknown` — does it add anything? What is read from words, other than
  `unknown`, is written just as these words begin.
* `Fault.ofWords_eq_unknown_iff` — does it miss anything? Words are read as `unknown` if there is one
  of a few things wrong with them (`Fault.Unreadable`), and in no other case.

So `encode` undoes `ofWords` wherever there is something to undo (`Fault.encode_ofWords`).
-/

namespace Wordcode

namespace Fault

/-- What can be wrong with words that should spell a fault. -/
def Unreadable (ws : List Word) : Prop :=
  ws = [] ∨
    (∃ code, ws[0]? = some code ∧ (code.toInt < 1 ∨ 8 < code.toInt)) ∨
    ((ws[0]? = some 3 ∨ ws[0]? = some 6) ∧ ws.length < 2) ∨
    ((ws[0]? = some 7 ∨ ws[0]? = some 8) ∧ ws.length < 3) ∨
    ((ws[0]? = some 3 ∨ ws[0]? = some 7) ∧
      ∃ op, ws[1]? = some op ∧ (op.toInt < 0 ∨ 9 < op.toInt)) ∨
    (ws[0]? = some 8 ∧ ∃ source, ws[1]? = some source ∧ source.toInt < 0)

/-! ## What is read was written there -/

theorem sourceWord_ofNat {w : Word} (h : 0 ≤ w.toInt) :
    sourceWord (UInt64.ofNat w.toInt.toNat) = w := by
  have hlt := w.toInt_lt
  have hfits : w.toInt.toNat < UInt64.size := by
    unfold UInt64.size
    omega
  have hread : (UInt64.ofNat w.toInt.toNat).toNat = w.toInt.toNat :=
    UInt64.toNat_ofNat_of_lt' hfits
  have hnear : w.toInt.toNat ≤ farSource.toInt.toNat := by
    show w.toInt.toNat ≤ 2 ^ 31 - 1
    omega
  rw [sourceWord, hread, if_pos hnear, Word.ofNat_toNat_toInt h]

/-- What is read with the details of a kind is of that kind, and its details are the first ones. -/
theorem ofDetails?_eq_some {k : Kind} {ws : List Word} {f : Fault}
    (h : ofDetails? k ws = some f) : f.kind = k ∧ f.details <+: ws := by
  cases k with
  | unknown | explicitIHalt | missingOpcode | stackOverflow | stackUnderflow =>
      obtain rfl := Option.some.inj h
      exact ⟨rfl, List.nil_prefix⟩
  | missingParameter =>
      rcases ws with _ | ⟨w, ws⟩
      · cases h
      · obtain ⟨op, hop, rfl⟩ := Option.map_eq_some_iff.mp h
        obtain rfl := Opcode.ofCode?_eq_some_iff.mp hop
        exact ⟨rfl, ws, rfl⟩
  | invalidOpcode =>
      rcases ws with _ | ⟨w, ws⟩
      · cases h
      · obtain rfl := Option.some.inj h
        exact ⟨rfl, ws, rfl⟩
  | invalidRegister =>
      rcases ws with _ | ⟨w, _ | ⟨x, ws⟩⟩
      · cases h
      · cases h
      · obtain ⟨op, hop, rfl⟩ := Option.map_eq_some_iff.mp h
        obtain rfl := Opcode.ofCode?_eq_some_iff.mp hop
        exact ⟨rfl, ws, rfl⟩
  | jumpOutOfRange =>
      rcases ws with _ | ⟨w, _ | ⟨x, ws⟩⟩
      · cases h
      · cases h
      · obtain ⟨hw, hf⟩ := Option.ite_none_right_eq_some.mp h
        obtain rfl := Option.some.inj hf
        refine ⟨rfl, ws, ?_⟩
        rw [details, sourceWord_ofNat hw]
        rfl

theorem ofWords_code_cons (k : Kind) (ws : List Word) :
    ofWords (k.code :: ws) = (ofDetails? k ws).getD unknown := by
  rw [ofWords, Kind.ofCode?_code, Option.bind_some]

/-- **Nothing is read that is not there.** -/
theorem toWords_isPrefix_of_ne_unknown {ws : List Word} (h : ofWords ws ≠ unknown) :
    (ofWords ws).toWords <+: ws := by
  rcases ws with _ | ⟨w, ws⟩
  · exact absurd rfl h
  cases hk : Kind.ofCode? w with
  | none => simp [ofWords, hk] at h
  | some k =>
      obtain rfl := Kind.ofCode?_eq_some_iff.mp hk
      rw [ofWords_code_cons] at h ⊢
      cases hf : ofDetails? k ws with
      | none => simp [hf] at h
      | some f =>
          obtain ⟨rfl, hdetails⟩ := ofDetails?_eq_some hf
          exact List.cons_prefix_cons.mpr ⟨rfl, hdetails⟩

/-! ## What is wrong with words that cannot be read -/

theorem getD_map_ofCode?_eq_unknown_iff (make : Opcode → Fault) (h : ∀ op, make op ≠ unknown)
    (w : Word) :
    ((Opcode.ofCode? w).map make).getD unknown = unknown ↔ w.toInt < 0 ∨ 9 < w.toInt := by
  rw [← Opcode.ofCode?_eq_none_iff]
  cases Opcode.ofCode? w with
  | none => simp
  | some op => simp [h op]

/-- Of the words behind the code of a kind, it depends on the kind what can be wrong with them. -/
theorem ofWords_code_cons_eq_unknown_iff (k : Kind) (ws : List Word) :
    ofWords (k.code :: ws) = unknown ↔ Unreadable (k.code :: ws) := by
  rw [ofWords_code_cons]
  cases k with
  | unknown | explicitIHalt | missingOpcode | stackOverflow | stackUnderflow =>
      simp [ofDetails?, Unreadable, Kind.code]
  | missingParameter =>
      rcases ws with _ | ⟨w, ws⟩
      · simp [ofDetails?, Unreadable, Kind.code]
      · have hname := getD_map_ofCode?_eq_unknown_iff missingParameter (by simp) w
        have hlong : ¬ ws.length + 1 + 1 < 2 := by omega
        simp [ofDetails?, Unreadable, Kind.code, hname, hlong]
  | invalidOpcode =>
      rcases ws with _ | ⟨w, ws⟩
      · simp [ofDetails?, Unreadable, Kind.code]
      · simp [ofDetails?, Unreadable, Kind.code]
  | invalidRegister =>
      rcases ws with _ | ⟨w, _ | ⟨x, ws⟩⟩
      · simp [ofDetails?, Unreadable, Kind.code]
      · simp [ofDetails?, Unreadable, Kind.code]
      · have hname := getD_map_ofCode?_eq_unknown_iff (invalidRegister · x) (by simp) w
        have hlong : ¬ ws.length + 1 + 1 + 1 < 3 := by omega
        simp [ofDetails?, Unreadable, Kind.code, hname, hlong]
  | jumpOutOfRange =>
      rcases ws with _ | ⟨w, _ | ⟨x, ws⟩⟩
      · simp [ofDetails?, Unreadable, Kind.code]
      · simp [ofDetails?, Unreadable, Kind.code]
      · by_cases hw : 0 ≤ w.toInt
        · simp [ofDetails?, Unreadable, Kind.code, hw, Int.not_lt.mpr hw]
        · simp [ofDetails?, Unreadable, Kind.code, hw, Int.not_le.mp hw]

/-- **Nothing that can be read is missed.** -/
theorem ofWords_eq_unknown_iff (ws : List Word) : ofWords ws = unknown ↔ Unreadable ws := by
  rcases ws with _ | ⟨w, ws⟩
  · simp [ofWords, Unreadable]
  cases hk : Kind.ofCode? w with
  | none =>
      have hrange := Kind.ofCode?_eq_none_iff.mp hk
      have hbad : Unreadable (w :: ws) := Or.inr (Or.inl ⟨w, rfl, by omega⟩)
      simp [ofWords, hk, hbad]
  | some k =>
      obtain rfl := Kind.ofCode?_eq_some_iff.mp hk
      exact ofWords_code_cons_eq_unknown_iff k ws

/-- Words that spell the same fault begin in the same way. -/
theorem take_eq_take_of_ofWords_eq {ws ws' : List Word} (h : ofWords ws ≠ unknown)
    (same : ofWords ws' = ofWords ws) :
    ws'.take (ofWords ws).toWords.length = ws.take (ofWords ws).toWords.length := by
  have hws := List.prefix_iff_eq_take.mp (toWords_isPrefix_of_ne_unknown h)
  have h' : ofWords ws' ≠ unknown := same ▸ h
  have hws' := List.prefix_iff_eq_take.mp (toWords_isPrefix_of_ne_unknown h')
  rw [same] at hws'
  rw [← hws, ← hws']

/-- **Writing undoes reading.** Whatever words are read, the fault that they spell takes some of the
slots, but no more than there are words, and writing it puts the first ones back and touches no other
slot; and words that spell the same fault are the same there. Or else it is `unknown`, and that
it is exactly when something is wrong with the words. -/
theorem encode_ofWords (ws : List Word) :
    (ofWords ws ≠ unknown → ∀ slots : Slots,
      1 ≤ ((ofWords ws).encode slots).2 ∧
        ((ofWords ws).encode slots).2 ≤ ws.length ∧
        (ofWords ws).toWords <+: ws ∧
        ((ofWords ws).encode slots).1.toList.take ((ofWords ws).encode slots).2 =
          ws.take ((ofWords ws).encode slots).2 ∧
        (∀ (k : Nat) (hk : k < slotCount), ((ofWords ws).encode slots).2 ≤ k →
          ((ofWords ws).encode slots).1[k] = slots[k]) ∧
        ∀ ws', ofWords ws' = ofWords ws →
          ws'.take ((ofWords ws).encode slots).2 = ws.take ((ofWords ws).encode slots).2) ∧
      (ofWords ws = unknown ↔ Unreadable ws) := by
  refine ⟨?_, ofWords_eq_unknown_iff ws⟩
  intro h slots
  have hfront := toWords_isPrefix_of_ne_unknown h
  refine ⟨Nat.succ_pos _, hfront.length_le, hfront, ?_, ?_, fun ws' => take_eq_take_of_ofWords_eq h⟩
  · rw [take_encode]
    exact List.prefix_iff_eq_take.mp hfront
  · intro k hk hle
    exact (ofWords ws).getElem_encode_of_le slots hk hle

/-- Of four words that blame a `set` for the register 9, three are put back, and the slot behind them
keeps its 1. -/
theorem encode_ofWords_invalidRegister :
    let ws : List Word := [7, 3, 9, 42]
    let written := (ofWords ws).encode (Slots.fill 1)
    ofWords ws ≠ unknown ∧ ofWords ws = invalidRegister .set 9 ∧ ¬ Unreadable ws ∧
      written.2 = 3 ∧ written.1.toList.take written.2 = [7, 3, 9] ∧ written.1[3] = 1 := by
  intro ws written
  have hread : ofWords ws = invalidRegister .set 9 := by decide
  have readable : ofWords ws ≠ unknown := by simp [hread]
  obtain ⟨hwrite, hwrong⟩ := encode_ofWords ws
  obtain ⟨-, -, -, htake, hrest, -⟩ := hwrite readable (Slots.fill 1)
  exact ⟨readable, hread, fun bad => readable (hwrong.mpr bad), by decide, htake,
    hrest 3 (by decide) (by decide)⟩

/-- A jump does not come from before the start; and words beyond those that it takes do not matter. -/
example : ofWords [8, -1, -4] = unknown ∧ ofWords [8, 0, -4, 99] = jumpOutOfRange 0 (-4) := by
  decide

end Fault

end Wordcode
