import Mathlib.Data.List.Basic
import Wordcode.Decimal
import Wordcode.Opcode
import Wordcode.Register

/-!
# Texts that can be taken apart

Whatever the machine prints is made of lines, and lines are made of words with blanks between them.
Such a text can be read only as long as no word has a blank in it and no line has a line end in it;
then the lines can be told from the text (`lines_join`), and the words from the line (`unwords_inj`),
just as numbers can with commas between them (`intercalate_inj`).

What is a word is a matter of its characters alone: words that are put together are a word
(`isWord_append`), and so are numbers (`isWord_ofInt`) and names. Numbers are known by their text
(`ofInt_inj`), and so are opcodes and registers by their names.
-/

namespace Wordcode

/-! ## Pieces and what stands behind them -/

section

variable {c : Char} {t : List Char} {xs ys : List (List Char)}

/-- A text can be cut in only one way in front of the first `c`. -/
theorem append_cons_inj {x y r s : List Char} (hx : c ∉ x) (hy : c ∉ y)
    (h : x ++ c :: r = y ++ c :: s) : x = y ∧ r = s := by
  induction x generalizing y with
  | nil => cases y with
    | nil => simpa using h
    | cons b y =>
        obtain ⟨rfl, -⟩ := List.cons.inj h
        exact absurd List.mem_cons_self hy
  | cons a x ih => cases y with
    | nil =>
        obtain ⟨rfl, -⟩ := List.cons.inj h
        exact absurd List.mem_cons_self hx
    | cons b y =>
        obtain ⟨rfl, hrest⟩ := List.cons.inj h
        obtain ⟨rfl, rfl⟩ := ih (mt (List.mem_cons_of_mem _) hx) (mt (List.mem_cons_of_mem _) hy) hrest
        exact ⟨rfl, rfl⟩

/-- Pieces can be told from a text in which something stands behind each of them that does not start
like any part of a piece. -/
theorem flatMap_append_inj (hx : ∀ x ∈ xs, c ∉ x) (hy : ∀ y ∈ ys, c ∉ y)
    (h : xs.flatMap (· ++ c :: t) = ys.flatMap (· ++ c :: t)) : xs = ys := by
  induction xs generalizing ys with
  | nil => cases ys with
    | nil => rfl
    | cons y ys => simp at h
  | cons x xs ih => cases ys with
    | nil => simp at h
    | cons y ys =>
        obtain ⟨hcx, hxs⟩ := List.forall_mem_cons.mp hx
        obtain ⟨hcy, hys⟩ := List.forall_mem_cons.mp hy
        simp only [List.flatMap_cons, List.append_assoc, List.cons_append] at h
        obtain ⟨rfl, hrest⟩ := append_cons_inj hcx hcy h
        rw [ih hxs hys (List.append_cancel_left hrest)]

theorem intercalate_cons (x : List Char) (xs : List (List Char)) :
    t.intercalate (x :: xs) = x ++ xs.flatMap (t ++ ·) := by
  induction xs generalizing x with
  | nil => simp
  | cons x' xs ih => simp [List.intercalate_cons_cons, ih]

theorem intercalate_append (h : xs ≠ []) : t.intercalate xs ++ t = xs.flatMap (· ++ t) := by
  induction xs with
  | nil => exact absurd rfl h
  | cons x xs ih => cases xs with
    | nil => simp
    | cons x' xs =>
        have hrest := ih (List.cons_ne_nil x' xs)
        rw [List.intercalate_cons_cons, List.append_assoc, hrest]
        rfl

theorem notMem_intercalate (ht : c ∉ t) (hx : ∀ x ∈ xs, c ∉ x) : c ∉ t.intercalate xs := by
  cases xs with
  | nil => simp
  | cons x xs =>
      obtain ⟨hcx, hxs⟩ := List.forall_mem_cons.mp hx
      simpa [intercalate_cons, hcx, ht] using hxs

theorem intercalate_concat_nil : t.intercalate (xs ++ [[]]) = xs.flatMap (· ++ t) := by
  cases xs with
  | nil => simp
  | cons x xs =>
      rw [← intercalate_append (List.cons_ne_nil x xs), List.cons_append, intercalate_cons,
        intercalate_cons]
      simp

theorem intercalate_eq_nil_iff (hx : ∀ x ∈ xs, x ≠ []) : t.intercalate xs = [] ↔ xs = [] := by
  constructor
  · intro h
    cases xs with
    | nil => rfl
    | cons x xs =>
        have hne := hx x List.mem_cons_self
        cases xs <;> simp [hne] at h
  · rintro rfl
    rfl

/-- Pieces with a separator between them can be told from the text, if none of them is empty or could
have the separator in it. -/
theorem intercalate_inj (hx : ∀ x ∈ xs, x ≠ [] ∧ c ∉ x) (hy : ∀ y ∈ ys, y ≠ [] ∧ c ∉ y)
    (h : (c :: t).intercalate xs = (c :: t).intercalate ys) : xs = ys := by
  have hnil : xs = [] ↔ ys = [] := by
    rw [← intercalate_eq_nil_iff fun x m => (hx x m).1, h,
      intercalate_eq_nil_iff fun y m => (hy y m).1]
  by_cases hxs : xs = []
  · rw [hxs, hnil.mp hxs]
  · apply flatMap_append_inj (fun x m => (hx x m).2) (fun y m => (hy y m).2) (t := t)
    rw [← intercalate_append hxs, ← intercalate_append (mt hnil.mpr hxs), h]

end

/-- The lines of a text, each of which has a line end behind it. -/
def lines (s : String) : List String :=
  ((s.toList.splitOn '\n').dropLast).map String.ofList

theorem lines_join {ls : List String} (hl : ∀ l ∈ ls, '\n' ∉ l.toList) :
    lines (String.join (ls.map (· ++ "\n"))) = ls := by
  -- Behind the last line end there is one more piece, and nothing in it.
  have htext : (String.join (ls.map (· ++ "\n"))).toList =
      ['\n'].intercalate (ls.map String.toList ++ [[]]) := by
    rw [intercalate_concat_nil]
    simp [List.flatMap_map]
  have hpieces : ∀ x ∈ ls.map String.toList ++ [[]], '\n' ∉ x := by
    intro x hx
    rcases List.mem_append.mp hx with hx | hx
    · obtain ⟨l, hmem, rfl⟩ := List.mem_map.mp hx
      exact hl l hmem
    · simp [List.mem_singleton.mp hx]
  rw [lines, htext, List.splitOn_intercalate _ hpieces (by simp), List.dropLast_concat, List.map_map]
  simp

/-- A word: there is something to it, but no blank and no line end. -/
structure IsWord (s : String) : Prop where
  ne_empty : s ≠ ""
  blank : ' ' ∉ s.toList
  newline : '\n' ∉ s.toList

instance (s : String) : Decidable (IsWord s) :=
  decidable_of_iff (s ≠ "" ∧ ' ' ∉ s.toList ∧ '\n' ∉ s.toList)
    ⟨fun ⟨h, h', h''⟩ => ⟨h, h', h''⟩, fun ⟨h, h', h''⟩ => ⟨h, h', h''⟩⟩

/-- A line of words. -/
def unwords (ws : List String) : String := " ".intercalate ws

theorem unwords_cons (w : String) (ws : List String) :
    unwords (w :: ws) = w ++ String.join (ws.map (" " ++ ·)) := by
  have hchars : (unwords (w :: ws)).toList =
      w.toList ++ (ws.map String.toList).flatMap ([' '] ++ ·) := by
    rw [unwords, String.toList_intercalate, List.map_cons]
    exact intercalate_cons w.toList (ws.map String.toList)
  rw [← String.toList_inj, hchars]
  simp [List.flatMap_map]

/-- Behind the first word of a line there is a blank, if there is more. -/
theorem unwords_cons_cons (w w' : String) (ws : List String) :
    unwords (w :: w' :: ws) = w ++ " " ++ unwords (w' :: ws) := by
  rw [← String.toList_inj]
  simp [unwords_cons]

theorem isWord_append {s t : String} (hs : IsWord s) (ht : IsWord t) : IsWord (s ++ t) where
  ne_empty := by simp [hs.ne_empty]
  blank := by simp [hs.blank, ht.blank]
  newline := by simp [hs.newline, ht.newline]

theorem unwords_inj {ws ws' : List String} (hw : ∀ w ∈ ws, IsWord w) (hw' : ∀ w ∈ ws', IsWord w)
    (h : unwords ws = unwords ws') : ws = ws' := by
  have hchars : ws.map String.toList = ws'.map String.toList := by
    apply intercalate_inj (c := ' ') (t := [])
    · simpa using fun w m => And.intro (hw w m).ne_empty (hw w m).blank
    · simpa using fun w m => And.intro (hw' w m).ne_empty (hw' w m).blank
    · simpa [unwords, String.toList_intercalate] using congrArg String.toList h
  exact List.map_injective_iff.mpr (fun _ _ => String.toList_inj.mp) hchars

theorem newline_notMem_unwords {ws : List String} (hw : ∀ w ∈ ws, IsWord w) :
    '\n' ∉ (unwords ws).toList := by
  rw [unwords, String.toList_intercalate]
  apply notMem_intercalate (by decide)
  simpa using fun w m => (hw w m).newline

/-! ## Numbers -/

namespace Decimal

theorem ofNat_inj {n m : Nat} : ofNat n = ofNat m ↔ n = m := by
  refine ⟨fun h => ?_, congrArg ofNat⟩
  have hread := congrArg readNat? h
  rw [readNat?_ofNat, readNat?_ofNat] at hread
  exact Option.some.inj hread

theorem ofInt_inj {i j : Int} : ofInt i = ofInt j ↔ i = j := by
  refine ⟨fun h => ?_, congrArg ofInt⟩
  have hread := congrArg readInt? h
  rw [readInt?_ofInt, readInt?_ofInt] at hread
  exact Option.some.inj hread

theorem ofInt_ne_empty (i : Int) : ofInt i ≠ "" := by
  intro h
  have hread := readInt?_ofInt i
  rw [h] at hread
  cases hread

theorem mem_ofInt {i : Int} {c : Char} (h : c ∈ (ofInt i).toList) :
    c = '-' ∨ '0' ≤ c ∧ c ≤ '9' := by
  cases i with
  | ofNat n =>
      rw [ofInt, ofNat, String.toList_ofList] at h
      exact .inr (digits_isDigit n c h)
  | negSucc n =>
      rw [ofInt, String.toList_append] at h
      rcases List.mem_append.mp h with h | h
      · exact .inl (by simpa using h)
      · rw [ofNat, String.toList_ofList] at h
        exact .inr (digits_isDigit (n + 1) c h)

theorem notMem_ofInt {c : Char} (h : ¬ (c = '-' ∨ '0' ≤ c ∧ c ≤ '9')) (i : Int) :
    c ∉ (ofInt i).toList :=
  mt mem_ofInt h

theorem isWord_ofInt (i : Int) : IsWord (ofInt i) :=
  ⟨ofInt_ne_empty i, notMem_ofInt (by decide) i, notMem_ofInt (by decide) i⟩

theorem isWord_ofNat (n : Nat) : IsWord (ofNat n) := isWord_ofInt n

end Decimal

/-! ## Names -/

theorem Opcode.mnemonic_inj {op op' : Opcode} : op.mnemonic = op'.mnemonic ↔ op = op' := by
  cases op <;> cases op' <;> decide

theorem Opcode.isWord_mnemonic (op : Opcode) : IsWord op.mnemonic := by
  cases op <;> decide

theorem Register.isWord_name (r : Register) : IsWord r.name := by
  cases r <;> decide

end Wordcode
