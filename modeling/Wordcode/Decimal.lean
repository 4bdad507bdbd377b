/-!
# Decimal numbers

Numbers are written in base ten without leading zeros, a negative one behind a minus sign. Reading is
more generous than writing: leading zeros are skipped over, and a plus sign is allowed where a
minus sign is. Nothing else is: no blanks, no separators, no empty text.

The two directions fit: `readInt?_ofInt` and `readNat?_ofNat` say that what was written is read
back, so no two numbers share a text.
-/

namespace Wordcode.Decimal

def digitChar (d : Nat) : Char := Char.ofNat ('0'.toNat + d)

/-- The value of a digit, if `c` is one of the ten. -/
def digit? (c : Char) : Option Nat :=
  if '0' ≤ c ∧ c ≤ '9' then some (c.toNat - '0'.toNat) else none

/-- The digits of `n`, most significant first. -/
def digits (n : Nat) : List Char :=
  if n < 10 then [digitChar n] else digits (n / 10) ++ [digitChar (n % 10)]

def appendDigit (value : Nat) (c : Char) : Option Nat := (digit? c).map (10 * value + ·)

/-- The value of a non-empty run of digits. -/
def readDigits? : List Char → Option Nat
  | [] => none
  | c :: cs => (c :: cs).foldlM appendDigit 0

/-! ### Writing -/

def ofNat (n : Nat) : String := String.ofList (digits n)

def ofInt : Int → String
  | .ofNat n => ofNat n
  | .negSucc n => "-" ++ ofNat (n + 1)

/-! ### Reading -/

/-- A natural number: digits, perhaps behind a plus sign. -/
def readNat? (s : String) : Option Nat :=
  match s.toList with
  | '+' :: cs => readDigits? cs
  | cs => readDigits? cs

/-- An integer: digits, perhaps behind one sign. -/
def readInt? (s : String) : Option Int :=
  match s.toList with
  | '-' :: cs => (readDigits? cs).map fun n => -(n : Int)
  | '+' :: cs => (readDigits? cs).map Int.ofNat
  | cs => (readDigits? cs).map Int.ofNat

/-- Whether a text is a real number: digits with a point and an exponent, either of which may be
missing, perhaps behind one sign. Infinity and the indefinite number are spelled out. -/
def isReal (cs : List Char) : Bool :=
  match cs with
  | '+' :: cs | '-' :: cs => unsigned cs
  | cs => unsigned cs
where
  /-- A real number without its sign. -/
  unsigned (cs : List Char) : Bool :=
    let rest := cs.dropWhile Char.isDigit
    let (fraction, rest) :=
      match rest with
      | '.' :: rest => (rest.takeWhile Char.isDigit, rest.dropWhile Char.isDigit)
      | rest => ([], rest)
    ((cs.takeWhile Char.isDigit ++ fraction) ≠ [] && isExponent rest)
      || String.ofList (cs.map Char.toLower) ∈ ["inf", "infinity", "nan"]
  isExponent : List Char → Bool
    | [] => true
    | 'e' :: '+' :: cs | 'e' :: '-' :: cs | 'e' :: cs
    | 'E' :: '+' :: cs | 'E' :: '-' :: cs | 'E' :: cs => cs ≠ [] && cs.all Char.isDigit
    | _ => false

/-! ### What was written is read back -/

theorem digit?_digitChar {d : Nat} (h : d < 10) : digit? (digitChar d) = some d := by
  have : ∀ d : Fin 10, digit? (digitChar d) = some d.val := by decide
  exact this ⟨d, h⟩

theorem digits_ne_nil (n : Nat) : digits n ≠ [] := by
  rw [digits]
  split <;> simp

/-- The digits of `n` have the value `n`, whatever stands behind them. -/
theorem foldlM_digits (n : Nat) : (digits n).foldlM appendDigit 0 = some n := by
  induction n using Nat.strongRecOn with
  | _ n ih =>
    rw [digits]
    split
    · next h => simp [appendDigit, digit?_digitChar h]
    · next h =>
      have hm : n % 10 < 10 := Nat.mod_lt _ (by decide)
      simp [List.foldlM_append, ih (n / 10) (by omega), appendDigit, digit?_digitChar hm]
      omega

theorem readDigits?_digits (n : Nat) : readDigits? (digits n) = some n := by
  rw [← foldlM_digits n]
  cases h : digits n with
  | nil => exact absurd h (digits_ne_nil n)
  | cons c cs => rfl

theorem digits_isDigit (n : Nat) : ∀ c ∈ digits n, '0' ≤ c ∧ c ≤ '9' := by
  induction n using Nat.strongRecOn with
  | _ n ih =>
    have hd : ∀ d : Fin 10, '0' ≤ digitChar d ∧ digitChar d ≤ '9' := by decide
    rw [digits]
    split
    · next h => simpa using hd ⟨n, h⟩
    · next h =>
      intro c hc
      rcases List.mem_append.1 hc with hc | hc
      · exact ih (n / 10) (by omega) c hc
      · rw [List.mem_singleton.1 hc]
        exact hd ⟨n % 10, Nat.mod_lt _ (by decide)⟩

theorem readNat?_ofNat (n : Nat) : readNat? (ofNat n) = some n := by
  unfold readNat? ofNat
  rw [String.toList_ofList]
  split
  · next cs h =>
    have := digits_isDigit n '+' (by simp [h])
    exact absurd this (by decide)
  · exact readDigits?_digits n

theorem readInt?_ofInt (i : Int) : readInt? (ofInt i) = some i := by
  cases i with
  | ofNat n =>
    unfold readInt? ofInt ofNat
    rw [String.toList_ofList]
    split
    · next cs h => exact absurd (digits_isDigit n '-' (by simp [h])) (by decide)
    · next cs h => exact absurd (digits_isDigit n '+' (by simp [h])) (by decide)
    · rw [readDigits?_digits]; rfl
  | negSucc n =>
    simp [readInt?, ofInt, ofNat, readDigits?_digits]
    omega

end Wordcode.Decimal
