import Wordcode.Word

/-!
# Registers

Six registers, `a` to `f`, each of them one word. A `RegisterFile` holds all six; reading from one
and writing to one are the only two things done with it, and `read_write` says how the two interact:
a write changes the register it names and no other.
-/

namespace Wordcode

/-- One of the six registers. -/
inductive Register where
  | a | b | c | d | e | f
deriving DecidableEq, Repr

namespace Register

def all : List Register := [a, b, c, d, e, f]

def index : Register → Fin 6
  | a => 0
  | b => 1
  | c => 2
  | d => 3
  | e => 4
  | f => 5

def code (r : Register) : Word := Int32.ofNat r.index

/-- The register that a word stands for, if it stands for one. -/
def ofCode? (w : Word) : Option Register := all.find? (·.code = w)

/-- The name a register goes by in listings. -/
def name : Register → String
  | a => "REG_A"
  | b => "REG_B"
  | c => "REG_C"
  | d => "REG_D"
  | e => "REG_E"
  | f => "REG_F"

/-- The name a register goes by in structured output. -/
def label : Register → String
  | a => "A"
  | b => "B"
  | c => "C"
  | d => "D"
  | e => "E"
  | f => "F"

@[simp] theorem ofCode?_code (r : Register) : ofCode? r.code = some r := by
  cases r <;> decide

theorem ofCode?_eq_some_iff {w : Word} {r : Register} : ofCode? w = some r ↔ r.code = w := by
  constructor
  · intro h
    simpa using List.find?_some h
  · rintro rfl
    exact ofCode?_code r

theorem index_inj {r s : Register} : r.index = s.index ↔ r = s := by
  cases r <;> cases s <;> decide

end Register

/-- The contents of the six registers. -/
structure RegisterFile where
  words : Vector Word 6
deriving DecidableEq

namespace RegisterFile

def zero : RegisterFile := ⟨Vector.replicate 6 0⟩

def read (file : RegisterFile) (r : Register) : Word := file.words[r.index]

def write (file : RegisterFile) (r : Register) (v : Word) : RegisterFile :=
  ⟨file.words.set r.index v⟩

/-- The contents of all registers, from `a` on. -/
def toList (file : RegisterFile) : List Word := Register.all.map file.read

theorem read_write (file : RegisterFile) (r s : Register) (v : Word) :
    (file.write r v).read s = if r = s then v else file.read s := by
  simp only [read, write, Fin.getElem_fin, Vector.getElem_set, Fin.val_inj, Register.index_inj]

@[simp] theorem read_write_self (file : RegisterFile) (r : Register) (v : Word) :
    (file.write r v).read r = v := by
  simp [read_write]

theorem read_write_of_ne (file : RegisterFile) {r s : Register} (h : r ≠ s) (v : Word) :
    (file.write r v).read s = file.read s := by
  simp [read_write, h]

/-- Register files are known by what is read from them. -/
theorem ext_read {x y : RegisterFile} (h : ∀ r, x.read r = y.read r) : x = y := by
  have names : ∀ i : Fin 6, ∃ r ∈ Register.all, r.index = i := by decide
  obtain ⟨x⟩ := x
  obtain ⟨y⟩ := y
  congr 1
  ext i hi
  obtain ⟨r, -, hr⟩ := names ⟨i, hi⟩
  have hri : r.index.val = i := congrArg Fin.val hr
  simpa only [read, Fin.getElem_fin, hri] using h r

end RegisterFile

end Wordcode
