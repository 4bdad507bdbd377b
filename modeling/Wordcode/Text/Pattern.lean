import Wordcode.Text.Alphanumeric
import Wordcode.Text.Blank

/-!
# The syntax of patterns

A pattern is a regular expression. Nothing here matches one against a text; what can be told is whether
it is well formed, which is all that matters of a pattern that is never put to use.

The patterns in question stand between braces, in a list with commas. So a closing brace cannot occur
in one, and whatever would need it — a counted repetition, a code point or a property by its full
name — is not well formed.

## Modes

Flags such as `(?x)` change the modes in which the rest of a group is read. Three of them matter to the
syntax. In *verbose* mode, blanks and comments are skipped. In *Unicode* mode, which is the normal one,
a pattern is about characters, and outside of it about bytes. And case may be *ignored*.

About characters, patterns know the code point and nothing more: no table says which of them are
letters, digits or blanks, or what the other case of a letter is. So in Unicode mode, what would need
such a table is refused: `\d`, `\s` and `\w`, boundaries of words, properties, and any character or
set of characters whose case is to be ignored. Outside of Unicode mode all of these are about ASCII
and are fine, properties apart; what is refused there is whatever could match a part of a character,
such as the dot, a negated set, or a single byte beyond ASCII.
-/

namespace Wordcode.Text.Pattern

/-- How a part of a pattern is read. -/
structure Modes where
  verbose : Bool := false
  /-- Whether characters are matched, and not bytes. -/
  unicode : Bool := true
  ignoreCase : Bool := false

/-- What is left after blanks and comments, of which one may have begun already. -/
def dropIgnored : (comment : Bool) → List Char → List Char
  | _, [] => []
  | true, c :: cs => dropIgnored (c ≠ '\n') cs
  | false, c :: cs =>
    if isBlank c then dropIgnored false cs
    else if c = '#' then dropIgnored true cs
    else c :: cs

def Modes.skip (m : Modes) (cs : List Char) : List Char :=
  if m.verbose then dropIgnored false cs else cs

theorem length_dropIgnored_le (comment : Bool) (cs : List Char) :
    (dropIgnored comment cs).length ≤ cs.length := by
  fun_induction dropIgnored comment cs <;> grind

theorem Modes.length_skip_le (m : Modes) (cs : List Char) : (m.skip cs).length ≤ cs.length := by
  unfold Modes.skip
  split
  · exact length_dropIgnored_le false cs
  · exact Nat.le_refl _

/-- The character that a dash takes for its neighbour, given what follows the dash. Blanks are passed
over as the modes say, but of a comment only the mark that begins it. -/
def Modes.neighbour? (m : Modes) (cs : List Char) : Option Char :=
  if m.verbose then
    match cs.dropWhile isBlank with
    | '#' :: cs => (cs.dropWhile isBlank).head?
    | cs => cs.head?
  else cs.head?

/-! ### Single items -/

/-- What an item of a pattern stands for. -/
inductive Item where
  | literal (code : Nat)
  | set
  | place

def hexDigit? (c : Char) : Option Nat :=
  if '0' ≤ c ∧ c ≤ '9' then some (c.toNat - '0'.toNat)
  else if 'a' ≤ c.toLower ∧ c.toLower ≤ 'f' then some (c.toLower.toNat - 'a'.toNat + 10)
  else none

def readCode? (m : Modes) : (digits value : Nat) → List Char → Option (Nat × List Char)
  | 0, value, cs => if value.isValidChar then some (value, cs) else none
  | digits + 1, value, cs =>
    match m.skip cs with
    | [] => none
    | c :: cs => do readCode? m digits (16 * value + (← hexDigit? c)) cs

def readEscape? (m : Modes) : List Char → Option (Item × List Char)
  | [] => none
  | c :: cs =>
    match c with
    | 'd' | 's' | 'w' => if m.unicode then none else some (.set, cs)
    | 'x' => do
      let (code, cs) ← readCode? m 2 0 cs
      if m.unicode ∨ code < 128 then some (.literal code, cs) else none
    | 'u' => do
      let (code, cs) ← readCode? m 4 0 cs
      some (.literal code, cs)
    | 'U' => do
      let (code, cs) ← readCode? m 8 0 cs
      some (.literal code, cs)
    | 'a' => some (.literal 7, cs)
    | 't' => some (.literal 9, cs)
    | 'n' => some (.literal 10, cs)
    | 'v' => some (.literal 11, cs)
    | 'f' => some (.literal 12, cs)
    | 'r' => some (.literal 13, cs)
    | 'A' | 'z' => some (.place, cs)
    | 'b' | 'B' | '<' | '>' => if m.unicode then none else some (.place, cs)
    | c => if c.toNat < 128 ∧ ¬ c.isAlphanum then some (.literal c.toNat, cs) else none

/-- Whether there is a way to tell if two characters are the same: either their case matters, or they
are bytes. -/
def Modes.comparesLiterals (m : Modes) : Bool := !(m.unicode && m.ignoreCase)

def Modes.admits (m : Modes) : Item → Bool
  | .literal _ => m.comparesLiterals
  | .set | .place => true

/-- Whether an item may be a member of a set. Places may not, and a set of bytes has none that are
only a part of a character. -/
def Modes.admitsMember (m : Modes) : Item → Bool
  | .literal code => m.comparesLiterals && (m.unicode || code < 128)
  | .set => true
  | .place => false

/-! ### Sets in brackets -/

/-- The names of sets that may stand between `[:` and `:]`. -/
def setNames : List String :=
  ["alnum", "alpha", "ascii", "blank", "cntrl", "digit", "graph", "lower", "print", "punct", "space",
    "upper", "word", "xdigit"]

/-- What follows a named set, and whether there is a caret that negates it. The text starts behind its
first bracket. -/
def readNamedSet? : List Char → Option (Bool × List Char)
  | ':' :: cs =>
    let negated := cs.head? = some '^'
    let cs := if negated then cs.tail else cs
    match cs.dropWhile (· ≠ ':') with
    | ':' :: ']' :: rest =>
      if String.ofList (cs.takeWhile (· ≠ ':')) ∈ setNames then some (negated, rest) else none
    | _ => none
  | _ => none

/-- What follows the dashes that a set begins with, which stand for themselves. -/
def dropDashes (m : Modes) : List Char → List Char
  | '-' :: cs => dropDashes m (m.skip cs)
  | cs => cs
termination_by cs => cs.length
decreasing_by exact Nat.lt_succ_of_le (m.length_skip_le cs)

/-- What follows the start of a set: the caret that negates it, and either dashes or a closing bracket
that is a member because it comes first. The text starts behind the opening bracket. -/
def openSet? (m : Modes) (cs : List Char) : Option (List Char) :=
  match m.skip cs with
  | '^' :: cs => if m.unicode then some (members (m.skip cs)) else none
  | cs => some (members cs)
where
  members : List Char → List Char
    | ']' :: cs => cs
    | cs => dropDashes m cs

def readMember? (m : Modes) : List Char → Option (Item × List Char)
  | [] => none
  | '\\' :: cs => readEscape? m cs
  | c :: cs => some (.literal c.toNat, cs)

/-- What follows an item of a set, or a range between two characters. A dash whose neighbour is a
closing bracket or another dash does not make a range. -/
def readSpan? (m : Modes) (cs : List Char) : Option (List Char) := do
  let (low, cs) ← readMember? m cs
  if !m.admitsMember low then none
  else
    match m.skip cs with
    | '-' :: rest =>
      if m.neighbour? rest ∈ [some ']', some '-'] then some ('-' :: rest)
      else
        let (high, rest) ← readMember? m (m.skip rest)
        match low, high with
        | .literal first, .literal last =>
          if m.admitsMember high ∧ first ≤ last then some rest else none
        | _, _ => none
    | cs => some cs

/-- What follows a set in which `depth` brackets are open. A member takes at least one character, so
as many rounds as there are characters are enough. -/
def closeSet? (m : Modes) : (rounds depth : Nat) → List Char → Option (List Char)
  | 0, _, _ => none
  | rounds + 1, depth, cs =>
    match m.skip cs with
    | [] => none
    | '[' :: cs =>
      match readNamedSet? cs with
      | some (negated, cs) =>
        if m.comparesLiterals ∧ (m.unicode ∨ ¬ negated) then closeSet? m rounds depth cs else none
      | none => do closeSet? m rounds (depth + 1) (← openSet? m cs)
    | ']' :: cs => if depth ≤ 1 then some cs else closeSet? m rounds (depth - 1) cs
    | '&' :: '&' :: cs | '-' :: '-' :: cs | '~' :: '~' :: cs => closeSet? m rounds depth cs
    | cs => do closeSet? m rounds depth (← readSpan? m cs)

/-- What follows a set. The text starts behind its opening bracket. -/
def readSet? (m : Modes) (cs : List Char) : Option (List Char) := do
  let cs ← openSet? m cs
  closeSet? m (cs.length + 1) 1 cs

/-! ### Groups -/

def isName : List Char → Bool
  | [] => false
  | c :: cs =>
    (c = '_' || isAlphabetic c) &&
      cs.all fun c => c ∈ ['_', '.', '[', ']'] || isAlphanumeric c

/-- The modes that flags lead to, and what follows the flags. A flag may be given once; those behind a
dash are turned off, and there has to be one. -/
def readFlags? (m : Modes) : (seen : List Char) → (off : Bool) → List Char →
    Option (Modes × List Char)
  | _, _, [] => none
  | seen, off, c :: cs =>
    if c = ':' ∨ c = ')' then
      if seen.head? = some '-' then none else some (m, c :: cs)
    else if c ∈ seen then none
    else
      match c with
      | '-' => readFlags? m (c :: seen) true cs
      | 'x' => readFlags? { m with verbose := !off } (c :: seen) off cs
      | 'u' => readFlags? { m with unicode := !off } (c :: seen) off cs
      | 'i' => readFlags? { m with ignoreCase := !off } (c :: seen) off cs
      | 'm' | 's' | 'U' | 'R' => readFlags? m (c :: seen) off cs
      | _ => none

/-- How a group begins, or what stands in its place. -/
inductive Opening where
  | group (name : Option (List Char)) (inside : Modes)
  /-- No group: flags for the rest of the group around them. -/
  | flags (after : Modes)

def readName? (m : Modes) (cs : List Char) : Option (Opening × List Char) :=
  match cs.dropWhile (· ≠ '>') with
  | _ :: rest =>
    let name := cs.takeWhile (· ≠ '>')
    if isName name then some (.group (some name) m, rest) else none
  | [] => none

/-- The start of a group. The text starts behind its opening parenthesis. Looking ahead and looking
back are not supported. -/
def readOpening? (m : Modes) (cs : List Char) : Option (Opening × List Char) :=
  match m.skip cs with
  | '?' :: 'P' :: '<' :: cs => readName? m cs
  | '?' :: '<' :: c :: cs => if c = '=' ∨ c = '!' then none else readName? m (c :: cs)
  | ['?', '<'] => none
  | '?' :: ')' :: _ => none
  | '?' :: cs => do
    match ← readFlags? m [] false cs with
    | (inside, ':' :: cs) => some (.group none inside, cs)
    | (after, _ :: cs) => some (.flags after, cs)
    | (_, []) => none
  | cs => some (.group none m, cs)

/-! ### Whole patterns -/

/-- The state of a reading: what has to be remembered of everything to the left. -/
structure State where
  /-- The modes around each open group, innermost first. -/
  outer : List Modes := []
  modes : Modes := {}
  /-- Whether there is something that can be repeated. -/
  operand : Bool := false
  names : List (List Char) := []

/-- Whether a character may stand by itself, with the meaning that it has in a pattern. -/
def admitsSingle (m : Modes) : Char → Bool
  | '{' => false
  | '.' => m.unicode
  | '^' | '$' => true
  | c => m.admits (.literal c.toNat)

/-- Whether a text continues a pattern well. Every round takes at least one character. -/
def continues : (rounds : Nat) → State → List Char → Bool
  | 0, _, _ => false
  | rounds + 1, s, cs =>
    match s.modes.skip cs with
    | [] => s.outer.isEmpty
    | '(' :: cs =>
      match readOpening? s.modes cs with
      | none => false
      | some (.flags after, cs) =>
        continues rounds { s with modes := after, operand := false } cs
      | some (.group name inside, cs) =>
        if name.any (· ∈ s.names) then false
        else
          continues rounds
            { outer := s.modes :: s.outer, modes := inside, operand := false,
              names := name.toList ++ s.names } cs
    | ')' :: cs =>
      match s.outer with
      | [] => false
      | m :: outer => continues rounds { s with outer := outer, modes := m, operand := true } cs
    | '|' :: cs => continues rounds { s with operand := false } cs
    | '[' :: cs =>
      match readSet? s.modes cs with
      | none => false
      | some cs => continues rounds { s with operand := true } cs
    | '\\' :: cs =>
      match readEscape? s.modes cs with
      | none => false
      | some (item, cs) =>
        s.modes.admits item && continues rounds { s with operand := true } cs
    | c :: cs =>
      if c = '*' ∨ c = '+' ∨ c = '?' then
        s.operand && continues rounds s (if cs.head? = some '?' then cs.tail else cs)
      else
        admitsSingle s.modes c && continues rounds { s with operand := true } cs

/-- Whether a text is a well-formed pattern. -/
def isWellFormed (cs : List Char) : Bool := continues (cs.length + 1) {} cs

end Wordcode.Text.Pattern
