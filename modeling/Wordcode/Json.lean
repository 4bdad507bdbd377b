import Wordcode.Decimal

/-!
# Structured output

A value is written over several lines: two spaces of indentation per level, one item or field per
line, and no line break inside an empty array or object. Fields keep their order. Numbers are
integers, and text is quoted with the control characters, the quote and the backslash escaped.
-/

namespace Wordcode

/-- A value in structured output. -/
inductive Json where
  | null
  | number (i : Int)
  | text (s : String)
  | array (items : List Json)
  | object (fields : List (String × Json))

namespace Json

def numbers (xs : List Int) : Json := array (xs.map number)

/-- The four hexadecimal digits of a small code point. -/
def hex4 (n : Nat) : List Char :=
  [n / 4096 % 16, n / 256 % 16, n / 16 % 16, n % 16].map Nat.digitChar

def escape (c : Char) : List Char :=
  match c with
  | '"' => ['\\', '"']
  | '\\' => ['\\', '\\']
  | '\n' => ['\\', 'n']
  | '\r' => ['\\', 'r']
  | '\t' => ['\\', 't']
  | '\x08' => ['\\', 'b']
  | '\x0c' => ['\\', 'f']
  | c => if c.toNat < 32 then '\\' :: 'u' :: hex4 c.toNat else [c]

def quote (s : String) : String := "\"" ++ String.ofList (s.toList.flatMap escape) ++ "\""

def newline (level : Nat) : String := "\n" ++ String.ofList (List.replicate (2 * level) ' ')

mutual

/-- A value as text, at a level of indentation. -/
def pretty (level : Nat) : Json → String
  | null => "null"
  | number i => Decimal.ofInt i
  | text s => quote s
  | array [] => "[]"
  | array (x :: xs) =>
    "[" ++ newline (level + 1) ++ pretty (level + 1) x ++ prettyItems (level + 1) xs
      ++ newline level ++ "]"
  | object [] => "\x7b\x7d"
  | object ((key, x) :: fields) =>
    "\x7b" ++ newline (level + 1) ++ quote key ++ ": " ++ pretty (level + 1) x
      ++ prettyFields (level + 1) fields ++ newline level ++ "\x7d"

def prettyItems (level : Nat) : List Json → String
  | [] => ""
  | x :: xs => "," ++ newline level ++ pretty level x ++ prettyItems level xs

def prettyFields (level : Nat) : List (String × Json) → String
  | [] => ""
  | (key, x) :: fields =>
    "," ++ newline level ++ quote key ++ ": " ++ pretty level x ++ prettyFields level fields

end

end Json

end Wordcode
