import Wordcode.Console.Log
import Wordcode.Text.Pattern

/-!
# Log directives

A directive sets how much of the log is shown, for all of it or for a part:

    debug                   everything up to a level
    component               everything from one component
    component=debug         a component, up to a level
    component[span]=debug   while a span of that name is open
    [{field}]=debug         records that have a field of that name
    [{field=value}]=debug   while a span is open that has such a field with such a value

A component is meant by any beginning of its path. Levels go by their names, in either case, or by
their numbers from 0, which is `off`, to 5. A level that is left out is the least important one.

## What selects nothing

The program opens no spans. So a directive about a span, or about the value of a field, is understood
and then never applies. The same goes for a component that does not exist, and that is why a level
that is misspelled is not an error: it is read as a component.

## Blanks

The marks of a directive are looked for in its text without the blanks at either end, but what stands
between two marks is cut out at these places from the text *with* them. So a blank is never dropped.
A single word with a blank beside it is some component that does not exist, and a level behind a mark
cannot be read any more.
-/

namespace Wordcode

namespace Console

/-- The least important level that is shown; `none` if none is. -/
abbrev Threshold := Option Level

namespace Threshold

def admits : Threshold → Level → Bool
  | none, _ => false
  | some least, level => level.rank ≤ least.rank

/-- All thresholds, in the order of their numbers. -/
def all : List Threshold :=
  [none, some .error, some .warn, some .info, some .debug, some .trace]

def name : Threshold → String
  | none => "off"
  | some level => level.name.toLower

def ofText? (cs : List Char) : Option Threshold :=
  let text := String.ofList cs
  match (Decimal.readNat? text).bind (all[·]?) with
  | some t => some t
  | none => all.find? (·.name = text.toLower)

end Threshold

/-- A directive. -/
structure Directive where
  /-- The beginning of the path of the component it is about; `none` if it is about all. -/
  component : Option String := none
  span : Option String := none
  field : Option (String × Option String) := none
  threshold : Threshold := some .trace
deriving DecidableEq, Repr

namespace Directive

/-! ### Which records a directive is about -/

/-- Whether a directive is about a record. There is never a span open. -/
def covers (d : Directive) (r : Record) : Bool :=
  d.span.isNone
    && (match d.component with
      | none => true
      | some start => start.toList.isPrefixOf r.component.path.toList)
    && (match d.field with
      | none => true
      | some (name, none) => name ∈ r.fields
      | some (_, some _) => false)

/-- Whether the first of two directives about the same record is the more specific one: it goes into
more of the component's path, or else into the fields, where the name that comes later in the
alphabet counts for more. -/
def outranks (d e : Directive) : Bool :=
  let reach (d : Directive) : Nat :=
    match d.component with
    | none => 0
    | some start => start.length + 1
  reach e < reach d
    || (reach d = reach e
      && (match d.field, e.field with
        | some (name, _), some (other, _) => other < name
        | some _, none => true
        | none, _ => false))

/-! ### Reading -/

def cut (text : List Char) (start stop : Nat) : String :=
  String.ofList ((text.drop start).take (stop - start))

/-- Where the first of some marks stands, from a place on. -/
def findMark? (bare : List Char) (start : Nat) (marks : List Char) : Option Nat :=
  ((bare.drop start).findIdx? (· ∈ marks)).map (start + ·)

/-- A field, and perhaps its value: a number, or a pattern for one. Anything from a second equals sign
on is ignored. -/
def readField? (text : String) : Option (String × Option String) :=
  match text.splitOn "=" with
  | name :: value :: _ =>
    if Decimal.isReal value.toList || Text.Pattern.isWellFormed value.toList then
      some (name, some value)
    else none
  | [name] => some (name, none)
  | [] => none

def readLevel? (text : List Char) (start : Nat) (d : Directive) : Option Directive :=
  match text.drop start with
  | [] => some d
  | cs => do some { d with threshold := ← Threshold.ofText? cs }

/-- The end of a directive, which may have a level or not. -/
def readEnd? (text bare : List Char) (start : Nat) (d : Directive) : Option Directive :=
  match bare[start]? with
  | none => some d
  | some '=' => readLevel? text (start + 1) d
  | some _ => none

def readBrackets? (text bare : List Char) (start : Nat) (d : Directive) : Option Directive := do
  let stop ← findMark? bare start [']', '\x7b']
  if bare[stop]? = some ']' then
    readEnd? text bare (stop + 1) { d with span := some (cut text start stop) }
  else
    let close ← findMark? bare (stop + 1) ['\x7d']
    if close = stop + 1 ∨ bare[close + 1]? ≠ some ']' then none
    else
      readEnd? text bare (close + 2)
        { d with
          span := if start = stop then none else some (cut text start stop)
          field := some (← readField? (cut text (stop + 1) close)) }

/-- Whether a directive may begin with a character, brackets aside. -/
def isWordStart (c : Char) : Bool := c ∈ ['-', ':', '_'] || Text.isAlphanumeric c

def read? (text : List Char) : Option Directive :=
  let bare := Text.trim text
  match bare with
  | [] => none
  | '[' :: _ => readBrackets? text bare 1 {}
  | c :: _ =>
    if isWordStart c then
      match findMark? bare 0 ['=', '['] with
      | none =>
        match Threshold.ofText? text with
        | some t => some { threshold := t }
        | none => some { component := some (String.ofList text) }
      | some stop =>
        let d := { component := some (cut text 0 stop) }
        if bare[stop]? = some '=' then readLevel? text (stop + 1) d
        else readBrackets? text bare (stop + 1) d
    else none

end Directive

end Console

end Wordcode
