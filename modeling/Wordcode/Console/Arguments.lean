import Wordcode.Console.Report

/-!
# Command-line arguments

    run [PROGRAM] [--code WORDS]... [--trace] [--max-steps N] [--format text|json]
    list
    help [COMMAND]

`Command.parse` reads the arguments from left to right. It first sorts each into one of four sorts
(`Argument`), by its leading dashes alone, and then gives it its meaning:

* An option that takes a value has it behind an equals sign, or in the next argument — which must not
  look like an option. Words may be negative, so `--code` makes an exception for a lone number.
* `--code` may be given repeatedly, and its words are joined; any other option may be given once.
* After `--`, everything is taken as it is.
* A request for help is granted as soon as it is seen, whatever may be wrong further to the right.

A program is named or spelled out, but not both.
-/

namespace Wordcode

namespace Console

/-- What is wrong with the arguments. -/
inductive UsageError where
  | missingCommand
  | unknownCommand (name : String)
  | unexpectedArgument (text : String)
  | missingValue (option : String)
  | unwantedValue (option : String)
  | repeatedOption (option : String)
  | invalidValue (option value : String)
  | programTwice
deriving DecidableEq, Repr

def UsageError.message : UsageError → String
  | missingCommand => "a command is required: run, list or help"
  | unknownCommand name => "unrecognized command '" ++ name ++ "'"
  | unexpectedArgument text => "unexpected argument '" ++ text ++ "'"
  | missingValue option => "a value is required for '--" ++ option ++ "'"
  | unwantedValue option => "'--" ++ option ++ "' takes no value"
  | repeatedOption option => "'--" ++ option ++ "' cannot be used more than once"
  | invalidValue option value => "invalid value '" ++ value ++ "' for '--" ++ option ++ "'"
  | programTwice => "a program name cannot be used with '--code'"

/-- What a run is asked for. -/
structure RunRequest where
  sample : Option String := none
  code : Option (List Word) := none
  trace : Bool := false
  maxSteps : Option UInt64 := none
  format : Option Format := none
deriving DecidableEq, Repr

/-- What there is help about. -/
inductive Topic where
  | all
  | run
  | list
  | help
deriving DecidableEq, Repr

def Topic.ofName? : String → Option Topic
  | "run" => some run
  | "list" => some list
  | "help" => some help
  | _ => none

inductive Command where
  | run (request : RunRequest)
  | list
  | help (topic : Topic)
deriving DecidableEq, Repr

/-! ### Sorting arguments -/

/-- An argument, by its leading dashes. -/
inductive Argument where
  | terminator
  | long (name : String) (value : Option String)
  | short (flag : Char)
  /-- Anything else, a lone dash included. -/
  | plain (text : String)
deriving DecidableEq, Repr

namespace Argument

/-- The sort of an argument. -/
def ofText (text : String) : Argument :=
  match text.toList with
  | ['-', '-'] => .terminator
  | '-' :: '-' :: cs =>
    let name := cs.takeWhile (· ≠ '=')
    .long (String.ofList name)
      (match cs.dropWhile (· ≠ '=') with
        | [] => none
        | _ :: value => some (String.ofList value))
  | '-' :: c :: _ => .short c
  | _ => .plain text

end Argument

/-! ### Values -/

/-- A word: an integer of 32 bits. -/
def readWord? (s : String) : Option Word :=
  match Decimal.readInt? s with
  | some i =>
    if Int32.minValue.toInt ≤ i ∧ i ≤ Int32.maxValue.toInt then some (Int32.ofInt i) else none
  | none => none

/-- Words with commas between them. There is at least one, since the empty text is not a word. -/
def readWords? (s : String) : Option (List Word) := (s.splitOn ",").mapM readWord?

/-- A budget: a natural number of 64 bits. -/
def readBudget? (s : String) : Option UInt64 := (Decimal.readNat? s).bind Address.ofNat?

def readFormat? : String → Option Format
  | "text" => some .text
  | "json" => some .json
  | _ => none

inductive ValueOption where
  | code
  | maxSteps
  | format
deriving DecidableEq, Repr

namespace ValueOption

def name : ValueOption → String
  | code => "code"
  | maxSteps => "max-steps"
  | format => "format"

def ofName? (s : String) : Option ValueOption := [code, maxSteps, format].find? (·.name = s)

/-- Whether the next argument may serve as the option's value. -/
def accepts (o : ValueOption) (text : String) : Bool :=
  match Argument.ofText text with
  | .plain _ => true
  | .short _ => o = code && (Decimal.readInt? text).isSome
  | _ => false

def supply (o : ValueOption) (value : String) (r : RunRequest) : Except UsageError RunRequest :=
  match o with
  | code =>
    match readWords? value with
    | some ws => .ok { r with code := some (r.code.getD [] ++ ws) }
    | none => .error (.invalidValue o.name value)
  | maxSteps =>
    if r.maxSteps.isSome then .error (.repeatedOption o.name)
    else
      match readBudget? value with
      | some n => .ok { r with maxSteps := some n }
      | none => .error (.invalidValue o.name value)
  | format =>
    if r.format.isSome then .error (.repeatedOption o.name)
    else
      match readFormat? value with
      | some f => .ok { r with format := some f }
      | none => .error (.invalidValue o.name value)

end ValueOption

/-! ### The commands -/

namespace RunRequest

def nameProgram (r : RunRequest) (text : String) : Except UsageError RunRequest :=
  if r.sample.isSome then .error (.unexpectedArgument text)
  else .ok { r with sample := some text }

/-- A request is complete unless it has a program in two ways. -/
def finish (r : RunRequest) : Except UsageError Command :=
  if r.sample.isSome && r.code.isSome then .error .programTwice else .ok (.run r)

/-- The arguments after `--`. -/
def parsePlain (r : RunRequest) : List String → Except UsageError Command
  | [] => r.finish
  | text :: rest => do (← r.nameProgram text).parsePlain rest

def parse (r : RunRequest) : List String → Except UsageError Command
  | [] => r.finish
  | text :: rest =>
    match Argument.ofText text with
    | .terminator => r.parsePlain rest
    | .plain text => do (← r.nameProgram text).parse rest
    | .short 'h' => .ok (.help .run)
    | .short _ => .error (.unexpectedArgument text)
    | .long name value =>
      match ValueOption.ofName? name with
      | some option =>
        match value, rest with
        | some value, rest => do (← option.supply value r).parse rest
        | none, value :: rest =>
          if option.accepts value then do (← option.supply value r).parse rest
          else .error (.missingValue name)
        | none, [] => .error (.missingValue name)
      | none =>
        if name ≠ "trace" ∧ name ≠ "help" then .error (.unexpectedArgument text)
        else if value.isSome then .error (.unwantedValue name)
        else if name = "help" then .ok (.help .run)
        else if r.trace then .error (.repeatedOption name)
        else { r with trace := true }.parse rest

end RunRequest

namespace Command

def parseList : List String → Except UsageError Command
  | [] => .ok .list
  | text :: rest =>
    match Argument.ofText text with
    | .terminator =>
      match rest with
      | [] => .ok .list
      | text :: _ => .error (.unexpectedArgument text)
    | .short 'h' | .long "help" none => .ok (.help .list)
    | _ => .error (.unexpectedArgument text)

/-- The arguments of `help`: at most one command. -/
def parseHelp : List String → Except UsageError Command
  | [] => .ok (.help .all)
  | name :: rest =>
    match Topic.ofName? name, rest with
    | none, _ => .error (.unknownCommand name)
    | some topic, [] => .ok (.help topic)
    | some _, text :: _ => .error (.unexpectedArgument text)

def parse : List String → Except UsageError Command
  | [] => .error .missingCommand
  | "run" :: rest => RunRequest.parse {} rest
  | "list" :: rest => parseList rest
  | "help" :: rest => parseHelp rest
  | text :: _ =>
    match Argument.ofText text with
    | .short 'h' | .long "help" none => .ok (.help .all)
    | .terminator => .error .missingCommand
    | .plain name => .error (.unknownCommand name)
    | _ => .error (.unexpectedArgument text)

end Command

end Console

end Wordcode
