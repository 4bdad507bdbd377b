import Wordcode.Console.Log.Directive

/-!
# The log filter

A filter is a list of directives, and says which records of the log are shown. Of the directives that
are about a record, the most specific one decides; of several that are equally specific, the last.
A record that no directive is about is not shown.

The setting is the directives, with commas between them. If one of them cannot be read, the whole
setting is put aside and the standard filter is used, which is the one without a setting: warnings
and worse, from everywhere.
-/

namespace Wordcode

namespace Console

/-- What is shown of the log. -/
structure Filter where
  directives : List Directive
deriving DecidableEq, Repr

namespace Filter

def standard : Filter := ⟨[{ threshold := some .warn }]⟩

/-- A filter of these directives. Without any, only errors are shown. -/
def ofDirectives : List Directive → Filter
  | [] => ⟨[{ threshold := some .error }]⟩
  | ds => ⟨ds⟩

/-- The directive that decides about a record. -/
def directiveFor (filter : Filter) (r : Record) : Option Directive :=
  (filter.directives.filter (·.covers r)).foldl
    (fun best d =>
      match best with
      | some b => if b.outranks d then some b else some d
      | none => some d)
    none

def shows (filter : Filter) (r : Record) : Bool :=
  match filter.directiveFor r with
  | some d => d.threshold.admits r.level
  | none => false

def lines (filter : Filter) (r : Record) : List String := if filter.shows r then [r.text] else []

/-- The filter that a setting spells. Nothing between two commas is no directive. -/
def read? (setting : String) : Option Filter :=
  (((setting.splitOn ",").filter (· ≠ "")).mapM (Directive.read? ·.toList)).map ofDirectives

def ofSetting (setting : Option String) : Filter := (setting.bind read?).getD standard

end Filter

end Console

end Wordcode
