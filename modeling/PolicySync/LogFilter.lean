import PolicySync.Text.Blank
import PolicySync.Text.Printable

/-!
# Log filters

A filter is a list of directives between commas. A directive names a level, or a target or a
span that may be given a level.
-/

namespace PolicySync.LogFilter

open PolicySync.Text

def levels : List String := ["off", "error", "warn", "info", "debug", "trace"]

/-- Whether a text is the name of a level, in any case, or its number. -/
def isLevel (cs : List Char) : Bool :=
  levels.contains (String.ofList (cs.map Char.toLower)) ||
    ["0", "1", "2", "3", "4", "5"].contains (String.ofList cs)

/-- Whether a target may begin with a character. -/
def startsTarget (c : Char) : Bool :=
  c.isAlphanum || ['-', ':', '_'].contains c || (0x80 ≤ c.toNat && isPrintable c)

/-- What may follow a span: nothing, or a level. -/
def isAfterSpan : List Char → Bool
  | [] => true
  | '=' :: level => level.isEmpty || isLevel level
  | _ => false

/-- A span from behind its bracket on: a name, perhaps with one field in braces. -/
def isSpanOn (cs : List Char) : Bool :=
  match cs.dropWhile fun c => c ≠ ']' ∧ c ≠ '\x7b' with
  | ']' :: rest => isAfterSpan rest
  | '\x7b' :: rest =>
    match rest.takeWhile (· ≠ '\x7d'), rest.dropWhile (· ≠ '\x7d') with
    | _ :: _, '\x7d' :: ']' :: rest => isAfterSpan rest
    | _, _ => false
  | _ => false

/-- White space before a directive belongs to its target, and no level can follow it. -/
def isDirective (s : String) : Bool :=
  match trimLeft s.toList with
  | '[' :: span => isSpanOn span
  | c :: rest =>
    startsTarget c &&
      match rest.dropWhile fun c => c ≠ '=' ∧ c ≠ '[' with
      | [] => true
      | '=' :: level => (s.toList.head? = some c) && (level.isEmpty || isLevel level)
      | _ :: span => isSpanOn span
  | [] => false

/-- The parts of a list between commas. -/
def parts : List Char → List (List Char)
  | [] => [[]]
  | c :: rest =>
    if c = ',' then [] :: parts rest
    else
      match parts rest with
      | [] => [[c]]
      | p :: more => (c :: p) :: more

/-- Whether every directive that is not empty can be read. -/
def isValid (filter : String) : Bool :=
  (parts filter.toList).all fun p => p.isEmpty || isDirective (String.ofList p)

end PolicySync.LogFilter
