import PolicySync.Json.Value
import PolicySync.Text.Double
import PolicySync.Text.Quoted

/-!
# Reading JSON

A text is read as one value between white space. Arrays and objects nest at most as
deep as the caller allows; an object keeps the last member of each key.
-/

namespace PolicySync.Json

open PolicySync.Text

def isSpace (c : Char) : Bool := c = ' ' || c = '\t' || c = '\n' || c = '\r'

def skipSpace (cs : List Char) : List Char := cs.dropWhile isSpace

/-- How deep arrays and objects may nest in a text from outside. -/
def maxNesting : Nat := 127

/-- An integer spelling is an integer when it fits 64 bits and is not a negative zero. -/
def numberOf? (negative : Bool) (d : Decimal) : Option Number := do
  let v ← d.value?
  let n : Int := if negative then -(d.mantissa : Int) else d.mantissa
  if !d.isReal && fits64 n && !(negative && n = 0) then
    return .int n
  return .real (if negative then -v else v)

def literal? (word : List Char) (value : Json) (cs : List Char) : Option (Json × List Char) :=
  if word.isPrefixOf cs then some (value, cs.drop word.length) else none

mutual

/-- Reads one value at the front of the text. The first argument bounds the number of
nested calls, the second the nesting of arrays and objects. -/
def scanValue : Nat → Nat → List Char → Option (Json × List Char)
  | 0, _, _ => none
  | fuel + 1, depth, cs =>
    match skipSpace cs with
    | '"' :: rest => do
      let (s, rest) ← Quoted.scan rest
      return (.string (String.ofList s), rest)
    | '[' :: rest =>
      match depth with
      | 0 => none
      | depth + 1 =>
        match skipSpace rest with
        | ']' :: rest => some (.array [], rest)
        | rest => do
          let (items, rest) ← scanItems fuel depth rest
          return (.array items, rest)
    | '\x7b' :: rest =>
      match depth with
      | 0 => none
      | depth + 1 =>
        match skipSpace rest with
        | '\x7d' :: rest => some (.object [], rest)
        | rest => do
          let (members, rest) ← scanMembers fuel depth rest
          return (ofMembers members, rest)
    | 'n' :: rest => literal? ['u', 'l', 'l'] .null rest
    | 't' :: rest => literal? ['r', 'u', 'e'] (.bool true) rest
    | 'f' :: rest => literal? ['a', 'l', 's', 'e'] (.bool false) rest
    | '-' :: rest => do
      let (d, rest) ← Decimal.scan rest
      let n ← numberOf? true d
      return (.number n, rest)
    | rest => do
      let (d, rest) ← Decimal.scan rest
      let n ← numberOf? false d
      return (.number n, rest)

/-- Reads the items of an array up to its bracket. -/
def scanItems : Nat → Nat → List Char → Option (List Json × List Char)
  | 0, _, _ => none
  | fuel + 1, depth, cs => do
    let (item, rest) ← scanValue fuel depth cs
    match skipSpace rest with
    | ',' :: rest =>
      let (items, rest) ← scanItems fuel depth rest
      return (item :: items, rest)
    | ']' :: rest => return ([item], rest)
    | _ => none

/-- Reads the members of an object up to its brace. -/
def scanMembers : Nat → Nat → List Char → Option (List (String × Json) × List Char)
  | 0, _, _ => none
  | fuel + 1, depth, cs =>
    match skipSpace cs with
    | '"' :: rest => do
      let (key, rest) ← Quoted.scan rest
      match skipSpace rest with
      | ':' :: rest =>
        let (value, rest) ← scanValue fuel depth rest
        let entry := (String.ofList key, value)
        match skipSpace rest with
        | ',' :: rest =>
          let (members, rest) ← scanMembers fuel depth rest
          return (entry :: members, rest)
        | '\x7d' :: rest => return ([entry], rest)
        | _ => none
      | _ => none
    | _ => none

end

/-- The value that a text holds, nested at most `depth` deep. -/
def parseWithin? (depth : Nat) (text : String) : Option Json := do
  let cs := text.toList
  let (value, rest) ← scanValue (2 * cs.length + 2) depth cs
  if (skipSpace rest).isEmpty then return value else none

/-- The value that a text from outside holds. -/
def parse? (text : String) : Option Json := parseWithin? maxNesting text

end PolicySync.Json
