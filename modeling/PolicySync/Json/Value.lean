import PolicySync.Data.SortedMap

/-!
# JSON values

Objects hold their members ascending by key, one member for each key. Integers that fit 64 bits
are kept apart from all other numbers, because the resource fields that hold
integers accept only those.
-/

namespace PolicySync

namespace Json

/-- The least integer of 64 bits with sign. -/
def minInteger : Int := -9223372036854775808

/-- The first integer beyond 64 bits with sign. -/
def signedBound : Int := 9223372036854775808

/-- The first integer beyond 64 bits without sign. -/
def integerBound : Int := 18446744073709551616

/-- Whether an integer fits 64 bits, with or without sign. -/
def fits64 (n : Int) : Bool := minInteger ≤ n && n < integerBound

/-- A number: an integer that fits 64 bits written without fraction or exponent, or any other. -/
inductive Number where
  | int (n : Int)
  | real (q : Rat)
  deriving DecidableEq

end Json

inductive Json where
  | null
  | bool (b : Bool)
  | number (n : Json.Number)
  | string (s : String)
  | array (items : List Json)
  | object (members : List (String × Json))
  deriving Inhabited

namespace Json

/-- An object from members in any order; the last of several members with one key is kept. -/
def ofMembers (members : List (String × Json)) : Json :=
  .object (SortedMap.ofList members).entries

def ofInt (n : Int) : Json := .number (.int n)

def ofMap (m : SortedMap Json) : Json := .object m.entries

def ofTexts (m : SortedMap String) : Json := .object (m.entries.map fun e => (e.1, .string e.2))

def ofOption : Option Json → Json
  | none => .null
  | some j => j

/-- The member of an object; every other value has none. -/
def member? (j : Json) (key : String) : Option Json :=
  match j with
  | .object members => lookupEntry key members
  | _ => none

def string? : Json → Option String
  | .string s => some s
  | _ => none

end Json

end PolicySync
