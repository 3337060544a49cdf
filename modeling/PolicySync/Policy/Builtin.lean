import PolicySync.Policy.Fault
import PolicySync.Policy.Tree
import PolicySync.Policy.Value
import PolicySync.Text.Case

/-!
# Built-in functions and operators
-/

namespace PolicySync.Policy

/-- The strings of a collection, when it holds only strings. -/
def stringItems? : Value → Option (List String)
  | .array items => items.mapM fun
    | .string s => some s
    | _ => none
  | .set items => items.mapM fun
    | .string s => some s
    | _ => none
  | _ => none

/-- A function that every module can call, with the number of its operands. -/
structure Builtin where
  arity : Nat
  apply : List Value → Except Fault Value

/-- A built-in function by name. -/
def builtin? (name : String) : Option Builtin :=
  match name with
  | "concat" => some ⟨2, fun
    | [.string separator, collection] =>
      match stringItems? collection with
      | some parts => .ok (.string (separator.intercalate parts))
      | none => .error .wrongType
    | _ => .error .wrongType⟩
  | "upper" => some ⟨1, fun
    | [.string s] => .ok (.string (Text.upper s))
    | _ => .error .wrongType⟩
  | "lower" => some ⟨1, fun
    | [.string s] => .ok (.string (Text.lower s))
    | _ => .error .wrongType⟩
  | "count" => some ⟨1, fun
    | [.string s] => .ok (.number (s.length : Rat))
    | [.array items] => .ok (.number (items.length : Rat))
    | [.set items] => .ok (.number (items.length : Rat))
    | [.object fields] => .ok (.number (fields.length : Rat))
    | _ => .error .wrongType⟩
  | "object.union" => some ⟨2, fun
    | [.object a, .object b] =>
      .ok (.merge ((Value.object a).depth + 1) (.object a) (.object b))
    | _ => .error .wrongType⟩
  | _ => none

/-- The number of significant digits that a quotient keeps. -/
def quotientDigits : Nat := 100

/-- A positive number cut off after its significant digits. -/
def truncateDigits (q : Rat) : Rat :=
  let unit := Text.Decimal.power (Text.Double.firstPlace q - quotientDigits + 1)
  ((q / unit).floor : Rat) * unit

/-- The quotient of numbers, exact when it has few enough digits and cut off otherwise. -/
def quotient (a b : Rat) : Rat :=
  let q := a / b
  if q = 0 then 0 else if q < 0 then -truncateDigits (-q) else truncateDigits q

/-- The remainder with the sign of the first operand. -/
def remainder (a b : Rat) : Except Fault Value :=
  if a.den ≠ 1 ∨ b.den ≠ 1 then .error .wrongType
  else if b = 0 then .error .divisionByZero
  else .ok (.number (Int.tmod a.num b.num))

def setDifference (a b : List Value) : List Value :=
  a.filter fun x => !b.any (Value.same x)

def setIntersection (a b : List Value) : List Value :=
  a.filter fun x => b.any (Value.same x)

def setUnion (a b : List Value) : List Value :=
  b.foldl (fun s x => Value.insertItem x s) a

/-- Comparisons are defined for all values, arithmetic for numbers, the rest for sets. -/
def BinaryOp.apply (op : BinaryOp) (a b : Value) : Except Fault Value :=
  match op with
  | .eq => .ok (.bool (Value.cmp a b = .eq))
  | .ne => .ok (.bool (Value.cmp a b ≠ .eq))
  | .lt => .ok (.bool (Value.cmp a b = .lt))
  | .le => .ok (.bool (Value.cmp a b ≠ .gt))
  | .gt => .ok (.bool (Value.cmp a b = .gt))
  | .ge => .ok (.bool (Value.cmp a b ≠ .lt))
  | .add =>
    match a, b with
    | .number a, .number b => .ok (.number (a + b))
    | _, _ => .error .wrongType
  | .sub =>
    match a, b with
    | .number a, .number b => .ok (.number (a - b))
    | .set a, .set b => .ok (.set (setDifference a b))
    | _, _ => .error .wrongType
  | .mul =>
    match a, b with
    | .number a, .number b => .ok (.number (a * b))
    | _, _ => .error .wrongType
  | .div =>
    match a, b with
    | .number a, .number b =>
      if b = 0 then .error .divisionByZero else .ok (.number (quotient a b))
    | _, _ => .error .wrongType
  | .mod =>
    match a, b with
    | .number a, .number b => remainder a b
    | _, _ => .error .wrongType
  | .intersection =>
    match a, b with
    | .set a, .set b => .ok (.set (setIntersection a b))
    | _, _ => .error .wrongType
  | .union =>
    match a, b with
    | .set a, .set b => .ok (.set (setUnion a b))
    | _, _ => .error .wrongType

end PolicySync.Policy
