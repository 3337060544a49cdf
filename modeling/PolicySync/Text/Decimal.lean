/-!
# Decimal numbers as written

A number is written as digits, an optional fraction and an optional exponent, with no
leading zero. What is written is an exact rational.
-/

namespace PolicySync.Text

/-- The parts of a number as written, its sign apart. -/
structure Decimal where
  whole : List Char
  fraction : List Char
  /-- Whether a fraction or an exponent was written. -/
  isReal : Bool
  exponent : Int
  deriving DecidableEq, Repr

namespace Decimal

def digitsValue (digits : List Char) : Nat :=
  digits.foldl (fun n c => 10 * n + (c.toNat - 48)) 0

/-- The digits without their point. -/
def mantissa (d : Decimal) : Nat := digitsValue (d.whole ++ d.fraction)

/-- The power of ten of the last digit. -/
def scale (d : Decimal) : Int := d.exponent - d.fraction.length

/-- How many digits stand before the point once the exponent is applied. -/
def magnitude (d : Decimal) : Int := (Nat.toDigits 10 d.mantissa).length + d.scale

def power (e : Int) : Rat :=
  if 0 ≤ e then (Nat.pow 10 e.toNat : Rat) else 1 / (Nat.pow 10 (-e).toNat : Rat)

/-- The number that is written, its sign apart. One that starts ten thousand places behind the
point counts as zero: it is far below every positive double. -/
def value (d : Decimal) : Rat :=
  if d.mantissa = 0 ∨ d.magnitude < -10000 then 0 else (d.mantissa : Rat) * power d.scale

/-- The digits at the front of a text, if there are any. -/
def scanDigits (cs : List Char) : Option (List Char × List Char) :=
  let digits := cs.takeWhile Char.isDigit
  if digits.isEmpty then none else some (digits, cs.dropWhile Char.isDigit)

/-- The digits before the point; a zero stands alone. -/
def scanWhole (cs : List Char) : Option (List Char × List Char) :=
  match cs with
  | '0' :: rest => some (['0'], rest)
  | _ => scanDigits cs

/-- The digits behind a point; none when there is no point. -/
def scanFraction (cs : List Char) : Option (Option (List Char) × List Char) :=
  match cs with
  | '.' :: rest => (scanDigits rest).map fun r => (some r.1, r.2)
  | _ => some (none, cs)

/-- The power after the letter of an exponent. -/
def scanPower (cs : List Char) : Option (Int × List Char) :=
  match cs with
  | '-' :: rest => (scanDigits rest).map fun r => (-(digitsValue r.1 : Int), r.2)
  | '+' :: rest => (scanDigits rest).map fun r => (digitsValue r.1, r.2)
  | _ => (scanDigits cs).map fun r => (digitsValue r.1, r.2)

/-- The exponent; none when there is no letter for it. -/
def scanExponent (cs : List Char) : Option (Option Int × List Char) :=
  match cs with
  | 'e' :: rest => (scanPower rest).map fun r => (some r.1, r.2)
  | 'E' :: rest => (scanPower rest).map fun r => (some r.1, r.2)
  | _ => some (none, cs)

/-- Reads a number without sign. What follows it is not looked at. -/
def scan (cs : List Char) : Option (Decimal × List Char) := do
  let (whole, rest) ← scanWhole cs
  let (fraction, rest) ← scanFraction rest
  let (exponent, rest) ← scanExponent rest
  return (⟨whole, fraction.getD [], fraction.isSome || exponent.isSome, exponent.getD 0⟩, rest)

end Decimal

end PolicySync.Text
