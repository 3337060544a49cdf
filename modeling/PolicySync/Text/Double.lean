import PolicySync.Text.Decimal

/-!
# Doubles

The finite numbers of 64 binary digits, each as the rational that it is: rounding to the
nearest one, reading decimal digits in two rounded steps, and writing the fewest digits that
round back.
-/

namespace PolicySync.Text

namespace Double

/-- The integer nearest to a quotient; of two the even one. -/
def roundDiv (num den : Nat) : Nat :=
  let q := num / den
  let r := num % den
  if den < 2 * r ∨ (2 * r = den ∧ q % 2 = 1) then q + 1 else q

/-- The exponent of the last binary digit of the doubles next to a positive quotient. -/
def lastPlace (num den : Nat) : Int :=
  let guess : Int := (Nat.log2 num : Int) - Nat.log2 den - 53
  let reached :=
    if 0 ≤ guess then Nat.pow 2 53 * (den * Nat.pow 2 guess.toNat) ≤ num
    else Nat.pow 2 53 * den ≤ num * Nat.pow 2 (-guess).toNat
  max (if reached then guess + 1 else guess) (-1074)

/-- The double nearest to a quotient of naturals. -/
def nearestOfNat (num den : Nat) : Rat :=
  if num = 0 then 0
  else
    let e := lastPlace num den
    if 0 ≤ e then (roundDiv num (den * Nat.pow 2 e.toNat) * Nat.pow 2 e.toNat : Nat)
    else
      (roundDiv (num * Nat.pow 2 (-e).toNat) den : Rat) / (Nat.pow 2 (-e).toNat : Nat)

/-- The number of 53 binary digits nearest to a number, however large. -/
def nearest (q : Rat) : Rat :=
  let d := nearestOfNat q.num.natAbs q.den
  if q < 0 then -d else d

/-- The double nearest to a number, if it is finite. -/
def nearest? (q : Rat) : Option Rat :=
  let d := nearest q
  if d < (Nat.pow 2 1024 : Nat) ∧ -(Nat.pow 2 1024 : Nat) < d then some d else none

/-- A number whose expansion ends, as an integer divided by a power of ten, at most `fuel`
places further on. -/
def decimalPlaces : Nat → Nat → Nat → Nat × Nat
  | 0, num, _ => (num, 0)
  | fuel + 1, num, den =>
    if num % den = 0 then (num / den, 0)
    else
      let (n, places) := decimalPlaces fuel (10 * num) den
      (n, places + 1)

/-- Takes digits behind a number as long as the whole fits 64 bits. Returns it with how many digits
are left. -/
def leadingDigits (n : Nat) : List Char → Nat × Nat
  | [] => (n, 0)
  | c :: rest =>
    let next := 10 * n + (c.toNat - 48)
    if next < Nat.pow 2 64 then leadingDigits next rest else (n, rest.length + 1)

/-- The largest exponent of ten in one step. -/
def stepExponent : Nat := 308

/-- A double times a power of ten, rounded after each step. -/
def scale? : Nat → Rat → Int → Option Rat
  | 0, d, _ => some d
  | fuel + 1, d, e =>
    if d = 0 then some 0
    else if e.natAbs ≤ stepExponent then do
      let power ← nearest? (Nat.pow 10 e.natAbs : Nat)
      if 0 ≤ e then nearest? (d * power) else nearest? (d / power)
    else if 0 ≤ e then none
    else do
      let power ← nearest? (Nat.pow 10 stepExponent : Nat)
      let d ← nearest? (d / power)
      scale? fuel d (e + stepExponent)

/-- Digits of 64 bits times a power of ten as a double, if it is finite: the digits are rounded,
then scaled. The result can differ from the nearest double in its last digit. -/
def ofParts? (digits : Nat) (exponent : Int) : Option Rat := do
  let d ← nearest? (digits : Rat)
  scale? 8 d exponent

/-- The double that the digits of a number are read as. -/
def ofDigits? (q : Rat) : Option Rat := do
  let (n, places) := decimalPlaces (q.den + 1) q.num.natAbs q.den
  let (leading, dropped) := leadingDigits 0 (Nat.toDigits 10 n)
  let d ← ofParts? leading ((dropped : Int) - places)
  return if q < 0 then -d else d

end Double

namespace Decimal

/-- The leading digits that fit 64 bits, and the exponent of the last of them. The digits of the
fraction are tried even when some before the point did not fit. -/
def leading (d : Decimal) : Nat × Int :=
  let (n, dropped) := Double.leadingDigits 0 d.whole
  let (n, unread) := Double.leadingDigits n d.fraction
  (n, (dropped : Int) - d.fraction.length + unread + d.exponent)

/-- The double that a number is read as, its sign apart, if it is finite. -/
def double? (d : Decimal) : Option Rat := Double.ofParts? d.leading.1 d.leading.2

/-- The value of a number that can be read: one that is read as an infinite double is refused. -/
def value? (d : Decimal) : Option Rat := d.double?.map fun _ => d.value

end Decimal

namespace Double

/-- A decimal number: digits times a power of ten. -/
structure Digits where
  digits : Nat
  exponent : Int

/-- The number that digits stand for. -/
def Digits.value (d : Digits) : Rat := (d.digits : Rat) * Decimal.power d.exponent

/-- The two decimals next to a positive number when the last digit stands at an exponent. -/
def neighbours (q : Rat) (exponent : Int) : Digits × Digits :=
  let n := (q / Decimal.power exponent).floor.toNat
  (⟨n, exponent⟩, ⟨n + 1, exponent⟩)

/-- The decimal next to a positive double that rounds to it, when one does; the nearer one
when both do. -/
def atExponent? (q : Rat) (exponent : Int) : Option Digits :=
  let (low, high) := neighbours q exponent
  let hits (d : Digits) : Bool := nearest d.value = q
  match hits low, hits high with
  | true, true => some (if q - low.value ≤ high.value - q then low else high)
  | true, false => some low
  | false, true => some high
  | false, false => none

/-- The exponent of the first digit of a positive number. -/
def firstPlace (q : Rat) : Int :=
  let guess : Int :=
    ((Nat.toDigits 10 q.num.natAbs).length : Int) - (Nat.toDigits 10 q.den).length
  if Decimal.power guess ≤ q then guess else guess - 1

/-- Tries one digit more at a time; 17 digits always round back. -/
def shortestFrom : Nat → Rat → Int → Digits
  | 0, q, exponent => (neighbours q exponent).1
  | more + 1, q, exponent =>
    match atExponent? q exponent with
    | some d => d
    | none => shortestFrom more q (exponent - 1)

/-- The fewest digits that round to a positive double. -/
def shortest (q : Rat) : Digits := shortestFrom 17 q (firstPlace q)

def zeros (n : Int) : String := String.ofList (List.replicate n.toNat '0')

/-- Digits as text: with a point where the first digit stands between the fifth place behind
the point and the sixteenth before it, with an exponent elsewhere. -/
def Digits.text (d : Digits) : String :=
  let digits := Nat.toDigits 10 d.digits
  let point : Int := digits.length + d.exponent
  let all := String.ofList digits
  if 0 ≤ d.exponent ∧ point ≤ 16 then all ++ zeros d.exponent ++ ".0"
  else if 0 < point ∧ point ≤ 16 then
    String.ofList (digits.take point.toNat) ++ "." ++ String.ofList (digits.drop point.toNat)
  else if -5 < point ∧ point ≤ 0 then "0." ++ zeros (-point) ++ all
  else
    match digits with
    | [c] => String.ofList [c] ++ "e" ++ toString (point - 1)
    | c :: rest =>
      String.ofList [c] ++ "." ++ String.ofList rest ++ "e" ++ toString (point - 1)
    | [] => ""

/-- The text of a double. -/
def text (q : Rat) : String :=
  if q = 0 then "0.0"
  else if q < 0 then "-" ++ (shortest (-q)).text
  else (shortest q).text

end Double

end PolicySync.Text
