import PolicySync.Time.Calendar

/-!
# Timestamps

Points in time as milliseconds since the start of 1970, and how they are written: date and
time of day with a letter between them, in universal time.
-/

namespace PolicySync.Time

/-- A number with leading zeros up to a width. -/
def padded (width n : Nat) : String :=
  let digits := toString n
  String.ofList (List.replicate (width - digits.length) '0') ++ digits

/-- Four digits suffice for the years of four digits; every other year has a sign. -/
def yearText (year : Int) : String :=
  if 0 ≤ year ∧ year ≤ 9999 then padded 4 year.toNat
  else (if year < 0 then "-" else "+") ++ padded 4 year.natAbs

def Date.text (d : Date) : String :=
  yearText d.year ++ "-" ++ padded 2 d.month ++ "-" ++ padded 2 d.day

/-- A point in time, in milliseconds since the start of 1970. -/
structure Timestamp where
  millis : Int
  deriving DecidableEq, Repr

namespace Timestamp

def millisPerDay : Int := 86400000

def date (t : Timestamp) : Date := .ofDays (t.millis / millisPerDay)

def millisOfDay (t : Timestamp) : Nat := (t.millis % millisPerDay).toNat

/-- Whether the date in universal time is one that can be written. -/
def inRange (t : Timestamp) : Bool := t.date.inRange

/-- Universal time; the milliseconds are left out when they are zero. -/
def text (t : Timestamp) : String :=
  let ms := t.millisOfDay
  let fraction := if ms % 1000 = 0 then "" else "." ++ padded 3 (ms % 1000)
  t.date.text ++ "T" ++ padded 2 (ms / 3600000) ++ ":" ++ padded 2 (ms / 60000 % 60) ++ ":" ++
    padded 2 (ms / 1000 % 60) ++ fraction ++ "Z"

end Timestamp

end PolicySync.Time
