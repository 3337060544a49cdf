import PolicySync.Text.Blank
import PolicySync.Text.Decimal
import PolicySync.Time.Timestamp

/-!
# Reading timestamps

A timestamp is a date, a separator, a time of day and an offset from universal time. The
reading is generous: numbers need not be padded, the year may have a sign, and white space
may stand before every number and every mark between the numbers.
-/

namespace PolicySync.Time

open Text (trimLeft)

/-- Reads a number of one to `width` digits. -/
def readDigits (width : Nat) (cs : List Char) : Option (Nat × List Char) :=
  let digits := (cs.take width).takeWhile Char.isDigit
  if digits.isEmpty then none
  else some (Text.Decimal.digitsValue digits, cs.drop digits.length)

/-- Reads a number of one or two digits after white space. -/
def readPair (cs : List Char) : Option (Nat × List Char) := readDigits 2 (trimLeft cs)

/-- Reads a mark after white space. -/
def readMark (mark : Char) (cs : List Char) : Option (List Char) :=
  match trimLeft cs with
  | c :: rest => if c = mark then some rest else none
  | [] => none

/-- A year without sign has at most four digits. -/
def readYear (cs : List Char) : Option (Int × List Char) :=
  match trimLeft cs with
  | '-' :: rest => (readDigits rest.length rest).map fun (year, rest) => (-(year : Int), rest)
  | '+' :: rest => (readDigits rest.length rest).map fun (year, rest) => ((year : Int), rest)
  | cs => (readDigits 4 cs).map fun (year, rest) => ((year : Int), rest)

def readDate (cs : List Char) : Option (Date × List Char) := do
  let (year, cs) ← readYear cs
  let (month, cs) ← readPair (← readMark '-' cs)
  let (day, cs) ← readPair (← readMark '-' cs)
  return (⟨year, month, day⟩, cs)

/-- A time of day. -/
structure Clock where
  hour : Nat
  minute : Nat
  second : Nat
  /-- The digits after the point. -/
  fraction : List Char

namespace Clock

/-- A minute may have a leap second. -/
def isValid (c : Clock) : Bool := c.hour < 24 && c.minute < 60 && c.second ≤ 60

def minuteOfDay (c : Clock) : Nat := 60 * c.hour + c.minute

/-- The milliseconds since the start of the minute; what is finer is cut off. -/
def millisOfMinute (c : Clock) : Nat :=
  1000 * c.second + Text.Decimal.digitsValue ((c.fraction ++ ['0', '0', '0']).take 3)

end Clock

/-- A point right after the seconds calls for digits. -/
def readFraction (cs : List Char) : Option (List Char × List Char) :=
  match cs with
  | '.' :: rest =>
    let digits := rest.takeWhile Char.isDigit
    if digits.isEmpty then none else some (digits, rest.dropWhile Char.isDigit)
  | _ => some ([], cs)

def readClock (cs : List Char) : Option (Clock × List Char) := do
  let (hour, cs) ← readPair cs
  let (minute, cs) ← readPair (← readMark ':' cs)
  let (second, cs) ← readPair (← readMark ':' cs)
  let (fraction, cs) ← readFraction cs
  return (⟨hour, minute, second, fraction⟩, cs)

/-- Reads a number of exactly two digits. -/
def readTwoDigits : List Char → Option (Nat × List Char)
  | a :: b :: rest =>
    if a.isDigit && b.isDigit then some (Text.Decimal.digitsValue [a, b], rest) else none
  | _ => none

/-- The minutes of an offset without its sign. Any colons and white space may stand between
the hours and the minutes. -/
def readSpan (cs : List Char) : Option (Nat × List Char) := do
  let (hours, cs) ← readTwoDigits cs
  let (minutes, cs) ← readTwoDigits (cs.dropWhile fun c => c = ':' || Text.isBlank c)
  if hours < 24 ∧ minutes < 60 then some (60 * hours + minutes, cs) else none

/-- The minutes that the clock is ahead of universal time. The minus sign has two forms. -/
def readOffset (cs : List Char) : Option (Int × List Char) :=
  match cs with
  | 'Z' :: rest | 'z' :: rest => some (0, rest)
  | '+' :: rest => (readSpan rest).map fun (minutes, rest) => ((minutes : Int), rest)
  | '-' :: rest | '\u2212' :: rest =>
    (readSpan rest).map fun (minutes, rest) => (-(minutes : Int), rest)
  | _ => if (cs.take 3).map Char.toLower = ['u', 't', 'c'] then some (0, cs.drop 3) else none

def readSeparator : List Char → Option (List Char)
  | c :: rest => if ['T', 't', ' '].contains c then some rest else none
  | [] => none

/-- A date and a time of day as a point in time, given the minutes that the clock is ahead.
Both the date and the date in universal time are in range; a leap second is in its minute. -/
def Timestamp.ofClock? (date : Date) (clock : Clock) (ahead : Int) : Option Timestamp :=
  let minute : Timestamp := ⟨60000 * (1440 * date.days + clock.minuteOfDay - ahead)⟩
  if date.isValid && date.inRange && clock.isValid && minute.inRange then
    some ⟨minute.millis + clock.millisOfMinute⟩
  else none

/-- Reads a timestamp, with white space after it. -/
def Timestamp.ofText? (s : String) : Option Timestamp := do
  let (date, cs) ← readDate s.toList
  let (clock, cs) ← readClock (← readSeparator cs)
  let (ahead, cs) ← readOffset (trimLeft cs)
  if trimLeft cs = [] then Timestamp.ofClock? date clock ahead else none

example : (Timestamp.ofText? "1970-1-1 0:0: 1.5 utc").map Timestamp.millis = some 1500 := by
  decide

example :
    (Timestamp.ofText? "-0001-12-31T23:30:00−00:30").map Timestamp.text =
      some "0000-01-01T00:00:00Z" := by
  decide

end PolicySync.Time
