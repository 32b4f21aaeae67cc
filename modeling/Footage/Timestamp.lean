import Footage.Calendar
import Footage.Fault
import Footage.Number.Power
import Footage.Text.Digit
/-!
# Timestamps

Video ranges are given by timestamps such as `2024-09-06_15-00-33`.  `Timestamp.format` writes a
moment that way and `Timestamp.parse` reads it; the reader is more liberal than the writer: it
takes one digit where two would do, a space before a one-digit day, and in most places the
digits of any script.  `Timestamp.range` gives the timestamps of a range that ends at a moment
and has a given duration.
-/

namespace Footage.Timestamp

open Calendar (Moment)
open Number (Quantity)

/-! ### Writing -/

/-- Year, month, day, hour, minute and second; all but the year in two digits at least. -/
def format (t : Moment) : String :=
  String.ofList <|
    Number.decimalDigits t.year ++ '-' :: Number.padded 2 t.month ++ '-' :: Number.padded 2 t.day ++
      '_' :: Number.padded 2 t.hour ++ '-' :: Number.padded 2 t.minute ++
      '-' :: Number.padded 2 t.second

/-! ### Reading

A field has several ways to match the front of a text.  Each reader below lists them in the order
of preference, as the value read and the text that follows. -/

/-- The ways in which a reader matches the front of a text. -/
abbrev Reader := List Char → List (Nat × List Char)

/-- The value of a digit of ASCII between the two given ones. -/
def asciiDigit? (lo hi : Nat) (c : Char) : Option Nat :=
  if 48 + lo ≤ c.toNat && c.toNat ≤ 48 + hi then some (c.toNat - 48) else none

/-- One character with a value. -/
def one (value? : Char → Option Nat) : Reader
  | c :: rest => match value? c with
    | some d => [(d, rest)]
    | none => []
  | [] => []

/-- Two characters with values, as tens and units. -/
def two (tens? units? : Char → Option Nat) : Reader
  | c :: d :: rest => match tens? c, units? d with
    | some t, some u => [(10 * t + u, rest)]
    | _, _ => []
  | _ => []

/-- The ways of the first reader, then those of the second. -/
def Reader.or (r s : Reader) : Reader := fun cs => r cs ++ s cs

/-- One way for each way of `r` that is followed by the separator. -/
def Reader.before (r : Reader) (sep : Char) : Reader := fun cs =>
  (r cs).filterMap fun (n, rest) =>
    match rest with
    | c :: rest => if c = sep then some (n, rest) else none
    | [] => none

/-- Four digits of any script. -/
def year : Reader
  | a :: b :: c :: d :: rest =>
    match Text.digit? a, Text.digit? b, Text.digit? c, Text.digit? d with
    | some a, some b, some c, some d => [(1000 * a + 100 * b + 10 * c + d, rest)]
    | _, _, _, _ => []
  | _ => []

/-- `1` to `12`, the numbers of one digit also with a zero before. -/
def month : Reader :=
  (two (asciiDigit? 1 1) (asciiDigit? 0 2)).or <|
    (two (asciiDigit? 0 0) (asciiDigit? 1 9)).or (one (asciiDigit? 1 9))

/-- A space before one digit. -/
def spaced : Reader
  | ' ' :: rest => one (asciiDigit? 1 9) rest
  | _ => []

/-- `1` to `31`, the numbers of one digit also with a zero or a space before. -/
def day : Reader :=
  (two (asciiDigit? 3 3) (asciiDigit? 0 1)).or <|
    (two (asciiDigit? 1 2) Text.digit?).or <|
      (two (asciiDigit? 0 0) (asciiDigit? 1 9)).or <|
        (one (asciiDigit? 1 9)).or spaced

/-- `0` to `23`. -/
def hour : Reader :=
  (two (asciiDigit? 2 2) (asciiDigit? 0 3)).or <|
    (two (asciiDigit? 0 1) Text.digit?).or (one Text.digit?)

/-- `0` to `59`. -/
def minute : Reader := (two (asciiDigit? 0 5) Text.digit?).or (one Text.digit?)

/-- `0` to `61`: the form leaves room for leap seconds. -/
def second : Reader := (two (asciiDigit? 6 6) (asciiDigit? 0 1)).or minute

/-- All ways to match the front of a text as a timestamp, in the order of preference. -/
def ways (cs : List Char) : List (Moment × List Char) :=
  (year.before '-' cs).flatMap fun (year, cs) =>
  (month.before '-' cs).flatMap fun (month, cs) =>
  (day.before '_' cs).flatMap fun (day, cs) =>
  (hour.before '-' cs).flatMap fun (hour, cs) =>
  (minute.before '-' cs).flatMap fun (minute, cs) =>
  (second cs).map fun (second, cs) => ({ year, month, day, hour, minute, second }, cs)

/-- Reads a timestamp.  The text has to be of the right form to its end, and then to denote a
moment that exists. -/
def parse (text : String) : Except TimestampFault Moment :=
  match (ways text.toList).head? with
  | none => .error (.mismatch text)
  | some (t, rest) =>
    if !rest.isEmpty then .error (.leftover (String.ofList rest))
    else if t.year = 0 then .error .yearZero
    else if Calendar.daysIn t.year t.month < t.day then .error .noSuchDay
    else if 59 < t.second then .error .leapSecond
    else .ok t

/-! ### Ranges -/

/-- A duration of so many seconds in whole microseconds.  The fraction of a double is first taken
to a double of microseconds, and this to the nearest whole one, a tie to the even one. -/
def microseconds : Quantity → Except RangeFault Nat
  | .flag b => .ok (if b then 1000000 else 0)
  | .whole n => .ok (n.toNat * 1000000)
  | .real x =>
    match x.form with
    | .nan => .error .notANumber
    | .infinite _ => .error .infinite
    | .finite _ m e =>
      let fraction :=
        match (Number.Binary64.scaledFraction 1000000 m e).form with
        | .finite _ m e => Number.Binary64.roundedPart m e
        | _ => 0
      .ok (Number.Binary64.wholePart m e * 1000000 + fraction)

/-- The number of microseconds in a day. -/
def dayTicks : Nat := 86400 * 1000000

/-- The most days that a duration may have. -/
def mostDays : Nat := 999999999

/-- A duration that is not negative, in microseconds. -/
def duration (seconds : Quantity) : Except RangeFault Nat :=
  if seconds.isBelowZero then .error (.negative seconds)
  else do
    let ticks ← microseconds seconds
    let days := ticks / dayTicks
    if 2 ^ 31 ≤ days then .error .tooManyDays
    else if mostDays < days then .error (.daysOutOfRange days)
    else .ok ticks

/-- The moment so many microseconds earlier, if it is not before the year 1. -/
def earlier (t : Moment) (ticks : Nat) : Except RangeFault Moment :=
  if t.ticks < ticks then .error .startOutOfRange else .ok (Moment.ofTicks (t.ticks - ticks))

/-- The timestamps of the range with this duration that ends at the moment. -/
def range (seconds : Quantity) (stop : Moment) : Except RangeFault (String × String) := do
  let start ← earlier stop (← duration seconds)
  return (format start, format stop)

end Footage.Timestamp
