import WorkMarket.Number.Calendar
import WorkMarket.Number.Instant
import WorkMarket.Number.Duration
import WorkMarket.Text.Utf8

/-!
# Instants as text

Instants are written as in `2023-11-14T22:13:20.5Z`: in universal time, with
as many groups of three digits behind the point as are needed.  Reading also
takes other offsets, `UTC` for the zero offset, a blank or a small letter for
the `T`, years with a sign, and blanks before numbers and marks.  Each reader
of a part answers with what the part stands for and the text behind it.
-/

namespace WorkMarket
namespace Timestamp

/-- Read at most `most` digits, of which there must be one. -/
def digits
    (most : Nat)
    (characters : List Char) :
    Option (Nat × List Char) :=
  let found := (characters.take most).takeWhile Char.isDigit
  if found.isEmpty then none
  else
    (Text.numberOf? Text.decimalValue? 10 found).map fun number =>
      (number, characters.drop found.length)

/-- Read a number of at most two digits behind any blanks. -/
def pair
    (characters : List Char) :
    Option (Nat × List Char) :=
  digits 2 (Text.trimStart characters)

/-- Read a mark behind any blanks. -/
def mark
    (expected : Char)
    (characters : List Char) :
    Option (List Char) :=
  Text.stripLead? [expected] (Text.trimStart characters)

/-- Read a year: four digits at most, or any number of them behind a sign. -/
def year
    (characters : List Char) :
    Option (Int × List Char) :=
  match Text.trimStart characters with
  | '-' :: rest => (digits rest.length rest).map fun (number, rest) => (-(number : Int), rest)
  | '+' :: rest => (digits rest.length rest).map fun (number, rest) => ((number : Int), rest)
  | rest => (digits 4 rest).map fun (number, rest) => ((number : Int), rest)

/-- Read the digits behind the point of a second, if there is a point.  Digits
beyond the ninth are passed over. -/
def fraction
    (characters : List Char) :
    Option (Nat × List Char) :=
  match characters with
  | '.' :: rest =>
      (digits 9 rest).map fun (number, after) =>
        (number * Nat.pow 10 (9 - (rest.length - after.length)), after.dropWhile Char.isDigit)
  | other => some (0, other)

/-- Read two digits exactly. -/
def twoDigits
    (characters : List Char) :
    Option (Nat × List Char) :=
  match characters with
  | first :: second :: rest => do
      let first ← Text.decimalValue? first
      let second ← Text.decimalValue? second
      some (10 * first + second, rest)
  | _ => none

/-- Read hours and minutes of an offset; answers with its seconds. -/
def offsetAmount
    (characters : List Char) :
    Option (Nat × List Char) := do
  let (hours, rest) ← twoDigits characters
  let (minutes, rest) ← twoDigits
    (rest.dropWhile fun character => character = ':' || Text.isBlank character)
  if minutes < 60 ∧ hours < 24 then some (3600 * hours + 60 * minutes, rest) else none

/-- Read an offset from universal time; answers with its seconds. -/
def offset
    (characters : List Char) :
    Option (Int × List Char) :=
  match characters with
  | 'Z' :: rest | 'z' :: rest => some (0, rest)
  | '+' :: rest => (offsetAmount rest).map fun (seconds, rest) => ((seconds : Int), rest)
  | '-' :: rest | '−' :: rest =>
      (offsetAmount rest).map fun (seconds, rest) => (-(seconds : Int), rest)
  | first :: second :: third :: rest =>
      if [first.toUpper, second.toUpper, third.toUpper] = ['U', 'T', 'C'] then some (0, rest)
      else none
  | _ => none

/-- The years that can be told. -/
def isYear
    (year : Int) :
    Bool :=
  -262143 ≤ year && year ≤ 262142

/-- Read a day. -/
def date
    (characters : List Char) :
    Option (CalendarDay × List Char) := do
  let (year, rest) ← year characters
  let (month, rest) ← pair (← mark '-' rest)
  let (day, rest) ← pair (← mark '-' rest)
  let date ← CalendarDay.of? year month day
  if isYear year then some (date, rest) else none

/-- Read a time of the day; answers with seconds and nanoseconds.  A sixtieth
second lengthens the last one of the minute. -/
def clock
    (characters : List Char) :
    Option ((Nat × Nat) × List Char) := do
  let (hour, rest) ← pair characters
  let (minute, rest) ← pair (← mark ':' rest)
  let (second, rest) ← pair (← mark ':' rest)
  let (nanoseconds, rest) ← fraction rest
  if hour < 24 ∧ minute < 60 ∧ second ≤ 60 then
    let leap := if second = 60 then nanosecondsPerSecond else 0
    some ((3600 * hour + 60 * minute + min second 59, leap + nanoseconds), rest)
  else none

/-- The text behind the letter or blank between day and time. -/
def separator
    (characters : List Char) :
    Option (List Char) :=
  match characters with
  | 'T' :: rest | 't' :: rest | ' ' :: rest => some rest
  | _ => none

/-- Read an instant, whose year must be one that can be told in universal time
too. -/
def read
    (text : String) :
    Option Instant := do
  let (date, rest) ← date text.toList
  let ((seconds, nanoseconds), rest) ← clock (← separator rest)
  let (offset, rest) ← offset (Text.trimStart rest)
  let total := date.toNumber * 86400 + seconds - offset
  if (Text.trimStart rest).isEmpty && isYear (CalendarDay.ofNumber (total / 86400)).year then
    some ⟨total, nanoseconds⟩
  else none

/-- The text of a year.  One of other than four digits shows its sign. -/
def yearChars
    (year : Int) :
    List Char :=
  if 0 ≤ year ∧ year ≤ 9999 then Text.decimalPadded 4 year.toNat
  else (if year < 0 then '-' else '+') :: Text.decimalPadded 4 year.natAbs

/-- The digits behind the point of a second, in as many groups of three as
are needed. -/
def fractionChars
    (nanoseconds : Nat) :
    List Char :=
  if nanoseconds = 0 then []
  else if nanoseconds % 1000000 = 0 then '.' :: Text.decimalPadded 3 (nanoseconds / 1000000)
  else if nanoseconds % 1000 = 0 then '.' :: Text.decimalPadded 6 (nanoseconds / 1000)
  else '.' :: Text.decimalPadded 9 nanoseconds

/-- The text of an instant. -/
def write
    (instant : Instant) :
    String :=
  let date := CalendarDay.ofNumber (instant.seconds / 86400)
  let ofDay := (instant.seconds % 86400).toNat
  let second := ofDay % 60 + instant.nanoseconds / nanosecondsPerSecond
  String.ofList
    (yearChars date.year ++ '-' :: Text.decimalPadded 2 date.month ++
      '-' :: Text.decimalPadded 2 date.day ++ 'T' :: Text.decimalPadded 2 (ofDay / 3600) ++
      ':' :: Text.decimalPadded 2 (ofDay / 60 % 60) ++ ':' :: Text.decimalPadded 2 second ++
      fractionChars (instant.nanoseconds % nanosecondsPerSecond) ++ ['Z'])

end Timestamp
end WorkMarket
