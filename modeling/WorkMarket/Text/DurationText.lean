import WorkMarket.Number.Duration
import WorkMarket.Text.Utf8

/-!
# Durations as people write them

A duration is written as numbers with units, `1h 30m`.  Reading takes any
sequence of numbers, each with a unit and perhaps a fraction; white space may
stand anywhere but inside a unit.  A number times its unit has to fit
sixty-four bits, and a fraction must come to whole nanoseconds or seconds.
Writing goes from years down to nanoseconds and leaves zeros out.
-/

namespace WorkMarket
namespace DurationText

/-- Why a text is no duration.  Positions count bytes. -/
inductive Fault where
  /-- A character that belongs to no number and no unit. -/
  | badCharacter (position : Nat)
  /-- Something else where a number has to start, by where the search for
  the number began. -/
  | numberExpected (position : Nat)
  /-- A number whose unit is missing or unknown. -/
  | unknownUnit (unit : String) (number : Nat)
  /-- A number that is too large, or a fraction that is not whole. -/
  | outOfRange
  /-- There is no number at all. -/
  | empty
deriving DecidableEq

/-- The wording of a fault. -/
def Fault.message : Fault → String
  | .badCharacter position => "invalid character at " ++ toString position
  | .numberExpected position => "expected number at " ++ toString position
  | .unknownUnit unit number =>
      if unit = "" then
        "time unit needed, for example " ++ toString number ++ "sec or " ++
          toString number ++ "ms"
      else
        "unknown time unit \"" ++ unit ++ "\", supported units: " ++
          "ns, us/µs, ms, sec, min, hours, days, weeks, months, years (and few variations)"
  | .outOfRange =>
      "number is too large or cannot be represented without a lack of precision " ++
        "(values below 1ns are not supported)"
  | .empty => "value was empty"

/-- What a unit counts in: whole seconds, or nanoseconds. -/
inductive Scale where
  /-- The unit is so many nanoseconds; a fraction may use as many of them. -/
  | nanoseconds (factor : Nat)
  /-- The unit is so many seconds, and so many nanoseconds for a fraction. -/
  | shortSeconds (factor fractionFactor : Nat)
  /-- The unit is so many seconds, and a fraction comes to whole seconds. -/
  | seconds (factor : Nat)
deriving DecidableEq

/-- The unit of a name. -/
def scaleOf
    (unit : String) :
    Option Scale :=
  if unit ∈ ["nanos", "nsec", "ns"] then some (.nanoseconds 1)
  else if unit ∈ ["usec", "us", "µs"] then some (.nanoseconds 1000)
  else if unit ∈ ["millis", "msec", "ms"] then some (.nanoseconds 1000000)
  else if unit ∈ ["seconds", "second", "secs", "sec", "s"] then
    some (.shortSeconds 1 1000000000)
  else if unit ∈ ["minutes", "minute", "min", "mins", "m"] then
    some (.shortSeconds 60 60000000000)
  else if unit ∈ ["hours", "hour", "hr", "hrs", "h"] then some (.seconds 3600)
  else if unit ∈ ["days", "day", "d"] then some (.seconds 86400)
  else if unit ∈ ["weeks", "week", "wk", "wks", "w"] then some (.seconds 604800)
  else if unit ∈ ["months", "month", "M"] then some (.seconds 2630016)
  else if unit ∈ ["years", "year", "yr", "yrs", "y"] then some (.seconds 31557600)
  else none

/-- A number that has to fit sixty-four bits. -/
def fits
    (number : Nat) :
    Except Fault Nat :=
  if number < UInt64.size then .ok number else .error .outOfRange

/-- The digits behind a point, as a fraction `numerator / denominator`. -/
structure Fraction where
  numerator : Nat
  denominator : Nat
deriving DecidableEq

/-- A fraction of `factor`, which has to come out whole. -/
def Fraction.of
    (fraction : Fraction)
    (factor : Nat) :
    Except Fault Nat := do
  let product ← fits (fraction.numerator * factor)
  if product % fraction.denominator = 0 then .ok (product / fraction.denominator)
  else .error .outOfRange

/-- Add seconds and nanoseconds to a duration. -/
def advance
    (total : Duration)
    (seconds nanoseconds : Nat) :
    Except Fault Duration := do
  let _ ← fits (total.subsecond + nanoseconds)
  let sum := total.nanoseconds + seconds * nanosecondsPerSecond + nanoseconds
  match Duration.ofNanoseconds? sum with
  | some duration => .ok duration
  | none => .error .outOfRange

/-- Add a number of some unit, and a fraction of the unit, to a duration. -/
def addUnits
    (total : Duration)
    (unit : String)
    (number : Nat)
    (fraction : Option Fraction) :
    Except Fault Duration :=
  match scaleOf unit with
  | none => .error (.unknownUnit unit number)
  | some (.nanoseconds factor) => do
      let total ← advance total 0 (← fits (number * factor))
      match fraction with
      | none => .ok total
      | some fraction =>
          if factor = 1 then .error .outOfRange
          else advance total 0 (← fraction.of factor)
  | some (.shortSeconds factor fractionFactor) => do
      let total ← advance total (← fits (number * factor)) 0
      match fraction with
      | none => .ok total
      | some fraction => advance total 0 (← fraction.of fractionFactor)
  | some (.seconds factor) => do
      let total ← advance total (← fits (number * factor)) 0
      match fraction with
      | none => .ok total
      | some fraction => advance total (← fraction.of factor) 0

/-- Whether a character can belong to the name of a unit. -/
def isUnitLetter
    (character : Char) :
    Bool :=
  character.isAlpha || character = 'µ'

/-- The value of a decimal digit. -/
def digitOf
    (character : Char) :
    Nat :=
  character.toNat - '0'.toNat

/-- Where reading stands inside a duration. -/
inductive Place where
  /-- Before a number, where the search for it began. -/
  | start (origin : Nat)
  /-- Inside the whole part of a number. -/
  | whole (number : Nat)
  /-- Behind the point of a number, whose position is given as long as no
  digit followed. -/
  | fraction (number : Nat) (digits : Fraction) (point : Nat)
  /-- Inside the name of a unit, whose letters stand in reverse. -/
  | unit (number : Nat) (fraction : Option Fraction) (letters : List Char)
deriving DecidableEq

/-- What has been read: the sum so far, whether any number was seen, and the
place. -/
structure Progress where
  total : Duration
  seen : Bool
  place : Place

/-- The fraction of a number, which needs a digit. -/
def closeFraction
    (digits : Fraction)
    (point : Nat) :
    Except Fault Fraction :=
  if digits.denominator = 1 then .error (.badCharacter point) else .ok digits

/-- Read one character, which stands at `position`. -/
def step
    (progress : Progress)
    (position : Nat)
    (character : Char) :
    Except Fault Progress :=
  match progress.place with
  | .start origin =>
      if character.isDigit then
        .ok { progress with seen := true, place := .whole (digitOf character) }
      else if Text.isBlank character then .ok progress
      else .error (.numberExpected origin)
  | .whole number =>
      if character.isDigit then do
        let number ← fits (number * 10 + digitOf character)
        .ok { progress with place := .whole number }
      else if Text.isBlank character then .ok progress
      else if isUnitLetter character then
        .ok { progress with place := .unit number none [character] }
      else if character = '.' then
        .ok { progress with place := .fraction number ⟨0, 1⟩ position }
      else .error (.badCharacter position)
  | .fraction number digits point =>
      if character.isDigit then do
        let denominator ← fits (digits.denominator * 10)
        let numerator ← fits (digits.numerator * 10 + digitOf character)
        .ok { progress with
          place := .fraction number ⟨numerator, denominator⟩ (position + 1) }
      else if Text.isBlank character then
        .ok { progress with
          place := .fraction number digits (position + character.utf8Size) }
      else if isUnitLetter character then do
        let fraction ← closeFraction digits point
        .ok { progress with place := .unit number (some fraction) [character] }
      else .error (.badCharacter point)
  | .unit number fraction letters =>
      if character.isDigit then do
        let total ← addUnits progress.total (String.ofList letters.reverse) number fraction
        .ok { progress with total := total, place := .whole (digitOf character) }
      else if Text.isBlank character then do
        let total ← addUnits progress.total (String.ofList letters.reverse) number fraction
        .ok { progress with total := total, place := .start (position + character.utf8Size) }
      else if isUnitLetter character then
        .ok { progress with place := .unit number fraction (character :: letters) }
      else .error (.badCharacter position)

/-- What the end of the text makes of the progress. -/
def finish
    (progress : Progress) :
    Except Fault Duration :=
  match progress.place with
  | .start _ => if progress.seen then .ok progress.total else .error .empty
  | .whole number => addUnits progress.total "" number none
  | .fraction number digits point => do
      let fraction ← closeFraction digits point
      addUnits progress.total "" number (some fraction)
  | .unit number fraction letters =>
      addUnits progress.total (String.ofList letters.reverse) number fraction

/-- Read characters, the first of which stands at `position`. -/
def readFrom
    (progress : Progress)
    (position : Nat) :
    List Char → Except Fault Duration
  | [] => finish progress
  | character :: rest =>
      match step progress position character with
      | .error fault => .error fault
      | .ok progress => readFrom progress (position + character.utf8Size) rest

/-- Read a duration. -/
def read
    (text : String) :
    Except Fault Duration :=
  readFrom ⟨Duration.zero, false, .start 0⟩ 0 text.toList

/-- A number with its unit, left out when it is zero. -/
def item
    (unit : String)
    (number : Nat) :
    List String :=
  if number = 0 then [] else [toString number ++ unit]

/-- The same with the unit in the plural from two on. -/
def pluralItem
    (unit : String)
    (number : Nat) :
    List String :=
  if number ≤ 1 then item unit number else item (unit ++ "s") number

/-- Write a duration. -/
def write
    (duration : Duration) :
    String :=
  let seconds := duration.seconds
  let nanoseconds := duration.subsecond
  let yearRest := seconds % 31557600
  let monthRest := yearRest % 2630016
  let dayRest := monthRest % 86400
  let items :=
    pluralItem "year" (seconds / 31557600) ++ pluralItem "month" (yearRest / 2630016) ++
      pluralItem "day" (monthRest / 86400) ++ item "h" (dayRest / 3600) ++
      item "m" (dayRest % 3600 / 60) ++ item "s" (dayRest % 60) ++
      item "ms" (nanoseconds / 1000000) ++ item "us" (nanoseconds / 1000 % 1000) ++
      item "ns" (nanoseconds % 1000)
  if items = [] then "0s" else Text.joined " " items

/-- Write whole seconds with the two or three units that matter. -/
def writeRough
    (seconds : Nat) :
    String :=
  if seconds < 60 then toString seconds ++ "s"
  else if seconds < 3600 then
    toString (seconds / 60) ++ "m " ++ toString (seconds % 60) ++ "s"
  else if seconds < 86400 then
    toString (seconds / 3600) ++ "h " ++ toString (seconds % 3600 / 60) ++ "m " ++
      toString (seconds % 60) ++ "s"
  else toString (seconds / 86400) ++ "d " ++ toString (seconds % 86400 / 3600) ++ "h"

end DurationText
end WorkMarket
