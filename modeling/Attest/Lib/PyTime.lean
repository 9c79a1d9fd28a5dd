import Mathlib.Data.Int.Notation
import Attest.Lib.Json

/-!
# Python's datetimes

A datetime in UTC is its microseconds since 1970. `isoFormat` writes it as
`datetime.isoformat()` does, over the proleptic Gregorian calendar, and `inRange` says
which of them Python can hold.
-/

namespace PyTime

/-- The years 1 to 9999. -/
def inRange (microseconds : Int) : Bool :=
  -62135596800000000 ≤ microseconds ∧ microseconds < 253402300800000000

/-- Year, month and day of a day since 1970. Years start in March, so that the leap day
is the last of its year. -/
def civil (day : Int) : Int × Int × Int :=
  let z := day + 719468
  let era := z / 146097
  let doe := z % 146097
  let yoe := (doe - doe / 1460 + doe / 36524 - doe / 146096) / 365
  let doy := doe - (365 * yoe + yoe / 4 - yoe / 100)
  let mp := (5 * doy + 2) / 153
  let month := if mp < 10 then mp + 3 else mp - 9
  let year := yoe + era * 400
  (if month ≤ 2 then year + 1 else year, month, doy - (153 * mp + 2) / 5 + 1)

/-- A number with at least `width` digits. -/
def padded (width : Nat) (n : Int) : String :=
  let digits := JVal.intText n
  String.ofList (List.replicate (width - digits.length) '0' ++ digits)

/-- `datetime.isoformat()` in UTC. -/
def isoFormat (microseconds : Int) : String :=
  let (year, month, day) := civil (microseconds / 86400000000)
  let second := microseconds / 1000000 % 86400
  let fraction := microseconds % 1000000
  padded 4 year ++ "-" ++ padded 2 month ++ "-" ++ padded 2 day ++ "T" ++
    padded 2 (second / 3600) ++ ":" ++ padded 2 (second / 60 % 60) ++ ":" ++
    padded 2 (second % 60) ++ (if fraction = 0 then "" else "." ++ padded 6 fraction) ++ "+00:00"

example : isoFormat 1709210096000500 = "2024-02-29T12:34:56.000500+00:00" := by decide +kernel

end PyTime
