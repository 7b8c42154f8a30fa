/-!
# Calendar times

A time in seconds since the start of 1970 as date and time of day, in the proleptic Gregorian
calendar without time zones or leap seconds.

Follows `format_ts` of `models`.
-/

namespace TradeDesk

namespace Calendar

/-- A day: its year, month and day of the month. -/
structure Date where
  year : Int
  month : Nat
  day : Nat
  deriving DecidableEq, Repr

/-- The date that lies `days` after the first of January 1970. The year is taken to begin in March,
so that a leap day is its last, and 400 years are a cycle of 146097 days. -/
def ofDays (days : Int) : Date :=
  let z := days + 719468
  let era := z.fdiv 146097
  let dayOfEra := (z.fmod 146097).toNat
  let yearOfEra :=
    (dayOfEra - dayOfEra / 1460 + dayOfEra / 36524 - dayOfEra / 146096) / 365
  let dayOfYear := dayOfEra - (365 * yearOfEra + yearOfEra / 4 - yearOfEra / 100)
  let shifted := (5 * dayOfYear + 2) / 153
  let month := if shifted < 10 then shifted + 3 else shifted - 9
  ⟨yearOfEra + era * 400 + (if month ≤ 2 then 1 else 0), month,
    dayOfYear - (153 * shifted + 2) / 5 + 1⟩

private def padded (width n : Nat) : String :=
  let digits := toString n
  String.ofList (List.replicate (width - digits.length) '0') ++ digits

/-- A year has four digits at least, and a sign when four digits cannot say it. -/
def yearText (year : Int) : String :=
  let digits := padded 4 year.natAbs
  if year < 0 then "-" ++ digits else if 9999 < year then "+" ++ digits else digits

/-- The first and last seconds that have a calendar text. -/
def firstSecond : Int := -8334601228800

def lastSecond : Int := 8210266876799

/-- Date and time of day; a time that is out of range is written as its number. -/
def format (seconds : Int) : String :=
  if firstSecond ≤ seconds ∧ seconds ≤ lastSecond then
    let date := ofDays (seconds.fdiv 86400)
    let time := (seconds.fmod 86400).toNat
    yearText date.year ++ "-" ++ padded 2 date.month ++ "-" ++ padded 2 date.day ++ " " ++
      padded 2 (time / 3600) ++ ":" ++ padded 2 (time / 60 % 60) ++ ":" ++ padded 2 (time % 60)
  else toString seconds

end Calendar

end TradeDesk
