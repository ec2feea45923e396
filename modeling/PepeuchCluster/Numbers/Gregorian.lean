import PepeuchCluster.Numbers.Calendar

namespace Calendar

/-- A date that `datetime` can hold. -/
def IsDate (year month day : Nat) : Prop :=
  1 ≤ year ∧ year ≤ 9999 ∧ 1 ≤ month ∧ month ≤ 12 ∧ 1 ≤ day ∧
    day ≤ (monthLengths year).getD (month - 1) 0

instance (year month day : Nat) : Decidable (IsDate year month day) := by
  unfold IsDate; infer_instance

structure Date where
  year : Nat
  month : Nat
  day : Nat
  valid : IsDate year month day
deriving DecidableEq

def date (year month day : Nat) : Option Date :=
  if h : IsDate year month day then some ⟨year, month, day, h⟩ else none

/-- The days of the years before this one. -/
def daysBefore (year : Nat) : Nat :=
  (year - 1) * 365 + (year - 1) / 4 - (year - 1) / 100 + (year - 1) / 400

namespace Date

/-- `date.toordinal()`: the first of January of year 1 is day 1. -/
def ordinal (date : Date) : Nat :=
  daysBefore date.year + ((monthLengths date.year).take (date.month - 1)).sum + date.day

/-- `date.weekday()`: Monday is 0. -/
def weekday (date : Date) : Nat := (date.ordinal + 6) % 7

/-- `date.replace(year=year)`. -/
def in_year (date : Date) (year : Nat) : Option Date := Calendar.date year date.month date.day

end Date

/-- A date and a time of the day in UTC. -/
structure DateTime where
  date : Date
  second : Nat
  microsecond : Nat
deriving DecidableEq

/-- The ordinal of the first of January 1970. -/
def EPOCH : Nat := 719163

namespace DateTime

/-- Microseconds since the epoch. -/
def instant (time : DateTime) : Int :=
  (((time.date.ordinal : Int) - EPOCH) * 86400 + time.second) * 1000000 + time.microsecond

end DateTime

/-- The nearest whole number of microseconds, ties to even. -/
def microseconds (seconds : ℚ) : Int :=
  let scaled := |seconds| * 1000000
  let rounded := Binary64.roundHalfEven scaled.num.natAbs scaled.den
  if seconds < 0 then -rounded else rounded

/-- `date.fromordinal(ordinal)`. -/
def from_ordinal (ordinal : Nat) : Option Date :=
  let (year, yearDay) := locateYear 9999 1 (ordinal - 1)
  let (month, day) := locate (monthLengths year) yearDay
  if 1 ≤ ordinal then date year (month + 1) (day + 1) else none

/-- `datetime.fromtimestamp(seconds, timezone.utc)`. -/
def from_timestamp (seconds : ℚ) : Option DateTime := do
  let total := microseconds seconds
  let day := total / 86400000000 + EPOCH
  let date ← from_ordinal day.toNat
  let time := (total % 86400000000).toNat
  return ⟨date, time / 1000000, time % 1000000⟩

example : (from_timestamp (1709210096 + 1 / 2)).map DateTime.instant = some 1709210096500000 := by
  decide +kernel

end Calendar
