import PepeuchCluster.Json.Canonical

namespace Calendar

def isLeap (year : Nat) : Bool := year % 4 = 0 && (year % 100 ≠ 0 || year % 400 = 0)

def yearLength (year : Nat) : Nat := if isLeap year then 366 else 365

def monthLengths (year : Nat) : List Nat :=
  [31, if isLeap year then 29 else 28, 31, 30, 31, 30, 31, 31, 30, 31, 30, 31]

/-- The span that holds a day, and the day within it, both counted from zero. -/
def locate : List Nat → Nat → Nat × Nat
  | [], day => (0, day)
  | span :: spans, day =>
    if day < span then (0, day)
      else ((locate spans (day - span)).1 + 1, (locate spans (day - span)).2)

def locateYear : Nat → Nat → Nat → Nat × Nat
  | 0, year, day => (year, day)
  | fuel + 1, year, day =>
    if day < yearLength year then (year, day)
      else locateYear fuel (year + 1) (day - yearLength year)

def digits (width n : Nat) : List Char :=
  List.replicate (width - (Nat.toDigits 10 n).length) '0' ++ Nat.toDigits 10 n

/-- `datetime.isoformat(timespec="microseconds")` in UTC, for seconds since the
    epoch and microseconds. -/
def isoformat (seconds microseconds : Nat) : String :=
  let (year, yearDay) := locateYear (seconds / 86400) 1970 (seconds / 86400)
  let (month, day) := locate (monthLengths year) yearDay
  let time := seconds % 86400
  String.ofList (digits 4 year ++ '-' :: digits 2 (month + 1) ++ '-' :: digits 2 (day + 1) ++
    'T' :: digits 2 (time / 3600) ++ ':' :: digits 2 (time / 60 % 60) ++ ':' ::
      digits 2 (time % 60) ++
    '.' :: digits 6 microseconds ++ ['+', '0', '0', ':', '0', '0'])

/-- Seconds and microseconds of a nonnegative number. The fraction of a float is
    scaled as a float, then rounded half to even. -/
def split : Number → Nat × Nat
  | .int z => (z.toNat, 0)
  | .float x =>
    let whole := x.magnitude.num.toNat / x.magnitude.den
    let scaled :=
      ((Binary64.ofValue ((x.magnitude - whole) * 1000000)).map Binary64.magnitude).getD 0
    let rounded := Binary64.roundHalfEven scaled.num.toNat scaled.den
    if rounded < 1000000 then (whole, rounded) else (whole + 1, rounded - 1000000)

example : isoformat 1709210096 789012 = "2024-02-29T12:34:56.789012+00:00" := by decide +kernel

end Calendar
