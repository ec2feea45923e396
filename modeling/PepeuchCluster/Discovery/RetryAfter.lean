import PepeuchCluster.Discovery.Sources
import PepeuchCluster.Numbers.Gregorian
import PepeuchCluster.Numbers.Rounding

namespace discovery

/-- The date of an RFC850 text, whose century is left open. -/
structure LegacyDate where
  year : Nat
  month : Nat
  day : Nat
  hour : Nat
  minute : Nat
  second : Nat
  weekday : Nat
  valid : year < 100 ∧ weekday < 7 ∧ Calendar.IsDate (2000 + year) month day ∧ hour < 24 ∧
    minute < 60 ∧ second < 60
deriving DecidableEq

/-- A normalized `Retry-After`. -/
inductive RetryAfter where
  | seconds (count : Nat) (valid : count < 1000000000000000000)
  | not_before (date : Binary64)
  | legacy_date (date : LegacyDate)
  | excessive
deriving DecidableEq

namespace LegacyDate

def time (legacy : LegacyDate) : Nat := legacy.hour * 3600 + legacy.minute * 60 + legacy.second

def on (legacy : LegacyDate) (date : Calendar.Date) : Calendar.DateTime := ⟨date, legacy.time, 0⟩

/-- The instant fifty years later, on the 28th where February has no 29th day. -/
def cutoff (current : Calendar.DateTime) : Option Calendar.DateTime :=
  ((current.date.in_year (current.date.year + 50)).or
    (Calendar.date (current.date.year + 50) current.date.month 28)).map fun date =>
    { current with date }

/-- The year is read in the current century, and in the century before where it would be more than
    fifty years ahead. -/
def resolve (legacy : LegacyDate) (current : Calendar.DateTime) : Option Calendar.Date := do
  let candidate ←
    Calendar.date (current.date.year / 100 * 100 + legacy.year) legacy.month legacy.day
  if current.date.year ≤ 9949 then
    let cutoff ← cutoff current
    if cutoff.instant < (legacy.on candidate).instant then candidate.in_year (candidate.year - 100)
    else return candidate
  else return candidate

/-- The date in seconds since the epoch, unless the text was no date. -/
def target (legacy : LegacyDate) (current : Calendar.DateTime) : Option ℚ := do
  let date ← legacy.resolve current
  if date.weekday = legacy.weekday then return ((legacy.on date).instant : ℚ) / 1000000 else none

end LegacyDate

/-- `max(0.0, target - now)`; nothing where it is too large. -/
def ahead (target now : ℚ) : Option ℚ :=
  if target ≤ now then some 0 else Binary64.round (target - now)

/-- What the server asks for when the wall clock reads `now`; nothing where the clock or the value
    is out of reach. -/
def RetryAfter.delay (now : Binary64) : RetryAfter → Option ℚ
  | seconds count _ => some count
  | not_before date => ahead date.value now.value
  | legacy_date legacy => do
    let current ← Calendar.from_timestamp now.value
    match legacy.target current with
    | some target => ahead target now.value
    | none => return 0
  | excessive => none

theorem ahead_nonneg {target now delay : ℚ} (h : ahead target now = some delay) : 0 ≤ delay := by
  unfold ahead at h
  split at h
  · exact (Option.some.inj h).le
  · next hlater => exact Binary64.round_nonneg (sub_nonneg.mpr (not_le.mp hlater).le) h

theorem RetryAfter.delay_nonneg {info : RetryAfter} {now : Binary64} {delay : ℚ}
    (h : info.delay now = some delay) :
    0 ≤ delay := by
  cases info with
  | seconds count =>
    rw [← Option.some.inj h]
    exact Nat.cast_nonneg count
  | not_before date => exact ahead_nonneg h
  | legacy_date legacy =>
    simp only [RetryAfter.delay, Option.bind_eq_bind, Option.bind_eq_some_iff] at h
    obtain ⟨current, _, hdelay⟩ := h
    split at hdelay
    · exact ahead_nonneg hdelay
    · exact (Option.some.inj hdelay).le
  | excessive => cases h

end discovery
