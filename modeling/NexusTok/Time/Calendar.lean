import Mathlib.Order.SuccPred.LinearLocallyFinite
import Mathlib.Order.Interval.Set.OrdConnectedLinear
import Mathlib.Tactic.Linarith

/-!
# Civil time

Instants are whole seconds since the Unix epoch.  A `Location` gives the offset of local time
from UTC at each instant, as the zone database does; everything else is computed from it the way
Go's `time` package computes it.

* `monthStart k` is the day number of the first day of month `k`, months being counted from March
  of the year 0 so that the leap day is the last day of its year; `monthOf` inverts it.
* `Location.date` turns a local civil time back into an instant: look the offset up as if the
  civil time were UTC, and once more at the instant that gives.
* `Location.addDays`, `Location.addMonths` are `AddDate`: civil fields are shifted and normalised,
  so that a day past the end of its month runs over into the next one.
* `addDuration` is `Add`; a `Duration` is a 64-bit count of nanoseconds and wraps (`wrap64`).

The results used later say that the civil boundaries lie ahead of the instant they are computed
from (`Location.lt_nextDays`, `Location.lt_nextMonth`).
-/

namespace NexusTok

/-! ### The calendar -/

/-- The day number (days since the epoch) of the first day of month `k`, where month `0` is March
of the year 0. -/
def monthStart (k : ℤ) : ℤ :=
  365 * (k / 12) + k / 12 / 4 - k / 12 / 100 + k / 12 / 400 + (153 * (k % 12) + 2) / 5 - 719468

/-- The month a day lies in.  The mean month has `146097 / 4800` days, which is off by at most one
month. -/
def monthOf (d : ℤ) : ℤ :=
  let k := (d + 719468) * 4800 / 146097
  if d < monthStart k then k - 1
  else if monthStart (k + 1) ≤ d then k + 1
  else k

/-- The day of the week, Sunday being `0`. -/
def weekday (d : ℤ) : ℤ := (d + 4) % 7

theorem monthStart_lt_succ (k : ℤ) : monthStart k < monthStart (k + 1) := by
  unfold monthStart
  omega

theorem monthStart_strictMono : StrictMono monthStart :=
  strictMono_int_of_lt_succ monthStart_lt_succ

theorem monthStart_mean (k : ℤ) :
    146097 * k ≤ 4800 * (monthStart k + 719468 + 5) ∧
      4800 * (monthStart k + 719468 - 5) ≤ 146097 * k := by
  unfold monthStart
  omega

theorem monthOf_spec (d : ℤ) : monthStart (monthOf d) ≤ d ∧ d < monthStart (monthOf d + 1) := by
  simp only [monthOf]
  set k := (d + 719468) * 4800 / 146097 with hk
  have hk₁ : 146097 * k ≤ (d + 719468) * 4800 := by omega
  have hk₂ : (d + 719468) * 4800 < 146097 * (k + 1) := by omega
  split_ifs with h₁ h₂
  · have := monthStart_mean (k - 1)
    constructor
    · omega
    · rw [show k - 1 + 1 = k by omega]; exact h₁
  · have := monthStart_mean (k + 1 + 1)
    constructor
    · exact h₂
    · omega
  · constructor <;> omega

theorem monthOf_monthStart (k : ℤ) : monthOf (monthStart k) = k := by
  obtain ⟨h₁, h₂⟩ := monthOf_spec (monthStart k)
  have h₁' := monthStart_strictMono.le_iff_le.1 h₁
  have h₂' := monthStart_strictMono.lt_iff_lt.1 h₂
  omega

/-! ### Durations -/

/-- The value a 64-bit signed integer keeps of `x`. -/
def wrap64 (x : ℤ) : ℤ := Int.bmod x (2 ^ 64)

def nanosPerSecond : ℤ := 1000000000

/-- `time.Unix(t, 0).Add(d).Unix()` for a duration of `d` nanoseconds. -/
def addDuration (t d : ℤ) : ℤ := t + d / nanosPerSecond

/-! ### Locations -/

/-- A time zone: the offset of local time from UTC, in seconds, at each instant.  The two laws
ask that every local day begin at its midnight: zones that have moved their clocks across
midnight have no such midnight on the day of the change. -/
structure Location where
  /-- Seconds east of UTC in force at an instant. -/
  offset : ℤ → ℤ
  /-- The instant found for a local midnight reads as that midnight. -/
  midnight : ∀ d, 86400 * d - offset (86400 * d - offset (86400 * d)) +
    offset (86400 * d - offset (86400 * d - offset (86400 * d))) = 86400 * d
  /-- An instant lies before the midnights of the local days after its own. -/
  forward : ∀ t d, (t + offset t) / 86400 < d →
    t < 86400 * d - offset (86400 * d - offset (86400 * d))

namespace Location

/-- A zone with a constant offset. -/
def fixed (k : ℤ) : Location where
  offset _ := k
  midnight d := by omega
  forward t d h := by omega

/-- Coordinated universal time. -/
def utc : Location := fixed 0

variable (loc : Location)

/-- The local civil time of an instant, in seconds since the civil epoch. -/
def civil (t : ℤ) : ℤ := t + loc.offset t

/-- The local day of an instant. -/
def day (t : ℤ) : ℤ := loc.civil t / 86400

/-- `time.Date`: the instant with local civil time `c`. -/
def date (c : ℤ) : ℤ := c - loc.offset (c - loc.offset c)

/-- Midnight of the local day of `t`. -/
def startOfDay (t : ℤ) : ℤ := loc.date (86400 * loc.day t)

/-- Midnight of the first day of the local month of `t`. -/
def startOfMonth (t : ℤ) : ℤ := loc.date (86400 * monthStart (monthOf (loc.day t)))

/-- `AddDate(0, 0, n)`. -/
def addDays (t n : ℤ) : ℤ := loc.date (loc.civil t + 86400 * n)

/-- `AddDate(0, n, 0)`; `AddDate(n, 0, 0)` is `addMonths t (12 * n)`. -/
def addMonths (t n : ℤ) : ℤ :=
  let d := loc.day t
  let m := monthOf d
  loc.date (86400 * (monthStart (m + n) + (d - monthStart m)) + loc.civil t % 86400)

variable {loc}

theorem civil_date_midnight (d : ℤ) : loc.civil (loc.date (86400 * d)) = 86400 * d :=
  loc.midnight d

theorem day_date_midnight (d : ℤ) : loc.day (loc.date (86400 * d)) = d := by
  rw [day, civil_date_midnight]
  omega

theorem lt_date_of_day_lt {t d : ℤ} (h : loc.day t < d) : t < loc.date (86400 * d) :=
  loc.forward t d h

/-- A later midnight, reached from the midnight of `t`'s own day, is after `t`. -/
theorem lt_nextDays {t n : ℤ} (hn : 0 < n) : t < loc.addDays (loc.startOfDay t) n := by
  have h : loc.addDays (loc.startOfDay t) n = loc.date (86400 * (loc.day t + n)) := by
    rw [addDays, startOfDay, civil_date_midnight]
    congr 1
    omega
  rw [h]
  exact lt_date_of_day_lt (by omega)

theorem lt_nextMonth (t : ℤ) : t < loc.addMonths (loc.startOfMonth t) 1 := by
  have h : loc.addMonths (loc.startOfMonth t) 1 =
      loc.date (86400 * monthStart (monthOf (loc.day t) + 1)) := by
    simp only [addMonths, startOfMonth, day_date_midnight, civil_date_midnight, monthOf_monthStart]
    congr 1
    omega
  rw [h]
  exact lt_date_of_day_lt (monthOf_spec (loc.day t)).2

end Location

end NexusTok
