import Gatehouse.Time.Date

/-!
# Instants

A moment in universal time, kept as date and time of day down to the nanosecond. The second 60 is
a leap second. Instants are ordered as their parts are; `rank` maps that order to the integers.
-/

namespace Gatehouse

/-- A date and a time of day in universal time. -/
structure Instant where
  date : Date
  hour : Nat
  minute : Nat
  second : Nat
  nanos : Nat
  hour_lt : hour < 24
  minute_lt : minute < 60
  second_le : second ≤ 60
  nanos_lt : nanos < 1000000000
  deriving DecidableEq

namespace Instant

/-- The instant with the given parts, if there is one. -/
def of? (date : Date) (hour minute second nanos : Nat) : Option Instant :=
  if h : hour < 24 ∧ minute < 60 ∧ second ≤ 60 ∧ nanos < 1000000000 then
    some ⟨date, hour, minute, second, nanos, h.1, h.2.1, h.2.2.1, h.2.2.2⟩
  else none

/-- A number that grows with the instant. -/
def rank (t : Instant) : Int :=
  (((((t.date.year * 13 + t.date.month) * 32 + t.date.day) * 24 + t.hour) * 60 + t.minute) * 61 +
    t.second) * 1000000000 + t.nanos

/-- The instant a number of seconds after the start of 1970, leap seconds not counted. -/
def ofEpochSeconds (seconds : Int) : Instant :=
  let left := (seconds.emod 86400).toNat
  ⟨Date.ofEpochDays (seconds.ediv 86400), left / 3600 % 24, left / 60 % 60, left % 60, 0,
    Nat.mod_lt _ (by decide), Nat.mod_lt _ (by decide),
    Nat.le_of_lt (Nat.lt_of_lt_of_le (Nat.mod_lt _ (by decide : 60 > 0)) (by decide)), by decide⟩

/-- The seconds from the start of 1970 to an instant; a leap second counts as the second before it. -/
def epochSeconds (t : Instant) : Int :=
  t.date.epochDays * 86400 + t.hour * 3600 + t.minute * 60 + min t.second 59

instance : Inhabited Instant := ⟨ofEpochSeconds 0⟩

/-- The instant at which clocks that are `minutes` (less than a day) ahead of universal time show
the time `t`. -/
def behind (t : Instant) (minutes : Int) : Instant :=
  let local' : Int := t.hour * 60 + t.minute - minutes
  let date := if local' < 0 then t.date.previous else if 1440 ≤ local' then t.date.next else t.date
  let m := (local'.emod 1440).toNat
  ⟨date, m / 60 % 24, m % 60, t.second, t.nanos, Nat.mod_lt _ (by decide),
    Nat.mod_lt _ (by decide), t.second_le, t.nanos_lt⟩

end Instant

end Gatehouse
