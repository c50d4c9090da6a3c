/-!
# Points in time

A `Timestamp` is a calendar date and a time of day in UTC, down to the nanosecond. Nothing is counted from
an epoch: the program compares times, writes them, and moves them by less than a day when a text gives
a local time. `Timestamp.rank` places all timestamps on one line, and the order is the order of ranks.

Second 60 is a leap second. It may stand in any minute, behind second 59 and ahead of the next minute.
-/

namespace SensorCatalog

/-! ### Dates -/

/-- Whether a year has a 29th of February. -/
def isLeapYear (year : Int) : Bool :=
  year % 4 == 0 && (year % 100 != 0 || year % 400 == 0)

/-- The number of days of a month, counted from 1. There is no thirteenth month, nor a month zero. -/
def daysInMonth (year : Int) (month : Nat) : Nat :=
  match month with
  | 2 => if isLeapYear year then 29 else 28
  | 4 | 6 | 9 | 11 => 30
  | 1 | 3 | 5 | 7 | 8 | 10 | 12 => 31
  | _ => 0

/-- The first and the last year of the calendar. -/
def firstYear : Int := -262143

@[inherit_doc firstYear]
def lastYear : Int := 262142

/-- Whether the calendar has a day. -/
def IsDate (year : Int) (month day : Nat) : Prop :=
  firstYear ≤ year ∧ year ≤ lastYear ∧ 1 ≤ day ∧ day ≤ daysInMonth year month

instance (year : Int) (month day : Nat) : Decidable (IsDate year month day) :=
  inferInstanceAs (Decidable (_ ∧ _))

/-- A day of the proleptic Gregorian calendar. -/
structure Date where
  /-- The year; the year before year 1 is year 0. -/
  year : Int
  /-- The month, from 1 to 12. -/
  month : Nat
  /-- The day of the month, from 1 on. -/
  day : Nat
  /-- The calendar has this day. -/
  isDate : IsDate year month day
  deriving DecidableEq

namespace Date

/-- The date with the given parts, if there is one. -/
def ofParts? (year : Int) (month day : Nat) : Option Date :=
  if h : IsDate year month day then some ⟨year, month, day, h⟩ else none

/-- The day after a date; the last day of the calendar has none. -/
def next? (d : Date) : Option Date :=
  match ofParts? d.year d.month (d.day + 1) with
  | some e => some e
  | none =>
    match ofParts? d.year (d.month + 1) 1 with
    | some e => some e
    | none => ofParts? (d.year + 1) 1 1

/-- The day before a date; the first day of the calendar has none. -/
def previous? (d : Date) : Option Date :=
  match ofParts? d.year d.month (d.day - 1) with
  | some e => some e
  | none =>
    match ofParts? d.year (d.month - 1) (daysInMonth d.year (d.month - 1)) with
    | some e => some e
    | none => ofParts? (d.year - 1) 12 31

/-- No month has more than 31 days, and only twelve months have any. -/
theorem bounds (d : Date) : 1 ≤ d.month ∧ d.month ≤ 12 ∧ 1 ≤ d.day ∧ d.day ≤ 31 := by
  obtain ⟨year, month, day, -, -, h1, h2⟩ := d
  have hm : daysInMonth year month ≤ 31 := by
    unfold daysInMonth
    split <;> (try split) <;> omega
  have : ¬ (daysInMonth year month = 0) := by omega
  refine ⟨?_, ?_, h1, Nat.le_trans h2 hm⟩
  · rcases Nat.eq_zero_or_pos month with rfl | h
    · exact absurd rfl this
    · exact h
  · rcases Nat.lt_or_ge 12 month with h | h
    · refine absurd ?_ this
      unfold daysInMonth
      split <;> omega
    · exact h

end Date

/-! ### Times of day -/

/-- A point in time, in UTC. -/
structure Timestamp where
  date : Date
  hour : Fin 24
  minute : Fin 60
  /-- The second; 60 is a leap second. -/
  second : Fin 61
  /-- The nanoseconds of the fraction of the second. -/
  nanos : Fin 1000000000
  deriving DecidableEq

namespace Timestamp

/-- The place on a line on which every month has room for 32 days, every year for 13 months and every
minute for 61 seconds. -/
def rank (t : Timestamp) : Int :=
  (((((t.date.year * 13 + t.date.month) * 32 + t.date.day) * 24 + t.hour.val) * 60 + t.minute.val) * 61
    + t.second.val) * 1000000000 + t.nanos.val

instance : LE Timestamp := ⟨fun s t => s.rank ≤ t.rank⟩

instance : LT Timestamp := ⟨fun s t => s.rank < t.rank⟩

instance (s t : Timestamp) : Decidable (s ≤ t) := inferInstanceAs (Decidable (s.rank ≤ t.rank))

instance (s t : Timestamp) : Decidable (s < t) := inferInstanceAs (Decidable (s.rank < t.rank))

theorem le_def {s t : Timestamp} : s ≤ t ↔ s.rank ≤ t.rank := Iff.rfl

theorem lt_def {s t : Timestamp} : s < t ↔ s.rank < t.rank := Iff.rfl

/-- Two timestamps do not share a place. -/
theorem eq_of_rank_eq {s t : Timestamp} (h : s.rank = t.rank) : s = t := by
  obtain ⟨⟨sy, sm, sd, hs⟩, sh, smin, ssec, sn⟩ := s
  obtain ⟨⟨ty, tm, td, ht⟩, th, tmin, tsec, tn⟩ := t
  have bs := Date.bounds ⟨sy, sm, sd, hs⟩
  have bt := Date.bounds ⟨ty, tm, td, ht⟩
  simp only [rank] at h bs bt
  have h1 : sn.val = tn.val := by omega
  have h2 : ssec.val = tsec.val := by omega
  have h3 : smin.val = tmin.val := by omega
  have h4 : sh.val = th.val := by omega
  have h5 : sd = td := by omega
  have h6 : sm = tm := by omega
  have h7 : sy = ty := by omega
  subst h5 h6 h7
  simp [Fin.ext_iff, h1, h2, h3, h4]

/-- A timestamp is not later than itself. -/
theorem le_refl (t : Timestamp) : t ≤ t := Int.le_refl _

/-- The order of timestamps is transitive. -/
theorem le_trans {s t u : Timestamp} (hst : s ≤ t) (htu : t ≤ u) : s ≤ u := Int.le_trans hst htu

/-- Of two timestamps one is not later than the other. -/
theorem le_total (s t : Timestamp) : s ≤ t ∨ t ≤ s := Int.le_total _ _

/-- Two timestamps neither of which is later are the same. -/
theorem le_antisymm {s t : Timestamp} (hst : s ≤ t) (hts : t ≤ s) : s = t :=
  eq_of_rank_eq (Int.le_antisymm hst hts)

/-- What is not earlier is later or the same. -/
theorem not_lt {s t : Timestamp} : ¬ s < t ↔ t ≤ s := Int.not_lt

/-- The hour of the day after so many hours. -/
def hourOf (n : Nat) : Fin 24 := Fin.ofNat 24 n

/-- The minute of the hour after so many minutes. -/
def minuteOf (n : Nat) : Fin 60 := Fin.ofNat 60 n

/-- The second with a number from 0 to 60. -/
def secondOf (n : Nat) : Fin 61 := Fin.ofNat 61 n

/-- The fraction of a second after so many nanoseconds. -/
def nanosOf (n : Nat) : Fin 1000000000 := Fin.ofNat 1000000000 n

/-- The timestamp of a local time that is `offset` minutes ahead of UTC, where an offset stays below a
day. Seconds are not touched. -/
def ofLocal? (date : Date) (hour : Fin 24) (minute : Fin 60) (second : Fin 61) (nanos : Fin 1000000000)
    (offset : Int) : Option Timestamp :=
  let minutes : Int := hour.val * 60 + minute.val - offset
  let date? :=
    if minutes < 0 then date.previous? else if minutes < 1440 then some date else date.next?
  let ofDay := (minutes % 1440).toNat
  date?.map fun d => ⟨d, hourOf (ofDay / 60), minuteOf ofDay, second, nanos⟩

end Timestamp

end SensorCatalog
