import JourneyMatch.Proofs.Sorted.Utf8
import JourneyMatch.Proofs.Time.Delay
import JourneyMatch.Proofs.Time.Timestamp

/-
  This file reads a clock: the date that it shows, and the
  hour, the minute, the second and the millisecond. To write a
  moment down, its clock is set to universal time and read.
  What is read is the text of the instant, wherever the clock
  stood, and the bytes of the texts of two moments, and of the
  keys of their tasks, sort as the instants do.

  Key definitions include:
    * `Moment.toUtc`
    * `Moment.date`
    * `Moment.nanosOfDay`
    * `Moment.timestamp`
    * `Moment.InYears`

  Main statements:
    * `Moment.timestamp_eq`
    * `Moment.bytes_follow_time`
-/

namespace JourneyMatch

namespace Moment

------------------------------------------------------------
-- Reading a clock
------------------------------------------------------------

/- The number of nanoseconds in a day. -/
def nanosPerDay : Nat :=
  86400000000000

/- The same instant on a clock in universal time. -/
def toUtc
    (m : Moment) : Moment :=
  utc m.instant

/- The date that the clock shows. -/
def date
    (m : Moment) : Date :=
  Date.ofDays (m.localNanos / nanosPerDay)

/- What the clock shows of its day, in nanoseconds. -/
def nanosOfDay
    (m : Moment) : Nat :=
  (m.localNanos % nanosPerDay).toNat

def hour
    (m : Moment) : Nat :=
  m.nanosOfDay / 3600000000000

def minute
    (m : Moment) : Nat :=
  m.nanosOfDay / 60000000000 % 60

def second
    (m : Moment) : Nat :=
  m.nanosOfDay / 1000000000 % 60

/- Parts of a millisecond are dropped. -/
def millisecond
    (m : Moment) : Nat :=
  m.nanosOfDay % 1000000000 / 1000000

/- A moment in columns, as its clock shows it. -/
def shown
    (m : Moment) : List Char :=
  dateText m.date
    ++ 'T' :: padded 2 m.hour
    ++ ':' :: padded 2 m.minute
    ++ ':' :: padded 2 m.second
    ++ '.' :: padded 3 m.millisecond
    ++ ['Z']

/- The text of a moment, which is always in universal time. -/
def timestamp
    (m : Moment) : String :=
  String.ofList m.toUtc.shown

------------------------------------------------------------
-- The text of the instant
------------------------------------------------------------

theorem localNanos_toUtc
    (m : Moment) :
    m.toUtc.localNanos = m.instant.nanos :=
  localNanos_utc m.instant

/- The day of an instant is that of its millisecond. -/
theorem date_toUtc
    (m : Moment) :
    m.toUtc.date
      = Date.ofDays (m.instant.millis / millisPerDay) := by
  rw [date, localNanos_toUtc, Instant.millis,
    Int.ediv_ediv_of_nonneg (by decide)]
  rfl

theorem nanosOfDay_toUtc
    (m : Moment) :
    m.toUtc.nanosOfDay / 1000000
      = (m.instant.millis % millisPerDay).toNat := by
  rw [nanosOfDay, localNanos_toUtc, Instant.millis]
  unfold nanosPerDay millisPerDay
  omega

/- The columns of a clock, from what it shows of its day. -/
theorem hour_eq
    (m : Moment) :
    m.hour = m.nanosOfDay / 1000000 / 3600000 := by
  unfold hour
  omega

theorem minute_eq
    (m : Moment) :
    m.minute = m.nanosOfDay / 1000000 / 60000 % 60 := by
  unfold minute
  omega

theorem second_eq
    (m : Moment) :
    m.second = m.nanosOfDay / 1000000 / 1000 % 60 := by
  unfold second
  omega

theorem millisecond_eq
    (m : Moment) :
    m.millisecond = m.nanosOfDay / 1000000 % 1000 := by
  unfold millisecond
  omega

/-
  It makes no difference whether the parts of a millisecond
  are dropped before the clock is read or after.
-/
theorem timestamp_eq
    (m : Moment) :
    m.timestamp = JourneyMatch.timestamp m.instant := by
  rw [timestamp, shown, hour_eq, minute_eq, second_eq,
    millisecond_eq, nanosOfDay_toUtc, date_toUtc,
    JourneyMatch.timestamp, timestampOfMillis, timeText]
  simp only [List.append_assoc, List.cons_append]

------------------------------------------------------------
-- The years 0 to 9999
------------------------------------------------------------

/- Whether the date in universal time has four digits. -/
def InYears
    (m : Moment) : Prop :=
  0 ≤ m.toUtc.date.year ∧ m.toUtc.date.year ≤ 9999

instance
    (m : Moment) :
    Decidable m.InYears :=
  inferInstanceAs (Decidable (_ ∧ _))

theorem year_nonneg_iff
    (m : Moment) :
    0 ≤ m.toUtc.date.year
      ↔ Instant.yearZero.millis ≤ m.instant.millis := by
  rw [date_toUtc]
  constructor
  · intro hYear
    by_contra hEarly
    exact absurd hYear
      (Int.not_le.mpr (year_ofDays_neg (Int.not_le.mp hEarly)))
  · exact year_ofDays_nonneg

theorem year_le_iff
    (m : Moment) :
    m.toUtc.date.year ≤ 9999
      ↔ m.instant.millis ≤ Instant.last.millis := by
  rw [date_toUtc]
  constructor
  · intro hYear
    by_contra hLate
    exact absurd hYear
      (Int.not_le.mpr (lt_year_ofDays (Int.not_le.mp hLate)))
  · exact year_ofDays_le

theorem inYears_iff
    (m : Moment) :
    m.InYears
      ↔ Instant.yearZero.millis ≤ m.instant.millis
        ∧ m.instant.millis ≤ Instant.last.millis :=
  and_congr m.year_nonneg_iff m.year_le_iff

------------------------------------------------------------
-- The order of the texts
------------------------------------------------------------

theorem timestamp_lt
    {a b : Moment}
    (hFirst : a.InYears)
    (hSecond : b.InYears)
    (hLess : a.instant.millis < b.instant.millis) :
    utf8 a.timestamp < utf8 b.timestamp := by
  rw [timestamp_eq, timestamp_eq, utf8_lt_iff, String.lt_iff]
  exact (firstLess_timestamp (a.inYears_iff.mp hFirst).1
    (b.inYears_iff.mp hSecond).2 hLess).lt

theorem timestamp_congr
    {a b : Moment}
    (hSame : a.instant.millis = b.instant.millis) :
    a.timestamp = b.timestamp := by
  rw [timestamp_eq, timestamp_eq, JourneyMatch.timestamp,
    JourneyMatch.timestamp, hSame]

theorem timestamp_lt_iff
    {a b : Moment}
    (hFirst : a.InYears)
    (hSecond : b.InYears) :
    utf8 a.timestamp < utf8 b.timestamp
      ↔ a.instant.millis < b.instant.millis := by
  rcases lt_trichotomy a.instant.millis b.instant.millis with
    hLess | hSame | hLater
  · exact iff_of_true (timestamp_lt hFirst hSecond hLess) hLess
  · rw [timestamp_congr hSame, hSame]
    exact iff_of_false (List.lt_irrefl _) (lt_irrefl _)
  · exact iff_of_false
      (List.lt_asymm (timestamp_lt hSecond hFirst hLater))
      (lt_asymm hLater)

theorem utf8_timestamp_inj
    {a b : Moment}
    (hFirst : a.InYears)
    (hSecond : b.InYears) :
    utf8 a.timestamp = utf8 b.timestamp
      ↔ a.instant.millis = b.instant.millis := by
  constructor
  · intro hBytes
    apply le_antisymm
    · apply not_lt.mp
      rw [← timestamp_lt_iff hSecond hFirst, hBytes]
      exact List.lt_irrefl _
    · apply not_lt.mp
      rw [← timestamp_lt_iff hFirst hSecond, hBytes]
      exact List.lt_irrefl _
  · intro hSame
    rw [timestamp_congr hSame]

/- The key of a task begins with its text. -/
theorem taskKey_eq
    (m : Moment)
    (tag : String) :
    taskKey m.instant tag
      = m.timestamp ++ tagSeparator ++ tag := by
  rw [timestamp_eq, taskKey]

/-
  Of two tasks that are not due in the same millisecond, the
  tags make no difference.
-/
theorem utf8_taskKey_lt
    {a b : Moment}
    (hFirst : a.InYears)
    (hSecond : b.InYears)
    (hLess : a.instant.millis < b.instant.millis)
    (u v : String) :
    utf8 (taskKey a.instant u) < utf8 (taskKey b.instant v) := by
  have hText :=
    firstLess_timestamp (a.inYears_iff.mp hFirst).1
      (b.inYears_iff.mp hSecond).2 hLess
  rw [utf8_lt_iff, String.lt_iff]
  simp only [taskKey, String.toList_append, List.append_assoc]
  exact (hText.append_right _ _).lt

/-
  The text of a moment lies in its instant alone. In the years
  0 to 9999 the bytes of the texts of two moments compare as
  their milliseconds do, whatever their offsets. The key of a
  task sorts below the bound of a moment just if the task is
  due in an earlier millisecond, and of two tasks the one due
  in the earlier millisecond has the lesser key, whatever the
  tags.
-/
theorem bytes_follow_time
    {a b : Moment}
    (hFirst : a.InYears)
    (hSecond : b.InYears)
    (u v : String) :
    (∀ offset,
        (Moment.mk a.instant offset).timestamp
          = JourneyMatch.timestamp a.instant)
      ∧ taskKey a.instant u
          = a.timestamp ++ tagSeparator ++ u
      ∧ dueBound b.instant = b.timestamp
      ∧ (utf8 a.timestamp < utf8 b.timestamp
        ↔ a.instant.millis < b.instant.millis)
      ∧ (utf8 a.timestamp = utf8 b.timestamp
        ↔ a.instant.millis = b.instant.millis)
      ∧ (utf8 b.timestamp < utf8 a.timestamp
        ↔ b.instant.millis < a.instant.millis)
      ∧ (utf8 (taskKey a.instant u) < utf8 (dueBound b.instant)
        ↔ a.instant.millis < b.instant.millis)
      ∧ (a.instant.millis < b.instant.millis →
        utf8 (taskKey a.instant u)
          < utf8 (taskKey b.instant v)) := by
  have hDue := a.inYears_iff.mp hFirst
  have hNow := b.inYears_iff.mp hSecond
  refine
    ⟨fun offset => timestamp_eq _, a.taskKey_eq u,
      b.timestamp_eq.symm, timestamp_lt_iff hFirst hSecond,
      utf8_timestamp_inj hFirst hSecond,
      timestamp_lt_iff hSecond hFirst, ?_, ?_⟩
  · rw [utf8_lt_iff]
    exact taskKey_lt_dueBound_iff hDue.1 hDue.2 hNow.2 u
  · intro hLess
    exact utf8_taskKey_lt hFirst hSecond hLess u v

/- Half a millisecond before 2025, two hours ahead. -/
def beforeNewYear : Moment :=
  ⟨⟨1735689599999500000⟩, 7200⟩

/- The first instant of 2025, five and a half hours behind. -/
def newYear : Moment :=
  ⟨⟨1735689600000000000⟩, -19800⟩

/-
  Although the first clock already shows 2025 and the second
  still shows 2024, the task of the first is due before.
-/
theorem bytes_follow_time_newYear :
    beforeNewYear.InYears
      ∧ newYear.InYears
      ∧ beforeNewYear.date = ⟨2025, 1, 1⟩
      ∧ newYear.date = ⟨2024, 12, 31⟩
      ∧ utf8 (taskKey beforeNewYear.instant "b")
        < utf8 (dueBound newYear.instant)
      ∧ utf8 (taskKey beforeNewYear.instant "b")
        < utf8 (taskKey newYear.instant "a") := by
  have hFirst : beforeNewYear.InYears := by decide
  have hSecond : newYear.InYears := by decide
  have hLess :
      beforeNewYear.instant.millis < newYear.instant.millis := by
    decide
  rcases bytes_follow_time hFirst hSecond "b" "a" with
    ⟨-, -, -, -, -, -, hBound, hKeys⟩
  exact
    ⟨hFirst, hSecond, by decide, by decide, hBound.mpr hLess,
      hKeys hLess⟩

end Moment

end JourneyMatch
