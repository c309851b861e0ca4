import JourneyMatch.Proofs.Time.Calendar
import JourneyMatch.Proofs.Time.Clock

/-
  This file shows when a task comes due that is scheduled with
  a delay: after the delay, or at the last moment of the clock
  if that is sooner, and never before it was scheduled. The
  key of the task then says, in columns, a date of the
  calendar and a time of day, and these are when it is due.

  Key definitions include:
    * `Column`
    * `KeyReading`
    * `KeyReading.Written`
    * `WellFormedKey`

  Main statements:
    * `wellFormedKey_taskKey`
    * `Moment.after_saturates`
-/

namespace JourneyMatch

------------------------------------------------------------
-- Columns
------------------------------------------------------------

/- Digits, as many as a column is wide, that say a number. -/
structure Column
    (width n : Nat)
    (text : List Char) : Prop where
  length : text.length = width
  digits : ∀ c ∈ text, c.isDigit = true
  value : Nat.ofDigitChars 10 text 0 = n

theorem column_padded
    {width n : Nat}
    (hWidth : 0 < width)
    (hFits : n < 10 ^ width) :
    Column width n (padded width n) := by
  have hLength : (Nat.toDigits 10 n).length ≤ width :=
    (Nat.length_toDigits_le_iff (by decide) hWidth).mpr hFits
  refine ⟨?_, ?_, ?_⟩
  · rw [padded, List.length_append, List.length_replicate]
    exact Nat.sub_add_cancel hLength
  · intro c hMem
    rcases List.mem_append.mp hMem with hZero | hDigit
    · rw [List.eq_of_mem_replicate hZero]
      decide
    · exact Nat.isDigit_of_mem_toDigits (by decide)
        (by decide) hDigit
  · rw [padded, Nat.ofDigitChars_append,
      Nat.ofDigitChars_replicate_zero, Nat.mul_zero,
      Nat.ofDigitChars_toDigits (by decide) (by decide)]

------------------------------------------------------------
-- What a key says
------------------------------------------------------------

/- A date, and a time of day down to the millisecond. -/
structure KeyReading where
  date : Date
  hour : Nat
  minute : Nat
  second : Nat
  milli : Nat

namespace KeyReading

/- Whether there are such a date and such a time of day. -/
structure Proper
    (r : KeyReading) : Prop where
  date : r.date.Proper
  hour : r.hour < 24
  minute : r.minute < 60
  second : r.second < 60
  milli : r.milli < 1000

/- The milliseconds from 1970-01-01 to a reading. -/
def millis
    (r : KeyReading) : Int :=
  r.date.days * millisPerDay
    + (r.hour * 3600000 + r.minute * 60000 + r.second * 1000
      + r.milli : Nat)

/- A reading in columns, and a tag behind it. -/
inductive Written
    (r : KeyReading)
    (tag : String) :
    List Char → Prop where
  | columns
      {year month day hour minute second milli : List Char}
      (hYear : Column 4 r.date.year.toNat year)
      (hMonth : Column 2 r.date.month month)
      (hDay : Column 2 r.date.day day)
      (hHour : Column 2 r.hour hour)
      (hMinute : Column 2 r.minute minute)
      (hSecond : Column 2 r.second second)
      (hMilli : Column 3 r.milli milli) :
      Written r tag
        (year ++ '-' :: month ++ '-' :: day
          ++ 'T' :: hour ++ ':' :: minute ++ ':' :: second
          ++ '.' :: milli ++ 'Z' :: ':' :: ':' :: tag.toList)

end KeyReading

/-
  Whether a text says, in columns with the tag behind them,
  the millisecond of an instant.
-/
def WellFormedKey
    (due : Instant)
    (tag key : String) : Prop :=
  ∃ r : KeyReading,
    r.Proper
      ∧ 0 ≤ r.date.year
      ∧ r.millis = due.millis
      ∧ r.Written tag key.toList

namespace Moment

/- What the key of a moment says. -/
def keyReading
    (m : Moment) : KeyReading :=
  ⟨m.toUtc.date, m.toUtc.hour, m.toUtc.minute, m.toUtc.second,
    m.toUtc.millisecond⟩

theorem nanosOfDay_toUtc_lt
    (m : Moment) :
    m.toUtc.nanosOfDay / 1000000 < 86400000 := by
  rw [nanosOfDay_toUtc]
  unfold millisPerDay
  omega

theorem proper_keyReading
    (m : Moment) :
    m.keyReading.Proper := by
  have hDay := m.nanosOfDay_toUtc_lt
  refine ⟨?_, ?_, ?_, ?_, ?_⟩
  · rw [keyReading, date_toUtc]
    exact Date.proper_ofDays _
  · rw [keyReading, hour_eq]
    dsimp only
    omega
  · rw [keyReading, minute_eq]
    exact Nat.mod_lt _ (by decide)
  · rw [keyReading, second_eq]
    exact Nat.mod_lt _ (by decide)
  · rw [keyReading, millisecond_eq]
    exact Nat.mod_lt _ (by decide)

/- The key says the millisecond in which the moment lies. -/
theorem millis_keyReading
    (m : Moment) :
    m.keyReading.millis = m.instant.millis := by
  have hDay := m.nanosOfDay_toUtc
  simp only [KeyReading.millis, keyReading, date_toUtc,
    Date.days_ofDays, hour_eq, minute_eq, second_eq,
    millisecond_eq, hDay]
  unfold millisPerDay
  omega

theorem toList_taskKey
    {m : Moment}
    (hYear : 0 ≤ m.toUtc.date.year)
    (tag : String) :
    (taskKey m.instant tag).toList
      = padded 4 m.toUtc.date.year.toNat
        ++ '-' :: padded 2 m.toUtc.date.month
        ++ '-' :: padded 2 m.toUtc.date.day
        ++ 'T' :: padded 2 m.toUtc.hour
        ++ ':' :: padded 2 m.toUtc.minute
        ++ ':' :: padded 2 m.toUtc.second
        ++ '.' :: padded 3 m.toUtc.millisecond
        ++ 'Z' :: ':' :: ':' :: tag.toList := by
  have hDigits :
      m.toUtc.date.year.natAbs = m.toUtc.date.year.toNat := by
    omega
  rw [taskKey_eq, timestamp, shown, dateText, yearText,
    if_neg (Int.not_lt.mpr hYear), hDigits]
  simp [tagSeparator]

/- A key is written in columns, each as wide as it has to be. -/
theorem written_keyReading
    {m : Moment}
    (hYears : m.InYears)
    (tag : String) :
    m.keyReading.Written tag (taskKey m.instant tag).toList := by
  have hProper := m.proper_keyReading
  have hYear : m.toUtc.date.year.toNat < 10 ^ 4 := by
    have hLast := hYears.2
    omega
  have hDate :
      m.toUtc.date.month < 10 ^ 2 ∧ m.toUtc.date.day < 10 ^ 2 := by
    rw [date_toUtc]
    exact Date.day_ofDays_lt _
  have hColumn :
      ∀ {n : Nat}, n < 60 → Column 2 n (padded 2 n) :=
    fun hLess =>
      column_padded (by decide) (Nat.lt_trans hLess (by decide))
  rw [toList_taskKey hYears.1]
  exact .columns
    (column_padded (by decide) hYear)
    (column_padded (by decide) hDate.1)
    (column_padded (by decide) hDate.2)
    (hColumn (Nat.lt_trans hProper.hour (by decide)))
    (hColumn hProper.minute)
    (hColumn hProper.second)
    (column_padded (by decide) hProper.milli)

/- The key of a task due in the years 0 to 9999. -/
theorem wellFormedKey_taskKey
    {m : Moment}
    (hYears : m.InYears)
    (tag : String) :
    WellFormedKey m.instant tag (taskKey m.instant tag) :=
  ⟨m.keyReading, m.proper_keyReading, hYears.1,
    m.millis_keyReading, written_keyReading hYears tag⟩

------------------------------------------------------------
-- Moments after a delay
------------------------------------------------------------

variable {m : Moment}

theorem inRange_after
    (hShown : m.inRange = true)
    (delay : Nat) :
    (m.after delay).inRange = true := by
  rw [inRange_iff] at hShown ⊢
  rw [localNanos_after hShown.1]
  omega

/- A delay that ends on the clock is waited for exactly. -/
theorem nanos_after_of_le
    (hShown : m.inRange = true)
    {delay : Nat}
    (hFits : m.localNanos + delay ≤ Instant.last.nanos) :
    (m.after delay).instant.nanos = m.instant.nanos + delay := by
  rw [inRange_iff] at hShown
  rw [nanos_eq, offset_after, localNanos_after hShown.1,
    min_eq_left hFits, m.nanos_eq]
  omega

/- Any other delay ends with the clock. -/
theorem localNanos_after_of_lt
    (hShown : m.inRange = true)
    {delay : Nat}
    (hLate : Instant.last.nanos < m.localNanos + delay) :
    (m.after delay).localNanos = Instant.last.nanos := by
  rw [inRange_iff] at hShown
  rw [localNanos_after hShown.1, min_eq_right hLate.le]

theorem le_after
    (hShown : m.inRange = true)
    (delay : Nat) :
    m.instant.nanos ≤ (m.after delay).instant.nanos := by
  rw [inRange_iff] at hShown
  have hLast := hShown.2
  rw [localNanos] at hLast
  rw [nanos_after hShown.1]
  omega

/-
  On clocks with the same offset, what is scheduled later and
  with no shorter delay is not due before.
-/
theorem after_le_after
    {later : Moment}
    (hShown : m.inRange = true)
    (hLater : later.inRange = true)
    (hOffset : later.offset = m.offset)
    (hNow : m.instant.nanos ≤ later.instant.nanos)
    {delay longer : Nat}
    (hDelay : delay ≤ longer) :
    (m.after delay).instant.nanos
      ≤ (later.after longer).instant.nanos := by
  rw [inRange_iff] at hShown hLater
  rw [nanos_after hShown.1, nanos_after hLater.1, hOffset]
  omega

/- A clock in universal time stays in the years 0 to 9999. -/
theorem inYears_after
    (hShown : m.inRange = true)
    (hOffset : m.offset = 0)
    (hYear : 0 ≤ m.date.year)
    (delay : Nat) :
    (m.after delay).InYears := by
  have hUtc : m.toUtc = m := by
    cases m
    cases hOffset
    rfl
  have hRange := inRange_iff _ |>.mp (inRange_after hShown delay)
  have hNow := le_after hShown delay
  rw [← hUtc, year_nonneg_iff] at hYear
  rw [localNanos, offset_after, hOffset, Int.zero_mul,
    Int.add_zero] at hRange
  rw [inYears_iff]
  constructor
  · exact Int.le_trans hYear (Int.ediv_le_ediv (by decide) hNow)
  · exact Int.ediv_le_ediv (by decide) hRange.2

/- A task is not due at the instant at which it is scheduled. -/
theorem not_taskKey_after_lt
    (hShown : m.inRange = true)
    {delay : Nat}
    (hYears : (m.after delay).InYears)
    (tag : String) :
    ¬ utf8 (taskKey (m.after delay).instant tag)
      < utf8 (dueBound m.instant) := by
  have hDue := (inYears_iff _).mp hYears
  have hNow :
      m.instant.millis ≤ (m.after delay).instant.millis :=
    Int.ediv_le_ediv (by decide) (le_after hShown delay)
  rw [utf8_lt_iff, taskKey_lt_dueBound_iff hDue.1 hDue.2
    (Int.le_trans hNow hDue.2)]
  exact Int.not_lt.mpr hNow

/-
  What is scheduled at a moment that its clock can show is due
  after the delay, to the nanosecond, if the clock can show
  that, and otherwise at the last moment that the clock shows.
  The clock stays at its offset. No task is due before it is
  scheduled; a longer delay is not due before a shorter one,
  nor is what is scheduled later on such a clock. In universal
  time and from the year 0 on, the key of the task is well
  formed and not below the bound of the moment at which it was
  scheduled.
-/
theorem after_saturates
    (hShown : m.inRange = true)
    (delay : Nat) :
    (m.after delay).offset = m.offset
      ∧ (m.localNanos + delay ≤ Instant.last.nanos →
        (m.after delay).instant.nanos
          = m.instant.nanos + delay)
      ∧ (Instant.last.nanos < m.localNanos + delay →
        (m.after delay).localNanos = Instant.last.nanos)
      ∧ (m.after delay).inRange = true
      ∧ m.instant.nanos ≤ (m.after delay).instant.nanos
      ∧ (∀ longer,
        delay ≤ longer →
          (m.after delay).instant.nanos
            ≤ (m.after longer).instant.nanos)
      ∧ (∀ later : Moment,
        later.inRange = true →
          later.offset = m.offset →
            m.instant.nanos ≤ later.instant.nanos →
              (m.after delay).instant.nanos
                ≤ (later.after delay).instant.nanos)
      ∧ (m.offset = 0 →
        0 ≤ m.date.year →
          ∀ tag,
            WellFormedKey (m.after delay).instant tag
                (taskKey (m.after delay).instant tag)
              ∧ ¬ utf8 (taskKey (m.after delay).instant tag)
                < utf8 (dueBound m.instant)) := by
  refine
    ⟨offset_after m delay, nanos_after_of_le hShown,
      localNanos_after_of_lt hShown, inRange_after hShown delay,
      le_after hShown delay, ?_, ?_, ?_⟩
  · intro longer hLonger
    exact after_le_after hShown hShown rfl le_rfl hLonger
  · intro later hLater hOffset hNow
    exact after_le_after hShown hLater hOffset hNow le_rfl
  · intro hOffset hYear tag
    have hYears := inYears_after hShown hOffset hYear delay
    exact
      ⟨wellFormedKey_taskKey hYears tag,
        not_taskKey_after_lt hShown hYears tag⟩

/- A second and a half before the end of the year 9999. -/
def nearTheEnd : Moment :=
  utc ⟨253402300798500000000⟩

/- The same on a clock that is two hours behind. -/
def nearTheEndBehind : Moment :=
  ofLocal nearTheEnd.localNanos (-7200)

/- The longest delay: no span of time is as long. -/
def longestDelay : Nat :=
  (2 ^ 64 - 1) * 1000000000 + 999999999

/-
  A nanosecond less than a second and a half ends at the last
  nanosecond of the clock, and the longest delay there, too.
-/
theorem after_saturates_nearTheEnd :
    nearTheEnd.inRange = true
      ∧ nearTheEndBehind.inRange = true
      ∧ spanOf? longestDelay = none
      ∧ (nearTheEnd.after 1499999999).instant = Instant.last
      ∧ nearTheEnd.after longestDelay = utc Instant.last
      ∧ (nearTheEndBehind.after longestDelay).localNanos
          = Instant.last.nanos
      ∧ (utc Instant.last).date = ⟨9999, 12, 31⟩
      ∧ (utc Instant.last).nanosOfDay + 1 = nanosPerDay
      ∧ WellFormedKey Instant.last "t"
          "9999-12-31T23:59:59.999Z::t"
      ∧ ¬ utf8 "9999-12-31T23:59:59.999Z::t"
          < utf8 (dueBound nearTheEnd.instant) := by
  have hShown : nearTheEnd.inRange = true := by decide
  have hBehind : nearTheEndBehind.inRange = true := by decide
  have hKey :
      taskKey Instant.last "t"
        = "9999-12-31T23:59:59.999Z::t" := by
    decide +kernel
  have hEnd :
      nearTheEnd.after longestDelay = utc Instant.last := by
    decide
  rcases after_saturates hShown 1499999999 with
    ⟨-, hExact, -⟩
  rcases after_saturates hBehind longestDelay with
    ⟨-, -, hLast, -⟩
  rcases after_saturates hShown longestDelay with
    ⟨-, -, -, -, -, -, -, hTask⟩
  have hDue := hTask rfl (by decide) "t"
  rw [hEnd, utc, hKey] at hDue
  exact
    ⟨hShown, hBehind, by decide,
      congrArg Instant.mk (hExact (by decide)), hEnd,
      hLast (by decide), by decide, by decide, hDue.1, hDue.2⟩

end Moment

end JourneyMatch
