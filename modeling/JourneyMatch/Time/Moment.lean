/-
  This file defines instants, and moments, which are instants
  as read on a clock that runs ahead of or behind universal
  time. A moment's local date lies in the years -9999 to
  9999.

  Key definitions include:
    * `Instant`
    * `Instant.millis`
    * `Instant.unixMillis`
    * `Moment`
    * `Moment.make?`
    * `Moment.plus`
    * `Moment.after`
-/

namespace JourneyMatch

------------------------------------------------------------
-- Instants
------------------------------------------------------------

/- An instant, in nanoseconds from 1970-01-01. -/
structure Instant where
  nanos : Int
  deriving DecidableEq, Repr

namespace Instant

/- The instant of a number of milliseconds. -/
def ofMillis
    (millis : Int) : Instant :=
  ⟨millis * 1000000⟩

/- The last whole millisecond not after an instant. -/
def millis
    (t : Instant) : Int :=
  t.nanos / 1000000

/-
  The milliseconds from 1970-01-01 to an instant, rounded
  toward that day.
-/
def unixMillis
    (t : Instant) : Int :=
  t.nanos.tdiv 1000000

/- The first instant of the year -9999. -/
def first : Instant :=
  ⟨-377705116800000000000⟩

/- The last instant of the year 9999. -/
def last : Instant :=
  ⟨253402300799999999999⟩

/- Whether an instant lies in the years -9999 to 9999. -/
def inRange
    (t : Instant) : Bool :=
  first.nanos ≤ t.nanos && t.nanos ≤ last.nanos

/- An instant of the years -9999 to 9999, from milliseconds. -/
def ofMillis?
    (millis : Int) : Option Instant :=
  let t := ofMillis millis
  if t.inRange then some t else none

end Instant

------------------------------------------------------------
-- Moments
------------------------------------------------------------

/-
  An instant on a clock that is ahead of universal time by
  the offset, in seconds.
-/
structure Moment where
  instant : Instant
  offset : Int
  deriving DecidableEq, Repr

namespace Moment

/- What the clock shows, counted as if it were at offset 0. -/
def localNanos
    (m : Moment) : Int :=
  m.instant.nanos + m.offset * 1000000000

/- The greatest offset either way: a second short of 26 hours. -/
def greatestOffset : Int :=
  93599

/-
  The moment of an instant at an offset. There is none when
  the offset is too great, or a date out of range.
-/
def make?
    (instant : Instant)
    (offset : Int) : Option Moment :=
  let m : Moment := ⟨instant, offset⟩
  if offset.natAbs ≤ greatestOffset.natAbs
      ∧ instant.inRange
      ∧ (Instant.mk m.localNanos).inRange then
    some m
  else
    none

/- The moment of an instant in universal time. -/
def utc
    (instant : Instant) : Moment :=
  ⟨instant, 0⟩

/- The moment at which the clock shows what is given. -/
def ofLocal
    (localNanos offset : Int) : Moment :=
  ⟨⟨localNanos - offset * 1000000000⟩, offset⟩

/- Whether the clock can show the moment. -/
def inRange
    (m : Moment) : Bool :=
  (Instant.mk m.localNanos).inRange

------------------------------------------------------------
-- Delays
------------------------------------------------------------

/- The longest span of time, in nanoseconds. -/
def longestSpan : Int :=
  9223372036854775807999999999

/-
  A delay, in nanoseconds, as a span of time. There is none
  when its seconds do not fit into 63 bits.
-/
def spanOf?
    (delay : Nat) : Option Int :=
  if delay / 1000000000 < 9223372036854775808 then some delay
  else none

/- The moment a span away, whatever the clock can show. -/
def shifted
    (m : Moment)
    (span : Int) : Moment :=
  ⟨⟨m.instant.nanos + span⟩, m.offset⟩

/- The moment a span away, if the clock can show it. -/
def plus?
    (m : Moment)
    (span : Int) : Option Moment :=
  if (m.shifted span).inRange then some (m.shifted span)
  else none

/-
  The moment a span away, or else the last moment that the
  clock shows, or the first if the span goes back.
-/
def plus
    (m : Moment)
    (span : Int) : Moment :=
  match m.plus? span with
  | some shown => shown
  | none =>
      if span < 0 then ofLocal Instant.first.nanos m.offset
      else ofLocal Instant.last.nanos m.offset

/- The moment that lies a delay, in nanoseconds, after another. -/
def after
    (m : Moment)
    (delay : Nat) : Moment :=
  m.plus ((spanOf? delay).getD longestSpan)

end Moment

end JourneyMatch
