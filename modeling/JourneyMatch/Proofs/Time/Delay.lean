import Mathlib.Order.Lattice
import JourneyMatch.Time.Moment

/-
  This file reads a moment after a delay off its clock: what
  the clock shows, and the delay, but no more than the last
  that the clock shows. A delay too long for a span of time
  is longer than all years together, so that the longest span
  does as well.

  Main statements:
    * `Moment.localNanos_plus`
    * `Moment.localNanos_after`
    * `Moment.nanos_after`
-/

namespace JourneyMatch

namespace Moment

theorem inRange_iff
    (m : Moment) :
    m.inRange = true
      ↔ Instant.first.nanos ≤ m.localNanos
        ∧ m.localNanos ≤ Instant.last.nanos := by
  simp [inRange, Instant.inRange]

@[simp] theorem localNanos_ofLocal
    (localNanos offset : Int) :
    (ofLocal localNanos offset).localNanos = localNanos :=
  Int.sub_add_cancel _ _

@[simp] theorem offset_ofLocal
    (localNanos offset : Int) :
    (ofLocal localNanos offset).offset = offset :=
  rfl

@[simp] theorem localNanos_utc
    (t : Instant) :
    (utc t).localNanos = t.nanos := by
  rw [utc, localNanos, Int.zero_mul, Int.add_zero]

/- What a clock shows, and its offset, tell the instant. -/
theorem nanos_eq
    (m : Moment) :
    m.instant.nanos = m.localNanos - m.offset * 1000000000 :=
  (Int.add_sub_cancel _ _).symm

------------------------------------------------------------
-- Spans
------------------------------------------------------------

variable {m : Moment}
variable {span : Int}

theorem localNanos_shifted
    (m : Moment)
    (span : Int) :
    (m.shifted span).localNanos = m.localNanos + span :=
  Int.add_right_comm _ _ _

theorem plus_of_inRange
    (hRange : (m.shifted span).inRange = true) :
    m.plus span = m.shifted span := by
  rw [plus, plus?, if_pos hRange]

theorem plus_of_not_inRange
    (hRange : (m.shifted span).inRange ≠ true) :
    m.plus span
      = ofLocal
        (if span < 0 then Instant.first.nanos
          else Instant.last.nanos)
        m.offset := by
  rw [plus, plus?, if_neg hRange]
  dsimp only
  split <;> rfl

/- The clock stays the same. -/
@[simp] theorem offset_plus
    (m : Moment)
    (span : Int) :
    (m.plus span).offset = m.offset := by
  by_cases hRange : (m.shifted span).inRange = true
  · rw [plus_of_inRange hRange]
    rfl
  · rw [plus_of_not_inRange hRange]
    rfl

/- A span that goes forward ends where the clock does. -/
theorem localNanos_plus
    (hFirst : Instant.first.nanos ≤ m.localNanos)
    (hForward : 0 ≤ span) :
    (m.plus span).localNanos
      = min (m.localNanos + span) Instant.last.nanos := by
  by_cases hFits : m.localNanos + span ≤ Instant.last.nanos
  · have hRange : (m.shifted span).inRange = true := by
      rw [inRange_iff, localNanos_shifted]
      exact ⟨by omega, hFits⟩
    rw [plus_of_inRange hRange, localNanos_shifted,
      min_eq_left hFits]
  · have hRange : (m.shifted span).inRange ≠ true := by
      rw [Ne, inRange_iff, localNanos_shifted]
      exact fun hShown => hFits hShown.2
    rw [plus_of_not_inRange hRange,
      if_neg (Int.not_lt.mpr hForward), localNanos_ofLocal,
      min_eq_right (Int.le_of_not_le hFits)]

------------------------------------------------------------
-- Delays
------------------------------------------------------------

@[simp] theorem offset_after
    (m : Moment)
    (delay : Nat) :
    (m.after delay).offset = m.offset :=
  offset_plus m _

/- No clock shows a delay that is no span of time. -/
theorem localNanos_after
    {m : Moment}
    (hFirst : Instant.first.nanos ≤ m.localNanos)
    (delay : Nat) :
    (m.after delay).localNanos
      = min (m.localNanos + delay) Instant.last.nanos := by
  unfold after spanOf?
  split
  · exact localNanos_plus hFirst (Int.natCast_nonneg delay)
  · rename_i hLong
    rw [Option.getD_none, localNanos_plus hFirst (by decide)]
    have hYears :
        Instant.last.nanos - Instant.first.nanos ≤ longestSpan := by
      decide
    have hLonger : longestSpan ≤ delay := by
      unfold longestSpan
      omega
    rw [min_eq_right (by omega), min_eq_right (by omega)]

/- The same for the instant, at the offset of the clock. -/
theorem nanos_after
    {m : Moment}
    (hFirst : Instant.first.nanos ≤ m.localNanos)
    (delay : Nat) :
    (m.after delay).instant.nanos
      = min (m.instant.nanos + delay)
        (Instant.last.nanos - m.offset * 1000000000) := by
  rw [nanos_eq, localNanos_after hFirst, offset_after,
    m.nanos_eq]
  omega

end Moment

end JourneyMatch
