import Mathlib.Algebra.Group.Nat.Defs
import JourneyMatch.Proofs.Time.Civil
import JourneyMatch.Task.Janitor

/-
  This file shows that the texts of instants sort as the
  instants do, to the millisecond, so that the keys below the
  text of an instant are those of the tasks that are due.

  Texts are compared by the place at which they first differ.
  In columns of fixed width that place lies in the column in
  which the numbers first differ.

  Key definitions include:
    * `FirstLess`
    * `Instant.yearZero`

  Main statements:
    * `firstLess_padded`
    * `firstLess_timestamp`
    * `taskKey_lt_dueBound_iff`
    * `taskKey_lt_dueBound_congr`
-/

namespace JourneyMatch

------------------------------------------------------------
-- The place at which texts first differ
------------------------------------------------------------

/- Whether texts differ, and the first is less there. -/
inductive FirstLess :
    List Char → List Char → Prop where
  | here
      {c d : Char}
      (hLess : c < d)
      (xs ys : List Char) :
      FirstLess (c :: xs) (d :: ys)
  | there
      {xs ys : List Char}
      (c : Char)
      (hRest : FirstLess xs ys) :
      FirstLess (c :: xs) (c :: ys)

namespace FirstLess

variable {xs ys : List Char}

/- What comes first in both texts makes no difference. -/
theorem append_left
    (hLess : FirstLess xs ys)
    (start : List Char) :
    FirstLess (start ++ xs) (start ++ ys) := by
  induction start with
  | nil => exact hLess
  | cons c start ih => exact .there c ih

/- Nor does what comes behind the place. -/
theorem append_right
    (hLess : FirstLess xs ys)
    (first second : List Char) :
    FirstLess (xs ++ first) (ys ++ second) := by
  induction hLess with
  | here hLess => exact .here hLess _ _
  | there c _ ih => exact .there c ih

theorem lt
    (hLess : FirstLess xs ys) :
    xs < ys := by
  induction hLess with
  | here hLess =>
      exact List.cons_lt_cons_iff.mpr (.inl hLess)
  | there c _ ih =>
      exact List.cons_lt_cons_iff.mpr (.inr ⟨rfl, ih⟩)

end FirstLess

------------------------------------------------------------
-- Columns
------------------------------------------------------------

/- The last digit of a number stands in the last place. -/
theorem padded_succ
    {width : Nat}
    (hWidth : 0 < width)
    (n : Nat) :
    padded (width + 1) n
      = padded width (n / 10) ++ [Nat.digitChar (n % 10)] := by
  unfold padded
  dsimp only
  by_cases hSmall : n < 10
  · have hRest : n / 10 = 0 := by omega
    have hZero : Nat.toDigits 10 0 = ['0'] := by decide
    obtain ⟨width, rfl⟩ := Nat.exists_eq_succ_of_ne_zero
      (Nat.ne_of_gt hWidth)
    rw [Nat.toDigits_of_lt_base hSmall, hRest, hZero,
      Nat.mod_eq_of_lt hSmall]
    simp [List.replicate_succ']
  · rw [Nat.toDigits_eq_if (by decide), if_neg hSmall,
      ← List.append_assoc, List.length_append,
      List.length_singleton, Nat.add_sub_add_right]

theorem digitChar_lt
    {m n : Nat}
    (hLess : m < n)
    (hDigit : n < 10) :
    Nat.digitChar m < Nat.digitChar n := by
  have hAll :
      ∀ a b : Fin 10,
        a < b → Nat.digitChar a < Nat.digitChar b := by
    decide
  exact hAll ⟨m, by omega⟩ ⟨n, hDigit⟩ hLess

/- Of two numbers of a column, the lesser sorts first. -/
theorem firstLess_padded
    {width m n : Nat}
    (hWidth : 0 < width)
    (hFits : n < 10 ^ width)
    (hLess : m < n) :
    FirstLess (padded width m) (padded width n) := by
  induction width, hWidth using Nat.le_induction
    generalizing m n with
  | base =>
      have hDigit : ∀ k, k < 10 → padded 1 k = [k.digitChar] := by
        intro k hSmall
        simp [padded, Nat.toDigits_of_lt_base hSmall]
      rw [hDigit m (by omega), hDigit n hFits]
      exact .here (digitChar_lt hLess hFits) _ _
  | succ width hWidth ih =>
      rw [padded_succ hWidth, padded_succ hWidth]
      rw [pow_succ] at hFits
      rcases Nat.lt_or_eq_of_le
          (Nat.div_le_div_right (c := 10) (Nat.le_of_lt hLess))
        with hRest | hRest
      · exact (ih (by omega) hRest).append_right _ _
      · rw [hRest]
        apply FirstLess.append_left
        exact .here (digitChar_lt (by omega) (by omega)) _ _

/- The first column in which numbers differ decides. -/
theorem firstLess_column
    {width m n : Nat}
    {xs ys : List Char}
    (hWidth : 0 < width)
    (hFits : n < 10 ^ width)
    (hLess : m < n ∨ m = n ∧ FirstLess xs ys) :
    FirstLess (padded width m ++ xs) (padded width n ++ ys) := by
  rcases hLess with hHere | ⟨hSame, hRest⟩
  · exact (firstLess_padded hWidth hFits hHere).append_right _ _
  · rw [hSame]
    exact hRest.append_left _

/- A column begins with a digit, which sorts above a sign. -/
theorem firstLess_sign
    (width n : Nat)
    (xs ys : List Char) :
    FirstLess ('-' :: xs) (padded width n ++ ys) := by
  have hDigits :
      ∀ c ∈ padded width n, '-' < c := by
    intro c hMem
    rcases List.mem_append.mp hMem with hZero | hDigit
    · rw [List.eq_of_mem_replicate hZero]
      decide
    · have hRange := Char.isDigit_iff_toNat.mp
        (Nat.isDigit_of_mem_toDigits (by decide) (by decide)
          hDigit)
      have hSign : '-'.toNat < '0'.toNat := by decide
      exact Char.lt_def.mpr
        (Nat.lt_of_lt_of_le hSign hRange.1)
  cases hPadded : padded width n with
  | nil =>
      exact absurd (List.append_eq_nil_iff.mp hPadded).2
        Nat.toDigits_ne_nil
  | cons c rest =>
      rw [hPadded] at hDigits
      exact .here (hDigits c List.mem_cons_self) _ _

------------------------------------------------------------
-- Dates and times of day
------------------------------------------------------------

theorem firstLess_dateText
    {d e : Date}
    (hBefore : d.Before e)
    (hFirst : 0 ≤ d.year)
    (hLast : e.year ≤ 9999)
    (hMonth : e.month < 100)
    (hDay : e.day < 100) :
    FirstLess (dateText d) (dateText e) := by
  have hYear : d.year ≤ e.year := by
    rcases hBefore with hLess | ⟨hSame, -⟩ <;> omega
  simp only [dateText, yearText, if_neg (Int.not_lt.mpr hFirst),
    if_neg (Int.not_lt.mpr (Int.le_trans hFirst hYear)),
    List.append_assoc, List.cons_append]
  apply firstLess_column (by decide) (by omega)
  rcases hBefore with hLess | ⟨hSame, hRest⟩
  · left
    omega
  right
  refine ⟨by rw [hSame], .there _ ?_⟩
  apply firstLess_column (by decide) hMonth
  rcases hRest with hLess | ⟨hSame, hLess⟩
  · exact .inl hLess
  · exact .inr
      ⟨hSame, .there _ (firstLess_padded (by decide) hDay hLess)⟩

theorem firstLess_timeText
    {m n : Nat}
    (hLess : m < n)
    (hDay : n < millisPerDay) :
    FirstLess (timeText m) (timeText n) := by
  unfold millisPerDay at hDay
  simp only [timeText, List.append_assoc, List.cons_append]
  apply firstLess_column (by decide) (by omega)
  by_cases hHour : m / 3600000 = n / 3600000
  · refine .inr ⟨hHour, .there _ ?_⟩
    apply firstLess_column (by decide) (by omega)
    by_cases hMinute : m / 60000 % 60 = n / 60000 % 60
    · refine .inr ⟨hMinute, .there _ ?_⟩
      apply firstLess_column (by decide) (by omega)
      by_cases hSecond : m / 1000 % 60 = n / 1000 % 60
      · refine .inr ⟨hSecond, .there _ ?_⟩
        exact firstLess_padded (by decide) (by omega) (by omega)
      · left
        omega
    · left
      omega
  · left
    omega

------------------------------------------------------------
-- Instants
------------------------------------------------------------

/- The first instant of the year 0. -/
def Instant.yearZero : Instant :=
  ⟨-62167219200000000000⟩

theorem Instant.millis_yearZero :
    yearZero.millis = -62167219200000 := by
  decide

theorem Instant.millis_last :
    last.millis = 253402300799999 := by
  decide

theorem year_ofDays_nonneg
    {millis : Int}
    (hFirst : Instant.yearZero.millis ≤ millis) :
    0 ≤ (Date.ofDays (millis / millisPerDay)).year := by
  have hZero : Date.ofDays (-719528) = ⟨0, 1, 1⟩ := by decide
  have hDay : -719528 ≤ millis / millisPerDay := by
    unfold millisPerDay
    rw [Instant.millis_yearZero] at hFirst
    omega
  rcases Int.lt_or_eq_of_le hDay with hLater | hSame
  · have hBefore := Date.before_ofDays hLater
    rw [hZero] at hBefore
    rcases hBefore with hYear | ⟨hYear, -⟩
    · exact Int.le_of_lt hYear
    · exact Int.le_of_eq hYear
  · rw [← hSame, hZero]

theorem year_ofDays_le
    {millis : Int}
    (hLast : millis ≤ Instant.last.millis) :
    (Date.ofDays (millis / millisPerDay)).year ≤ 9999 := by
  have hEnd : Date.ofDays 2932896 = ⟨9999, 12, 31⟩ := by decide
  have hDay : millis / millisPerDay ≤ 2932896 := by
    unfold millisPerDay
    rw [Instant.millis_last] at hLast
    omega
  rcases Int.lt_or_eq_of_le hDay with hEarlier | hSame
  · have hBefore := Date.before_ofDays hEarlier
    rw [hEnd] at hBefore
    rcases hBefore with hYear | ⟨hYear, -⟩
    · exact Int.le_of_lt hYear
    · exact Int.le_of_eq hYear
  · rw [hSame, hEnd]

theorem year_ofDays_neg
    {millis : Int}
    (hEarly : millis < Instant.yearZero.millis) :
    (Date.ofDays (millis / millisPerDay)).year < 0 := by
  have hZero : Date.ofDays (-719528) = ⟨0, 1, 1⟩ := by decide
  have hDay : millis / millisPerDay < -719528 := by
    unfold millisPerDay
    rw [Instant.millis_yearZero] at hEarly
    omega
  have hBefore := Date.before_ofDays hDay
  have hOne := Date.one_le_day_ofDays (millis / millisPerDay)
  rw [hZero] at hBefore
  rcases hBefore with hYear | ⟨-, hMonth | ⟨-, hFirst⟩⟩
  · exact hYear
  · dsimp only at hMonth
    omega
  · dsimp only at hFirst
    omega

theorem lt_year_ofDays
    {millis : Int}
    (hLate : Instant.last.millis < millis) :
    9999 < (Date.ofDays (millis / millisPerDay)).year := by
  have hNext : Date.ofDays 2932897 = ⟨10000, 1, 1⟩ := by decide
  have hDay : 2932897 ≤ millis / millisPerDay := by
    unfold millisPerDay
    rw [Instant.millis_last] at hLate
    omega
  rcases Int.lt_or_eq_of_le hDay with hLater | hSame
  · have hBefore := Date.before_ofDays hLater
    rw [hNext] at hBefore
    rcases hBefore with hYear | ⟨hYear, -⟩
    · exact Int.lt_trans (by decide) hYear
    · rw [← hYear]
      decide
  · rw [← hSame, hNext]
    decide

/- Of two instants from the year 0 on, the earlier sorts first. -/
theorem firstLess_timestamp
    {first second : Instant}
    (hYears : Instant.yearZero.millis ≤ first.millis)
    (hLast : second.millis ≤ Instant.last.millis)
    (hLess : first.millis < second.millis) :
    FirstLess (timestamp first).toList
      (timestamp second).toList := by
  simp only [timestamp, timestampOfMillis, String.toList_ofList,
    List.append_assoc, List.cons_append]
  have hDays :
      first.millis / millisPerDay
        ≤ second.millis / millisPerDay := by
    unfold millisPerDay
    omega
  rcases Int.lt_or_eq_of_le hDays with hEarlier | hSame
  · have hDate :=
      Date.day_ofDays_lt (second.millis / millisPerDay)
    have hText :=
      firstLess_dateText (Date.before_ofDays hEarlier)
        (year_ofDays_nonneg hYears) (year_ofDays_le hLast)
        hDate.1 hDate.2
    exact hText.append_right _ _
  · rw [hSame]
    apply FirstLess.append_left
    refine .there _ (FirstLess.append_right ?_ _ _)
    apply firstLess_timeText
    · unfold millisPerDay at *
      omega
    · unfold millisPerDay
      omega

/- An instant before the year 0 sorts before those after. -/
theorem firstLess_timestamp_of_sign
    {first second : Instant}
    (hBefore : first.millis < Instant.yearZero.millis)
    (hYears : Instant.yearZero.millis ≤ second.millis) :
    FirstLess (timestamp first).toList
      (timestamp second).toList := by
  have hSign :=
    Int.not_lt.mpr (year_ofDays_nonneg hYears)
  simp only [timestamp, timestampOfMillis, String.toList_ofList,
    dateText, yearText, List.append_assoc, List.cons_append]
  rw [if_pos (year_ofDays_neg hBefore), if_neg hSign]
  exact firstLess_sign _ _ _ _

------------------------------------------------------------
-- Keys of tasks
------------------------------------------------------------

/-
  The key of a task that is due from the year 0 on sorts below
  the bound of an instant just if the task is due before, to
  the millisecond.
-/
theorem taskKey_lt_dueBound_iff
    {due now : Instant}
    (hYears : Instant.yearZero.millis ≤ due.millis)
    (hDue : due.millis ≤ Instant.last.millis)
    (hNow : now.millis ≤ Instant.last.millis)
    (tag : String) :
    taskKey due tag < dueBound now ↔ due.millis < now.millis := by
  have hKey :
      (taskKey due tag).toList
        = (timestamp due).toList
          ++ (tagSeparator.toList ++ tag.toList) := by
    simp [taskKey]
  rw [String.lt_iff, hKey, dueBound]
  rcases lt_trichotomy due.millis now.millis with
    hLess | hSame | hLater
  · have hText :=
      (firstLess_timestamp hYears hNow hLess).append_right
        (tagSeparator.toList ++ tag.toList) []
    rw [List.append_nil] at hText
    exact iff_of_true hText.lt hLess
  · have hText : timestamp now = timestamp due := by
      rw [timestamp, timestamp, hSame]
    rw [hText]
    apply iff_of_false
    · exact List.not_lt.mpr (List.prefix_append _ _).le
    · exact Int.not_lt.mpr (Int.le_of_eq hSame.symm)
  · have hText :
        FirstLess (timestamp now).toList
          (timestamp due).toList := by
      by_cases hBefore : now.millis < Instant.yearZero.millis
      · exact firstLess_timestamp_of_sign hBefore hYears
      · exact firstLess_timestamp (Int.not_lt.mp hBefore) hDue
          hLater
    have hAfter :=
      hText.append_right [] (tagSeparator.toList ++ tag.toList)
    rw [List.append_nil] at hAfter
    apply iff_of_false
    · exact List.lt_asymm hAfter.lt
    · exact Int.not_lt.mpr (Int.le_of_lt hLater)

/-
  Texts that end in a sign which stands nowhere else in them
  are compared by what is in front of it: what is appended to
  the first of them makes no difference.
-/
theorem append_lt_append_singleton_iff
    {z : Char}
    {xs ys : List Char}
    (hFirst : z ∉ xs)
    (hSecond : z ∉ ys)
    (a b : List Char) :
    xs ++ z :: a < ys ++ [z] ↔ xs ++ z :: b < ys ++ [z] := by
  induction xs generalizing ys with
  | nil =>
      cases ys with
      | nil => simp
      | cons d ys =>
          rw [List.mem_cons, not_or] at hSecond
          simp [List.cons_lt_cons_iff, hSecond.1]
  | cons c xs ih =>
      rw [List.mem_cons, not_or] at hFirst
      cases ys with
      | nil =>
          simp [List.cons_lt_cons_iff, Ne.symm hFirst.1]
      | cons d ys =>
          rw [List.mem_cons, not_or] at hSecond
          simp only [List.cons_append, List.cons_lt_cons_iff,
            ih hFirst.2 hSecond.2]

/- No column holds the sign that ends a timestamp. -/
theorem zone_not_mem_padded
    (width n : Nat) :
    'Z' ∉ padded width n := by
  intro hMem
  rcases List.mem_append.mp hMem with hZero | hDigit
  · exact absurd (List.eq_of_mem_replicate hZero) (by decide)
  · exact absurd
      (Nat.isDigit_of_mem_toDigits (by decide) (by decide)
        hDigit)
      (by decide)

theorem zone_not_mem_dateText
    (d : Date) :
    'Z' ∉ dateText d := by
  unfold dateText yearText
  split <;> simp [zone_not_mem_padded]

theorem zone_not_mem_timeText
    (millis : Nat) :
    'Z' ∉ timeText millis := by
  simp [timeText, zone_not_mem_padded]

/- Whether a task is below a bound does not lie in its tag. -/
theorem taskKey_lt_dueBound_congr
    (due now : Instant)
    (tag other : String) :
    taskKey due tag < dueBound now
      ↔ taskKey due other < dueBound now := by
  have hFront :
      ∀ t : Instant, ∃ front,
        'Z' ∉ front ∧ (timestamp t).toList = front ++ ['Z'] := by
    intro t
    refine ⟨_, ?_, String.toList_ofList⟩
    simp [zone_not_mem_dateText, zone_not_mem_timeText]
  rcases hFront due with ⟨first, hFirst, hDue⟩
  rcases hFront now with ⟨second, hSecond, hNow⟩
  have hKey :
      ∀ tag : String,
        (taskKey due tag).toList
          = first ++ 'Z' :: (tagSeparator.toList ++ tag.toList) := by
    intro tag
    simp [taskKey, hDue]
  rw [String.lt_iff, String.lt_iff, hKey, hKey, dueBound, hNow]
  exact append_lt_append_singleton_iff hFirst hSecond _ _

end JourneyMatch
