import JourneyMatch.Proofs.Json.Number

/-
  This file shows that the text of a double is a literal,
  which is read up to its end. The shortest decimal of a
  double is not zero, so that no digit stands behind a zero
  at the front.

  Main statements:
    * `Binary64.shortest_digits`
    * `Decimal.exists_literal`
    * `Number.exists_literal`
-/

namespace JourneyMatch

------------------------------------------------------------
-- The shortest decimal
------------------------------------------------------------

theorem tenTo_pos
    (n : Nat) :
    0 < tenTo n :=
  Nat.pow_pos (by decide)

theorem twoTo_pos
    (n : Nat) :
    0 < twoTo n :=
  Nat.pow_pos (by decide)

/- A positive interval does not hold zero. -/
theorem Binary64.Interval.digits_ne_zero
    {i : Interval}
    {d : Decimal}
    (hLow : 0 < i.low.1)
    (hHolds : i.holds d.ratio = true) :
    d.digits ≠ 0 := by
  intro hZero
  have hRatio : d.ratio.1 = 0 := by
    simp [Decimal.ratio, hZero]
  have hScale : 0 < d.ratio.2 := tenTo_pos _
  have hPositive : 0 < i.low.1 * d.ratio.2 :=
    Nat.mul_pos hLow hScale
  unfold holds at hHolds
  split at hHolds
  · simp only [ratioLe, hRatio, Nat.zero_mul,
      Bool.and_eq_true, decide_eq_true_eq] at hHolds
    omega
  · simp only [ratioLe, hRatio, Nat.zero_mul,
      Bool.and_eq_true, Bool.not_eq_true',
      decide_eq_false_iff_not] at hHolds
    omega

/- Whatever a grid gives lies in the interval. -/
theorem Binary64.holds_of_onGrid?
    {i : Interval}
    {x : Nat × Nat}
    {exponent : Int}
    {d : Decimal}
    (hGrid : onGrid? i x exponent = some d) :
    i.holds d.ratio = true := by
  unfold onGrid? at hGrid
  simp only [] at hGrid
  split at hGrid
  · cases hGrid
  · rename_i hDown _
    cases hGrid
    exact hDown
  · rename_i _ hUp
    cases hGrid
    exact hUp
  · rename_i hDown hUp
    split at hGrid
    · cases hGrid
      exact hDown
    · split at hGrid
      · cases hGrid
        exact hUp
      · split at hGrid
        · cases hGrid
          exact hDown
        · cases hGrid
          exact hUp

/- Stripping zeros does not lead to zero. -/
theorem Decimal.strip_digits
    (fuel : Nat)
    {d : Decimal}
    (hDigits : d.digits ≠ 0) :
    (d.strip fuel).digits ≠ 0 := by
  induction fuel generalizing d with
  | zero => exact hDigits
  | succ fuel ih =>
      rw [strip]
      split
      · rename_i hZero
        apply ih
        simp only
        omega
      · exact hDigits

/- A decimal that is not zero, or zero without an exponent. -/
def Decimal.Proper
    (d : Decimal) : Prop :=
  d.digits ≠ 0 ∨ d.exponent = 0

theorem Binary64.proper_firstGrid
    {i : Interval}
    (x : Nat × Nat)
    (leading : Int)
    (hLow : 0 < i.low.1)
    (fuel count : Nat) :
    (firstGrid i x leading fuel count).Proper := by
  induction fuel generalizing count with
  | zero => exact .inr rfl
  | succ fuel ih =>
      rw [firstGrid]
      split
      · rename_i hGrid
        exact .inl
          (Decimal.strip_digits 20
            (Interval.digits_ne_zero hLow
              (holds_of_onGrid? hGrid)))
      · exact ih (count + 1)

/- A magnitude that is not zero has a significand. -/
theorem Binary64.parts_pos
    {bits : Nat}
    (hBits : bits ≠ 0) :
    0 < (parts bits).1 := by
  have hScale : 0 < twoTo 52 := twoTo_pos 52
  unfold parts
  simp only []
  split
  · rename_i hSmall
    have hSplit := Nat.div_add_mod bits (twoTo 52)
    rw [hSmall, Nat.mul_zero, Nat.zero_add] at hSplit
    simp only
    omega
  · simp only
    omega

theorem Binary64.proper_shortest
    {bits : Nat}
    (hBits : bits ≠ 0) :
    (shortest bits).Proper := by
  have hParts := parts_pos hBits
  apply proper_firstGrid
  simp only [interval, dyadic]
  apply Nat.mul_pos _ (twoTo_pos _)
  split <;> omega

------------------------------------------------------------
-- Layout
------------------------------------------------------------

/-
  A text that is read as one literal, up to its end, whatever
  its sign is and whatever follows.
-/
def IsLiteral
    (text : List Char) : Prop :=
  (∃ c ∈ text.head?, isDigit c = true)
    ∧ ∃ literal : Bool → Literal,
      ∀ negative rest,
        Delimited rest →
          readLiteral negative (text ++ rest)
            = .ok (literal negative, rest)

theorem WholeDigits.exists_head
    {digits : List Char}
    (hDigits : WholeDigits digits)
    (tail : List Char) :
    ∃ c ∈ (digits ++ tail).head?, isDigit c = true := by
  cases digits with
  | nil => exact absurd rfl hDigits.nonempty
  | cons c digits =>
      exact ⟨c, rfl, hDigits.digit c List.mem_cons_self⟩

theorem isLiteral_toDigits
    (n : Nat) :
    IsLiteral (Nat.toDigits 10 n) := by
  have hWhole := wholeDigits_toDigits n
  constructor
  · have hHead := hWhole.exists_head []
    rwa [List.append_nil] at hHead
  · exact ⟨_, fun negative rest hRest =>
      readLiteral_toDigits negative n hRest⟩

/- A literal with a point. -/
theorem isLiteral_point
    {digits fraction : List Char}
    (hDigits : WholeDigits digits)
    (hSome : fraction ≠ [])
    (hFraction : ∀ c ∈ fraction, isDigit c = true) :
    IsLiteral (digits ++ '.' :: fraction) := by
  refine ⟨hDigits.exists_head _, fun negative =>
    { negative
      whole := digits.map digitValue
      fraction := fraction.map digitValue
      exponent := none
      pointed := true }, ?_⟩
  intro negative rest hRest
  rw [List.append_assoc, List.cons_append]
  exact readLiteral_append negative hDigits
    (by intro c hHead; cases hHead; decide)
    (readFraction_point hSome hFraction hRest.noDigit)
    (readExponent_of_delimited hRest)

/- A literal with an exponent. -/
theorem isLiteral_exponent
    {digits exponent : List Char}
    {sign : Char}
    (hDigits : WholeDigits digits)
    (hSign : sign = '-' ∨ sign = '+')
    (hSome : exponent ≠ [])
    (hExponent : ∀ c ∈ exponent, isDigit c = true) :
    IsLiteral (digits ++ 'e' :: sign :: exponent) := by
  rcases exists_readExponent hSign hSome hExponent with
    ⟨value, hValue⟩
  refine ⟨hDigits.exists_head _, fun negative =>
    { negative
      whole := digits.map digitValue
      fraction := []
      exponent := some value
      pointed := false }, ?_⟩
  intro negative rest hRest
  rw [List.append_assoc, List.cons_append, List.cons_append]
  exact readLiteral_append negative hDigits
    (by intro c hHead; cases hHead; decide)
    (readFraction_exponent _) (hValue rest hRest.noDigit)

/- A literal with a point and an exponent. -/
theorem isLiteral_point_exponent
    {digits fraction exponent : List Char}
    {sign : Char}
    (hDigits : WholeDigits digits)
    (hSome : fraction ≠ [])
    (hFraction : ∀ c ∈ fraction, isDigit c = true)
    (hSign : sign = '-' ∨ sign = '+')
    (hSomeExponent : exponent ≠ [])
    (hExponent : ∀ c ∈ exponent, isDigit c = true) :
    IsLiteral
      (digits
        ++ '.' :: (fraction ++ 'e' :: sign :: exponent)) := by
  rcases exists_readExponent hSign hSomeExponent hExponent with
    ⟨value, hValue⟩
  refine ⟨hDigits.exists_head _, fun negative =>
    { negative
      whole := digits.map digitValue
      fraction := fraction.map digitValue
      exponent := some value
      pointed := true }, ?_⟩
  intro negative rest hRest
  rw [List.append_assoc, List.cons_append, List.append_assoc,
    List.cons_append, List.cons_append]
  exact readLiteral_append negative hDigits
    (by intro c hHead; cases hHead; decide)
    (readFraction_point hSome hFraction
      (by intro c hHead; cases hHead; decide))
    (hValue rest hRest.noDigit)

/- A single digit may stand before a point. -/
theorem wholeDigits_single
    {c : Char}
    (hDigit : isDigit c = true) :
    WholeDigits [c] where
  nonempty := List.cons_ne_nil c []
  digit := fun d hMem => by
    rw [List.mem_singleton.mp hMem]
    exact hDigit
  alone := fun hHead => by
    rw [Option.some.inj hHead]

/- Every layout of a proper decimal is a literal. -/
theorem Decimal.isLiteral_layout
    {d : Decimal}
    (hProper : d.Proper) :
    IsLiteral d.layout := by
  have hWhole := wholeDigits_toDigits d.digits
  have hAll :
      ∀ c ∈ Nat.toDigits 10 d.digits, isDigit c = true :=
    fun _ hMem => isDigit_of_mem_toDigits hMem
  have hZeros :
      ∀ n : Nat, ∀ c ∈ List.replicate n '0',
        isDigit c = true := by
    intro n c hMem
    rw [List.eq_of_mem_replicate hMem]
    decide
  have hHead :
      (Nat.toDigits 10 d.digits).head? = some '0' →
        d.digits = 0 :=
    eq_zero_of_head?_toDigits d.digits
  have hAlone := hWhole.alone
  unfold layout
  simp only []
  generalize hText : Nat.toDigits 10 d.digits = digits at *
  split
  · -- with an exponent
    have hSign :
        ∀ value : Int,
          (if value < 0 then '-' else '+') = '-'
            ∨ (if value < 0 then '-' else '+') = '+' := by
      intro value
      split
      · exact .inl rfl
      · exact .inr rfl
    cases digits with
    | nil => exact absurd rfl hWhole.nonempty
    | cons first others =>
        have hFirst :=
          wholeDigits_single (hAll first List.mem_cons_self)
        have hOthers : ∀ c ∈ others, isDigit c = true :=
          fun c hMem => hAll c (List.mem_cons_of_mem first hMem)
        cases others with
        | nil =>
            exact isLiteral_exponent hFirst (hSign _)
              Nat.toDigits_ne_nil
              (fun _ hMem => isDigit_of_mem_toDigits hMem)
        | cons second others =>
            exact isLiteral_point_exponent hFirst
              (List.cons_ne_nil _ _) hOthers (hSign _)
              Nat.toDigits_ne_nil
              (fun _ hMem => isDigit_of_mem_toDigits hMem)
  · split
    · -- below one
      apply isLiteral_point (wholeDigits_single (by decide))
      · simp [hWhole.nonempty]
      · intro c hMem
        rcases List.mem_append.mp hMem with hZero | hDigit
        · exact hZeros _ c hZero
        · exact hAll c hDigit
    · split
      · -- a whole number
        rename_i hPoint hWide
        apply isLiteral_point _ (List.cons_ne_nil _ _)
          (List.forall_mem_singleton.mpr rfl)
        constructor
        · simp [hWhole.nonempty]
        · intro c hMem
          rcases List.mem_append.mp hMem with hDigit | hZero
          · exact hAll c hDigit
          · exact hZeros _ c hZero
        · intro hFront
          rw [List.head?_append,
            List.head?_eq_some_head hWhole.nonempty,
            Option.some_or,
            ← List.head?_eq_some_head] at hFront
          have hNull := hHead hFront
          rcases hProper with hDigits | hExponent
          · exact absurd hNull hDigits
          · have hPad :
                ((digits.length : Int) + d.exponent
                  - digits.length).toNat = 0 := by
              omega
            rw [hPad, List.replicate_zero, List.append_nil]
            exact hAlone hFront
      · -- with a point between its digits
        rename_i hPoint hNarrow
        have hLow :
            0 < ((digits.length : Int) + d.exponent).toNat := by
          omega
        have hHigh :
            ((digits.length : Int) + d.exponent).toNat
              < digits.length := by
          omega
        generalize
          ((digits.length : Int) + d.exponent).toNat = point
          at hLow hHigh
        apply isLiteral_point
        · constructor
          · intro hNone
            rw [List.take_eq_nil_iff] at hNone
            rcases hNone with h | h
            · omega
            · exact hWhole.nonempty h
          · exact fun c hMem => hAll c (List.mem_of_mem_take hMem)
          · intro hFront
            rw [List.head?_take, if_neg (by omega)] at hFront
            have hOne := hAlone hFront
            rw [hOne] at hHigh
            simp only [List.length_singleton] at hHigh
            omega
        · intro hNone
          rw [List.drop_eq_nil_iff] at hNone
          omega
        · exact fun c hMem => hAll c (List.mem_of_mem_drop hMem)

------------------------------------------------------------
-- Numbers
------------------------------------------------------------

/- A number is printed as a literal, with a sign or without. -/
theorem Number.exists_literal
    (x : Number) :
    ∃ text,
      IsLiteral text
        ∧ (x.text = text ∨ x.text = '-' :: text) := by
  cases x with
  | integer value =>
      refine ⟨_, isLiteral_toDigits value.natAbs, ?_⟩
      rw [text, integerText]
      split
      · exact .inr rfl
      · exact .inl rfl
  | double value =>
      have hMagnitude :
          IsLiteral
            (if value.bits = 0 then ['0', '.', '0']
              else (Binary64.shortest value.bits).layout) := by
        split
        · have hZero : WholeDigits ['0'] :=
            wholeDigits_single (by decide)
          exact isLiteral_point hZero (List.cons_ne_nil '0' [])
            (List.forall_mem_singleton.mpr rfl)
        · rename_i hBits
          exact Decimal.isLiteral_layout
            (Binary64.proper_shortest hBits)
      refine ⟨_, hMagnitude, ?_⟩
      rw [text, Binary64.text]
      split
      · exact .inr rfl
      · exact .inl rfl

end JourneyMatch
