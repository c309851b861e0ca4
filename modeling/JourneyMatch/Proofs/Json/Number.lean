import JourneyMatch.Json.Reader

/-
  This file shows that a printed number is read up to its
  end, whatever follows it, as long as what follows cannot
  belong to a number. An integer of the kept range is read as
  itself; a double is read as some number, since its text may
  round to another one.

  Key definitions include:
    * `Delimited`
    * `WholeDigits`

  Main statements:
    * `readNumber_integerText`
    * `Number.exists_literal`
-/

namespace JourneyMatch

------------------------------------------------------------
-- What follows a value
------------------------------------------------------------

/- What may follow a value: nothing, a comma or a closing. -/
def Delimited
    (rest : List Char) : Prop :=
  ∀ c ∈ rest.head?, c = ',' ∨ c = ']' ∨ c = '}'

/- A text that does not go on with a digit. -/
def NoDigit
    (rest : List Char) : Prop :=
  ∀ c ∈ rest.head?, isDigit c = false

theorem Delimited.noDigit
    {rest : List Char}
    (hRest : Delimited rest) :
    NoDigit rest := by
  intro c hHead
  rcases hRest c hHead with h | h | h <;> subst h <;> decide

theorem Delimited.comma
    (rest : List Char) :
    Delimited (',' :: rest) := by
  intro c hHead
  cases hHead
  exact .inl rfl

theorem Delimited.bracket
    (rest : List Char) :
    Delimited (']' :: rest) := by
  intro c hHead
  cases hHead
  exact .inr (.inl rfl)

theorem Delimited.brace
    (rest : List Char) :
    Delimited ('}' :: rest) := by
  intro c hHead
  cases hHead
  exact .inr (.inr rfl)

theorem Delimited.nil :
    Delimited [] := by
  intro c hHead
  cases hHead

------------------------------------------------------------
-- Runs of digits
------------------------------------------------------------

/- Digits are read up to the end of their run. -/
theorem readDigits_append
    {digits rest : List Char}
    (hDigits : ∀ c ∈ digits, isDigit c = true)
    (hRest : NoDigit rest) :
    readDigits (digits ++ rest)
      = (digits.map digitValue, rest) := by
  induction digits with
  | nil =>
      cases rest with
      | nil => rfl
      | cons c rest =>
          have hHead := hRest c rfl
          simp [readDigits, hHead]
  | cons c digits ih =>
      have hHead := hDigits c List.mem_cons_self
      have hTail :=
        ih fun d hMem => hDigits d (List.mem_cons_of_mem c hMem)
      simp only [readDigits, Prod.mk.injEq] at hTail
      simp [readDigits, hHead, hTail.1, hTail.2]

theorem readSomeDigits_append
    {digits rest : List Char}
    (hSome : digits ≠ [])
    (hDigits : ∀ c ∈ digits, isDigit c = true)
    (hRest : NoDigit rest) :
    readSomeDigits (digits ++ rest)
      = .ok (digits.map digitValue, rest) := by
  have hRead := readDigits_append hDigits hRest
  cases digits with
  | nil => exact absurd rfl hSome
  | cons c digits =>
      have hHead := hDigits c List.mem_cons_self
      rw [List.cons_append] at hRead ⊢
      simp only [readSomeDigits, hHead, if_true, hRead]

/-
  Digits that may stand before a point: there is one, and a
  zero in front stands alone.
-/
structure WholeDigits
    (digits : List Char) : Prop where
  nonempty : digits ≠ []
  digit : ∀ c ∈ digits, isDigit c = true
  alone : digits.head? = some '0' → digits = ['0']

theorem readWhole_append
    {digits rest : List Char}
    (hDigits : WholeDigits digits)
    (hRest : NoDigit rest) :
    readWhole (digits ++ rest)
      = .ok (digits.map digitValue, rest) := by
  simp only [readWhole, bind, Except.bind,
    readSomeDigits_append hDigits.nonempty hDigits.digit hRest]
  split
  · rename_i hZero
    cases digits with
    | nil => simp at hZero
    | cons c digits =>
        cases digits with
        | nil => simp at hZero
        | cons d digits =>
            simp only [List.map_cons, List.cons.injEq] at hZero
            have hValue : digitValue c = 0 := hZero.1
            have hDigit := hDigits.digit c List.mem_cons_self
            have hNull : c = '0' := by
              apply Char.toNat_inj.mp
              simp only [isDigit, Bool.and_eq_true,
                decide_eq_true_eq, Char.le_def,
                UInt32.le_iff_toNat_le] at hDigit
              have hLow : '0'.toNat ≤ c.toNat := hDigit.1
              simp only [digitValue] at hValue
              omega
            have hAlone := hDigits.alone (by rw [hNull]; rfl)
            cases hAlone
  · rfl

------------------------------------------------------------
-- Literals
------------------------------------------------------------

/- A literal is read part by part. -/
theorem readLiteral_append
    {digits rest after last : List Char}
    {fraction : Option (List Nat)}
    {exponent : Option Int}
    (negative : Bool)
    (hDigits : WholeDigits digits)
    (hRest : NoDigit rest)
    (hFraction : readFraction rest = .ok (fraction, after))
    (hExponent : readExponent after = .ok (exponent, last)) :
    readLiteral negative (digits ++ rest)
      = .ok
        ({ negative
           whole := digits.map digitValue
           fraction := fraction.getD []
           exponent
           pointed := fraction.isSome }, last) := by
  simp only [readLiteral, readWhole_append hDigits hRest, bind,
    Except.bind, hFraction, hExponent]

theorem readFraction_of_delimited
    {rest : List Char}
    (hRest : Delimited rest) :
    readFraction rest = .ok (none, rest) := by
  unfold readFraction
  split
  · rename_i cs
    rcases hRest '.' rfl with h | h | h <;> cases h
  · rfl

theorem readFraction_exponent
    (rest : List Char) :
    readFraction ('e' :: rest) = .ok (none, 'e' :: rest) := by
  rfl

theorem readFraction_point
    {digits rest : List Char}
    (hSome : digits ≠ [])
    (hDigits : ∀ c ∈ digits, isDigit c = true)
    (hRest : NoDigit rest) :
    readFraction ('.' :: (digits ++ rest))
      = .ok (some (digits.map digitValue), rest) := by
  simp only [readFraction, bind, Except.bind,
    readSomeDigits_append hSome hDigits hRest]

theorem readExponent_of_delimited
    {rest : List Char}
    (hRest : Delimited rest) :
    readExponent rest = .ok (none, rest) := by
  unfold readExponent
  split
  · rcases hRest 'e' rfl with h | h | h <;> cases h
  · rcases hRest 'E' rfl with h | h | h <;> cases h
  · rfl

/- An exponent with a sign is read up to its end. -/
theorem exists_readExponent
    {sign : Char}
    {digits : List Char}
    (hSign : sign = '-' ∨ sign = '+')
    (hSome : digits ≠ [])
    (hDigits : ∀ c ∈ digits, isDigit c = true) :
    ∃ exponent,
      ∀ rest,
        NoDigit rest →
          readExponent ('e' :: sign :: (digits ++ rest))
            = .ok (some exponent, rest) := by
  rcases hSign with h | h
  · subst h
    refine ⟨-(ofDigits (digits.map digitValue) : Int), ?_⟩
    intro rest hRest
    simp only [readExponent, readExponentDigits, bind,
      Except.bind, readSomeDigits_append hSome hDigits hRest]
  · subst h
    refine ⟨(ofDigits (digits.map digitValue) : Int), ?_⟩
    intro rest hRest
    simp only [readExponent, readExponentDigits, bind,
      Except.bind, readSomeDigits_append hSome hDigits hRest]

------------------------------------------------------------
-- Decimal digits of naturals
------------------------------------------------------------

theorem isDigit_of_mem_toDigits
    {c : Char}
    {n : Nat}
    (hMem : c ∈ Nat.toDigits 10 n) :
    isDigit c = true := by
  have hDigit :=
    Nat.isDigit_of_mem_toDigits (by decide) (by decide) hMem
  simp only [Char.isDigit, Bool.and_eq_true,
    decide_eq_true_eq] at hDigit
  simp only [isDigit, Bool.and_eq_true, decide_eq_true_eq,
    Char.le_def]
  exact hDigit

/- Only zero is written with a zero in front. -/
theorem eq_zero_of_head?_toDigits
    (n : Nat)
    (hHead : (Nat.toDigits 10 n).head? = some '0') :
    n = 0 := by
  induction n using Nat.strongRecOn with
  | ind n ih =>
      rw [Nat.toDigits_eq_if (by decide)] at hHead
      split at hHead
      · rename_i hSmall
        have hAll :
            ∀ d : Fin 10,
              some (Nat.digitChar d) = some '0' → d.val = 0 := by
          decide
        exact hAll ⟨n, hSmall⟩ hHead
      · rename_i hLarge
        rw [List.head?_append,
          List.head?_eq_some_head Nat.toDigits_ne_nil,
          Option.some_or, ← List.head?_eq_some_head] at hHead
        have hTenth := ih (n / 10) (by omega) hHead
        omega

theorem wholeDigits_toDigits
    (n : Nat) :
    WholeDigits (Nat.toDigits 10 n) where
  nonempty := Nat.toDigits_ne_nil
  digit := fun _ hMem => isDigit_of_mem_toDigits hMem
  alone := by
    intro hHead
    rw [eq_zero_of_head?_toDigits n hHead]
    rfl

/- The digits of a natural have its value. -/
theorem ofDigits_toDigits
    (n : Nat) :
    ofDigits ((Nat.toDigits 10 n).map digitValue) = n := by
  have hDigit :
      ∀ d : Fin 10, digitValue (Nat.digitChar d) = d.val := by
    decide
  induction n using Nat.strongRecOn with
  | ind n ih =>
      rw [Nat.toDigits_eq_if (by decide)]
      split
      · rename_i hSmall
        simp only [List.map_cons, List.map_nil, ofDigits,
          List.foldl_cons, List.foldl_nil]
        have hValue := hDigit ⟨n, hSmall⟩
        simp only at hValue
        omega
      · have hTenth := ih (n / 10) (by omega)
        unfold ofDigits at hTenth ⊢
        rw [List.map_append, List.foldl_append, hTenth]
        simp only [List.map_cons, List.map_nil,
          List.foldl_cons, List.foldl_nil]
        have hValue := hDigit ⟨n % 10, by omega⟩
        simp only at hValue
        omega

/- Digits only make a significand greater. -/
theorem le_foldl_digits
    (digits : List Nat)
    (n : Nat) :
    n ≤ digits.foldl (fun n digit => n * 10 + digit) n := by
  induction digits generalizing n with
  | nil => exact Nat.le_refl n
  | cons d digits ih =>
      have hNext := ih (n * 10 + d)
      rw [List.foldl_cons]
      omega

/- Digits whose value fits are all kept. -/
theorem appendDigits_eq
    (digits : List Nat)
    (n : Nat)
    (hFits :
      digits.foldl (fun n digit => n * 10 + digit) n
        ≤ greatestWord) :
    appendDigits n digits
      = (digits.foldl (fun n digit => n * 10 + digit) n, 0) := by
  induction digits generalizing n with
  | nil => rfl
  | cons d digits ih =>
      rw [List.foldl_cons] at hFits ⊢
      have hStep := le_foldl_digits digits (n * 10 + d)
      rw [appendDigits, if_pos (Nat.le_trans hStep hFits)]
      exact ih _ hFits

------------------------------------------------------------
-- Integers
------------------------------------------------------------

/- The literal of a natural. -/
theorem readLiteral_toDigits
    (negative : Bool)
    (n : Nat)
    {rest : List Char}
    (hRest : Delimited rest) :
    readLiteral negative (Nat.toDigits 10 n ++ rest)
      = .ok
        ({ negative
           whole := (Nat.toDigits 10 n).map digitValue
           fraction := []
           exponent := none
           pointed := false }, rest) :=
  readLiteral_append negative (wholeDigits_toDigits n)
    hRest.noDigit (readFraction_of_delimited hRest)
    (readExponent_of_delimited hRest)

/- A natural that fits is read as itself. -/
theorem readNumber_toDigits
    (negative : Bool)
    {n : Nat}
    {number : Number}
    {rest : List Char}
    (hRest : Delimited rest)
    (hFits : n ≤ greatestWord)
    (hNumber : wholeNumber? negative n = some number) :
    readNumber negative (Nat.toDigits 10 n ++ rest)
      = .ok (number, rest) := by
  have hKept :
      appendDigits 0 ((Nat.toDigits 10 n).map digitValue)
        = (n, 0) := by
    have hValue := ofDigits_toDigits n
    unfold ofDigits at hValue
    rw [appendDigits_eq _ _ (by rw [hValue]; exact hFits),
      hValue]
  simp only [readNumber, bind, Except.bind,
    readLiteral_toDigits negative n hRest, Literal.number?,
    hKept]
  simp [hNumber]

/- The range of the integers that are kept. -/
def InIntegerRange
    (value : Int) : Prop :=
  -(twoTo 63 : Int) ≤ value ∧ value ≤ greatestWord

/-
  The text of an integer of the kept range is read as the
  integer, after its sign.
-/
theorem readNumber_integerText
    {value : Int}
    (hRange : InIntegerRange value) :
    (0 ≤ value
        ∧ integerText value = Nat.toDigits 10 value.toNat
        ∧ ∀ rest,
          Delimited rest →
            readNumber false
                (Nat.toDigits 10 value.toNat ++ rest)
              = .ok (.integer value, rest))
      ∨ (integerText value
          = '-' :: Nat.toDigits 10 value.natAbs
        ∧ ∀ rest,
          Delimited rest →
            readNumber true
                (Nat.toDigits 10 value.natAbs ++ rest)
              = .ok (.integer value, rest)) := by
  rcases hRange with ⟨hLow, hHigh⟩
  by_cases hSign : value < 0
  · right
    refine ⟨by rw [integerText, if_pos hSign], ?_⟩
    intro rest hRest
    have hGreatest : twoTo 63 ≤ greatestWord := by decide
    apply readNumber_toDigits true hRest (by omega)
    rw [wholeNumber?, if_pos rfl, if_neg (by omega)]
    congr 2
    omega
  · left
    have hAbs : value.natAbs = value.toNat := by omega
    refine ⟨by omega, ?_, ?_⟩
    · rw [integerText, if_neg hSign, hAbs]
    · intro rest hRest
      apply readNumber_toDigits false hRest (by omega)
      simp only [wholeNumber?, Bool.false_eq_true, if_false]
      congr 2
      omega

end JourneyMatch
