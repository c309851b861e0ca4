import JourneyMatch.Proofs.Json.Accepted

/-
  This file says that a number and a text between quotes are
  tokens: a reader takes them from the front of what it is
  given, and takes the same from that front whatever follows,
  as long as it cannot belong to a number.

  Key definitions include:
    * `TakesFront`
    * `Stops`

  Main statements:
    * `takesFront_readNumber`
    * `Quoted.takesFront_read`
-/

namespace JourneyMatch

------------------------------------------------------------
-- Readers of tokens
------------------------------------------------------------

/-
  Whether a reader takes what it gives from the front of a
  text, and takes the same from that front in front of every
  other text of the given kind.
-/
def TakesFront
    {α : Type}
    (ends : List Char → Prop)
    (reader : Reader α) : Prop :=
  ∀ cs x rest,
    reader cs = .ok (x, rest) →
      ∃ front,
        cs = front ++ rest
          ∧ ∀ more,
            ends more →
              reader (front ++ more) = .ok (x, more)

/- What is read to its end is read so in front of a text. -/
theorem TakesFront.of_alone
    {α : Type}
    {ends : List Char → Prop}
    {reader : Reader α}
    {text : List Char}
    {x : α}
    (hTakes : TakesFront ends reader)
    (hAlone : reader text = .ok (x, []))
    {more : List Char}
    (hMore : ends more) :
    reader (text ++ more) = .ok (x, more) := by
  rcases hTakes text x [] hAlone with ⟨front, hFront, hRead⟩
  rw [List.append_nil] at hFront
  rw [hFront]
  exact hRead more hMore

------------------------------------------------------------
-- Numbers
------------------------------------------------------------

/- A text that does not go on with a digit or a point. -/
def EndsFraction
    (rest : List Char) : Prop :=
  ∀ c ∈ rest.head?, isDigit c = false ∧ c ≠ '.'

/- A text that does not go on with a part of a number. -/
def Stops
    (rest : List Char) : Prop :=
  ∀ c ∈ rest.head?,
    isDigit c = false ∧ c ≠ '.' ∧ c ≠ 'e' ∧ c ≠ 'E'

theorem Stops.nil :
    Stops [] := by
  intro c hHead
  cases hHead

theorem Stops.noDigit
    {rest : List Char}
    (hRest : Stops rest) :
    NoDigit rest :=
  fun c hHead => (hRest c hHead).1

theorem Stops.endsFraction
    {rest : List Char}
    (hRest : Stops rest) :
    EndsFraction rest :=
  fun c hHead => ⟨(hRest c hHead).1, (hRest c hHead).2.1⟩

/- Digits that are read stand in front of the rest. -/
theorem exists_of_readSomeDigits
    {cs rest : List Char}
    {values : List Nat}
    (hRead : readSomeDigits cs = .ok (values, rest)) :
    ∃ digits,
      cs = digits ++ rest
        ∧ digits ≠ []
        ∧ (∀ c ∈ digits, isDigit c = true)
        ∧ values = digits.map digitValue := by
  cases cs with
  | nil => cases hRead
  | cons c cs =>
      unfold readSomeDigits at hRead
      simp only at hRead
      split at hRead
      · rename_i hDigit
        cases hRead
        refine ⟨(c :: cs).takeWhile isDigit,
          List.takeWhile_append_dropWhile.symm, ?_, ?_, rfl⟩
        · simp [hDigit]
        · intro d hMem
          exact List.all_eq_true.mp List.all_takeWhile d hMem
      · cases hRead

theorem exists_of_readWhole
    {cs rest : List Char}
    {values : List Nat}
    (hRead : readWhole cs = .ok (values, rest)) :
    ∃ digits,
      cs = digits ++ rest
        ∧ WholeDigits digits
        ∧ values = digits.map digitValue := by
  rcases Except.exists_of_bind_eq_ok hRead with
    ⟨⟨found, others⟩, hDigits, hRest⟩
  rcases exists_of_readSomeDigits hDigits with
    ⟨digits, hFront, hSome, hAll, hValues⟩
  simp only at hRest
  split at hRest
  · cases hRest
  · rename_i hAlone
    cases hRest
    refine ⟨digits, hFront, ⟨hSome, hAll, ?_⟩, hValues⟩
    -- A zero with a digit after it would have been refused.
    intro hZero
    cases digits with
    | nil => cases hZero
    | cons c digits =>
        cases hZero
        cases digits with
        | nil => rfl
        | cons d digits =>
            exact absurd hValues (hAlone (digitValue d) _)

theorem exists_of_readFraction
    {cs rest : List Char}
    {fraction : Option (List Nat)}
    (hRead : readFraction cs = .ok (fraction, rest)) :
    ∃ front,
      cs = front ++ rest
        ∧ ∀ more,
          EndsFraction more →
            NoDigit (front ++ more)
              ∧ readFraction (front ++ more)
                = .ok (fraction, more) := by
  unfold readFraction at hRead
  split at hRead
  · rename_i cs
    rcases Except.exists_of_bind_eq_ok hRead with
      ⟨⟨values, others⟩, hDigits, hEnd⟩
    cases hEnd
    rcases exists_of_readSomeDigits hDigits with
      ⟨digits, hFront, hSome, hAll, hValues⟩
    refine ⟨'.' :: digits, by rw [hFront]; rfl, ?_⟩
    intro more hMore
    constructor
    · intro c hHead
      cases hHead
      rfl
    · rw [hValues]
      exact readFraction_point hSome hAll
        fun c hHead => (hMore c hHead).1
  · cases hRead
    refine ⟨[], rfl, ?_⟩
    intro more hMore
    refine ⟨fun c hHead => (hMore c hHead).1, ?_⟩
    rw [List.nil_append]
    unfold readFraction
    split
    · exact absurd rfl (hMore '.' rfl).2
    · rfl

theorem takesFront_readExponentDigits :
    TakesFront NoDigit readExponentDigits := by
  intro cs exponent rest hRead
  unfold readExponentDigits at hRead
  split at hRead
  all_goals
    rcases Except.exists_of_bind_eq_ok hRead with
      ⟨⟨values, others⟩, hDigits, hEnd⟩
    cases hEnd
    rcases exists_of_readSomeDigits hDigits with
      ⟨digits, hFront, hSome, hAll, hValues⟩
  · refine ⟨'-' :: digits, by rw [hFront]; rfl, ?_⟩
    intro more hMore
    simp only [List.cons_append, readExponentDigits, bind,
      Except.bind, readSomeDigits_append hSome hAll hMore,
      hValues]
  · refine ⟨'+' :: digits, by rw [hFront]; rfl, ?_⟩
    intro more hMore
    simp only [List.cons_append, readExponentDigits, bind,
      Except.bind, readSomeDigits_append hSome hAll hMore,
      hValues]
  · refine ⟨digits, hFront, ?_⟩
    intro more hMore
    -- Digits alone do not begin with a sign.
    cases digits with
    | nil => exact absurd rfl hSome
    | cons c digits =>
        have hDigit := hAll c List.mem_cons_self
        unfold readExponentDigits
        split
        · rename_i hCase
          cases hCase
          cases hDigit
        · rename_i hCase
          cases hCase
          cases hDigit
        · simp only [bind, Except.bind,
            readSomeDigits_append hSome hAll hMore, hValues]

theorem exists_of_readExponent
    {cs rest : List Char}
    {exponent : Option Int}
    (hRead : readExponent cs = .ok (exponent, rest)) :
    ∃ front,
      cs = front ++ rest
        ∧ ∀ more,
          Stops more →
            EndsFraction (front ++ more)
              ∧ readExponent (front ++ more)
                = .ok (exponent, more) := by
  unfold readExponent at hRead
  split at hRead
  · rcases Except.exists_of_bind_eq_ok hRead with
      ⟨⟨value, others⟩, hDigits, hEnd⟩
    cases hEnd
    rcases takesFront_readExponentDigits _ _ _ hDigits with
      ⟨front, hFront, hTakes⟩
    refine ⟨'e' :: front, by rw [hFront]; rfl, ?_⟩
    intro more hMore
    constructor
    · intro c hHead
      cases hHead
      exact ⟨rfl, by decide⟩
    · simp only [List.cons_append, readExponent, bind,
        Except.bind, hTakes more hMore.noDigit]
  · rcases Except.exists_of_bind_eq_ok hRead with
      ⟨⟨value, others⟩, hDigits, hEnd⟩
    cases hEnd
    rcases takesFront_readExponentDigits _ _ _ hDigits with
      ⟨front, hFront, hTakes⟩
    refine ⟨'E' :: front, by rw [hFront]; rfl, ?_⟩
    intro more hMore
    constructor
    · intro c hHead
      cases hHead
      exact ⟨rfl, by decide⟩
    · simp only [List.cons_append, readExponent, bind,
        Except.bind, hTakes more hMore.noDigit]
  · cases hRead
    refine ⟨[], rfl, ?_⟩
    intro more hMore
    refine ⟨hMore.endsFraction, ?_⟩
    rw [List.nil_append]
    unfold readExponent
    split
    · exact absurd rfl (hMore 'e' rfl).2.2.1
    · exact absurd rfl (hMore 'E' rfl).2.2.2
    · rfl

/- A literal is taken from the front, part by part. -/
theorem takesFront_readLiteral
    (negative : Bool) :
    TakesFront Stops (readLiteral negative) := by
  intro cs literal rest hRead
  rcases Except.exists_of_bind_eq_ok hRead with
    ⟨⟨whole, afterWhole⟩, hWhole, hMore⟩
  rcases Except.exists_of_bind_eq_ok hMore with
    ⟨⟨fraction, afterFraction⟩, hFraction, hLast⟩
  rcases Except.exists_of_bind_eq_ok hLast with
    ⟨⟨exponent, afterExponent⟩, hExponent, hEnd⟩
  cases hEnd
  rcases exists_of_readWhole hWhole with
    ⟨digits, hDigits, hGood, hValues⟩
  rcases exists_of_readFraction hFraction with
    ⟨point, hPoint, hPointTakes⟩
  rcases exists_of_readExponent hExponent with
    ⟨mark, hMark, hMarkTakes⟩
  refine ⟨digits ++ (point ++ mark), ?_, ?_⟩
  · rw [hDigits, hPoint, hMark]
    simp only [List.append_assoc]
  · intro more hStops
    rcases hMarkTakes more hStops with ⟨hEnds, hReadMark⟩
    rcases hPointTakes _ hEnds with ⟨hNoDigit, hReadPoint⟩
    rw [List.append_assoc, List.append_assoc,
      readLiteral_append negative hGood hNoDigit hReadPoint
        hReadMark, hValues]

/- A number is taken from the front. -/
theorem takesFront_readNumber
    (negative : Bool) :
    TakesFront Stops (readNumber negative) := by
  intro cs n rest hRead
  rcases Except.exists_of_bind_eq_ok hRead with
    ⟨⟨literal, others⟩, hLiteral, hNumber⟩
  rcases takesFront_readLiteral negative _ _ _ hLiteral with
    ⟨front, hFront, hTakes⟩
  simp only at hNumber
  cases hValue : literal.number? with
  | none => simp [hValue] at hNumber
  | some number =>
      simp only [hValue] at hNumber
      cases hNumber
      refine ⟨front, hFront, ?_⟩
      intro more hStops
      simp only [readNumber, hTakes more hStops, bind,
        Except.bind, hValue]

/- A number that is read begins with a digit. -/
theorem exists_digit_of_readNumber
    {negative : Bool}
    {cs rest : List Char}
    {n : Number}
    (hRead : readNumber negative cs = .ok (n, rest)) :
    ∃ c tail, cs = c :: tail ∧ isDigit c = true := by
  rcases Except.exists_of_bind_eq_ok hRead with
    ⟨⟨literal, others⟩, hLiteral, -⟩
  rcases Except.exists_of_bind_eq_ok hLiteral with
    ⟨⟨whole, afterWhole⟩, hWhole, -⟩
  rcases exists_of_readWhole hWhole with
    ⟨digits, hDigits, hGood, -⟩
  cases digits with
  | nil => exact absurd rfl hGood.nonempty
  | cons c digits =>
      exact ⟨c, digits ++ afterWhole, hDigits,
        hGood.digit c List.mem_cons_self⟩

------------------------------------------------------------
-- Words and texts between quotes
------------------------------------------------------------

/- A word that is read stands in front of the rest. -/
theorem eq_of_readWord
    {word cs rest : List Char}
    (hRead : readWord word cs = .ok ((), rest)) :
    cs = word ++ rest := by
  induction word generalizing cs with
  | nil =>
      cases hRead
      rfl
  | cons w word ih =>
      cases cs with
      | nil => cases hRead
      | cons c cs =>
          rw [readWord] at hRead
          split at hRead
          · rename_i hSame
            rw [hSame, ih hRead]
            rfl
          · cases hRead

namespace Quoted

/- Anything may follow a text between quotes. -/
abbrev Anything
    (_ : List Char) : Prop :=
  True

theorem takesFront_readHex :
    TakesFront Anything readHex := by
  intro cs value rest hRead
  unfold readHex at hRead
  split at hRead
  · rename_i a b c d others
    split at hRead
    · rename_i hA hB hC hD
      cases hRead
      refine ⟨[a, b, c, d], rfl, ?_⟩
      intro more _
      simp only [List.cons_append, List.nil_append, readHex, hA,
        hB, hC, hD]
    · cases hRead
  · split at hRead <;> cases hRead

theorem takesFront_readSurrogate
    (unit : Nat) :
    TakesFront Anything (readSurrogate unit) := by
  intro cs c rest hRead
  unfold readSurrogate at hRead
  split at hRead
  · cases hRead
  · rename_i hLow
    split at hRead
    · rename_i hPlain
      cases hRead
      refine ⟨[], rfl, ?_⟩
      intro more _
      rw [List.nil_append]
      unfold readSurrogate
      rw [if_neg hLow, if_pos hPlain]
    · rename_i hHigh
      split at hRead
      · cases hRead
      · cases hRead
      · rename_i others
        rcases Except.exists_of_bind_eq_ok hRead with
          ⟨⟨low, after⟩, hHex, hEnd⟩
        rcases takesFront_readHex _ _ _ hHex with
          ⟨front, hFront, hTakes⟩
        simp only at hEnd
        split at hEnd
        · cases hEnd
        · rename_i hTrail
          simp only [Except.ok.injEq, Prod.mk.injEq] at hEnd
          rcases hEnd with ⟨hChar, hRest⟩
          subst hChar hRest
          refine ⟨'\\' :: 'u' :: front, by rw [hFront]; rfl, ?_⟩
          intro more hMore
          unfold readSurrogate
          rw [if_neg hLow, if_neg hHigh]
          simp only [List.cons_append, hTakes more hMore, bind,
            Except.bind]
          rw [if_neg hTrail]
      · cases hRead

theorem takesFront_readEscape :
    TakesFront Anything readEscape := by
  intro cs c rest hRead
  unfold readEscape at hRead
  split at hRead
  · cases hRead
  · rename_i others
    rcases Except.exists_of_bind_eq_ok hRead with
      ⟨⟨unit, after⟩, hHex, hUnit⟩
    rcases takesFront_readHex _ _ _ hHex with
      ⟨digits, hDigits, hDigitsTake⟩
    rcases takesFront_readSurrogate unit _ _ _ hUnit with
      ⟨pair, hPair, hPairTakes⟩
    refine ⟨'u' :: (digits ++ pair), ?_, ?_⟩
    · rw [hDigits, hPair]
      simp only [List.cons_append, List.append_assoc]
    · intro more hMore
      simp only [List.cons_append, List.append_assoc, readEscape,
        hDigitsTake _ trivial, hPairTakes more hMore, bind,
        Except.bind]
  · rename_i d others hMark
    cases hShort : shortEscape? d with
    | none => simp [hShort] at hRead
    | some e =>
        simp only [hShort] at hRead
        cases hRead
        refine ⟨[d], rfl, ?_⟩
        intro more _
        rw [List.singleton_append, readEscape]
        · simp only [hShort]
        · exact hMark

/- The characters up to the quote are taken from the front. -/
theorem exists_of_readUpTo
    {fuel : Nat}
    {cs text rest : List Char}
    (hRead : readUpTo fuel cs = .ok (text, rest)) :
    ∃ front,
      cs = front ++ rest
        ∧ ∀ more fuel,
          front.length ≤ fuel →
            readUpTo fuel (front ++ more) = .ok (text, more) := by
  induction fuel generalizing cs text with
  | zero => cases hRead
  | succ fuel ih =>
      unfold readUpTo at hRead
      split at hRead
      · cases hRead
      · cases hRead
      · cases hRead
        refine ⟨['"'], rfl, ?_⟩
        intro more fuel hFuel
        obtain ⟨fuel, rfl⟩ :=
          Nat.exists_eq_succ_of_ne_zero
            (Nat.ne_zero_of_lt (Nat.lt_of_succ_le hFuel))
        rfl
      · rename_i others hSame
        cases hSame
        rcases Except.exists_of_bind_eq_ok hRead with
          ⟨⟨c, after⟩, hEscape, hMore⟩
        rcases Except.exists_of_bind_eq_ok hMore with
          ⟨⟨chars, last⟩, hChars, hEnd⟩
        cases hEnd
        rcases takesFront_readEscape _ _ _ hEscape with
          ⟨mark, hMark, hMarkTakes⟩
        rcases ih hChars with ⟨front, hFront, hTakes⟩
        refine ⟨'\\' :: (mark ++ front), ?_, ?_⟩
        · rw [hMark, hFront]
          simp only [List.cons_append, List.append_assoc]
        · intro more fuel hFuel
          rw [List.length_cons, List.length_append] at hFuel
          obtain ⟨fuel, rfl⟩ :=
            Nat.exists_eq_succ_of_ne_zero
              (Nat.ne_zero_of_lt (Nat.lt_of_succ_le hFuel))
          simp only [List.cons_append, List.append_assoc,
            readUpTo, hMarkTakes _ trivial,
            hTakes more fuel (by omega), bind, Except.bind]
      · rename_i c others hQuote hSlash hSame
        cases hSame
        split at hRead
        · cases hRead
        · rename_i hPlain
          rcases Except.exists_of_bind_eq_ok hRead with
            ⟨⟨chars, last⟩, hChars, hEnd⟩
          cases hEnd
          rcases ih hChars with ⟨front, hFront, hTakes⟩
          refine ⟨c :: front, by rw [hFront]; rfl, ?_⟩
          intro more fuel hFuel
          rw [List.length_cons] at hFuel
          obtain ⟨fuel, rfl⟩ :=
            Nat.exists_eq_succ_of_ne_zero
              (Nat.ne_zero_of_lt (Nat.lt_of_succ_le hFuel))
          rw [List.cons_append, readUpTo]
          · simp only [hPlain, if_false,
              hTakes more fuel (by omega), bind, Except.bind]
          · exact hQuote
          · exact hSlash

/- A text between quotes is taken from the front. -/
theorem takesFront_read :
    TakesFront Anything read := by
  intro cs text rest hRead
  rcases Except.exists_of_bind_eq_ok hRead with
    ⟨⟨chars, others⟩, hChars, hEnd⟩
  cases hEnd
  rcases exists_of_readUpTo hChars with
    ⟨front, hFront, hTakes⟩
  refine ⟨front, hFront, ?_⟩
  intro more _
  have hFuel :
      front.length ≤ (front ++ more).length + 1 := by
    rw [List.length_append]
    omega
  simp only [read, hTakes more _ hFuel, bind, Except.bind]

end Quoted

end JourneyMatch
