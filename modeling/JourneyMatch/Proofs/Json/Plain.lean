import JourneyMatch.Proofs.Json.Printed

/-
  This file shows that printing leaves no control character
  in a text. Between quotes they are escaped, and everything
  that stands outside of quotes is a sign, a digit or a
  letter. So a printed value has no line break in it, however
  deep the texts are in which there is one.

  Key definitions include:
    * `Plain`

  Main statements:
    * `Quoted.plain_write`
    * `Number.plain_text`
    * `Json.plain_write`
-/

namespace JourneyMatch

/- Whether there is no control character in a text. -/
def Plain
    (cs : List Char) : Prop :=
  ∀ c ∈ cs, 0x20 ≤ c.toNat

instance :
    DecidablePred Plain :=
  List.decidableBAll fun c : Char => 0x20 ≤ c.toNat

namespace Plain

@[simp]
theorem nil :
    Plain [] :=
  nofun

@[simp]
theorem cons_iff
    {c : Char}
    {cs : List Char} :
    Plain (c :: cs) ↔ 0x20 ≤ c.toNat ∧ Plain cs :=
  List.forall_mem_cons

@[simp]
theorem append_iff
    {front back : List Char} :
    Plain (front ++ back) ↔ Plain front ∧ Plain back :=
  List.forall_mem_append

/- A plain text has no line break in it. -/
theorem newline_notMem
    {cs : List Char}
    (hPlain : Plain cs) :
    '\n' ∉ cs := by
  intro hMem
  exact absurd (hPlain '\n' hMem) (by decide)

end Plain

------------------------------------------------------------
-- Texts between quotes
------------------------------------------------------------

namespace Quoted

theorem plain_encodeChar
    (c : Char) :
    Plain (encodeChar c) := by
  have hDigit :
      ∀ d : Fin 16, 0x20 ≤ (Nat.digitChar d).toNat := by
    decide
  have hHex : ∀ n, 0x20 ≤ (hexDigit n).toNat := fun n =>
    hDigit ⟨n % 16, Nat.mod_lt n (by decide)⟩
  unfold encodeChar
  -- The seven short escapes are fixed texts.
  iterate 7
    split
    · decide
  split
  · simp only [Plain.cons_iff, hHex, Plain.nil, and_true]
    decide
  · rename_i hControl
    exact Plain.cons_iff.mpr ⟨Nat.le_of_not_lt hControl, Plain.nil⟩

theorem plain_encode
    (cs : List Char) :
    Plain (encode cs) := by
  intro c hMem
  rcases List.mem_flatMap.mp hMem with ⟨d, -, hEncoded⟩
  exact plain_encodeChar d c hEncoded

/- Whatever a text holds, it is plain between its quotes. -/
theorem plain_write
    (s : String) :
    Plain (write s) := by
  rw [write, Plain.cons_iff, Plain.append_iff]
  exact ⟨by decide, plain_encode s.toList, by decide⟩

end Quoted

------------------------------------------------------------
-- Numbers
------------------------------------------------------------

theorem plain_toDigits
    (n : Nat) :
    Plain (Nat.toDigits 10 n) := by
  intro c hMem
  have hDigit := isDigit_of_mem_toDigits hMem
  simp only [isDigit, Bool.and_eq_true, decide_eq_true_eq,
    Char.le_def, UInt32.le_iff_toNat_le] at hDigit
  have hZero : '0'.val.toNat = 48 := rfl
  have hNumber : c.toNat = c.val.toNat := rfl
  omega

theorem plain_integerText
    (value : Int) :
    Plain (integerText value) := by
  unfold integerText
  split
  · exact Plain.cons_iff.mpr ⟨by decide, plain_toDigits _⟩
  · exact plain_toDigits _

theorem Decimal.plain_layout
    (d : Decimal) :
    Plain d.layout := by
  have hDigits := plain_toDigits d.digits
  have hZeros : ∀ n, Plain (List.replicate n '0') := by
    intro n c hMem
    rw [List.eq_of_mem_replicate hMem]
    decide
  unfold layout
  simp only []
  generalize Nat.toDigits 10 d.digits = digits at hDigits ⊢
  split
  · -- with an exponent, which has its own digits and sign
    have hSign :
        ∀ value : Int,
          0x20 ≤ (if value < 0 then '-' else '+').toNat := by
      intro value
      split <;> decide
    cases digits with
    | nil => exact Plain.nil
    | cons first others =>
        rw [Plain.cons_iff] at hDigits
        cases others with
        | nil =>
            simp only [Plain.cons_iff, hDigits.1, hSign,
              plain_toDigits, and_true, true_and]
            decide
        | cons second others =>
            simp only [List.cons_append, Plain.cons_iff,
              Plain.append_iff] at hDigits ⊢
            simp only [hDigits, hSign, plain_toDigits, and_true,
              true_and]
            decide
  · split
    · -- below one
      simp only [Plain.cons_iff, Plain.append_iff, hZeros,
        hDigits, and_true]
      decide
    · split
      · -- a whole number
        simp only [Plain.append_iff, hZeros, hDigits, and_true,
          true_and]
        decide
      · -- with a point between its digits
        rw [Plain.append_iff, Plain.cons_iff]
        exact
          ⟨fun c hMem => hDigits c (List.mem_of_mem_take hMem),
            by decide,
            fun c hMem => hDigits c (List.mem_of_mem_drop hMem)⟩

theorem Binary64.plain_text
    (x : Binary64) :
    Plain x.text := by
  have hMagnitude :
      Plain
        (if x.bits = 0 then
          ['0', '.', '0']
        else
          (Binary64.shortest x.bits).layout) := by
    split
    · decide
    · exact Decimal.plain_layout _
  unfold text
  simp only []
  split
  · exact Plain.cons_iff.mpr ⟨by decide, hMagnitude⟩
  · exact hMagnitude

theorem Number.plain_text
    (n : Number) :
    Plain n.text := by
  cases n with
  | integer value => exact plain_integerText value
  | double value => exact value.plain_text

------------------------------------------------------------
-- Arrays and objects
------------------------------------------------------------

theorem plain_joinCommas
    {parts : List (List Char)}
    (hParts : ∀ part ∈ parts, Plain part) :
    Plain (joinCommas parts) := by
  cases parts with
  | nil => exact Plain.nil
  | cons part parts =>
      rw [List.forall_mem_cons] at hParts
      rw [joinCommas_cons, Plain.append_iff]
      refine ⟨hParts.1, ?_⟩
      intro c hMem
      rcases List.mem_flatMap.mp hMem with ⟨next, hIn, hChar⟩
      have hNext : Plain (',' :: next) :=
        Plain.cons_iff.mpr ⟨by decide, hParts.2 next hIn⟩
      exact hNext c hChar

theorem plain_bracketed
    {parts : List (List Char)}
    (hParts : ∀ part ∈ parts, Plain part) :
    Plain (bracketed parts) := by
  rw [bracketed, Plain.cons_iff, Plain.append_iff]
  exact ⟨by decide, plain_joinCommas hParts, by decide⟩

theorem plain_braced
    {parts : List (List Char)}
    (hParts : ∀ part ∈ parts, Plain part) :
    Plain (braced parts) := by
  rw [braced, Plain.cons_iff, Plain.append_iff]
  exact ⟨by decide, plain_joinCommas hParts, by decide⟩

theorem plain_keyed
    {value : List Char}
    (key : String)
    (hValue : Plain value) :
    Plain (keyed key value) := by
  rw [keyed, Plain.append_iff, Plain.cons_iff]
  exact ⟨Quoted.plain_write key, by decide, hValue⟩

------------------------------------------------------------
-- Values
------------------------------------------------------------

namespace Json

mutual

/- A printed value is plain. -/
theorem plain_write :
    (j : Json) →
    Plain j.write
  | .null => by
      rw [write]
      decide
  | .bool value => by
      rw [write]
      cases value <;> decide
  | .number value => by
      rw [write]
      exact value.plain_text
  | .string value => by
      rw [write]
      exact Quoted.plain_write value
  | .array items => by
      rw [write]
      exact plain_bracketed (plain_writeItems items)
  | .object members => by
      rw [write]
      exact plain_braced (plain_writeMembers members)

theorem plain_writeItems :
    (items : List Json) →
    ∀ part ∈ writeItems items, Plain part
  | [] => nofun
  | item :: rest => by
      rw [writeItems, List.forall_mem_cons]
      exact ⟨plain_write item, plain_writeItems rest⟩

theorem plain_writeMembers :
    (members : List (String × Json)) →
    ∀ part ∈ writeMembers members, Plain part
  | [] => nofun
  | (name, value) :: rest => by
      rw [writeMembers, List.forall_mem_cons]
      exact
        ⟨plain_keyed name (plain_write value),
          plain_writeMembers rest⟩

end

end Json

end JourneyMatch
