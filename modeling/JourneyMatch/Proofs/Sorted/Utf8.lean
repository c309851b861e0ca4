import Mathlib.Data.UInt

/-
  This file shows that texts sort as their bytes do. Of two
  characters the lesser has the lesser encoding, whatever
  stands behind them, so that the place at which two texts
  first differ is also where their bytes do. For the same
  reason a text begins with another one exactly if its bytes
  begin with the bytes of that one.

  Key definitions include:
    * `utf8`

  Main statements:
    * `encodeChar_append_lt`
    * `utf8_lt_iff`
    * `utf8_isPrefix_iff`
-/

namespace JourneyMatch

/- The bytes of a text in UTF-8. -/
def utf8
    (text : String) : List UInt8 :=
  text.toUTF8.data.toList

theorem utf8_eq_flatMap
    (text : String) :
    utf8 text = text.toList.flatMap String.utf8EncodeChar := by
  have hChars : utf8 (String.ofList text.toList)
      = text.toList.flatMap String.utf8EncodeChar := by
    rw [utf8, String.toUTF8_eq_toByteArray,
      String.toByteArray_ofList, List.utf8Encode,
      List.data_toByteArray]
  rwa [String.ofList_toList] at hChars

theorem utf8_append
    (first second : String) :
    utf8 (first ++ second) = utf8 first ++ utf8 second := by
  simp only [utf8_eq_flatMap, String.toList_append,
    List.flatMap_append]

/- Bytes are compared as their numbers are. -/
theorem ofNat_cons_lt_iff
    {m n : Nat}
    (hFirst : m < 256)
    (hSecond : n < 256)
    {xs ys : List UInt8} :
    UInt8.ofNat m :: xs < UInt8.ofNat n :: ys
      ↔ m < n ∨ m = n ∧ xs < ys := by
  rw [List.cons_lt_cons_iff, UInt8.lt_iff_toNat_lt,
    ← UInt8.toNat_inj, UInt8.toNat_ofNat', UInt8.toNat_ofNat',
    Nat.mod_eq_of_lt hFirst, Nat.mod_eq_of_lt hSecond]

/-
  The first byte in which the encodings of two characters
  differ decides, since a longer encoding begins with a
  greater byte.
-/
theorem encodeChar_append_lt
    {c d : Char}
    (hLess : c < d)
    (first second : List UInt8) :
    String.utf8EncodeChar c ++ first
      < String.utf8EncodeChar d ++ second := by
  have hNumbers : c.val.toNat < d.val.toNat := by
    exact UInt32.lt_iff_toNat_lt.mp (Char.lt_def.mp hLess)
  have hLast : d.val.toNat < 1114112 := by
    rcases d.valid with hLow | ⟨-, hHigh⟩ <;> omega
  unfold String.utf8EncodeChar
  dsimp only
  generalize c.val.toNat = m at hNumbers
  generalize d.val.toNat = n at hNumbers hLast
  -- The greatest place has no digits above it.
  split_ifs <;>
    simp (disch := omega) only [List.cons_append,
      ofNat_cons_lt_iff, Nat.mod_eq_of_lt] <;>
    omega

/- Of two texts the lesser has the lesser bytes. -/
theorem flatMap_encodeChar_lt
    {xs ys : List Char}
    (hLess : xs < ys) :
    xs.flatMap String.utf8EncodeChar
      < ys.flatMap String.utf8EncodeChar := by
  induction hLess with
  | @nil d ys =>
      rw [List.flatMap_nil, List.flatMap_cons]
      cases hBytes : String.utf8EncodeChar d with
      | nil => exact absurd hBytes String.utf8EncodeChar_ne_nil
      | cons => exact List.nil_lt_cons _ _
  | rel hLess =>
      rw [List.flatMap_cons, List.flatMap_cons]
      exact encodeChar_append_lt hLess _ _
  | cons _ ih =>
      rw [List.flatMap_cons, List.flatMap_cons]
      exact List.append_left_lt ih

/- Texts sort as their bytes. -/
theorem utf8_lt_iff
    {first second : String} :
    utf8 first < utf8 second ↔ first < second := by
  have hLess :
      ∀ {a b : String}, a < b → utf8 a < utf8 b := by
    intro a b hText
    rw [utf8_eq_flatMap, utf8_eq_flatMap]
    exact flatMap_encodeChar_lt (String.lt_iff.mp hText)
  refine ⟨fun hBytes => ?_, hLess⟩
  by_contra hNot
  by_cases hOther : second < first
  · exact List.lt_asymm hBytes (hLess hOther)
  · have hSame : first = second :=
      String.le_antisymm (String.not_lt.mp hOther)
        (String.not_lt.mp hNot)
    rw [hSame] at hBytes
    exact List.lt_irrefl _ hBytes

/- Characters begin as their bytes do. -/
theorem isPrefix_of_flatMap_encodeChar
    {xs ys : List Char}
    (hBytes :
      xs.flatMap String.utf8EncodeChar
        <+: ys.flatMap String.utf8EncodeChar) :
    xs <+: ys := by
  induction xs generalizing ys with
  | nil => exact List.nil_prefix
  | cons c xs ih =>
      rcases hBytes with ⟨rest, hText⟩
      rw [List.flatMap_cons, List.append_assoc] at hText
      cases ys with
      | nil =>
          exact absurd (List.append_eq_nil_iff.mp hText).1
            String.utf8EncodeChar_ne_nil
      | cons d ys =>
          rw [List.flatMap_cons] at hText
          rcases Std.lt_trichotomy c d with hLess | hSame | hMore
          · have hBefore := encodeChar_append_lt hLess
              (xs.flatMap String.utf8EncodeChar ++ rest)
              (ys.flatMap String.utf8EncodeChar)
            rw [hText] at hBefore
            exact absurd hBefore (List.lt_irrefl _)
          · subst hSame
            have hTail := List.append_cancel_left hText
            exact
              List.cons_prefix_cons.mpr ⟨rfl, ih ⟨rest, hTail⟩⟩
          · have hBehind := encodeChar_append_lt hMore
              (ys.flatMap String.utf8EncodeChar)
              (xs.flatMap String.utf8EncodeChar ++ rest)
            rw [hText] at hBehind
            exact absurd hBehind (List.lt_irrefl _)

/- A text begins with another one as its bytes do. -/
theorem utf8_isPrefix_iff
    {first second : String} :
    utf8 first <+: utf8 second
      ↔ first.toList <+: second.toList := by
  rw [utf8_eq_flatMap, utf8_eq_flatMap]
  refine ⟨isPrefix_of_flatMap_encodeChar, ?_⟩
  rintro ⟨rest, hText⟩
  rw [← hText, List.flatMap_append]
  exact List.prefix_append _ _

end JourneyMatch
