import JourneyMatch.Json.Text

/-
  This file shows that a text between quotes is read as it
  was written, and passed over as a whole.

  Main statements:
    * `Quoted.read_encode`
    * `Quoted.skip_encode`
-/

namespace JourneyMatch

namespace Quoted

------------------------------------------------------------
-- One character
------------------------------------------------------------

/- A hexadecimal digit has the value it was written for. -/
theorem hexValue?_hexDigit
    (n : Nat) :
    hexValue? (hexDigit n) = some (n % 16) := by
  have hAll :
      ∀ d : Fin 16, hexValue? (Nat.digitChar d) = some d.val := by
    decide
  exact hAll ⟨n % 16, Nat.mod_lt n (by decide)⟩

/- The escape of a control character. -/
theorem readHex_controlEscape
    {c : Char}
    (hControl : c.toNat < 0x20)
    (rest : List Char) :
    readHex
        ('0' :: '0' :: hexDigit (c.toNat / 16)
          :: hexDigit c.toNat :: rest)
      = .ok (c.toNat, rest) := by
  have hZero : hexValue? '0' = some 0 := by decide
  simp only [readHex, hZero, hexValue?_hexDigit]
  congr 2
  omega

/-
  A character is written as an escape that is read as the
  character, or stands for itself.
-/
theorem encodeChar_cases
    (c : Char) :
    (∃ tail,
        encodeChar c = '\\' :: tail
          ∧ (∀ rest, readEscape (tail ++ rest) = .ok (c, rest))
          ∧ ∀ rest, skipEscape (tail ++ rest) = .ok ((), rest))
      ∨ (encodeChar c = [c]
        ∧ c ≠ '"' ∧ c ≠ '\\' ∧ ¬ c.toNat < 0x20) := by
  have hShort :
      ∀ e d : Char,
        e ≠ 'u' → shortEscape? e = some d →
          (∀ rest, readEscape ([e] ++ rest) = .ok (d, rest))
            ∧ ∀ rest,
              skipEscape ([e] ++ rest) = .ok ((), rest) := by
    intro e d hMark hEscape
    constructor <;> intro rest
    · simp [readEscape, hEscape]
    · simp [skipEscape, hEscape]
  by_cases hQuote : c = '"'
  · subst hQuote
    exact .inl ⟨_, rfl, hShort '"' _ (by decide) rfl⟩
  by_cases hSlash : c = '\\'
  · subst hSlash
    exact .inl ⟨_, rfl, hShort '\\' _ (by decide) rfl⟩
  by_cases hLine : c = '\n'
  · subst hLine
    exact .inl ⟨_, rfl, hShort 'n' _ (by decide) rfl⟩
  by_cases hReturn : c = '\r'
  · subst hReturn
    exact .inl ⟨_, rfl, hShort 'r' _ (by decide) rfl⟩
  by_cases hTab : c = '\t'
  · subst hTab
    exact .inl ⟨_, rfl, hShort 't' _ (by decide) rfl⟩
  by_cases hBack : c = '\x08'
  · subst hBack
    exact .inl ⟨_, rfl, hShort 'b' _ (by decide) rfl⟩
  by_cases hFeed : c = '\x0c'
  · subst hFeed
    exact .inl ⟨_, rfl, hShort 'f' _ (by decide) rfl⟩
  simp only [encodeChar, hQuote, hSlash, hLine, hReturn, hTab,
    hBack, hFeed, if_false]
  by_cases hControl : c.toNat < 0x20
  · rw [if_pos hControl]
    refine .inl ⟨_, rfl, ?_, ?_⟩ <;> intro rest
    · simp only [List.cons_append, List.nil_append, readEscape,
        readHex_controlEscape hControl, bind, Except.bind,
        readSurrogate]
      rw [if_neg (by omega), if_pos (by omega),
        Char.ofNat_toNat]
    · simp only [List.cons_append, List.nil_append, skipEscape,
        readHex_controlEscape hControl, bind, Except.bind]
  · rw [if_neg hControl]
    exact .inr ⟨rfl, hQuote, hSlash, hControl⟩

------------------------------------------------------------
-- Texts
------------------------------------------------------------

theorem encode_cons
    (c : Char)
    (cs : List Char) :
    encode (c :: cs) = encodeChar c ++ encode cs := by
  simp [encode]

/- A written text is read back. -/
theorem readUpTo_encode
    {fuel : Nat}
    {cs : List Char}
    (rest : List Char)
    (hFuel : cs.length < fuel) :
    readUpTo fuel (encode cs ++ '"' :: rest)
      = .ok (cs, rest) := by
  induction cs generalizing fuel with
  | nil =>
      obtain ⟨fuel, rfl⟩ :=
        Nat.exists_eq_succ_of_ne_zero (Nat.ne_zero_of_lt hFuel)
      rfl
  | cons c cs ih =>
      obtain ⟨fuel, rfl⟩ :=
        Nat.exists_eq_succ_of_ne_zero (Nat.ne_zero_of_lt hFuel)
      have hRest := ih (Nat.lt_of_succ_lt_succ hFuel)
      rw [encode_cons, List.append_assoc]
      rcases encodeChar_cases c with
        ⟨tail, hTail, hRead, -⟩ | ⟨hSelf, hQuote, hSlash, hPlain⟩
      · rw [hTail, List.cons_append]
        simp only [readUpTo, hRead, bind, Except.bind, hRest]
      · rw [hSelf, List.cons_append, List.nil_append]
        simp [readUpTo, hPlain, hRest, bind, Except.bind]

theorem skipUpTo_encode
    {fuel : Nat}
    {cs : List Char}
    (rest : List Char)
    (hFuel : cs.length < fuel) :
    skipUpTo fuel (encode cs ++ '"' :: rest)
      = .ok ((), rest) := by
  induction cs generalizing fuel with
  | nil =>
      obtain ⟨fuel, rfl⟩ :=
        Nat.exists_eq_succ_of_ne_zero (Nat.ne_zero_of_lt hFuel)
      rfl
  | cons c cs ih =>
      obtain ⟨fuel, rfl⟩ :=
        Nat.exists_eq_succ_of_ne_zero (Nat.ne_zero_of_lt hFuel)
      have hRest := ih (Nat.lt_of_succ_lt_succ hFuel)
      rw [encode_cons, List.append_assoc]
      rcases encodeChar_cases c with
        ⟨tail, hTail, -, hSkip⟩ | ⟨hSelf, hQuote, hSlash, hPlain⟩
      · rw [hTail, List.cons_append]
        simp only [skipUpTo, hSkip, bind, Except.bind, hRest]
      · rw [hSelf, List.cons_append, List.nil_append]
        simp [skipUpTo, hPlain, hRest]

/- Writing a text does not make it shorter. -/
theorem length_le_encode
    (cs : List Char) :
    cs.length ≤ (encode cs).length := by
  induction cs with
  | nil => exact Nat.zero_le _
  | cons c cs ih =>
      have hChar : 1 ≤ (encodeChar c).length := by
        rcases encodeChar_cases c with
          ⟨tail, hTail, -⟩ | ⟨hSelf, -⟩
        · rw [hTail]
          exact Nat.le_add_left 1 _
        · rw [hSelf]
          exact Nat.le_refl 1
      rw [encode_cons, List.length_append, List.length_cons]
      omega

/- A text between quotes is read as it was written. -/
theorem read_encode
    (s : String)
    (rest : List Char) :
    read (encode s.toList ++ '"' :: rest) = .ok (s, rest) := by
  have hLength := length_le_encode s.toList
  have hFuel :
      s.toList.length
        < (encode s.toList ++ '"' :: rest).length + 1 := by
    rw [List.length_append]
    omega
  simp only [read, readUpTo_encode rest hFuel, bind,
    Except.bind, String.ofList_toList]

/- A text between quotes is passed over as a whole. -/
theorem skip_encode
    (s : String)
    (rest : List Char) :
    skip (encode s.toList ++ '"' :: rest) = .ok ((), rest) := by
  have hLength := length_le_encode s.toList
  apply skipUpTo_encode
  rw [List.length_append]
  omega

end Quoted

end JourneyMatch
