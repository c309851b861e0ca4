import JourneyMatch.Proofs.Json.Printed
import JourneyMatch.Proofs.Json.Token

/-
  This file treats the blanks between tokens. They make no
  difference in front of an item, a key, a comma, a colon or a
  closing; and wherever one of these is read, blanks and the
  character that marks it stand in front of the rest.

  Key definitions include:
    * `Blanks`

  Main statements:
    * `Blanks.skipBlanks_append`
    * `Blanks.stops_append`
    * `exists_blanks`
    * `readEnd_eq_ok_iff`
-/

namespace JourneyMatch

------------------------------------------------------------
-- Blanks
------------------------------------------------------------

/- A text of blanks alone. -/
def Blanks
    (cs : List Char) : Prop :=
  ∀ c ∈ cs, isBlank c = true

instance :
    DecidablePred Blanks := fun _ =>
  decidable_of_iff _ List.all_eq_true

namespace Blanks

theorem nil :
    Blanks [] := by
  intro c hMem
  cases hMem

theorem append
    {first second : List Char}
    (hFirst : Blanks first)
    (hSecond : Blanks second) :
    Blanks (first ++ second) := by
  intro c hMem
  rcases List.mem_append.mp hMem with hHere | hThere
  · exact hFirst c hHere
  · exact hSecond c hThere

variable {blanks : List Char}

theorem skipBlanks_append
    (hBlanks : Blanks blanks)
    (cs : List Char) :
    skipBlanks (blanks ++ cs) = skipBlanks cs :=
  List.dropWhile_append_of_pos hBlanks

/- A number does not go on behind blanks. -/
theorem stops_append
    {rest : List Char}
    (hBlanks : Blanks blanks)
    (hRest : Stops rest) :
    Stops (blanks ++ rest) := by
  cases blanks with
  | nil => exact hRest
  | cons c blanks =>
      intro d hHead
      cases hHead
      have hBlank := hBlanks c List.mem_cons_self
      simp only [isBlank, Bool.or_eq_true, decide_eq_true_eq]
        at hBlank
      rcases hBlank with ((h | h) | h) | h <;> subst h <;>
        exact ⟨rfl, by decide, by decide, by decide⟩

/- Blanks in front of an item make no difference. -/
theorem nextItem_append
    (hBlanks : Blanks blanks)
    (first : Bool)
    (cs : List Char) :
    nextItem first (blanks ++ cs) = nextItem first cs := by
  simp only [nextItem, hBlanks.skipBlanks_append]

/- Nor do blanks behind a comma. -/
theorem nextItem_comma_append
    (hBlanks : Blanks blanks)
    (cs : List Char) :
    nextItem false (',' :: (blanks ++ cs))
      = nextItem false (',' :: cs) := by
  have hFront : isBlank ',' = false := by decide
  simp only [nextItem, skipBlanks_cons hFront,
    hBlanks.skipBlanks_append, Bool.false_eq_true, if_false]

theorem closeArray_append
    (hBlanks : Blanks blanks)
    (cs : List Char) :
    closeArray (blanks ++ cs) = closeArray cs := by
  simp only [closeArray, hBlanks.skipBlanks_append]

theorem readItemsWithin_append
    {α : Type}
    {item : Reader α}
    {fuel : Nat}
    {first : Bool}
    (hBlanks : Blanks blanks)
    (cs : List Char) :
    readItemsWithin item fuel first (blanks ++ cs)
      = readItemsWithin item fuel first cs := by
  cases fuel with
  | zero => rfl
  | succ fuel =>
      simp only [readItemsWithin, hBlanks.nextItem_append,
        hBlanks.closeArray_append]

/- Blanks in front of a key make no difference. -/
theorem nextKey_append
    (hBlanks : Blanks blanks)
    (first : Bool)
    (cs : List Char) :
    nextKey first (blanks ++ cs) = nextKey first cs := by
  simp only [nextKey, hBlanks.skipBlanks_append]

theorem nextKey_comma_append
    (hBlanks : Blanks blanks)
    (cs : List Char) :
    nextKey false (',' :: (blanks ++ cs))
      = nextKey false (',' :: cs) := by
  have hFront : isBlank ',' = false := by decide
  simp only [nextKey, skipBlanks_cons hFront,
    hBlanks.skipBlanks_append, Bool.false_eq_true, if_false]

theorem readMembersWithin_append
    {σ : Type}
    {member : String → σ → Reader σ}
    {fuel : Nat}
    {first : Bool}
    {state : σ}
    (hBlanks : Blanks blanks)
    (cs : List Char) :
    readMembersWithin member fuel first state (blanks ++ cs)
      = readMembersWithin member fuel first state cs := by
  cases fuel with
  | zero => rfl
  | succ fuel =>
      simp only [readMembersWithin, hBlanks.nextKey_append]

theorem readColon_append
    (hBlanks : Blanks blanks)
    (cs : List Char) :
    readColon (blanks ++ cs) = readColon cs := by
  simp only [readColon, hBlanks.skipBlanks_append]

theorem read_append
    (hBlanks : Blanks blanks)
    (depth : Nat)
    (cs : List Char) :
    Json.read depth (blanks ++ cs) = Json.read depth cs := by
  rw [Json.read, Json.read, hBlanks.skipBlanks_append]

end Blanks

/- The quote of a key, in front of all keys or behind a comma. -/
theorem nextKey_quote
    (rest : List Char) :
    nextKey true ('"' :: rest) = .ok (.key rest) := by
  have hQuote : isBlank '"' = false := by decide
  simp only [nextKey, skipBlanks_cons hQuote, if_true]

theorem nextKey_comma_quote
    (rest : List Char) :
    nextKey false (',' :: '"' :: rest) = .ok (.key rest) :=
  nextKey_of_first (nextKey_quote rest)

/- A text is blanks and what is left without them. -/
theorem exists_blanks
    (cs : List Char) :
    ∃ blanks, Blanks blanks ∧ cs = blanks ++ skipBlanks cs :=
  ⟨cs.takeWhile isBlank,
    fun c hMem => List.all_eq_true.mp List.all_takeWhile c hMem,
    List.takeWhile_append_dropWhile.symm⟩

/- What may follow a value does not belong to a number. -/
theorem Delimited.stops
    {rest : List Char}
    (hRest : Delimited rest) :
    Stops rest := by
  intro c hHead
  rcases hRest c hHead with h | h | h <;> subst h <;>
    exact ⟨rfl, by decide, by decide, by decide⟩

theorem stops_commaed
    (parts : List (List Char))
    {rest : List Char}
    (hRest : Stops rest) :
    Stops (commaed parts ++ rest) := by
  cases parts with
  | nil => exact hRest
  | cons part parts =>
      rw [commaed_cons, List.cons_append]
      exact (Delimited.comma _).stops

------------------------------------------------------------
-- What stands behind blanks
------------------------------------------------------------

theorem exists_of_closeArray
    {cs rest : List Char}
    (hClose : closeArray cs = .ok ((), rest)) :
    ∃ blanks, Blanks blanks ∧ cs = blanks ++ ']' :: rest := by
  rcases exists_blanks cs with ⟨blanks, hBlanks, hText⟩
  unfold closeArray at hClose
  split at hClose
  · cases hClose
  · rename_i hFront
    cases hClose
    rw [hFront] at hText
    exact ⟨blanks, hBlanks, hText⟩
  · split at hClose <;> cases hClose
  · cases hClose

theorem exists_of_readColon
    {cs rest : List Char}
    (hColon : readColon cs = .ok ((), rest)) :
    ∃ blanks, Blanks blanks ∧ cs = blanks ++ ':' :: rest := by
  rcases exists_blanks cs with ⟨blanks, hBlanks, hText⟩
  unfold readColon at hColon
  split at hColon
  · cases hColon
  · rename_i hFront
    cases hColon
    rw [hFront] at hText
    exact ⟨blanks, hBlanks, hText⟩
  · cases hColon

/- Every item but the first begins behind a comma. -/
theorem exists_of_nextItem_comma
    {cs item : List Char}
    (hNext : nextItem false cs = .ok (some item)) :
    ∃ before blanks,
      Blanks before
        ∧ Blanks blanks
        ∧ cs = before ++ ',' :: (blanks ++ item) := by
  rcases exists_blanks cs with ⟨before, hBefore, hText⟩
  unfold nextItem at hNext
  split at hNext
  · cases hNext
  · cases hNext
  · rename_i rest hFront
    rcases exists_blanks rest with ⟨blanks, hBlanks, hRest⟩
    simp only [Bool.false_eq_true, if_false] at hNext
    split at hNext
    · cases hNext
    · cases hNext
    · cases hNext
      refine ⟨before, blanks, hBefore, hBlanks, ?_⟩
      rw [← hRest, ← hFront]
      exact hText
  · cases hNext

theorem exists_of_nextKey_closed
    {first : Bool}
    {cs rest : List Char}
    (hNext : nextKey first cs = .ok (.closed rest)) :
    ∃ blanks, Blanks blanks ∧ cs = blanks ++ '}' :: rest := by
  rcases exists_blanks cs with ⟨blanks, hBlanks, hText⟩
  unfold nextKey at hNext
  split at hNext
  · cases hNext
  · rename_i hFront
    cases hNext
    rw [hFront] at hText
    exact ⟨blanks, hBlanks, hText⟩
  · split at hNext <;> cases hNext
  · split at hNext
    · cases hNext
    · split at hNext <;> cases hNext
  · split at hNext <;> cases hNext

/- Every key but the first begins behind a comma. -/
theorem exists_of_nextKey_comma
    {cs key : List Char}
    (hNext : nextKey false cs = .ok (.key key)) :
    ∃ before blanks,
      Blanks before
        ∧ Blanks blanks
        ∧ cs = before ++ ',' :: (blanks ++ '"' :: key) := by
  rcases exists_blanks cs with ⟨before, hBefore, hText⟩
  unfold nextKey at hNext
  simp only [Bool.false_eq_true, if_false] at hNext
  split at hNext
  · cases hNext
  · cases hNext
  · cases hNext
  · rename_i rest hFront
    rcases exists_blanks rest with ⟨blanks, hBlanks, hRest⟩
    split at hNext
    · cases hNext
    · rename_i hQuote
      cases hNext
      refine ⟨before, blanks, hBefore, hBlanks, ?_⟩
      rw [← hQuote, ← hRest, ← hFront]
      exact hText
    · cases hNext
    · cases hNext
  · cases hNext

/- Only blanks are left at the end of a whole text. -/
theorem readEnd_eq_ok_iff
    {cs : List Char} :
    readEnd cs = .ok () ↔ Blanks cs := by
  rcases exists_blanks cs with ⟨blanks, hBlanks, hText⟩
  unfold readEnd
  constructor
  · intro hEnd
    split at hEnd
    · rename_i hNothing
      rw [hText, hNothing, List.append_nil]
      exact hBlanks
    · cases hEnd
  · intro hAll
    have hNothing := hAll.skipBlanks_append []
    rw [List.append_nil] at hNothing
    rw [hNothing]
    rfl

end JourneyMatch
