import JourneyMatch.Json.Text
import JourneyMatch.Task.Key

/-
  This file shows that the key of a task ends in its tag, and
  that counted tags make keys that never repeat, whenever the
  tasks are due.

  Key definitions include:
    * `TagSource.NeverRepeats`

  Main statements:
    * `tag_eq_of_taskKey_eq`
    * `TagSource.neverRepeats_counted`
-/

namespace JourneyMatch

/- Whether no two tags of a source make the same key. -/
def TagSource.NeverRepeats
    (s : TagSource) : Prop :=
  ∀ i j due other,
    taskKey due (s.tag i) = taskKey other (s.tag j) → i = j

------------------------------------------------------------
-- The end of a key
------------------------------------------------------------

/- What stands after the last colon of a key is its tag. -/
theorem takeWhile_reverse_taskKey
    (due : Instant)
    {tag : String}
    (hTag : ':' ∉ tag.toList) :
    (taskKey due tag).toList.reverse.takeWhile (· ≠ ':')
      = tag.toList.reverse := by
  have hKey :
      (taskKey due tag).toList.reverse
        = tag.toList.reverse
          ++ ':' :: ':' :: (timestamp due).toList.reverse := by
    simp [taskKey, tagSeparator]
  have hAll :
      ∀ c ∈ tag.toList.reverse, decide (c ≠ ':') = true := by
    intro c hMem
    apply decide_eq_true
    intro hColon
    rw [hColon] at hMem
    exact hTag (List.mem_reverse.mp hMem)
  rw [hKey, List.takeWhile_append_of_pos hAll]
  simp

theorem tag_eq_of_taskKey_eq
    {due other : Instant}
    {a b : String}
    (hFirst : ':' ∉ a.toList)
    (hSecond : ':' ∉ b.toList)
    (hKey : taskKey due a = taskKey other b) :
    a = b := by
  have hTag := takeWhile_reverse_taskKey due hFirst
  rw [hKey, takeWhile_reverse_taskKey other hSecond] at hTag
  exact (String.toList_injective (List.reverse_inj.mp hTag)).symm

------------------------------------------------------------
-- Counted tags
------------------------------------------------------------

/- The value of hexadecimal digits. -/
def hexNumber
    (digits : List Char) : Nat :=
  digits.foldl
    (fun n c => n * 16 + (Quoted.hexValue? c).getD 0) 0

theorem hexNumber_append
    (digits : List Char)
    (c : Char) :
    hexNumber (digits ++ [c])
      = hexNumber digits * 16
        + (Quoted.hexValue? c).getD 0 := by
  simp [hexNumber]

/- Zeros in front do not count. -/
theorem hexNumber_zeros
    (zeros : Nat)
    (digits : List Char) :
    hexNumber (List.replicate zeros '0' ++ digits)
      = hexNumber digits := by
  induction zeros with
  | zero => rfl
  | succ zeros ih =>
      rw [← ih]
      rfl

theorem hexNumber_toDigits
    (n : Nat) :
    hexNumber (Nat.toDigits 16 n) = n := by
  have hDigit :
      ∀ d : Fin 16,
        (Quoted.hexValue? (Nat.digitChar d)).getD 0 = d.val := by
    decide
  induction n using Nat.strongRecOn with
  | ind n ih =>
      rw [Nat.toDigits_eq_if (by decide)]
      split
      · rename_i hSmall
        have hValue := hDigit ⟨n, hSmall⟩
        simp only at hValue
        simp [hexNumber, hValue]
      · have hRest := ih (n / 16) (by omega)
        have hValue := hDigit ⟨n % 16, by omega⟩
        simp only at hValue
        rw [hexNumber_append, hRest, hValue]
        omega

theorem hexNumber_paddedHex
    (width n : Nat) :
    hexNumber (paddedHex width n) = n := by
  simp only [paddedHex]
  rw [hexNumber_zeros, hexNumber_toDigits]

/- Different counts have different tags. -/
theorem countedTag_injective
    {m n : Nat}
    (hTag : countedTag m = countedTag n) :
    m = n := by
  have hDigits :
      String.ofList (paddedHex 12 m)
        = String.ofList (paddedHex 12 n) :=
    String.append_right_inj countedTagStart |>.mp hTag
  have hNumber := congrArg hexNumber (String.ofList_injective hDigits)
  rwa [hexNumber_paddedHex, hexNumber_paddedHex] at hNumber

/- A digit of a tag is not a colon. -/
theorem colon_not_mem_toDigits
    (n : Nat) :
    ':' ∉ Nat.toDigits 16 n := by
  have hDigit : ∀ d : Fin 16, Nat.digitChar d ≠ ':' := by
    decide
  induction n using Nat.strongRecOn with
  | ind n ih =>
      rw [Nat.toDigits_eq_if (by decide)]
      split
      · rename_i hSmall
        intro hMem
        exact hDigit ⟨n, hSmall⟩ (List.mem_singleton.mp hMem).symm
      · intro hMem
        rcases List.mem_append.mp hMem with hRest | hLast
        · exact ih (n / 16) (by omega) hRest
        · exact hDigit ⟨n % 16, by omega⟩
            (List.mem_singleton.mp hLast).symm

theorem colon_not_mem_countedTag
    (n : Nat) :
    ':' ∉ (countedTag n).toList := by
  have hStart : ':' ∉ countedTagStart.toList := by decide
  have hZero : '0' ≠ ':' := by decide
  intro hMem
  simp only [countedTag, String.toList_append,
    String.toList_ofList, paddedHex, List.mem_append] at hMem
  rcases hMem with hFront | hZeros | hDigits
  · exact hStart hFront
  · exact hZero (List.eq_of_mem_replicate hZeros).symm
  · exact colon_not_mem_toDigits n hDigits

/- Counted tags never make the same key twice. -/
theorem TagSource.neverRepeats_counted :
    TagSource.counted.NeverRepeats := by
  intro i j due other hKey
  exact countedTag_injective
    (tag_eq_of_taskKey_eq (colon_not_mem_countedTag i)
      (colon_not_mem_countedTag j) hKey)

end JourneyMatch
