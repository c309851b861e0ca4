import JourneyMatch.Json.Reader
import JourneyMatch.Proofs.Json.Number
import JourneyMatch.Proofs.Json.Settled

/-
  This file says what a reader can give, whatever the text:
  a JSON value that has been read is nested as far as was
  allowed at most, and its integers lie in the kept range.

  Key definitions include:
    * `Yields`
    * `Number.Kept`

  Main statements:
    * `Yields.readItems`
    * `Yields.readMembers`
    * `Json.yields_read`
-/

namespace JourneyMatch

------------------------------------------------------------
-- What a reader gives
------------------------------------------------------------

/- Whether all that a reader gives has a property. -/
def Yields
    {α : Type}
    (reader : Reader α)
    (P : α → Prop) : Prop :=
  ∀ cs x rest, reader cs = .ok (x, rest) → P x

/- What succeeds in two parts succeeds in each. -/
theorem Except.exists_of_bind_eq_ok
    {ε α β : Type}
    {first : Except ε α}
    {second : α → Except ε β}
    {result : β}
    (hBind : first >>= second = .ok result) :
    ∃ x, first = .ok x ∧ second x = .ok result := by
  cases first with
  | error cause => cases hBind
  | ok x => exact ⟨x, rfl, hBind⟩

/- What succeeds changed succeeds, and is then changed. -/
theorem Except.exists_of_map_eq_ok
    {ε α β : Type}
    {result : Except ε α}
    {f : α → β}
    {y : β}
    (hMap : result.map f = .ok y) :
    ∃ x, result = .ok x ∧ f x = y := by
  cases result with
  | error cause => cases hMap
  | ok x =>
      cases hMap
      exact ⟨x, rfl, rfl⟩

namespace Yields

variable {α σ : Type}

/- The items of an array are what the reader of items gives. -/
theorem readItemsWithin
    {item : Reader α}
    {P : α → Prop}
    (hItem : Yields item P)
    (fuel : Nat)
    (first : Bool) :
    Yields (JourneyMatch.readItemsWithin item fuel first)
      fun xs => ∀ x ∈ xs, P x := by
  induction fuel generalizing first with
  | zero =>
      intro cs xs rest hRead
      cases hRead
  | succ fuel ih =>
      intro cs xs rest hRead
      rw [JourneyMatch.readItemsWithin] at hRead
      rcases Except.exists_of_bind_eq_ok hRead with
        ⟨next, -, hRest⟩
      cases next with
      | none =>
          rcases Except.exists_of_bind_eq_ok hRest with
            ⟨closed, -, hEnd⟩
          cases hEnd
          simp
      | some cs =>
          rcases Except.exists_of_bind_eq_ok hRest with
            ⟨⟨x, others⟩, hHead, hTail⟩
          rcases Except.exists_of_bind_eq_ok hTail with
            ⟨⟨ys, last⟩, hItems, hEnd⟩
          cases hEnd
          intro y hMem
          rcases List.mem_cons.mp hMem with hHere | hThere
          · rw [hHere]
            exact hItem _ _ _ hHead
          · exact ih false _ _ _ hItems y hThere

theorem readItems
    {item : Reader α}
    {P : α → Prop}
    (hItem : Yields item P) :
    Yields (JourneyMatch.readItems item)
      fun xs => ∀ x ∈ xs, P x :=
  fun cs => hItem.readItemsWithin (cs.length + 1) true cs

/- What every member keeps is kept by an object. -/
theorem readMembersWithin
    {member : String → σ → Reader σ}
    {P : σ → Prop}
    (hMember :
      ∀ key state, P state → Yields (member key state) P)
    (fuel : Nat)
    (first : Bool)
    {state : σ}
    (hState : P state) :
    Yields
      (JourneyMatch.readMembersWithin member fuel first state)
      P := by
  induction fuel generalizing first state with
  | zero =>
      intro cs x rest hRead
      cases hRead
  | succ fuel ih =>
      intro cs x rest hRead
      rw [JourneyMatch.readMembersWithin] at hRead
      rcases Except.exists_of_bind_eq_ok hRead with
        ⟨next, -, hRest⟩
      cases next with
      | closed others =>
          cases hRest
          exact hState
      | key others =>
          rcases Except.exists_of_bind_eq_ok hRest with
            ⟨⟨key, value⟩, -, hValue⟩
          rcases Except.exists_of_bind_eq_ok hValue with
            ⟨⟨after, others⟩, hOne, hMore⟩
          exact ih false (hMember key state hState _ _ _ hOne)
            _ _ _ hMore

theorem readMembers
    {member : String → σ → Reader σ}
    {P : σ → Prop}
    (hMember :
      ∀ key state, P state → Yields (member key state) P)
    {state : σ}
    (hState : P state) :
    Yields (JourneyMatch.readMembers member state) P :=
  fun cs =>
    readMembersWithin hMember (cs.length + 1) true hState cs

/- A member is put in front of those before. -/
theorem pushMember
    {value : Reader Json}
    {P : Json → Prop}
    (hValue : Yields value P)
    (key : String)
    {members : List (String × Json)}
    (hMembers : ∀ member ∈ members, P member.2) :
    Yields (JourneyMatch.pushMember value key members)
      fun members => ∀ member ∈ members, P member.2 := by
  intro cs x rest hRead
  rcases Except.exists_of_bind_eq_ok hRead with
    ⟨⟨_, others⟩, -, hRest⟩
  rcases Except.exists_of_bind_eq_ok hRest with
    ⟨⟨v, others⟩, hOne, hEnd⟩
  cases hEnd
  intro member hMem
  rcases List.mem_cons.mp hMem with hHere | hThere
  · rw [hHere]
    exact hValue _ _ _ hOne
  · exact hMembers member hThere

end Yields

------------------------------------------------------------
-- Numbers
------------------------------------------------------------

/- Whether a number is a double or an integer kept as one. -/
def Number.Kept : Number → Prop
  | .integer value => InIntegerRange value
  | .double _ => True

theorem appendDigits_le
    {significand : Nat}
    (digits : List Nat)
    (hBound : significand ≤ greatestWord) :
    (appendDigits significand digits).1 ≤ greatestWord := by
  induction digits generalizing significand with
  | nil => exact hBound
  | cons digit digits ih =>
      rw [appendDigits]
      split
      · rename_i hNext
        exact ih hNext
      · exact hBound

theorem Number.kept_of_wholeNumber?
    {negative : Bool}
    {significand : Nat}
    {n : Number}
    (hBound : significand ≤ greatestWord)
    (hNumber : wholeNumber? negative significand = some n) :
    n.Kept := by
  unfold wholeNumber? at hNumber
  split at hNumber
  · split at hNumber
    · rcases Option.bind_eq_some_iff.mp hNumber with
        ⟨bits, -, hDouble⟩
      rcases Option.map_eq_some_iff.mp hDouble with
        ⟨value, -, hEq⟩
      subst hEq
      trivial
    · rename_i hFits
      cases hNumber
      have hWord : greatestWord = 18446744073709551615 := by
        decide
      change -(twoTo 63 : Int) ≤ _ ∧ _
      omega
  · cases hNumber
    change -(twoTo 63 : Int) ≤ _ ∧ _
    omega

theorem Literal.kept_number?
    {l : Literal}
    {n : Number}
    (hNumber : l.number? = some n) :
    n.Kept := by
  have hBound : (appendDigits 0 l.whole).1 ≤ greatestWord :=
    appendDigits_le l.whole (Nat.zero_le _)
  simp only [number?] at hNumber
  split at hNumber
  · exact Number.kept_of_wholeNumber? hBound hNumber
  · rcases Option.bind_eq_some_iff.mp hNumber with
      ⟨bits, -, hDouble⟩
    rcases Option.map_eq_some_iff.mp hDouble with
      ⟨value, -, hEq⟩
    subst hEq
    trivial

/- Every number that is read is kept as it is. -/
theorem yields_readNumber
    (negative : Bool) :
    Yields (readNumber negative) Number.Kept := by
  intro cs n rest hRead
  rcases Except.exists_of_bind_eq_ok hRead with
    ⟨⟨literal, others⟩, -, hRest⟩
  simp only at hRest
  split at hRest
  · rename_i number hNumber
    cases hRest
    exact Literal.kept_number? hNumber
  · cases hRest

------------------------------------------------------------
-- Values
------------------------------------------------------------

namespace Json

/-
  Whether a value is nested at most so far and its integers
  are kept ones.
-/
structure KeptWithin
    (depth : Nat)
    (j : Json) : Prop where
  numbers : ∀ n ∈ j.numbers, n.Kept
  depth : j.depth ≤ depth

theorem KeptWithin.array
    {depth : Nat}
    {items : List Json}
    (hItems : ∀ item ∈ items, item.KeptWithin depth) :
    (array items).KeptWithin (depth + 1) := by
  constructor
  · intro n hMem
    rcases mem_numbersItems_iff.mp hMem with
      ⟨item, hItem, hNumber⟩
    exact (hItems item hItem).numbers n hNumber
  · exact Nat.succ_le_succ
      (depthItems_le_iff.mpr fun item hItem =>
        (hItems item hItem).depth)

theorem KeptWithin.object
    {depth : Nat}
    {members : List (String × Json)}
    (hMembers :
      ∀ member ∈ members, member.2.KeptWithin depth) :
    (object members).KeptWithin (depth + 1) := by
  constructor
  · intro n hMem
    rcases mem_numbersMembers_iff.mp hMem with
      ⟨member, hMember, hNumber⟩
    exact (hMembers member hMember).numbers n hNumber
  · exact Nat.succ_le_succ
      (depthMembers_le_iff.mpr fun member hMember =>
        (hMembers member hMember).depth)

theorem keptWithin_number
    {n : Number}
    (depth : Nat)
    (hKept : n.Kept) :
    (number n).KeptWithin depth := by
  constructor
  · intro other hMem
    rw [List.mem_singleton.mp hMem]
    exact hKept
  · exact Nat.zero_le depth

theorem keptWithin_of_flat
    {j : Json}
    (depth : Nat)
    (hNumbers : j.numbers = [])
    (hDepth : j.depth = 0) :
    j.KeptWithin depth := by
  constructor
  · intro n hMem
    rw [hNumbers] at hMem
    cases hMem
  · rw [hDepth]
    exact Nat.zero_le depth

/-
  A value that has been read is nested as far as was allowed,
  and its integers are kept ones.
-/
theorem yields_read :
    (depth : Nat) →
    Yields (read depth) (KeptWithin depth)
  | depth, cs, j, rest, hRead => by
      rw [read] at hRead
      split at hRead
      · cases hRead
      · rcases Except.exists_of_bind_eq_ok hRead with
          ⟨_, -, hEnd⟩
        cases hEnd
        exact keptWithin_of_flat depth rfl rfl
      · rcases Except.exists_of_bind_eq_ok hRead with
          ⟨_, -, hEnd⟩
        cases hEnd
        exact keptWithin_of_flat depth rfl rfl
      · rcases Except.exists_of_bind_eq_ok hRead with
          ⟨_, -, hEnd⟩
        cases hEnd
        exact keptWithin_of_flat depth rfl rfl
      · rcases Except.exists_of_bind_eq_ok hRead with
          ⟨_, -, hEnd⟩
        cases hEnd
        exact keptWithin_of_flat depth rfl rfl
      · rcases Except.exists_of_bind_eq_ok hRead with
          ⟨⟨n, others⟩, hNumber, hEnd⟩
        cases hEnd
        exact keptWithin_number depth
          (yields_readNumber true _ _ _ hNumber)
      · cases depth with
        | zero => cases hRead
        | succ depth =>
            rcases Except.exists_of_bind_eq_ok hRead with
              ⟨⟨items, others⟩, hItems, hEnd⟩
            cases hEnd
            exact .array
              ((yields_read depth).readItems _ _ _ hItems)
      · cases depth with
        | zero => cases hRead
        | succ depth =>
            rcases Except.exists_of_bind_eq_ok hRead with
              ⟨⟨members, others⟩, hMembers, hEnd⟩
            cases hEnd
            have hKept :=
              Yields.readMembers
                (P := fun members =>
                  ∀ member ∈ members,
                    member.2.KeptWithin depth)
                (fun key _ hBefore =>
                  (yields_read depth).pushMember key hBefore)
                (by simp) _ _ _ hMembers
            exact .object fun member hMem =>
              hKept member (List.mem_reverse.mp hMem)
      · split at hRead
        · rcases Except.exists_of_bind_eq_ok hRead with
            ⟨⟨n, others⟩, hNumber, hEnd⟩
          cases hEnd
          exact keptWithin_number depth
            (yields_readNumber false _ _ _ hNumber)
        · cases hRead

end Json

end JourneyMatch
