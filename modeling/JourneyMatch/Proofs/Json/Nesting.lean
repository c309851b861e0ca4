import JourneyMatch.Proofs.Json.Accepted
import JourneyMatch.Proofs.Json.Reading

/-
  This file says when a printed value is read as it was: if
  its numbers are integers of the kept range, its nesting
  alone decides.

  Key definitions include:
    * `Number.Exact`
    * `unlessDeeper`

  Main statements:
    * `Json.reread_eq`
-/

namespace JourneyMatch

/- Whether a number is an integer of the kept range. -/
def Number.Exact
    (n : Number) : Prop :=
  ∃ value, n = .integer value ∧ InIntegerRange value

theorem Number.Exact.reread_eq
    {n : Number}
    (hExact : n.Exact) :
    n.reread = .ok n := by
  rcases hExact with ⟨value, hNumber, hRange⟩
  rw [hNumber]
  exact Number.reread_integer hRange

/- A value, unless it is nested deeper than allowed. -/
def unlessDeeper
    {α : Type}
    (nesting allowed : Nat)
    (x : α) : Except ReadError α :=
  if nesting ≤ allowed then
    .ok x
  else
    .error (.malformed .tooDeep)

theorem map_unlessDeeper
    {α β : Type}
    (f : α → β)
    (nesting allowed : Nat)
    (x : α) :
    (unlessDeeper nesting allowed x).map f
      = unlessDeeper nesting allowed (f x) := by
  unfold unlessDeeper
  split <;> rfl

/- Two values, one after the other, are as deep as either. -/
theorem bind_unlessDeeper
    {α β γ : Type}
    (first second allowed : Nat)
    (x : α)
    (y : β)
    (f : α → β → γ) :
    (do
      let a ← unlessDeeper first allowed x
      let b ← unlessDeeper second allowed y
      .ok (f a b))
      = unlessDeeper (max first second) allowed (f x y) := by
  unfold unlessDeeper
  by_cases hFirst : first ≤ allowed
  · rw [if_pos hFirst]
    by_cases hSecond : second ≤ allowed
    · rw [if_pos hSecond,
        if_pos (Nat.max_le.mpr ⟨hFirst, hSecond⟩)]
      rfl
    · rw [if_neg hSecond,
        if_neg fun hBoth => hSecond (Nat.max_le.mp hBoth).2]
      rfl
  · rw [if_neg hFirst,
      if_neg fun hBoth => hFirst (Nat.max_le.mp hBoth).1]
    rfl

namespace Json

mutual

/- A value with exact numbers is read again as it was. -/
theorem reread_eq :
    (j : Json) →
    (∀ n ∈ j.numbers, n.Exact) →
    (allowed : Nat) →
    j.reread allowed = unlessDeeper j.depth allowed j
  | .null, _, allowed => by
      rw [reread, depth, unlessDeeper, if_pos allowed.zero_le]
  | .bool value, _, allowed => by
      rw [reread, depth, unlessDeeper, if_pos allowed.zero_le]
  | .string value, _, allowed => by
      rw [reread, depth, unlessDeeper, if_pos allowed.zero_le]
  | .number value, hNumbers, allowed => by
      have hExact := hNumbers value List.mem_cons_self
      rw [reread, hExact.reread_eq, depth, unlessDeeper,
        if_pos allowed.zero_le]
      rfl
  | .array items, _, 0 => rfl
  | .array items, hNumbers, allowed + 1 => by
      rw [reread, rereadItems_eq items hNumbers allowed,
        map_unlessDeeper, depth]
      simp only [unlessDeeper, Nat.add_le_add_iff_right]
  | .object members, _, 0 => rfl
  | .object members, hNumbers, allowed + 1 => by
      rw [reread, rereadMembers_eq members hNumbers allowed,
        map_unlessDeeper, depth]
      simp only [unlessDeeper, Nat.add_le_add_iff_right]

theorem rereadItems_eq :
    (items : List Json) →
    (∀ n ∈ numbersItems items, n.Exact) →
    (allowed : Nat) →
    rereadItems allowed items
      = unlessDeeper (depthItems items) allowed items
  | [], _, allowed => by
      rw [rereadItems, depthItems, unlessDeeper,
        if_pos allowed.zero_le]
  | item :: rest, hNumbers, allowed => by
      rw [rereadItems,
        reread_eq item
          (fun n hMem =>
            hNumbers n (List.mem_append_left _ hMem)) allowed,
        rereadItems_eq rest
          (fun n hMem =>
            hNumbers n (List.mem_append_right _ hMem)) allowed,
        bind_unlessDeeper, depthItems]

theorem rereadMembers_eq :
    (members : List (String × Json)) →
    (∀ n ∈ numbersMembers members, n.Exact) →
    (allowed : Nat) →
    rereadMembers allowed members
      = unlessDeeper (depthMembers members) allowed members
  | [], _, allowed => by
      rw [rereadMembers, depthMembers, unlessDeeper,
        if_pos allowed.zero_le]
  | (name, value) :: rest, hNumbers, allowed => by
      rw [rereadMembers,
        reread_eq value
          (fun n hMem =>
            hNumbers n (List.mem_append_left _ hMem)) allowed,
        rereadMembers_eq rest
          (fun n hMem =>
            hNumbers n (List.mem_append_right _ hMem)) allowed,
        bind_unlessDeeper, depthMembers]

end

end Json

end JourneyMatch
