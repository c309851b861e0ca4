import JourneyMatch.Json.Basic

/-
  This file treats settled values. Settling makes a value
  settled, and leaves a settled value as it is; it adds no
  number and no nesting.

  Key definitions include:
    * `Json.Settled`
    * `Json.numbers`

  Main statements:
    * `Json.settled_settle`
    * `Json.settle_of_settled`
    * `Json.mem_numbers_of_settle`
    * `Json.depth_settle_le`
-/

namespace JourneyMatch

------------------------------------------------------------
-- Insertion at the end
------------------------------------------------------------

/- A key above all others comes last. -/
theorem Entries.insert_eq_append
    {β : Type}
    {key : String}
    (value : β)
    {entries : List (String × β)}
    (hBelow : ∀ entry ∈ entries, entry.1 < key) :
    insert key value entries = entries ++ [(key, value)] := by
  induction entries with
  | nil => rfl
  | cons head rest ih =>
      rcases head with ⟨name, old⟩
      have hName : name < key := hBelow (name, old) (by simp)
      have hNot : ¬ key < name := String.lt_asymm hName
      have hNe : ¬ key = name := by
        intro hEq
        rw [hEq] at hName
        exact String.lt_irrefl name hName
      have hRest :=
        ih fun entry hMem =>
          hBelow entry (List.mem_cons_of_mem _ hMem)
      simp only [insert, hNot, hNe, if_false, hRest,
        List.cons_append]

namespace Json

------------------------------------------------------------
-- Settled values
------------------------------------------------------------

mutual

/-
  Whether in each object of a value the keys ascend, so that
  each has one member.
-/
def Settled :
    Json → Prop
  | .array items => SettledItems items
  | .object members =>
      Entries.Ascending members ∧ SettledMembers members
  | .null => True
  | .bool _ => True
  | .number _ => True
  | .string _ => True

/- Whether all items are settled. -/
def SettledItems :
    List Json → Prop
  | [] => True
  | item :: rest => Settled item ∧ SettledItems rest

/- Whether the values of all members are settled. -/
def SettledMembers :
    List (String × Json) → Prop
  | [] => True
  | (_, value) :: rest => Settled value ∧ SettledMembers rest

end

theorem SettledMembers.insert
    {name : String}
    {value : Json}
    {members : List (String × Json)}
    (hValue : Settled value)
    (hMembers : SettledMembers members) :
    SettledMembers (Entries.insert name value members) := by
  induction members with
  | nil => exact ⟨hValue, trivial⟩
  | cons head rest ih =>
      rcases head with ⟨key, old⟩
      simp only [Entries.insert]
      split
      · exact ⟨hValue, hMembers⟩
      · split
        · exact ⟨hValue, hMembers.2⟩
        · exact ⟨hMembers.1, ih hMembers.2⟩

mutual

/- Settling makes a value settled. -/
theorem settled_settle :
    (j : Json) →
    Settled j.settle
  | .array items => settled_settleItems items
  | .object members =>
      settled_settleMembers members [] .nil trivial
  | .null => trivial
  | .bool _ => trivial
  | .number _ => trivial
  | .string _ => trivial

theorem settled_settleItems :
    (items : List Json) →
    SettledItems (settleItems items)
  | [] => trivial
  | item :: rest =>
      ⟨settled_settle item, settled_settleItems rest⟩

theorem settled_settleMembers :
    (members sorted : List (String × Json)) →
    Entries.Ascending sorted →
    SettledMembers sorted →
    Entries.Ascending (settleMembers members sorted)
      ∧ SettledMembers (settleMembers members sorted)
  | [], _, hAsc, hSorted => ⟨hAsc, hSorted⟩
  | (name, value) :: rest, sorted, hAsc, hSorted =>
      settled_settleMembers rest
        (Entries.insert name value.settle sorted)
        (Entries.ascending_insert name value.settle hAsc)
        (hSorted.insert (settled_settle value))

end

mutual

/- A settled value stays as it is. -/
theorem settle_of_settled :
    (j : Json) →
    Settled j →
    j.settle = j
  | .array items, hItems => by
      rw [settle, settleItems_of_settled items hItems]
  | .object members, hMembers => by
      rw [settle,
        settleMembers_of_settled members [] hMembers.1
          hMembers.2 (by simp),
        List.nil_append]
  | .null, _ => rfl
  | .bool _, _ => rfl
  | .number _, _ => rfl
  | .string _, _ => rfl

theorem settleItems_of_settled :
    (items : List Json) →
    SettledItems items →
    settleItems items = items
  | [], _ => rfl
  | item :: rest, hItems => by
      rw [settleItems, settle_of_settled item hItems.1,
        settleItems_of_settled rest hItems.2]

/- Members whose keys ascend are put behind those before. -/
theorem settleMembers_of_settled :
    (members sorted : List (String × Json)) →
    Entries.Ascending members →
    SettledMembers members →
    (∀ entry ∈ sorted, ∀ member ∈ members,
      entry.1 < member.1) →
    settleMembers members sorted = sorted ++ members
  | [], sorted, _, _, _ => by
      rw [settleMembers, List.append_nil]
  | (name, value) :: rest, sorted, hAsc, hMembers, hBelow => by
      rcases List.pairwise_cons.mp hAsc with ⟨hHead, hRest⟩
      have hInsert :
          Entries.insert name value sorted
            = sorted ++ [(name, value)] :=
        Entries.insert_eq_append value fun entry hMem =>
          hBelow entry hMem (name, value) List.mem_cons_self
      have hNext :
          ∀ entry ∈ sorted ++ [(name, value)],
            ∀ member ∈ rest, entry.1 < member.1 := by
        intro entry hMem member hMember
        rcases List.mem_append.mp hMem with hOld | hNew
        · exact hBelow entry hOld member
            (List.mem_cons_of_mem _ hMember)
        · rw [List.mem_singleton.mp hNew]
          exact hHead member hMember
      rw [settleMembers, settle_of_settled value hMembers.1,
        hInsert,
        settleMembers_of_settled rest _ hRest hMembers.2 hNext,
        List.append_assoc, List.singleton_append]

end

------------------------------------------------------------
-- Numbers
------------------------------------------------------------

mutual

/- All numbers in a value. -/
def numbers :
    Json → List Number
  | .number value => [value]
  | .array items => numbersItems items
  | .object members => numbersMembers members
  | .null => []
  | .bool _ => []
  | .string _ => []

/- All numbers in the items. -/
def numbersItems :
    List Json → List Number
  | [] => []
  | item :: rest => numbers item ++ numbersItems rest

/- All numbers in the values of the members. -/
def numbersMembers :
    List (String × Json) → List Number
  | [] => []
  | (_, value) :: rest => numbers value ++ numbersMembers rest

end

theorem mem_numbersItems_iff
    {n : Number}
    {items : List Json} :
    n ∈ numbersItems items ↔ ∃ item ∈ items, n ∈ item.numbers := by
  induction items with
  | nil => simp [numbersItems]
  | cons item rest ih => simp [numbersItems, ih]

theorem mem_numbersMembers_iff
    {n : Number}
    {members : List (String × Json)} :
    n ∈ numbersMembers members ↔
      ∃ member ∈ members, n ∈ member.2.numbers := by
  induction members with
  | nil => simp [numbersMembers]
  | cons member rest ih => simp [numbersMembers, ih]

mutual

/- Settling adds no number. -/
theorem mem_numbers_of_settle
    {n : Number} :
    (j : Json) →
    n ∈ j.settle.numbers →
    n ∈ j.numbers
  | .array items, hMem => mem_numbersItems_of_settle items hMem
  | .object members, hMem => by
      rcases mem_numbersMembers_of_settle members [] hMem with
        hHere | hBefore
      · exact hHere
      · cases hBefore
  | .number _, hMem => hMem
  | .null, hMem => hMem
  | .bool _, hMem => hMem
  | .string _, hMem => hMem

theorem mem_numbersItems_of_settle
    {n : Number} :
    (items : List Json) →
    n ∈ numbersItems (settleItems items) →
    n ∈ numbersItems items
  | [], hMem => hMem
  | item :: rest, hMem =>
      List.mem_append.mpr
        ((List.mem_append.mp hMem).imp
          (mem_numbers_of_settle item)
          (mem_numbersItems_of_settle rest))

theorem mem_numbersMembers_of_settle
    {n : Number} :
    (members sorted : List (String × Json)) →
    n ∈ numbersMembers (settleMembers members sorted) →
    n ∈ numbersMembers members ∨ n ∈ numbersMembers sorted
  | [], _, hMem => .inr hMem
  | (name, value) :: rest, sorted, hMem => by
      rw [numbersMembers, List.mem_append]
      rcases mem_numbersMembers_of_settle rest _ hMem with
        hRest | hSorted
      · exact .inl (.inr hRest)
      · rcases mem_numbersMembers_iff.mp hSorted with
          ⟨member, hMember, hNumber⟩
        rcases Entries.mem_of_mem_insert hMember with hNew | hOld
        · rw [hNew] at hNumber
          exact .inl (.inl (mem_numbers_of_settle value hNumber))
        · exact .inr
            (mem_numbersMembers_iff.mpr ⟨member, hOld, hNumber⟩)

end

------------------------------------------------------------
-- Nesting
------------------------------------------------------------

theorem depthItems_le_iff
    {items : List Json}
    {depth : Nat} :
    depthItems items ≤ depth ↔
      ∀ item ∈ items, item.depth ≤ depth := by
  induction items with
  | nil => simp [depthItems]
  | cons item rest ih =>
      rw [depthItems, Nat.max_le, ih, List.forall_mem_cons]

theorem depthMembers_le_iff
    {members : List (String × Json)}
    {depth : Nat} :
    depthMembers members ≤ depth ↔
      ∀ member ∈ members, member.2.depth ≤ depth := by
  induction members with
  | nil => simp [depthMembers]
  | cons member rest ih =>
      rw [depthMembers, Nat.max_le, ih, List.forall_mem_cons]

theorem depthMembers_insert_le
    {name : String}
    {value : Json}
    {members : List (String × Json)}
    {depth : Nat}
    (hValue : value.depth ≤ depth)
    (hMembers : depthMembers members ≤ depth) :
    depthMembers (Entries.insert name value members)
      ≤ depth := by
  rw [depthMembers_le_iff] at hMembers ⊢
  intro member hMem
  rcases Entries.mem_of_mem_insert hMem with hNew | hOld
  · rw [hNew]
    exact hValue
  · exact hMembers member hOld

mutual

/- Settling adds no nesting. -/
theorem depth_settle_le :
    (j : Json) →
    j.settle.depth ≤ j.depth
  | .array items =>
      Nat.succ_le_succ (depthItems_settleItems_le items)
  | .object members =>
      Nat.succ_le_succ
        (depthMembers_settleMembers_le members []
          (Nat.le_refl _) (Nat.zero_le _))
  | .null => Nat.le_refl _
  | .bool _ => Nat.le_refl _
  | .number _ => Nat.le_refl _
  | .string _ => Nat.le_refl _

theorem depthItems_settleItems_le :
    (items : List Json) →
    depthItems (settleItems items) ≤ depthItems items
  | [] => Nat.le_refl _
  | item :: rest =>
      Nat.max_le.mpr
        ⟨Nat.le_trans (depth_settle_le item)
            (Nat.le_max_left _ _),
          Nat.le_trans (depthItems_settleItems_le rest)
            (Nat.le_max_right _ _)⟩

theorem depthMembers_settleMembers_le :
    (members sorted : List (String × Json)) →
    {depth : Nat} →
    depthMembers members ≤ depth →
    depthMembers sorted ≤ depth →
    depthMembers (settleMembers members sorted) ≤ depth
  | [], _, _, _, hSorted => hSorted
  | (name, value) :: rest, sorted, depth, hMembers, hSorted => by
      rw [depthMembers, Nat.max_le] at hMembers
      exact depthMembers_settleMembers_le rest _ hMembers.2
        (depthMembers_insert_le
          (Nat.le_trans (depth_settle_le value) hMembers.1)
          hSorted)

end

end Json

end JourneyMatch
