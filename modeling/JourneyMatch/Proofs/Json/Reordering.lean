import JourneyMatch.Proofs.Json.Settled

/-
  This file treats values whose members stand in another
  order. The order in which the members of an object stand is
  lost when it is settled, if no two of them have one key.

  Key definitions include:
    * `Json.Reordered`

  Main statements:
    * `Json.settle_of_reordered`
-/

namespace JourneyMatch

------------------------------------------------------------
-- Insertion of new keys
------------------------------------------------------------

/- A new key is put somewhere among the others. -/
theorem Entries.perm_insert
    {β : Type}
    {key : String}
    (value : β)
    {entries : List (String × β)}
    (hNew : ∀ entry ∈ entries, entry.1 ≠ key) :
    (insert key value entries).Perm ((key, value) :: entries) := by
  induction entries with
  | nil => exact .refl _
  | cons head rest ih =>
      rcases head with ⟨name, old⟩
      have hName : ¬ key = name :=
        fun hEq => hNew (name, old) List.mem_cons_self hEq.symm
      have hRest :=
        ih fun entry hMem =>
          hNew entry (List.mem_cons_of_mem _ hMem)
      simp only [insert, if_neg hName]
      split
      · exact .refl _
      · exact (hRest.cons _).trans (.swap _ _ _)

/- Ascending lists of the same entries are the same. -/
theorem Entries.eq_of_perm
    {β : Type}
    {first second : List (String × β)}
    (hFirst : Ascending first)
    (hSecond : Ascending second)
    (hPerm : first.Perm second) :
    first = second :=
  hPerm.eq_of_pairwise
    (fun _ _ _ _ hBelow hAbove =>
      absurd hAbove (String.lt_asymm hBelow))
    hFirst hSecond

/- Ascending keys differ. -/
theorem Entries.Ascending.nodup
    {β : Type}
    {entries : List (String × β)}
    (hAsc : Ascending entries) :
    (entries.map Prod.fst).Nodup := by
  refine List.pairwise_map.mpr (hAsc.imp ?_)
  intro a b hBelow hEq
  rw [hEq] at hBelow
  exact String.lt_irrefl b.1 hBelow

namespace Json

------------------------------------------------------------
-- Members in another order
------------------------------------------------------------

mutual

/-
  Whether a value is another one, with the members of each
  object in it in any order.
-/
def Reordered :
    Json → Json → Prop
  | .array items, k =>
      ∃ others, k = .array others ∧ ReorderedItems items others
  | .object members, k =>
      ∃ inPlace others,
        k = .object others
          ∧ ReorderedMembers members inPlace
          ∧ inPlace.Perm others
  | .null, k => k = .null
  | .bool value, k => k = .bool value
  | .number value, k => k = .number value
  | .string value, k => k = .string value

/- The same of items, each in its place. -/
def ReorderedItems :
    List Json → List Json → Prop
  | [], others => others = []
  | item :: items, others =>
      ∃ other rest,
        others = other :: rest
          ∧ Reordered item other
          ∧ ReorderedItems items rest

/- The same of the values of members, each in its place. -/
def ReorderedMembers :
    List (String × Json) → List (String × Json) → Prop
  | [], others => others = []
  | (name, value) :: members, others =>
      ∃ other rest,
        others = (name, other) :: rest
          ∧ Reordered value other
          ∧ ReorderedMembers members rest

end

mutual

/- A value is itself in its own order. -/
theorem reordered_refl :
    (j : Json) →
    Reordered j j
  | .array items => ⟨items, rfl, reorderedItems_refl items⟩
  | .object members =>
      ⟨members, members, rfl, reorderedMembers_refl members,
        .refl members⟩
  | .null => rfl
  | .bool _ => rfl
  | .number _ => rfl
  | .string _ => rfl

theorem reorderedItems_refl :
    (items : List Json) →
    ReorderedItems items items
  | [] => rfl
  | item :: items =>
      ⟨item, items, rfl, reordered_refl item,
        reorderedItems_refl items⟩

theorem reorderedMembers_refl :
    (members : List (String × Json)) →
    ReorderedMembers members members
  | [] => rfl
  | (_, value) :: members =>
      ⟨value, members, rfl, reordered_refl value,
        reorderedMembers_refl members⟩

end

/- No order of members makes a value a null. -/
theorem Reordered.ne_null
    {j k : Json}
    (hReordered : Reordered j k)
    (hThere : j ≠ .null) :
    k ≠ .null := by
  intro hNull
  subst hNull
  cases j with
  | null => exact hThere rfl
  | bool value => cases hReordered
  | number value => cases hReordered
  | string value => cases hReordered
  | array items =>
      rcases hReordered with ⟨others, hSame, -⟩
      cases hSame
  | object members =>
      rcases hReordered with ⟨inPlace, others, hSame, -⟩
      cases hSame

------------------------------------------------------------
-- Settling
------------------------------------------------------------

/- A member with its value settled. -/
def settleMember
    (member : String × Json) : String × Json :=
  (member.1, member.2.settle)

/- Members of different keys are all kept when settled. -/
theorem perm_settleMembers
    (members sorted : List (String × Json))
    (hDiffer : (members.map Prod.fst).Nodup)
    (hNew :
      ∀ member ∈ members, ∀ entry ∈ sorted,
        entry.1 ≠ member.1) :
    (settleMembers members sorted).Perm
      (members.map settleMember ++ sorted) := by
  induction members generalizing sorted with
  | nil => exact .refl sorted
  | cons member rest ih =>
      rcases member with ⟨name, value⟩
      rw [List.map_cons, List.nodup_cons] at hDiffer
      rcases hDiffer with ⟨hName, hRest⟩
      have hInsert :=
        Entries.perm_insert value.settle
          (hNew (name, value) List.mem_cons_self)
      have hNext :
          ∀ member ∈ rest,
            ∀ entry ∈ Entries.insert name value.settle sorted,
              entry.1 ≠ member.1 := by
        intro member hMember entry hEntry
        rcases Entries.mem_of_mem_insert hEntry with hHere | hOld
        · rw [hHere]
          intro hEq
          exact hName (hEq ▸ List.mem_map_of_mem hMember)
        · exact hNew member (List.mem_cons_of_mem _ hMember)
            entry hOld
      rw [settleMembers, List.map_cons, List.cons_append]
      exact
        (ih _ hRest hNext).trans
          ((hInsert.append_left _).trans List.perm_middle)

/- Members that are reordered keep their keys. -/
theorem ReorderedMembers.keys_eq
    {members others : List (String × Json)}
    (hReordered : ReorderedMembers members others) :
    others.map Prod.fst = members.map Prod.fst := by
  induction members generalizing others with
  | nil =>
      rw [ReorderedMembers] at hReordered
      rw [hReordered]
  | cons member members ih =>
      rcases member with ⟨name, value⟩
      rcases hReordered with ⟨other, rest, hOthers, -, hRest⟩
      rw [hOthers, List.map_cons, List.map_cons, ih hRest]

mutual

/- Settling puts the members of a settled value back in order. -/
theorem settle_of_reordered :
    (j : Json) →
    {k : Json} →
    Settled j →
    Reordered j k →
    k.settle = j
  | .array items, k, hSettled, hReordered => by
      rcases hReordered with ⟨others, hSame, hItems⟩
      rw [hSame, settle,
        settleItems_of_reordered items hSettled hItems]
  | .object members, k, hSettled, hReordered => by
      rcases hReordered with
        ⟨inPlace, others, hSame, hMembers, hPerm⟩
      rcases hSettled with ⟨hAsc, hValues⟩
      have hInPlace :=
        settleMember_of_reordered members hValues hMembers
      have hKeys : (others.map Prod.fst).Nodup := by
        rw [← (hPerm.map Prod.fst).nodup_iff, hMembers.keys_eq]
        exact hAsc.nodup
      have hAll :=
        perm_settleMembers others [] hKeys (by simp)
      rw [List.append_nil] at hAll
      have hSorted : Entries.Ascending (settleMembers others []) :=
        (settled_settleMembers others [] .nil trivial).1
      rw [hSame, settle]
      congr 1
      refine Entries.eq_of_perm hSorted hAsc (hAll.trans ?_)
      rw [← hInPlace]
      exact (hPerm.map settleMember).symm
  | .null, _, _, hReordered => by
      rw [hReordered]
      rfl
  | .bool _, _, _, hReordered => by
      rw [hReordered]
      rfl
  | .number _, _, _, hReordered => by
      rw [hReordered]
      rfl
  | .string _, _, _, hReordered => by
      rw [hReordered]
      rfl

theorem settleItems_of_reordered :
    (items : List Json) →
    {others : List Json} →
    SettledItems items →
    ReorderedItems items others →
    settleItems others = items
  | [], others, _, hItems => by
      rw [ReorderedItems] at hItems
      rw [hItems]
      rfl
  | item :: items, others, hSettled, hItems => by
      rcases hItems with ⟨other, rest, hOthers, hHere, hRest⟩
      rw [hOthers, settleItems,
        settle_of_reordered item hSettled.1 hHere,
        settleItems_of_reordered items hSettled.2 hRest]

theorem settleMember_of_reordered :
    (members : List (String × Json)) →
    {others : List (String × Json)} →
    SettledMembers members →
    ReorderedMembers members others →
    others.map settleMember = members
  | [], others, _, hMembers => by
      rw [ReorderedMembers] at hMembers
      rw [hMembers]
      rfl
  | (name, value) :: members, others, hSettled, hMembers => by
      rcases hMembers with ⟨other, rest, hOthers, hHere, hRest⟩
      rw [hOthers, List.map_cons, settleMember,
        settle_of_reordered value hSettled.1 hHere,
        settleMember_of_reordered members hSettled.2 hRest]

end

end Json

end JourneyMatch
