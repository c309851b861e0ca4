import JourneyMatch.Proofs.Json.Reordering
import JourneyMatch.Proofs.Wire.Decoding

/-
  This file says which JSON stands for a value of a shape:
  that which is printed for it, with the members of every
  object in any order, and with further members, under names
  of no field, in the objects that have fields. All of it is
  decoded as the value.

  Key definitions include:
    * `Shape.Stands`
    * `Fields.Stands`

  Main statements:
    * `Shape.stands_json`
    * `Fields.decodeMember_comm`
    * `Fields.decodeMembers_perm`
    * `Shape.decode_of_stands`
-/

namespace JourneyMatch

------------------------------------------------------------
-- What stands for a value
------------------------------------------------------------

/- Whether each item stands for the value in its place. -/
def StandForEach
    {α : Type}
    (stands : α → Json → Prop) :
    List α → List Json → Prop
  | [], items => items = []
  | x :: xs, items =>
      ∃ item rest,
        items = item :: rest
          ∧ stands x item
          ∧ StandForEach stands xs rest

mutual

/-
  Whether JSON stands for a value of a shape. An object has
  its own members and others, in any order.
-/
def Shape.Stands :
    (shape : Shape) → shape.Carrier → Json → Prop
  | .free, x, j => Json.Reordered x j
  | .list item, xs, j =>
      ∃ items,
        j = .array items ∧ StandForEach item.Stands xs items
  | .optional _, none, j => j = .null
  | .optional inner, some x, j => inner.Stands x j
  | .record fields, x, j =>
      ∃ own others members,
        j = .object members
          ∧ fields.Stands x own
          ∧ (∀ member ∈ others, member.1 ∉ fields.names)
          ∧ (own ++ others).Perm members
  | .text, x, j => j = .string x
  | .flag, x, j => j = .bool x
  | .word32, x, j => j = .number (.integer x.toNat)
  | .word64, x, j => j = .number (.integer x.toNat)
  | .signed64, x, j => j = .number (.integer x.toInt)
  | .oneOf names, x, j => j = .string (names.get x)

/- Whether members stand for fields, in their order. -/
def Fields.Stands :
    (fields : Fields) →
    fields.Carrier →
    List (String × Json) →
    Prop
  | .nil, _, own => own = []
  | .cons name shape _ rest, (x, xs), own =>
      if shape.omits x then
        rest.Stands xs own
      else
        ∃ j others,
          own = (name, j) :: others
            ∧ shape.Stands x j
            ∧ rest.Stands xs others

end

theorem standForEach_map
    {α : Type}
    {stands : α → Json → Prop}
    {json : α → Json}
    (hStands : ∀ x, stands x (json x))
    (xs : List α) :
    StandForEach stands xs (xs.map json) := by
  induction xs with
  | nil => rfl
  | cons x xs ih => exact ⟨json x, xs.map json, rfl, hStands x, ih⟩

mutual

/- What is printed for a value stands for it. -/
theorem Shape.stands_json :
    (shape : Shape) →
    (x : shape.Carrier) →
    shape.Stands x (shape.json x)
  | .free, x => Json.reordered_refl x
  | .list item, xs =>
      ⟨xs.map item.json, rfl,
        standForEach_map (Shape.stands_json item) xs⟩
  | .optional _, none => rfl
  | .optional inner, some x => Shape.stands_json inner x
  | .record fields, x =>
      ⟨fields.json x, [], fields.json x, rfl,
        Fields.stands_json fields x, by simp,
        by rw [List.append_nil]⟩
  | .text, _ => rfl
  | .flag, _ => rfl
  | .word32, _ => rfl
  | .word64, _ => rfl
  | .signed64, _ => rfl
  | .oneOf _, _ => rfl

theorem Fields.stands_json :
    (fields : Fields) →
    (x : fields.Carrier) →
    fields.Stands x (fields.json x)
  | .nil, _ => rfl
  | .cons name shape absence rest, (x, xs) => by
      rw [Fields.Stands, Fields.json]
      split
      · exact Fields.stands_json rest xs
      · exact
          ⟨shape.json x, rest.json xs, rfl,
            Shape.stands_json shape x,
            Fields.stands_json rest xs⟩

end

/- A value that is not printed as a null has no null for it. -/
theorem Shape.ne_null_of_stands :
    (shape : Shape) →
    {x : shape.Carrier} →
    {j : Json} →
    shape.Stands x j →
    shape.json x ≠ .null →
    j ≠ .null
  | .free, _, _, hStands, hThere => hStands.ne_null hThere
  | .list _, _, _, hStands, _ => by
      rcases hStands with ⟨items, hSame, -⟩
      rw [hSame]
      intro hNull
      cases hNull
  | .optional _, none, _, _, hThere => absurd rfl hThere
  | .optional inner, some _, _, hStands, hThere =>
      Shape.ne_null_of_stands inner hStands hThere
  | .record _, _, _, hStands, _ => by
      rcases hStands with ⟨own, others, members, hSame, -⟩
      rw [hSame]
      intro hNull
      cases hNull
  | .text, _, _, hStands, hThere => hStands ▸ hThere
  | .flag, _, _, hStands, hThere => hStands ▸ hThere
  | .word32, _, _, hStands, hThere => hStands ▸ hThere
  | .word64, _, _, hStands, hThere => hStands ▸ hThere
  | .signed64, _, _, hStands, hThere => hStands ▸ hThere
  | .oneOf _, _, _, hStands, hThere => hStands ▸ hThere

/- The members that stand for fields have their names. -/
theorem Fields.mem_names_of_stands :
    (fields : Fields) →
    {x : fields.Carrier} →
    {own : List (String × Json)} →
    fields.Stands x own →
    ∀ member ∈ own, member.1 ∈ fields.names
  | .nil, _, own, hStands => by
      rw [Fields.Stands] at hStands
      rw [hStands]
      simp
  | .cons name shape absence rest, (x, xs), own, hStands => by
      intro member hMem
      rw [Fields.Stands] at hStands
      rw [names]
      split at hStands
      · exact List.mem_cons_of_mem name
          (Fields.mem_names_of_stands rest hStands member hMem)
      · rcases hStands with ⟨j, others, hOwn, -, hRest⟩
        rw [hOwn] at hMem
        rcases List.mem_cons.mp hMem with hHere | hThere
        · rw [hHere]
          exact List.mem_cons_self
        · exact List.mem_cons_of_mem name
            (Fields.mem_names_of_stands rest hRest member hThere)

------------------------------------------------------------
-- One member after the other
------------------------------------------------------------

theorem decodeMembers_append
    {σ : Type}
    {member : String → Json → σ → Except Mismatch σ}
    {first : List (String × Json)}
    {state middle : σ}
    (second : List (String × Json))
    (hFirst : decodeMembers member first state = .ok middle) :
    decodeMembers member (first ++ second) state
      = decodeMembers member second middle := by
  induction first generalizing state with
  | nil =>
      cases hFirst
      rfl
  | cons m rest ih =>
      rcases m with ⟨key, value⟩
      rw [decodeMembers] at hFirst
      rw [List.cons_append, decodeMembers]
      cases hOne : member key value state with
      | error cause => simp [hOne] at hFirst
      | ok next =>
          simp only [hOne] at hFirst ⊢
          exact ih hFirst

/- A member of another name is left to the other fields. -/
theorem Fields.decodeMember_behind
    {name key : String}
    {shape : Shape}
    {absence : Absence}
    {rest : Fields}
    (hKey : key ≠ name)
    (value : Json)
    (slot : Option shape.Carrier)
    (slots : rest.Slots) :
    (Fields.cons name shape absence rest).decodeMember key value
        (slot, slots)
      = (rest.decodeMember key value slots).map
        fun after => (slot, after) := by
  rw [decodeMember, if_neg hKey]
  cases rest.decodeMember key value slots <;> rfl

/- A member of the name of the first field fills its slot. -/
theorem Fields.decodeMember_here
    {name : String}
    {shape : Shape}
    {absence : Absence}
    {rest : Fields}
    {value : Json}
    {slots after : (Fields.cons name shape absence rest).Slots} :
    (Fields.cons name shape absence rest).decodeMember name
        value slots
      = .ok after ↔
      slots.1 = none
        ∧ ∃ x,
          shape.decode value = .ok x ∧ after = (some x, slots.2) := by
  rcases slots with ⟨slot, slots⟩
  rw [decodeMember, if_pos rfl]
  cases slot with
  | some y => simp
  | none =>
      cases shape.decode value with
      | error cause => simp
      | ok x =>
          simp only [Option.isSome_none, Bool.false_eq_true,
            if_false, Except.ok.injEq, true_and,
            exists_eq_left']
          exact eq_comm

/- Members of other names are left to the other fields. -/
theorem Fields.decodeMembers_behind
    {name : String}
    {shape : Shape}
    {absence : Absence}
    {rest : Fields}
    {members : List (String × Json)}
    (hKeys : ∀ member ∈ members, member.1 ≠ name)
    (slot : Option shape.Carrier)
    (slots : rest.Slots) :
    decodeMembers
        (Fields.cons name shape absence rest).decodeMember
        members (slot, slots)
      = (decodeMembers rest.decodeMember members slots).map
        fun after => (slot, after) := by
  induction members generalizing slots with
  | nil => rfl
  | cons member members ih =>
      rcases member with ⟨key, value⟩
      have hKey : key ≠ name := hKeys _ List.mem_cons_self
      rw [decodeMembers, decodeMembers,
        decodeMember_behind hKey value slot slots]
      cases rest.decodeMember key value slots with
      | error cause => rfl
      | ok after =>
          exact ih (fun m hMem =>
            hKeys m (List.mem_cons_of_mem _ hMem)) after

/- A member under the name of no field is passed over. -/
theorem Fields.decodeMember_of_notMem :
    (fields : Fields) →
    {key : String} →
    (value : Json) →
    (slots : fields.Slots) →
    key ∉ fields.names →
    fields.decodeMember key value slots = .ok slots
  | .nil, _, _, _, _ => rfl
  | .cons name shape absence rest, key, value, (slot, slots),
      hKey => by
      rw [names, List.mem_cons, not_or] at hKey
      rw [decodeMember_behind hKey.1,
        Fields.decodeMember_of_notMem rest value slots hKey.2]
      rfl

theorem Fields.decodeMembers_of_notMem
    {fields : Fields}
    {members : List (String × Json)}
    (slots : fields.Slots)
    (hKeys : ∀ member ∈ members, member.1 ∉ fields.names) :
    decodeMembers fields.decodeMember members slots
      = .ok slots := by
  induction members with
  | nil => rfl
  | cons member members ih =>
      rcases member with ⟨key, value⟩
      rw [decodeMembers,
        fields.decodeMember_of_notMem value slots
          (hKeys _ List.mem_cons_self)]
      exact ih fun m hMem =>
        hKeys m (List.mem_cons_of_mem _ hMem)

------------------------------------------------------------
-- Any order
------------------------------------------------------------

/-
  Two members that are decoded one after the other are
  decoded in the other order too, with the same result. They
  cannot be of one field, which would be refused the second
  time.
-/
theorem Fields.decodeMember_comm :
    (fields : Fields) →
    {key other : String} →
    {value otherValue : Json} →
    {slots middle after : fields.Slots} →
    fields.decodeMember key value slots = .ok middle →
    fields.decodeMember other otherValue middle = .ok after →
    ∃ swapped,
      fields.decodeMember other otherValue slots = .ok swapped
        ∧ fields.decodeMember key value swapped = .ok after
  | .nil, _, _, _, _, _, _, _, _, _ => ⟨(), rfl, rfl⟩
  | .cons name shape absence rest, key, other, value,
      otherValue, (slot, slots), middle, after, hFirst,
      hSecond => by
      by_cases hKey : key = name
      · subst hKey
        rcases decodeMember_here.mp hFirst with
          ⟨hEmpty, x, hValue, hMiddle⟩
        subst hMiddle
        by_cases hOther : other = key
        · subst hOther
          rcases decodeMember_here.mp hSecond with ⟨hTwice, -⟩
          cases hTwice
        · rw [decodeMember_behind hOther] at hSecond
          cases hRest :
              rest.decodeMember other otherValue slots with
          | error cause =>
              rw [hRest] at hSecond
              cases hSecond
          | ok others =>
              rw [hRest] at hSecond
              cases hSecond
              refine ⟨(slot, others), ?_, ?_⟩
              · rw [decodeMember_behind hOther, hRest]
                rfl
              · exact decodeMember_here.mpr
                  ⟨hEmpty, x, hValue, rfl⟩
      · rw [decodeMember_behind hKey] at hFirst
        cases hOne : rest.decodeMember key value slots with
        | error cause =>
            rw [hOne] at hFirst
            cases hFirst
        | ok others =>
            rw [hOne] at hFirst
            cases hFirst
            by_cases hOther : other = name
            · subst hOther
              rcases decodeMember_here.mp hSecond with
                ⟨hEmpty, x, hValue, hAfter⟩
              subst hAfter
              refine ⟨(some x, slots), ?_, ?_⟩
              · exact decodeMember_here.mpr
                  ⟨hEmpty, x, hValue, rfl⟩
              · rw [decodeMember_behind hKey, hOne]
                rfl
            · rw [decodeMember_behind hOther] at hSecond
              cases hTwo :
                  rest.decodeMember other otherValue others with
              | error cause =>
                  rw [hTwo] at hSecond
                  cases hSecond
              | ok last =>
                  rw [hTwo] at hSecond
                  cases hSecond
                  rcases Fields.decodeMember_comm rest hOne hTwo
                    with ⟨swapped, hSwapped, hLast⟩
                  refine ⟨(slot, swapped), ?_, ?_⟩
                  · rw [decodeMember_behind hOther, hSwapped]
                    rfl
                  · rw [decodeMember_behind hKey, hLast]
                    rfl

/- Members that are decoded are decoded in every order. -/
theorem Fields.decodeMembers_perm
    {fields : Fields}
    {members others : List (String × Json)}
    {slots after : fields.Slots}
    (hPerm : members.Perm others)
    (hDecode :
      decodeMembers fields.decodeMember members slots
        = .ok after) :
    decodeMembers fields.decodeMember others slots
      = .ok after := by
  induction hPerm generalizing slots with
  | nil => exact hDecode
  | cons member _ ih =>
      rcases member with ⟨key, value⟩
      rw [decodeMembers] at hDecode ⊢
      cases hOne : fields.decodeMember key value slots with
      | error cause => simp [hOne] at hDecode
      | ok middle =>
          simp only [hOne] at hDecode ⊢
          exact ih hDecode
  | swap first second rest =>
      rcases first with ⟨key, value⟩
      rcases second with ⟨other, otherValue⟩
      rw [decodeMembers] at hDecode
      cases hOne : fields.decodeMember other otherValue slots with
      | error cause => simp [hOne] at hDecode
      | ok middle =>
          simp only [hOne] at hDecode
          rw [decodeMembers] at hDecode
          cases hTwo : fields.decodeMember key value middle with
          | error cause => simp [hTwo] at hDecode
          | ok last =>
              simp only [hTwo] at hDecode
              rcases fields.decodeMember_comm hOne hTwo with
                ⟨swapped, hSwapped, hLast⟩
              rw [decodeMembers, hSwapped]
              simp only
              rw [decodeMembers, hLast]
              exact hDecode
  | trans _ _ ihFirst ihSecond =>
      exact ihSecond (ihFirst hDecode)

------------------------------------------------------------
-- What stands for a value is decoded as it
------------------------------------------------------------

theorem decodeItems_of_each
    {α : Type}
    {item : Json → Except Mismatch α}
    {stands : α → Json → Prop}
    {xs : List α}
    {items : List Json}
    (hItem :
      ∀ x ∈ xs, ∀ j, stands x j → item j = .ok x)
    (hStands : StandForEach stands xs items) :
    decodeItems item items = .ok xs := by
  induction xs generalizing items with
  | nil =>
      rw [StandForEach] at hStands
      rw [hStands]
      rfl
  | cons x xs ih =>
      rcases hStands with ⟨j, rest, hItems, hHere, hRest⟩
      have hFirst := hItem x List.mem_cons_self j hHere
      have hOthers :=
        ih (fun y hMem => hItem y (List.mem_cons_of_mem x hMem))
          hRest
      rw [hItems, decodeItems, hFirst]
      simp only [hOthers]

mutual

/- What stands for a value is decoded as it. -/
theorem Shape.decode_of_stands :
    (shape : Shape) →
    shape.wellNamed = true →
    shape.regular = true →
    (x : shape.Carrier) →
    {j : Json} →
    shape.Holds Json.AsRead x →
    shape.Stands x j →
    shape.decode j = .ok x
  | .free, _, _, x, j, hHolds, hStands => by
      have hRead : x.AsRead := hHolds
      rw [Shape.decode,
        x.settle_of_reordered hRead.settled hStands]
  | .list item, hNames, hRegular, xs, j, hHolds, hStands => by
      rcases hStands with ⟨items, hSame, hEach⟩
      rw [hSame, Shape.decode]
      refine decodeItems_of_each ?_ hEach
      intro x hMem k hStands
      exact Shape.decode_of_stands item hNames hRegular x
        (hHolds x hMem) hStands
  | .optional _, _, _, none, j, _, hStands => by
      rw [Shape.Stands] at hStands
      rw [hStands, Shape.decode]
  | .optional inner, hNames, hRegular, some x, j, hHolds,
      hStands => by
      have hThere :=
        Shape.ne_null_of_stands inner hStands hHolds.2
      rw [Shape.decode_optional hThere,
        Shape.decode_of_stands inner hNames hRegular x hHolds.1
          hStands]
      rfl
  | .record fields, hNames, hRegular, x, j, hHolds, hStands => by
      rcases hStands with
        ⟨own, others, members, hSame, hOwn, hOthers, hPerm⟩
      have hFilled :=
        Fields.decodeMembers_of_stands fields hNames hRegular x
          hHolds hOwn
      have hAll :
          decodeMembers fields.decodeMember (own ++ others)
              fields.noSlots
            = .ok (fields.filled x) := by
        rw [decodeMembers_append others hFilled,
          Fields.decodeMembers_of_notMem _ hOthers]
      rw [hSame, Shape.decode,
        Fields.decodeMembers_perm hPerm hAll]
      exact fields.close_filled x hRegular
  | .text, _, _, _, _, _, hStands => by
      rw [Shape.Stands] at hStands
      rw [hStands, Shape.decode]
  | .flag, _, _, _, _, _, hStands => by
      rw [Shape.Stands] at hStands
      rw [hStands, Shape.decode]
  | .word32, _, _, x, _, _, hStands => by
      rw [Shape.Stands] at hStands
      rw [hStands, Shape.decode, Number.toWord32_toNat]
  | .word64, _, _, x, _, _, hStands => by
      rw [Shape.Stands] at hStands
      rw [hStands, Shape.decode, Number.toWord64_toNat]
  | .signed64, _, _, x, _, _, hStands => by
      rw [Shape.Stands] at hStands
      rw [hStands, Shape.decode, Number.toSigned64_toInt]
  | .oneOf names, _, hRegular, x, _, _, hStands => by
      rw [Shape.regular, decide_eq_true_eq] at hRegular
      rw [Shape.Stands] at hStands
      rw [hStands, Shape.decode, decodeVariant,
        variant?_get hRegular]

/- Members that stand for fields fill the slots of these. -/
theorem Fields.decodeMembers_of_stands :
    (fields : Fields) →
    fields.wellNamed = true →
    fields.regular = true →
    (x : fields.Carrier) →
    {own : List (String × Json)} →
    fields.Holds Json.AsRead x →
    fields.Stands x own →
    decodeMembers fields.decodeMember own fields.noSlots
      = .ok (fields.filled x)
  | .nil, _, _, _, own, _, hStands => by
      rw [Fields.Stands] at hStands
      rw [hStands]
      rfl
  | .cons name shape absence rest, hNames, hRegular, (x, xs),
      own, hHolds, hStands => by
      rw [Fields.wellNamed, Bool.and_eq_true, Bool.and_eq_true,
        decide_eq_true_eq] at hNames
      rcases hNames with ⟨⟨hFresh, hShapeNames⟩, hRestNames⟩
      rw [Fields.regular, Bool.and_eq_true, Bool.and_eq_true]
        at hRegular
      rcases hRegular with ⟨⟨-, hShape⟩, hRest⟩
      -- Members for the other fields do not have this name.
      have hBehind :
          ∀ others slot,
            rest.Stands xs others →
              decodeMembers
                  (Fields.cons name shape absence
                    rest).decodeMember others
                  (slot, rest.noSlots)
                = .ok (slot, rest.filled xs) := by
        intro others slot hOthers
        have hKeys : ∀ member ∈ others, member.1 ≠ name :=
          fun member hMem hEq =>
            hFresh
              (hEq ▸ rest.mem_names_of_stands hOthers member hMem)
        rw [Fields.decodeMembers_behind hKeys,
          Fields.decodeMembers_of_stands rest hRestNames hRest xs
            hHolds.2 hOthers]
        rfl
      rw [Fields.Stands] at hStands
      rw [Fields.noSlots, Fields.filled]
      split at hStands
      · rename_i hOmits
        rw [if_pos hOmits]
        exact hBehind own none hStands
      · rename_i hThere
        rcases hStands with ⟨j, others, hOwn, hHere, hOthers⟩
        have hValue :=
          Shape.decode_of_stands shape hShapeNames hShape x
            hHolds.1 hHere
        have hFirst :
            (Fields.cons name shape absence rest).decodeMember
                name j (none, rest.noSlots)
              = .ok (some x, rest.noSlots) :=
          Fields.decodeMember_here.mpr ⟨rfl, x, hValue, rfl⟩
        rw [if_neg hThere, hOwn, decodeMembers, hFirst]
        exact hBehind others (some x) hOthers

end

end JourneyMatch
