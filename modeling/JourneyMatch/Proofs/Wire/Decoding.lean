import JourneyMatch.Proofs.Wire.Nesting

/-
  This file says what can be decoded. A value of a shape that
  has been decoded is nested no deeper than what it was
  decoded from, and the values without a shape in it are as
  reading leaves them: settled, with integers that are kept.

  Key definitions include:
    * `Json.AsRead`
    * `Shape.Decoded`
    * `Fields.Decoded`
    * `Fields.SlotsDecoded`

  Main statements:
    * `Shape.decoded_of_decode`
-/

namespace JourneyMatch

------------------------------------------------------------
-- Values as reading leaves them
------------------------------------------------------------

/- Whether a value is settled and its integers are kept. -/
structure Json.AsRead
    (j : Json) : Prop where
  settled : j.Settled
  numbers : ∀ n ∈ j.numbers, n.Kept

theorem Json.KeptWithin.asRead_settle
    {depth : Nat}
    {j : Json}
    (hKept : j.KeptWithin depth) :
    j.settle.AsRead where
  settled := j.settled_settle
  numbers n hMem :=
    hKept.numbers n (Json.mem_numbers_of_settle j hMem)

/- The items of an array are nested one level less. -/
theorem Json.KeptWithin.items
    {depth : Nat}
    {items : List Json}
    (hKept : (Json.array items).KeptWithin depth) :
    ∃ within,
      depth = within + 1
        ∧ ∀ item ∈ items, item.KeptWithin within := by
  cases depth with
  | zero => exact absurd hKept.depth (Nat.not_succ_le_zero _)
  | succ within =>
      refine ⟨within, rfl, ?_⟩
      intro item hMem
      constructor
      · intro n hNumber
        exact hKept.numbers n
          (Json.mem_numbersItems_iff.mpr ⟨item, hMem, hNumber⟩)
      · have hDepth := Nat.le_of_succ_le_succ hKept.depth
        exact Json.depthItems_le_iff.mp hDepth item hMem

/- So are the values of an object's members. -/
theorem Json.KeptWithin.members
    {depth : Nat}
    {members : List (String × Json)}
    (hKept : (Json.object members).KeptWithin depth) :
    ∃ within,
      depth = within + 1
        ∧ ∀ member ∈ members, member.2.KeptWithin within := by
  cases depth with
  | zero => exact absurd hKept.depth (Nat.not_succ_le_zero _)
  | succ within =>
      refine ⟨within, rfl, ?_⟩
      intro member hMem
      constructor
      · intro n hNumber
        exact hKept.numbers n
          (Json.mem_numbersMembers_iff.mpr
            ⟨member, hMem, hNumber⟩)
      · have hDepth := Nat.le_of_succ_le_succ hKept.depth
        exact Json.depthMembers_le_iff.mp hDepth member hMem

------------------------------------------------------------
-- Decoding items and members
------------------------------------------------------------

/- Each item that was decoded was decoded from an item. -/
theorem exists_of_decodeItems
    {α : Type}
    {item : Json → Except Mismatch α}
    {js : List Json}
    {xs : List α}
    (hDecode : decodeItems item js = .ok xs) :
    ∀ x ∈ xs, ∃ j ∈ js, item j = .ok x := by
  induction js generalizing xs with
  | nil =>
      cases hDecode
      simp
  | cons j js ih =>
      rw [decodeItems] at hDecode
      cases hItem : item j with
      | error cause => simp [hItem] at hDecode
      | ok y =>
          cases hRest : decodeItems item js with
          | error cause => simp [hItem, hRest] at hDecode
          | ok ys =>
              simp only [hItem, hRest] at hDecode
              cases hDecode
              intro x hMem
              rcases List.mem_cons.mp hMem with hHere | hThere
              · exact
                  ⟨j, List.mem_cons_self, hHere ▸ hItem⟩
              · rcases ih hRest x hThere with ⟨k, hIn, hOk⟩
                exact ⟨k, List.mem_cons_of_mem j hIn, hOk⟩

/- What every member keeps is kept by all of them. -/
theorem decodeMembers_keeps
    {σ : Type}
    {member : String → Json → σ → Except Mismatch σ}
    {P : σ → Prop}
    {members : List (String × Json)}
    {state after : σ}
    (hMember :
      ∀ m ∈ members, ∀ state after,
        P state → member m.1 m.2 state = .ok after → P after)
    (hState : P state)
    (hDecode : decodeMembers member members state = .ok after) :
    P after := by
  induction members generalizing state with
  | nil =>
      cases hDecode
      exact hState
  | cons m rest ih =>
      rcases m with ⟨key, value⟩
      rw [decodeMembers] at hDecode
      cases hOne : member key value state with
      | error cause => simp [hOne] at hDecode
      | ok next =>
          simp only [hOne] at hDecode
          exact
            ih (fun m hMem =>
                hMember m (List.mem_cons_of_mem _ hMem))
              (hMember (key, value) List.mem_cons_self
                state next hState hOne)
              hDecode

/- An optional value is decoded from anything but a null. -/
theorem Shape.decode_optional
    {inner : Shape}
    {j : Json}
    (hThere : j ≠ .null) :
    (Shape.optional inner).decode j
      = (inner.decode j).map some := by
  rw [decode]
  · cases inner.decode j <;> rfl
  · exact hThere

/- Only a null is decoded as what is printed as a null. -/
theorem Shape.json_ne_null :
    (shape : Shape) →
    {j : Json} →
    {x : shape.Carrier} →
    j ≠ .null →
    shape.decode j = .ok x →
    shape.json x ≠ .null
  | .optional inner, j, x, hThere, hDecode => by
      rw [decode_optional hThere] at hDecode
      cases hInner : inner.decode j with
      | error cause =>
          rw [hInner] at hDecode
          cases hDecode
      | ok y =>
          rw [hInner] at hDecode
          cases hDecode
          exact Shape.json_ne_null inner hThere hInner
  | .free, j, x, hThere, hDecode => by
      cases hDecode
      intro hNull
      cases j with
      | null => exact hThere rfl
      | bool value => cases hNull
      | number value => cases hNull
      | string value => cases hNull
      | array items => cases hNull
      | object members => cases hNull
  | .text, _, _, _, _ => nofun
  | .flag, _, _, _, _ => nofun
  | .word32, _, _, _, _ => nofun
  | .word64, _, _, _, _ => nofun
  | .signed64, _, _, _, _ => nofun
  | .oneOf _, _, _, _, _ => nofun
  | .list _, _, _, _, _ => nofun
  | .record _, _, _, _, _ => nofun

------------------------------------------------------------
-- Decoded values
------------------------------------------------------------

/-
  Whether a value of a shape is as reading leaves it, and
  nested so far at most.
-/
structure Shape.Decoded
    (depth : Nat)
    (shape : Shape)
    (x : shape.Carrier) : Prop where
  holds : shape.Holds Json.AsRead x
  depth : (shape.json x).depth ≤ depth

/- The same of fields. -/
structure Fields.Decoded
    (depth : Nat)
    (fields : Fields)
    (x : fields.Carrier) : Prop where
  holds : fields.Holds Json.AsRead x
  depth : Json.depthMembers (fields.json x) ≤ depth

/- The same of the fields that have been read so far. -/
def Fields.SlotsDecoded
    (depth : Nat) :
    (fields : Fields) → fields.Slots → Prop
  | .nil, _ => True
  | .cons _ shape _ rest, (slot, slots) =>
      (∀ x, slot = some x → shape.Decoded depth x)
        ∧ rest.SlotsDecoded depth slots

theorem Fields.Decoded.cons
    {depth : Nat}
    {shape : Shape}
    {rest : Fields}
    {x : shape.Carrier}
    {xs : rest.Carrier}
    (name : String)
    (absence : Absence)
    (hFirst : shape.Decoded depth x)
    (hRest : rest.Decoded depth xs) :
    (Fields.cons name shape absence rest).Decoded depth
      (x, xs) where
  holds := ⟨hFirst.holds, hRest.holds⟩
  depth := by
    rw [json]
    split
    · exact hRest.depth
    · exact Nat.max_le.mpr ⟨hFirst.depth, hRest.depth⟩

theorem Fields.Decoded.record
    {depth : Nat}
    {fields : Fields}
    {x : fields.Carrier}
    (hFields : fields.Decoded depth x) :
    (Shape.record fields).Decoded (depth + 1) x where
  holds := hFields.holds
  depth := Nat.succ_le_succ hFields.depth

/- Nothing has been read at the beginning. -/
theorem Fields.slotsDecoded_noSlots
    (depth : Nat) :
    (fields : Fields) →
    fields.SlotsDecoded depth fields.noSlots
  | .nil => trivial
  | .cons _ _ _ rest =>
      ⟨nofun, slotsDecoded_noSlots depth rest⟩

/- What is filled in is as reading leaves it. -/
theorem Shape.decoded_of_fill?
    {shape : Shape}
    {absence : Absence}
    {x : shape.Carrier}
    (depth : Nat)
    (hFill : shape.fill? absence = some x) :
    shape.Decoded depth x := by
  unfold fill? at hFill
  split at hFill
  · cases hFill
    exact ⟨trivial, Nat.zero_le _⟩
  · cases hFill
    exact ⟨trivial, Nat.zero_le _⟩
  · cases hFill
    exact ⟨⟨trivial, nofun⟩, Nat.zero_le _⟩
  · cases hFill
    exact ⟨⟨trivial, nofun⟩, Nat.zero_le _⟩
  · cases hFill
    exact ⟨trivial, Nat.zero_le _⟩
  · cases hFill

theorem Shape.decoded_of_fillAtEnd?
    {shape : Shape}
    {absence : Absence}
    {x : shape.Carrier}
    (depth : Nat)
    (hFill : shape.fillAtEnd? absence = some x) :
    shape.Decoded depth x := by
  unfold fillAtEnd? at hFill
  split at hFill
  · cases hFill
  · exact decoded_of_fill? depth hFill

/- Closing fills in what is missing. -/
theorem Fields.decoded_of_close
    {depth : Nat} :
    (fields : Fields) →
    {slots : fields.Slots} →
    {x : fields.Carrier} →
    fields.SlotsDecoded depth slots →
    fields.close slots = .ok x →
    fields.Decoded depth x
  | .nil, _, _, _, _ => ⟨trivial, Nat.zero_le _⟩
  | .cons name shape absence rest, (slot, slots), x, hSlots,
      hClose => by
      rw [close] at hClose
      cases hFirst : slot.or (shape.fill? absence) with
      | none => simp [hFirst] at hClose
      | some y =>
          cases hRest : rest.close slots with
          | error cause => simp [hFirst, hRest] at hClose
          | ok ys =>
              simp only [hFirst, hRest] at hClose
              cases hClose
              refine .cons name absence ?_
                (decoded_of_close rest hSlots.2 hRest)
              rcases Option.or_eq_some_iff.mp hFirst with
                hRead | ⟨-, hFill⟩
              · exact hSlots.1 y hRead
              · exact Shape.decoded_of_fill? depth hFill

theorem Fields.decoded_of_closeAtEnd
    {depth : Nat} :
    (fields : Fields) →
    {x : fields.Carrier} →
    fields.closeAtEnd = .ok x →
    fields.Decoded depth x
  | .nil, _, _ => ⟨trivial, Nat.zero_le _⟩
  | .cons name shape absence rest, x, hClose => by
      rw [closeAtEnd] at hClose
      cases hFirst : shape.fillAtEnd? absence with
      | none => simp [hFirst] at hClose
      | some y =>
          cases hRest : rest.closeAtEnd with
          | error cause => simp [hFirst, hRest] at hClose
          | ok ys =>
              simp only [hFirst, hRest] at hClose
              cases hClose
              exact .cons name absence
                (Shape.decoded_of_fillAtEnd? depth hFirst)
                (decoded_of_closeAtEnd rest hRest)

------------------------------------------------------------
-- What is decoded
------------------------------------------------------------

mutual

/- What is decoded is as reading leaves it. -/
theorem Shape.decoded_of_decode :
    (shape : Shape) →
    {depth : Nat} →
    {j : Json} →
    {x : shape.Carrier} →
    j.KeptWithin depth →
    shape.decode j = .ok x →
    shape.Decoded depth x
  | .text, _, _, _, _, _ => ⟨trivial, Nat.zero_le _⟩
  | .flag, _, _, _, _, _ => ⟨trivial, Nat.zero_le _⟩
  | .word32, _, _, _, _, _ => ⟨trivial, Nat.zero_le _⟩
  | .word64, _, _, _, _, _ => ⟨trivial, Nat.zero_le _⟩
  | .signed64, _, _, _, _, _ => ⟨trivial, Nat.zero_le _⟩
  | .oneOf _, _, _, _, _, _ => ⟨trivial, Nat.zero_le _⟩
  | .free, depth, j, x, hKept, hDecode => by
      cases hDecode
      exact
        ⟨hKept.asRead_settle,
          Nat.le_trans (Json.depth_settle_le j) hKept.depth⟩
  | .list item, depth, j, xs, hKept, hDecode => by
      cases j with
      | array items =>
          rcases hKept.items with ⟨within, hDepth, hItems⟩
          subst hDepth
          have hDecoded : ∀ x ∈ xs, item.Decoded within x := by
            intro x hMem
            rcases exists_of_decodeItems hDecode x hMem with
              ⟨k, hIn, hOk⟩
            exact Shape.decoded_of_decode item (hItems k hIn) hOk
          constructor
          · exact fun x hMem => (hDecoded x hMem).holds
          · apply Nat.succ_le_succ
            rw [Json.depthItems_le_iff]
            intro k hIn
            rcases List.mem_map.mp hIn with ⟨x, hMem, hJson⟩
            rw [← hJson]
            exact (hDecoded x hMem).depth
      | null => cases hDecode
      | bool value => cases hDecode
      | number value => cases hDecode
      | string value => cases hDecode
      | object members => cases hDecode
  | .optional inner, depth, j, x, hKept, hDecode => by
      by_cases hNull : j = .null
      · subst hNull
        cases hDecode
        exact ⟨trivial, Nat.zero_le _⟩
      · rw [Shape.decode_optional hNull] at hDecode
        cases hInner : inner.decode j with
        | error cause =>
            rw [hInner] at hDecode
            cases hDecode
        | ok y =>
            rw [hInner] at hDecode
            cases hDecode
            have hDecoded :=
              Shape.decoded_of_decode inner hKept hInner
            exact
              ⟨⟨hDecoded.holds,
                  Shape.json_ne_null inner hNull hInner⟩,
                hDecoded.depth⟩
  | .record fields, depth, j, x, hKept, hDecode => by
      cases j with
      | object members =>
          rcases hKept.members with ⟨within, hDepth, hMembers⟩
          subst hDepth
          rw [Shape.decode] at hDecode
          cases hSlots :
              decodeMembers fields.decodeMember members
                fields.noSlots with
          | error cause => simp [hSlots] at hDecode
          | ok slots =>
              simp only [hSlots] at hDecode
              have hRead : fields.SlotsDecoded within slots :=
                decodeMembers_keeps
                  (fun m hMem _ _ hBefore hOne =>
                    Fields.decoded_of_decodeMember fields
                      (hMembers m hMem) hBefore hOne)
                  (fields.slotsDecoded_noSlots within) hSlots
              exact (fields.decoded_of_close hRead hDecode).record
      | array items =>
          rcases hKept.items with ⟨within, hDepth, hItems⟩
          subst hDepth
          exact
            (Fields.decoded_of_decodeInOrder fields hItems
              hDecode).record
      | null => cases hDecode
      | bool value => cases hDecode
      | number value => cases hDecode
      | string value => cases hDecode

/- A member fills a slot with what is as reading leaves it. -/
theorem Fields.decoded_of_decodeMember :
    (fields : Fields) →
    {depth : Nat} →
    {key : String} →
    {j : Json} →
    {slots after : fields.Slots} →
    j.KeptWithin depth →
    fields.SlotsDecoded depth slots →
    fields.decodeMember key j slots = .ok after →
    fields.SlotsDecoded depth after
  | .nil, _, _, _, _, _, _, _, _ => trivial
  | .cons name shape absence rest, depth, key, j,
      (slot, slots), after, hKept, hSlots, hDecode => by
      rw [Fields.decodeMember] at hDecode
      split at hDecode
      · split at hDecode
        · cases hDecode
        · cases hValue : shape.decode j with
          | error cause => simp [hValue] at hDecode
          | ok y =>
              simp only [hValue] at hDecode
              cases hDecode
              refine ⟨?_, hSlots.2⟩
              intro x hSome
              cases hSome
              exact Shape.decoded_of_decode shape hKept hValue
      · cases hRest : rest.decodeMember key j slots with
        | error cause => simp [hRest] at hDecode
        | ok others =>
            simp only [hRest] at hDecode
            cases hDecode
            exact
              ⟨hSlots.1,
                Fields.decoded_of_decodeMember rest hKept
                  hSlots.2 hRest⟩

/- Fields that are decoded in order are as reading leaves them. -/
theorem Fields.decoded_of_decodeInOrder :
    (fields : Fields) →
    {depth : Nat} →
    {items : List Json} →
    {x : fields.Carrier} →
    (∀ item ∈ items, item.KeptWithin depth) →
    fields.decodeInOrder items = .ok x →
    fields.Decoded depth x
  | .nil, _, _, _, _, _ => ⟨trivial, Nat.zero_le _⟩
  | .cons name shape absence rest, depth, [], x, _, hDecode =>
      Fields.decoded_of_closeAtEnd _ hDecode
  | .cons name shape absence rest, depth, item :: items, x,
      hItems, hDecode => by
      rw [Fields.decodeInOrder] at hDecode
      cases hFirst : shape.decode item with
      | error cause => simp [hFirst] at hDecode
      | ok y =>
          cases hRest : rest.decodeInOrder items with
          | error cause => simp [hFirst, hRest] at hDecode
          | ok ys =>
              simp only [hFirst, hRest] at hDecode
              cases hDecode
              exact .cons name absence
                (Shape.decoded_of_decode shape
                  (hItems item List.mem_cons_self) hFirst)
                (Fields.decoded_of_decodeInOrder rest
                  (fun k hMem =>
                    hItems k (List.mem_cons_of_mem item hMem))
                  hRest)

end

end JourneyMatch
