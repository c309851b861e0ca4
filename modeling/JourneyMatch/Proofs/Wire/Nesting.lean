import JourneyMatch.Proofs.Json.Nesting
import JourneyMatch.Proofs.Wire.Reading

/-
  This file says when a printed value of a shape is read as
  it was. A regular shape has a value for each field that may
  be left out when it is printed; if also the values without
  a shape are settled and have exact numbers, the nesting of
  what is printed alone decides.

  Key definitions include:
    * `Shape.regular`
    * `Shape.Holds`
    * `Json.Exact`
    * `Fields.filled`

  Main statements:
    * `Shape.holds_of_numbers`
    * `Shape.exact_of_holds`
    * `Shape.reread_eq`
    * `Fields.close_rereadSlots_cons`
-/

namespace JourneyMatch

------------------------------------------------------------
-- Regular shapes
------------------------------------------------------------

/- Whether a field that is not printed is filled when read. -/
def Shape.fillsOmitted :
    Shape → Absence → Bool
  | .optional _, .required => false
  | .optional _, .count _ => false
  | _, _ => true

mutual

/-
  Whether variants have different names, and fields that are
  not printed are filled when read.
-/
def Shape.regular :
    Shape → Bool
  | .oneOf names => decide names.Nodup
  | .list item => item.regular
  | .optional inner => inner.regular
  | .record fields => fields.regular
  | .text => true
  | .flag => true
  | .word32 => true
  | .word64 => true
  | .signed64 => true
  | .free => true

/- The same of fields. -/
def Fields.regular :
    Fields → Bool
  | .nil => true
  | .cons _ shape absence rest =>
      shape.fillsOmitted absence
        && shape.regular
        && rest.regular

end

/- A value that is not printed is the one that is filled in. -/
theorem Shape.fill?_of_omits
    {shape : Shape}
    {absence : Absence}
    {x : shape.Carrier}
    (hFills : shape.fillsOmitted absence = true)
    (hOmits : shape.omits x = true) :
    shape.fill? absence = some x := by
  cases shape with
  | optional inner =>
      cases x with
      | some y => cases hOmits
      | none =>
          cases absence with
          | required => cases hFills
          | count => cases hFills
          | blank => rfl
          | blankByName => rfl
  | text => cases hOmits
  | flag => cases hOmits
  | word32 => cases hOmits
  | word64 => cases hOmits
  | signed64 => cases hOmits
  | oneOf => cases hOmits
  | free => cases hOmits
  | list => cases hOmits
  | record => cases hOmits

/- A variant of different names is found by its name. -/
theorem variant?_get
    {names : List String}
    (hNodup : names.Nodup)
    (x : Fin names.length) :
    variant? names (names.get x) = .ok x := by
  have hPlace :
      names.finIdxOf? (names.get x) = some x := by
    rw [List.finIdxOf?_eq_some_iff]
    refine ⟨rfl, ?_⟩
    intro j hBefore
    exact
      List.pairwise_iff_getElem.mp hNodup j x j.isLt x.isLt
        hBefore
  rw [variant?, hPlace]

------------------------------------------------------------
-- Values without a shape
------------------------------------------------------------

mutual

/-
  Whether the values without a shape within a value have a
  property, and no optional value that is there is printed
  as a null.
-/
def Shape.Holds
    (P : Json → Prop) :
    (shape : Shape) → shape.Carrier → Prop
  | .free, x => P x
  | .list item, xs => ∀ x ∈ xs, item.Holds P x
  | .optional _, none => True
  | .optional inner, some x =>
      inner.Holds P x ∧ inner.json x ≠ .null
  | .record fields, x => fields.Holds P x
  | .text, _ => True
  | .flag, _ => True
  | .word32, _ => True
  | .word64, _ => True
  | .signed64, _ => True
  | .oneOf _, _ => True

/- The same of all fields. -/
def Fields.Holds
    (P : Json → Prop) :
    (fields : Fields) → fields.Carrier → Prop
  | .nil, _ => True
  | .cons _ shape _ rest, (x, xs) =>
      shape.Holds P x ∧ rest.Holds P xs

end

/- A value that is not printed has every property. -/
theorem Shape.holds_of_omits
    {P : Json → Prop}
    {shape : Shape}
    {x : shape.Carrier}
    (hOmits : shape.omits x = true) :
    shape.Holds P x := by
  cases shape with
  | optional inner =>
      cases x with
      | none => trivial
      | some y => cases hOmits
  | text => cases hOmits
  | flag => cases hOmits
  | word32 => cases hOmits
  | word64 => cases hOmits
  | signed64 => cases hOmits
  | oneOf => cases hOmits
  | free => cases hOmits
  | list => cases hOmits
  | record => cases hOmits

mutual

/-
  A property that follows from what is known of the numbers
  holds if it is known of all numbers that are printed.
-/
theorem Shape.holds_of_numbers
    {P Q : Json → Prop}
    {known : Number → Prop}
    (hFollows :
      ∀ j : Json, P j → (∀ n ∈ j.numbers, known n) → Q j) :
    (shape : Shape) →
    (x : shape.Carrier) →
    shape.Holds P x →
    (∀ n ∈ (shape.json x).numbers, known n) →
    shape.Holds Q x
  | .free, x, hHolds, hKnown => hFollows x hHolds hKnown
  | .list item, xs, hHolds, hKnown => by
      intro x hMem
      apply Shape.holds_of_numbers hFollows item x (hHolds x hMem)
      intro n hNumber
      apply hKnown n
      rw [Shape.json, Json.numbers, Json.mem_numbersItems_iff]
      exact ⟨item.json x, List.mem_map_of_mem hMem, hNumber⟩
  | .optional _, none, _, _ => trivial
  | .optional inner, some x, hHolds, hKnown =>
      ⟨Shape.holds_of_numbers hFollows inner x hHolds.1 hKnown,
        hHolds.2⟩
  | .record fields, x, hHolds, hKnown =>
      Fields.holds_of_numbers hFollows fields x hHolds hKnown
  | .text, _, _, _ => trivial
  | .flag, _, _, _ => trivial
  | .word32, _, _, _ => trivial
  | .word64, _, _, _ => trivial
  | .signed64, _, _, _ => trivial
  | .oneOf _, _, _, _ => trivial

theorem Fields.holds_of_numbers
    {P Q : Json → Prop}
    {known : Number → Prop}
    (hFollows :
      ∀ j : Json, P j → (∀ n ∈ j.numbers, known n) → Q j) :
    (fields : Fields) →
    (x : fields.Carrier) →
    fields.Holds P x →
    (∀ n ∈ Json.numbersMembers (fields.json x), known n) →
    fields.Holds Q x
  | .nil, _, _, _ => trivial
  | .cons name shape absence rest, (x, xs), hHolds, hKnown => by
      rw [Fields.json] at hKnown
      split at hKnown
      · rename_i hOmits
        exact
          ⟨Shape.holds_of_omits hOmits,
            Fields.holds_of_numbers hFollows rest xs hHolds.2
              hKnown⟩
      · exact
          ⟨Shape.holds_of_numbers hFollows shape x hHolds.1
              fun n hMem =>
                hKnown n (List.mem_append_left _ hMem),
            Fields.holds_of_numbers hFollows rest xs hHolds.2
              fun n hMem =>
                hKnown n (List.mem_append_right _ hMem)⟩

end

------------------------------------------------------------
-- What is read again as it was
------------------------------------------------------------

/- Whether a value is settled and its numbers are exact. -/
structure Json.Exact
    (j : Json) : Prop where
  settled : j.Settled
  numbers : ∀ n ∈ j.numbers, n.Exact

/- The number of an integer that is kept is exact. -/
theorem Number.exact_integer
    {value : Int}
    (hRange : InIntegerRange value) :
    ∀ n ∈ (Json.number (.integer value)).numbers, n.Exact := by
  intro n hMem
  rw [List.mem_singleton.mp hMem]
  exact ⟨value, rfl, hRange⟩

mutual

/-
  All numbers that are printed are exact if those of the
  values without a shape are.
-/
theorem Shape.exact_of_holds :
    (shape : Shape) →
    (x : shape.Carrier) →
    shape.Holds Json.Exact x →
    ∀ n ∈ (shape.json x).numbers, n.Exact
  | .free, _, hHolds => Json.Exact.numbers hHolds
  | .list item, xs, hHolds => by
      intro n hMem
      rcases Json.mem_numbersItems_iff.mp hMem with
        ⟨j, hItem, hNumber⟩
      rcases List.mem_map.mp hItem with ⟨x, hIn, hJson⟩
      subst hJson
      exact Shape.exact_of_holds item x (hHolds x hIn) n hNumber
  | .optional _, none, _ => by
      intro n hMem
      cases hMem
  | .optional inner, some x, hHolds =>
      Shape.exact_of_holds inner x hHolds.1
  | .record fields, x, hHolds =>
      Fields.exact_of_holds fields x hHolds
  | .word32, x, _ =>
      Number.exact_integer (inIntegerRange_word32 x)
  | .word64, x, _ =>
      Number.exact_integer (inIntegerRange_word64 x)
  | .signed64, x, _ =>
      Number.exact_integer (inIntegerRange_signed64 x)
  | .text, _, _ => by
      intro n hMem
      cases hMem
  | .flag, _, _ => by
      intro n hMem
      cases hMem
  | .oneOf _, _, _ => by
      intro n hMem
      cases hMem

theorem Fields.exact_of_holds :
    (fields : Fields) →
    (x : fields.Carrier) →
    fields.Holds Json.Exact x →
    ∀ n ∈ Json.numbersMembers (fields.json x), n.Exact
  | .nil, _, _ => by
      intro n hMem
      cases hMem
  | .cons name shape absence rest, (x, xs), hHolds => by
      rw [Fields.json]
      split
      · exact Fields.exact_of_holds rest xs hHolds.2
      · intro n hMem
        rcases List.mem_append.mp hMem with hHere | hThere
        · exact Shape.exact_of_holds shape x hHolds.1 n hHere
        · exact Fields.exact_of_holds rest xs hHolds.2 n hThere

end

/- The slots of printed fields, when they are read again. -/
def Fields.filled :
    (fields : Fields) → fields.Carrier → fields.Slots
  | .nil, _ => ()
  | .cons _ shape _ rest, (x, xs) =>
      (if shape.omits x then none else some x, rest.filled xs)

/- The fields that are not printed are filled in. -/
theorem Fields.close_filled :
    (fields : Fields) →
    (x : fields.Carrier) →
    fields.regular = true →
    fields.close (fields.filled x) = .ok x
  | .nil, _, _ => rfl
  | .cons name shape absence rest, (x, xs), hRegular => by
      rw [regular, Bool.and_eq_true, Bool.and_eq_true]
        at hRegular
      rcases hRegular with ⟨⟨hFills, -⟩, hRest⟩
      have hSlot :
          (if shape.omits x then none else some x).or
              (shape.fill? absence)
            = some x := by
        split
        · rename_i hOmits
          rw [Option.none_or]
          exact Shape.fill?_of_omits hFills hOmits
        · rfl
      rw [filled, close, hSlot]
      simp only [Fields.close_filled rest xs hRest]

/- Results that are each read unless they are too deep. -/
theorem inOrder_unlessDeeper
    {α : Type}
    {read : α → Except ReadError α}
    {json : α → Json}
    {allowed : Nat}
    (xs : List α)
    (hRead :
      ∀ x ∈ xs, read x = unlessDeeper (json x).depth allowed x) :
    inOrder (xs.map read)
      = unlessDeeper (Json.depthItems (xs.map json)) allowed
        xs := by
  induction xs with
  | nil =>
      rw [List.map_nil, List.map_nil, inOrder, Json.depthItems,
        unlessDeeper, if_pos allowed.zero_le]
  | cons x xs ih =>
      rw [List.map_cons, List.map_cons, inOrder,
        hRead x List.mem_cons_self,
        ih fun y hMem => hRead y (List.mem_cons_of_mem x hMem),
        bind_unlessDeeper, Json.depthItems]

mutual

/-
  A printed value of a regular shape is read as it was,
  unless it is nested deeper than allowed.
-/
theorem Shape.reread_eq :
    (shape : Shape) →
    shape.regular = true →
    (x : shape.Carrier) →
    shape.Holds Json.Exact x →
    (allowed : Nat) →
    shape.reread allowed x
      = unlessDeeper (shape.json x).depth allowed x
  | .text, _, x, _, allowed => by
      rw [Shape.reread, Shape.json, Json.depth, unlessDeeper,
        if_pos allowed.zero_le]
  | .flag, _, x, _, allowed => by
      rw [Shape.reread, Shape.json, Json.depth, unlessDeeper,
        if_pos allowed.zero_le]
  | .word32, _, x, _, allowed => by
      rw [Shape.reread, Shape.json, Json.depth, unlessDeeper,
        if_pos allowed.zero_le]
  | .word64, _, x, _, allowed => by
      rw [Shape.reread, Shape.json, Json.depth, unlessDeeper,
        if_pos allowed.zero_le]
  | .signed64, _, x, _, allowed => by
      rw [Shape.reread, Shape.json, Json.depth, unlessDeeper,
        if_pos allowed.zero_le]
  | .oneOf names, hRegular, x, _, allowed => by
      rw [Shape.regular, decide_eq_true_eq] at hRegular
      rw [Shape.reread, variant?_get hRegular, Shape.json,
        Json.depth, unlessDeeper, if_pos allowed.zero_le]
      rfl
  | .free, _, x, hHolds, allowed => by
      have hExact : x.Exact := hHolds
      rw [Shape.reread, x.reread_eq hExact.numbers,
        map_unlessDeeper, x.settle_of_settled hExact.settled]
      rfl
  | .list item, _, xs, _, 0 => rfl
  | .list item, hRegular, xs, hHolds, allowed + 1 => by
      have hItems :
          ∀ x ∈ xs,
            item.reread allowed x
              = unlessDeeper (item.json x).depth allowed x :=
        fun x hMem =>
          Shape.reread_eq item hRegular x (hHolds x hMem) allowed
      rw [Shape.reread, inOrder_unlessDeeper xs hItems,
        Shape.json, Json.depth]
      simp only [unlessDeeper, Nat.add_le_add_iff_right]
  | .optional _, _, none, _, allowed => by
      rw [Shape.reread, Shape.json, Json.depth, unlessDeeper,
        if_pos allowed.zero_le]
  | .optional inner, hRegular, some x, hHolds, allowed => by
      have hThere : inner.write x ≠ nullText := by
        intro hText
        rw [← inner.write_json x] at hText
        exact hHolds.2 (Json.eq_null_of_write hText)
      rw [Shape.reread, if_neg hThere,
        Shape.reread_eq inner hRegular x hHolds.1 allowed,
        map_unlessDeeper, Shape.json]
  | .record fields, _, x, _, 0 => rfl
  | .record fields, hRegular, x, hHolds, allowed + 1 => by
      rw [Shape.reread,
        Fields.rereadSlots_eq fields hRegular x hHolds allowed,
        Shape.json, Json.depth]
      simp only [unlessDeeper, Nat.add_le_add_iff_right]
      split
      · change fromMismatch (fields.close (fields.filled x)) = _
        rw [fields.close_filled x hRegular]
        rfl
      · rfl

theorem Fields.rereadSlots_eq :
    (fields : Fields) →
    fields.regular = true →
    (x : fields.Carrier) →
    fields.Holds Json.Exact x →
    (allowed : Nat) →
    fields.rereadSlots allowed x
      = unlessDeeper (Json.depthMembers (fields.json x)) allowed
        (fields.filled x)
  | .nil, _, _, _, allowed => by
      rw [Fields.rereadSlots, Fields.json, Json.depthMembers,
        unlessDeeper, if_pos allowed.zero_le]
  | .cons name shape absence rest, hRegular, (x, xs), hHolds,
      allowed => by
      rw [Fields.regular, Bool.and_eq_true, Bool.and_eq_true]
        at hRegular
      rcases hRegular with ⟨⟨-, hShape⟩, hRest⟩
      have hOthers :=
        Fields.rereadSlots_eq rest hRest xs hHolds.2 allowed
      rw [Fields.rereadSlots, Fields.json, Fields.filled]
      split
      · rw [hOthers]
        exact map_unlessDeeper _ _ _ _
      · rw [Shape.reread_eq shape hShape x hHolds.1 allowed,
          hOthers]
        exact bind_unlessDeeper _ _ _ x (rest.filled xs)
          fun y slots => (some y, slots)

end

------------------------------------------------------------
-- Objects that are read again
------------------------------------------------------------

/- A value that is read again as it was, if it is read. -/
theorem Shape.eq_of_reread
    {shape : Shape}
    {depth : Nat}
    {x y : shape.Carrier}
    (hRegular : shape.regular = true)
    (hHolds : shape.Holds Json.Exact x)
    (hReread : shape.reread depth x = .ok y) :
    y = x := by
  rw [shape.reread_eq hRegular x hHolds depth, unlessDeeper]
    at hReread
  split at hReread
  · cases hReread
    rfl
  · cases hReread

/- A field that is read as it was, and those behind it. -/
theorem Fields.close_rereadSlots_cons
    {name : String}
    {shape : Shape}
    {absence : Absence}
    {rest : Fields}
    {depth : Nat}
    {x y : (Fields.cons name shape absence rest).Carrier}
    {slots : (Fields.cons name shape absence rest).Slots}
    (hFills : shape.fillsOmitted absence = true)
    (hRegular : shape.regular = true)
    (hHolds : shape.Holds Json.Exact x.1)
    (hSlots :
      (Fields.cons name shape absence rest).rereadSlots depth x
        = .ok slots)
    (hClose :
      (Fields.cons name shape absence rest).close slots
        = .ok y) :
    y.1 = x.1
      ∧ ∃ others,
        rest.rereadSlots depth x.2 = .ok others
          ∧ rest.close others = .ok y.2 := by
  have hOthers :
      ∃ others,
        rest.rereadSlots depth x.2 = .ok others
          ∧ slots.2 = others
          ∧ slots.1.or (shape.fill? absence) = some x.1 := by
    rw [rereadSlots] at hSlots
    split at hSlots
    · rename_i hOmits
      rcases Except.exists_of_bind_eq_ok hSlots with
        ⟨others, hRest, hEnd⟩
      cases hEnd
      refine ⟨others, hRest, rfl, ?_⟩
      rw [Option.none_or]
      exact Shape.fill?_of_omits hFills hOmits
    · rcases Except.exists_of_bind_eq_ok hSlots with
        ⟨z, hFirst, hMore⟩
      rcases Except.exists_of_bind_eq_ok hMore with
        ⟨others, hRest, hEnd⟩
      cases hEnd
      refine ⟨others, hRest, rfl, ?_⟩
      rw [Shape.eq_of_reread hRegular hHolds hFirst,
        Option.some_or]
  rcases hOthers with ⟨others, hRest, hSame, hFound⟩
  rw [close, hFound, hSame] at hClose
  cases hEnd : rest.close others with
  | error cause => simp [hEnd] at hClose
  | ok ys =>
      simp only [hEnd] at hClose
      cases hClose
      exact ⟨rfl, others, hRest, hEnd⟩

/- An object that is read again is read field by field. -/
theorem Shape.exists_slots_of_reread
    {fields : Fields}
    {depth : Nat}
    {x y : fields.Carrier}
    (hReread : (Shape.record fields).reread depth x = .ok y) :
    ∃ inner slots,
      depth = inner + 1
        ∧ fields.rereadSlots inner x = .ok slots
        ∧ fields.close slots = .ok y := by
  cases depth with
  | zero => cases hReread
  | succ inner =>
      rw [reread] at hReread
      rcases Except.exists_of_bind_eq_ok hReread with
        ⟨slots, hSlots, hEnd⟩
      refine ⟨inner, slots, rfl, hSlots, ?_⟩
      cases hClose : fields.close slots with
      | error cause =>
          rw [hClose] at hEnd
          cases hEnd
      | ok z =>
          rw [hClose] at hEnd
          cases hEnd
          rfl

/- What is read again of a value has its shape. -/
theorem Wire.exists_of_reread
    {α : Type}
    [Wire α]
    {depth : Nat}
    {m x : α}
    (hReread : Wire.reread depth m = .ok x) :
    ∃ y,
      (Wire.shape α).reread depth (Wire.pack m) = .ok y
        ∧ x = Wire.unpack y := by
  rcases Except.exists_of_map_eq_ok hReread with
    ⟨y, hShape, hSame⟩
  exact ⟨y, hShape, hSame.symm⟩

end JourneyMatch
