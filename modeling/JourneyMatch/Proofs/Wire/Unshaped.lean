import JourneyMatch.Proofs.Json.Settled
import JourneyMatch.Proofs.Wire.Nesting

/-
  This file says what is read of a printed value by one who
  does not ask for its shape. If the value is read as it was
  by one who does, then so is the JSON that is printed for
  it, up to the order of the members in its objects.

  Key definitions include:
    * `Json.Kept`
    * `Json.KeptMembers`

  Main statements:
    * `Shape.kept_json`
    * `Wire.reread_json`
-/

namespace JourneyMatch

------------------------------------------------------------
-- Values that are kept
------------------------------------------------------------

namespace Json

/- Whether a printed value is read as it was, but for order. -/
def Kept
    (depth : Nat)
    (j : Json) : Prop :=
  ∃ k, j.reread depth = .ok k ∧ k.settle = j.settle

/- The same of items. -/
def KeptItems
    (depth : Nat)
    (items : List Json) : Prop :=
  ∃ ks,
    rereadItems depth items = .ok ks
      ∧ settleItems ks = settleItems items

/- The same of members, whatever stands before them. -/
def KeptMembers
    (depth : Nat)
    (members : List (String × Json)) : Prop :=
  ∃ ks,
    rereadMembers depth members = .ok ks
      ∧ ∀ sorted,
        settleMembers ks sorted = settleMembers members sorted

/- Settling twice is settling once. -/
theorem settle_settle
    (j : Json) :
    j.settle.settle = j.settle :=
  settle_of_settled _ (settled_settle j)

theorem kept_null
    (depth : Nat) :
    Kept depth .null :=
  ⟨.null, by rw [reread], rfl⟩

theorem kept_bool
    (depth : Nat)
    (value : Bool) :
    Kept depth (.bool value) :=
  ⟨.bool value, by rw [reread], rfl⟩

theorem kept_string
    (depth : Nat)
    (value : String) :
    Kept depth (.string value) :=
  ⟨.string value, by rw [reread], rfl⟩

theorem kept_integer
    {depth : Nat}
    {value : Int}
    (hRange : InIntegerRange value) :
    Kept depth (.number (.integer value)) := by
  refine ⟨.number (.integer value), ?_, rfl⟩
  rw [reread, Number.reread_integer hRange]
  rfl

theorem KeptItems.cons
    {depth : Nat}
    {item : Json}
    {rest : List Json}
    (hItem : Kept depth item)
    (hRest : KeptItems depth rest) :
    KeptItems depth (item :: rest) := by
  rcases hItem with ⟨k, hRead, hSettle⟩
  rcases hRest with ⟨ks, hReadRest, hSettleRest⟩
  refine ⟨k :: ks, ?_, ?_⟩
  · rw [rereadItems, hRead, hReadRest]
    rfl
  · rw [settleItems, settleItems, hSettle, hSettleRest]

theorem keptItems_map
    {α : Type}
    {depth : Nat}
    {json : α → Json}
    {xs : List α}
    (hKept : ∀ x ∈ xs, Kept depth (json x)) :
    KeptItems depth (xs.map json) := by
  induction xs with
  | nil => exact ⟨[], rfl, rfl⟩
  | cons x xs ih =>
      exact
        KeptItems.cons (hKept x List.mem_cons_self)
          (ih fun y hMem => hKept y (List.mem_cons_of_mem x hMem))

theorem KeptMembers.cons
    {depth : Nat}
    {name : String}
    {value : Json}
    {rest : List (String × Json)}
    (hValue : Kept depth value)
    (hRest : KeptMembers depth rest) :
    KeptMembers depth ((name, value) :: rest) := by
  rcases hValue with ⟨k, hRead, hSettle⟩
  rcases hRest with ⟨ks, hReadRest, hSettleRest⟩
  refine ⟨(name, k) :: ks, ?_, ?_⟩
  · rw [rereadMembers, hRead, hReadRest]
    rfl
  · intro sorted
    rw [settleMembers, settleMembers, hSettle, hSettleRest]

end Json

------------------------------------------------------------
-- Values of a shape
------------------------------------------------------------

/- Results that are the values themselves are so each. -/
theorem eq_ok_of_inOrder_map
    {α : Type}
    {read : α → Except ReadError α}
    {xs : List α}
    (hRead : inOrder (xs.map read) = .ok xs) :
    ∀ x ∈ xs, read x = .ok x := by
  induction xs with
  | nil => exact fun x hMem => nomatch hMem
  | cons y xs ih =>
      rw [List.map_cons, inOrder] at hRead
      rcases Except.exists_of_bind_eq_ok hRead with
        ⟨z, hFirst, hMore⟩
      rcases Except.exists_of_bind_eq_ok hMore with
        ⟨zs, hRest, hEnd⟩
      cases hEnd
      intro x hMem
      rcases List.mem_cons.mp hMem with hSame | hThere
      · rw [hSame]
        exact hFirst
      · exact ih hRest x hThere

/- Slots make the fields whose values they hold or fill in. -/
theorem Fields.close_cons_eq_ok_iff
    {name : String}
    {shape : Shape}
    {absence : Absence}
    {rest : Fields}
    {slot : Option shape.Carrier}
    {slots : rest.Slots}
    {x : shape.Carrier}
    {xs : rest.Carrier} :
    (Fields.cons name shape absence rest).close (slot, slots)
        = .ok (x, xs)
      ↔ slot.or (shape.fill? absence) = some x
        ∧ rest.close slots = .ok xs := by
  rw [close]
  cases slot.or (shape.fill? absence) with
  | none => simp
  | some y =>
      cases rest.close slots with
      | error cause => simp
      | ok ys => simp

mutual

/- The JSON of a value that is read as it was is kept. -/
theorem Shape.kept_json :
    (shape : Shape) →
    {depth : Nat} →
    {x : shape.Carrier} →
    shape.reread depth x = .ok x →
    (shape.json x).Kept depth
  | .text, depth, x, _ => Json.kept_string depth x
  | .flag, depth, x, _ => Json.kept_bool depth x
  | .word32, _, x, _ => Json.kept_integer (inIntegerRange_word32 x)
  | .word64, _, x, _ => Json.kept_integer (inIntegerRange_word64 x)
  | .signed64, _, x, _ =>
      Json.kept_integer (inIntegerRange_signed64 x)
  | .oneOf names, depth, x, _ =>
      Json.kept_string depth (names.get x)
  | .free, depth, x, hReread => by
      rw [Shape.reread] at hReread
      rcases Except.exists_of_map_eq_ok hReread with
        ⟨k, hRead, rfl⟩
      exact ⟨k, hRead, k.settle_settle.symm⟩
  | .list _, 0, _, hReread => nomatch hReread
  | .list item, depth + 1, xs, hReread => by
      have hItems : Json.KeptItems depth (xs.map item.json) :=
        Json.keptItems_map fun x hMem =>
          Shape.kept_json item
            (eq_ok_of_inOrder_map hReread x hMem)
      rcases hItems with ⟨ks, hRead, hSettle⟩
      refine ⟨.array ks, ?_, ?_⟩
      · rw [Shape.json, Json.reread, hRead]
        rfl
      · rw [Shape.json, Json.settle, Json.settle, hSettle]
  | .optional _, depth, none, _ => Json.kept_null depth
  | .optional inner, depth, some x, hReread => by
      rw [Shape.reread] at hReread
      split at hReread
      · cases hReread
      · rcases Except.exists_of_map_eq_ok hReread with
          ⟨y, hRead, hSame⟩
        cases hSame
        exact Shape.kept_json inner hRead
  | .record fields, depth, x, hReread => by
      rcases Shape.exists_slots_of_reread hReread with
        ⟨inner, slots, rfl, hSlots, hClose⟩
      rcases Fields.keptMembers_json fields hSlots hClose with
        ⟨ks, hRead, hSettle⟩
      refine ⟨.object ks, ?_, ?_⟩
      · rw [Shape.json, Json.reread, hRead]
        rfl
      · rw [Shape.json, Json.settle, Json.settle, hSettle]

theorem Fields.keptMembers_json :
    (fields : Fields) →
    {depth : Nat} →
    {x : fields.Carrier} →
    {slots : fields.Slots} →
    fields.rereadSlots depth x = .ok slots →
    fields.close slots = .ok x →
    Json.KeptMembers depth (fields.json x)
  | .nil, _, _, _, _, _ => ⟨[], rfl, fun _ => rfl⟩
  | .cons name shape absence rest, depth, (x, xs),
      (slot, others), hSlots, hClose => by
      rcases Fields.close_cons_eq_ok_iff.mp hClose with
        ⟨hSlot, hRest⟩
      rw [Fields.rereadSlots] at hSlots
      rw [Fields.json]
      split at hSlots
      · rename_i hOmits
        rcases Except.exists_of_bind_eq_ok hSlots with
          ⟨_, hRead, hSame⟩
        cases hSame
        rw [if_pos hOmits]
        exact Fields.keptMembers_json rest hRead hRest
      · rename_i hPrinted
        rcases Except.exists_of_bind_eq_ok hSlots with
          ⟨y, hFirst, hMore⟩
        rcases Except.exists_of_bind_eq_ok hMore with
          ⟨_, hRead, hSame⟩
        cases hSame
        -- A slot that was read is the value itself.
        cases hSlot
        rw [if_neg hPrinted]
        exact
          Json.KeptMembers.cons (Shape.kept_json shape hFirst)
            (Fields.keptMembers_json rest hRead hRest)

end

/-
  A value that is read as it was, read without its shape,
  gives the JSON that is printed for it, settled. The type
  has to keep every value of its shape.
-/
theorem Wire.reread_json
    {α : Type}
    [Wire α]
    {depth : Nat}
    {x : α}
    (hPack : ∀ y, Wire.pack (Wire.unpack y : α) = y)
    (hReread : Wire.reread depth x = .ok x) :
    Wire.reread depth (Wire.json x) = .ok (Wire.json x).settle := by
  rcases Wire.exists_of_reread hReread with ⟨y, hShape, hSame⟩
  have hOwn : Wire.pack x = y := by
    rw [hSame, hPack]
  rw [← hOwn] at hShape
  rcases Shape.kept_json _ hShape with ⟨k, hRead, hSettle⟩
  have hFree :
      Wire.reread depth (Wire.json x)
        = ((Wire.json x).reread depth).map Json.settle := by
    change
      (((Wire.json x).reread depth).map Json.settle).map id = _
    cases (Wire.json x).reread depth <;> rfl
  rw [hFree, Wire.json, hRead, Except.map, hSettle]

end JourneyMatch
