import JourneyMatch.Wire.Reader

/-
  This file decodes values of a shape from JSON that has been
  read before. It differs from reading a text in what it says
  of a value of another kind: a variant that is no text is of
  the wrong kind, and an array with too many items is of the
  wrong length.

  Key definitions include:
    * `Shape.decode`
    * `Fields.decodeMembers`
    * `Fields.decodeInOrder`
-/

namespace JourneyMatch

/-
  Decodes a variant. Under the name of a variant, an empty
  object counts as a null.
-/
def decodeVariant
    (names : List String) :
    Json → Except Mismatch (Fin names.length)
  | .string name => variant? names name
  | .object [(name, value)] =>
      match variant? names name with
      | .error e => .error e
      | .ok i =>
          match value with
          | .null => .ok i
          | .object [] => .ok i
          | _ => .error .wrongKind
  | .object _ => .error .wrongValue
  | _ => .error .wrongKind

/- Decodes the items of an array, one after the other. -/
def decodeItems
    {α : Type}
    (item : Json → Except Mismatch α) :
    List Json → Except Mismatch (List α)
  | [] => .ok []
  | j :: js =>
      match item j with
      | .error e => .error e
      | .ok x =>
          match decodeItems item js with
          | .error e => .error e
          | .ok xs => .ok (x :: xs)

/- Takes the members into a state, one after the other. -/
def decodeMembers
    {σ : Type}
    (member : String → Json → σ → Except Mismatch σ) :
    List (String × Json) → σ → Except Mismatch σ
  | [], state => .ok state
  | (key, value) :: rest, state =>
      match member key value state with
      | .error e => .error e
      | .ok state => decodeMembers member rest state

mutual

/- Decodes a value of a shape. -/
def Shape.decode :
    (shape : Shape) → Json → Except Mismatch shape.Carrier
  | .text, .string s => .ok s
  | .text, _ => .error .wrongKind
  | .flag, .bool b => .ok b
  | .flag, _ => .error .wrongKind
  | .word32, .number n => n.toWord32
  | .word32, _ => .error .wrongKind
  | .word64, .number n => n.toWord64
  | .word64, _ => .error .wrongKind
  | .signed64, .number n => n.toSigned64
  | .signed64, _ => .error .wrongKind
  | .oneOf names, j => decodeVariant names j
  | .free, j => .ok j.settle
  | .list item, .array items => decodeItems item.decode items
  | .list _, _ => .error .wrongKind
  | .optional _, .null => .ok none
  | .optional inner, j =>
      match inner.decode j with
      | .error e => .error e
      | .ok x => .ok (some x)
  | .record fields, .object members =>
      match decodeMembers fields.decodeMember members
          fields.noSlots with
      | .error e => .error e
      | .ok slots => fields.close slots
  | .record fields, .array items => fields.decodeInOrder items
  | .record _, _ => .error .wrongKind

/- Decodes a member into the slot of its key. -/
def Fields.decodeMember :
    (fields : Fields) →
    String →
    Json →
    fields.Slots →
    Except Mismatch fields.Slots
  | .nil, _, _, _ => .ok ()
  | .cons name shape _ others, key, value, (slot, slots) =>
      if key = name then
        if slot.isSome then
          .error (.duplicateField name)
        else
          match shape.decode value with
          | .error e => .error e
          | .ok x => .ok (some x, slots)
      else
        match others.decodeMember key value slots with
        | .error e => .error e
        | .ok slots => .ok (slot, slots)

/- Decodes the fields in their order from items. -/
def Fields.decodeInOrder :
    (fields : Fields) →
    List Json →
    Except Mismatch fields.Carrier
  | .nil, [] => .ok ()
  | .nil, _ :: _ => .error .wrongLength
  | .cons name shape absence others, [] =>
      Fields.closeAtEnd (.cons name shape absence others)
  | .cons _ shape _ others, item :: items =>
      match shape.decode item with
      | .error e => .error e
      | .ok x =>
          match others.decodeInOrder items with
          | .error e => .error e
          | .ok xs => .ok (x, xs)

end

end JourneyMatch
