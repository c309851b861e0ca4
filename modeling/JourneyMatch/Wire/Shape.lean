import JourneyMatch.Json.Basic

/-
  This file defines the shapes of typed JSON: which form a
  value has, and for an object which fields it has, in which
  order, and what becomes of a field that is not there.

  Key definitions include:
    * `Absence`
    * `Shape`
    * `Fields`
    * `Shape.Carrier`
    * `Fields.Carrier`
    * `Fields.Slots`
    * `Shape.fill?`
    * `Fields.close`
-/

namespace JourneyMatch

------------------------------------------------------------
-- Shapes
------------------------------------------------------------

/-
  What a missing field stands for. A blank one is none, or
  null where any value may stand; it may also be left out at
  the end of an array, unless it is blank by name only. A
  count has a number of its own.
-/
inductive Absence where
  | required
  | blank
  | blankByName
  | count (default : UInt64)
  deriving DecidableEq

mutual

/- The form of a value. -/
inductive Shape where
  | text
  | flag
  | word32
  | word64
  | signed64
  | oneOf (names : List String)
  | free
  | list (item : Shape)
  | optional (inner : Shape)
  | record (fields : Fields)

/- The fields of an object, in their order. -/
inductive Fields where
  | nil
  | cons
      (name : String)
      (shape : Shape)
      (absence : Absence)
      (rest : Fields)

end

------------------------------------------------------------
-- What has a shape
------------------------------------------------------------

mutual

/- The values of a shape. -/
@[reducible] def Shape.Carrier :
    Shape → Type
  | .text => String
  | .flag => Bool
  | .word32 => UInt32
  | .word64 => UInt64
  | .signed64 => Int64
  | .oneOf names => Fin names.length
  | .free => Json
  | .list item => List item.Carrier
  | .optional inner => Option inner.Carrier
  | .record fields => fields.Carrier

/- The values of the fields, one beside the other. -/
@[reducible] def Fields.Carrier :
    Fields → Type
  | .nil => Unit
  | .cons _ shape _ rest => shape.Carrier × rest.Carrier

end

/- The fields that have been read so far. -/
@[reducible] def Fields.Slots :
    Fields → Type
  | .nil => Unit
  | .cons _ shape _ rest => Option shape.Carrier × rest.Slots

/- No field has been read. -/
def Fields.noSlots :
    (fields : Fields) → fields.Slots
  | .nil => ()
  | .cons _ _ _ rest => (none, rest.noSlots)

------------------------------------------------------------
-- Missing fields
------------------------------------------------------------

/- The value of a field that is not there, if it has one. -/
def Shape.fill? :
    (shape : Shape) → Absence → Option shape.Carrier
  | .optional _, .blank => some none
  | .optional _, .blankByName => some none
  | .free, .blank => some .null
  | .free, .blankByName => some .null
  | .word64, .count default => some default
  | _, _ => none

/- The same at the end of an array. -/
def Shape.fillAtEnd? :
    (shape : Shape) → Absence → Option shape.Carrier
  | _, .blankByName => none
  | shape, absence => shape.fill? absence

/- The names of the fields. -/
def Fields.names :
    Fields → List String
  | .nil => []
  | .cons name _ _ rest => name :: rest.names

end JourneyMatch
