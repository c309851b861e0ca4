import JourneyMatch.Wire.Printer
import JourneyMatch.Wire.Decoder

/-
  This file defines the types that go over the wire: each has
  a shape, and its values are those of the shape.

  Key definitions include:
    * `Wire`
    * `Wire.text`
    * `Wire.parse`
    * `Wire.decode`
-/

namespace JourneyMatch

/-
  A type with a shape. Packing a value loses nothing.
-/
class Wire (α : Type) where
  shape : Shape
  pack : α → shape.Carrier
  unpack : shape.Carrier → α
  unpack_pack : ∀ x, unpack (pack x) = x

namespace Wire

/- The text of a value. -/
def text
    {α : Type}
    [Wire α]
    (x : α) : String :=
  String.ofList ((shape α).write (pack x))

/- Reads a value from a whole text. -/
def parse
    (α : Type)
    [Wire α]
    (s : String) : Except ReadError α :=
  ((shape α).parse s).map unpack

/- Decodes a value from JSON that has been read before. -/
def decode
    (α : Type)
    [Wire α]
    (j : Json) : Except Mismatch α :=
  ((shape α).decode j).map unpack

end Wire

------------------------------------------------------------
-- Basic types
------------------------------------------------------------

instance : Wire Json where
  shape := .free
  pack j := j
  unpack j := j
  unpack_pack _ := rfl

instance : Wire String where
  shape := .text
  pack s := s
  unpack s := s
  unpack_pack _ := rfl

instance : Wire Bool where
  shape := .flag
  pack b := b
  unpack b := b
  unpack_pack _ := rfl

instance : Wire UInt32 where
  shape := .word32
  pack n := n
  unpack n := n
  unpack_pack _ := rfl

end JourneyMatch
