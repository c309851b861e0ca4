import JourneyMatch.Json.Printer
import JourneyMatch.Wire.Shape

/-
  This file prints values of a shape. The fields of an object
  are printed in their order, and an optional field that is
  none is not printed.

  Key definitions include:
    * `Shape.write`
    * `Fields.write`
-/

namespace JourneyMatch

/- Whether a field is left out when it is printed. -/
def Shape.omits :
    (shape : Shape) → shape.Carrier → Bool
  | .optional _, none => true
  | _, _ => false

mutual

/- The text of a value. -/
def Shape.write :
    (shape : Shape) → shape.Carrier → List Char
  | .text, x => Quoted.write x
  | .flag, x => boolText x
  | .word32, x => integerText x.toNat
  | .word64, x => integerText x.toNat
  | .signed64, x => integerText x.toInt
  | .oneOf names, x => Quoted.write names[x]
  | .free, x => x.write
  | .list item, x => bracketed (x.map item.write)
  | .optional _, none => nullText
  | .optional inner, some x => inner.write x
  | .record fields, x => braced (fields.write x)

/- The texts of the fields that are printed. -/
def Fields.write :
    (fields : Fields) → fields.Carrier → List (List Char)
  | .nil, _ => []
  | .cons name shape _ rest, (x, xs) =>
      if shape.omits x then
        rest.write xs
      else
        keyed name (shape.write x) :: rest.write xs

end

end JourneyMatch
