import JourneyMatch.Json.Reader
import JourneyMatch.Wire.Shape

/-
  This file reads values of a shape from a text.

  The fields of an object may come in any order; a field that
  comes twice is refused where it comes again, a field of an
  unknown name is passed over, and the fields that are
  missing are reported after the object, in their order. An
  array is read as an object whose fields stand in order.

  Key definitions include:
    * `kindFault`
    * `Shape.read`
    * `Fields.readMember`
    * `Fields.readInOrder`
    * `Fields.close`
    * `Shape.parse`
-/

namespace JourneyMatch

------------------------------------------------------------
-- Values of another kind
------------------------------------------------------------

/-
  The fault of a value that is not of the expected kind: what
  is wrong with its own text comes first.
-/
def kindFault
    (cs : List Char) : ReadError :=
  let wrong := ReadError.mismatch .wrongKind
  let after
      {α : Type}
      (r : Except ReadError (α × List Char)) : ReadError :=
    match r with
    | .ok _ => wrong
    | .error e => e
  match cs with
  | [] => .endOfText
  | 'n' :: rest => after (readWord ['u', 'l', 'l'] rest)
  | 't' :: rest => after (readWord ['r', 'u', 'e'] rest)
  | 'f' :: rest => after (readWord ['a', 'l', 's', 'e'] rest)
  | '"' :: rest => after (Quoted.read rest)
  | '-' :: rest => after (readNumber true rest)
  | '[' :: _ => wrong
  | '{' :: _ => wrong
  | c :: rest =>
      if isDigit c then
        after (readNumber false (c :: rest))
      else
        .malformed .expectedValue

------------------------------------------------------------
-- Texts, truth values and numbers
------------------------------------------------------------

/- Reads a text. -/
def readText : Reader String := fun cs =>
  match skipBlanks cs with
  | '"' :: rest => Quoted.read rest
  | rest => .error (kindFault rest)

/- Reads a truth value. -/
def readFlag : Reader Bool := fun cs =>
  match skipBlanks cs with
  | 't' :: rest => do
      let (_, rest) ← readWord ['r', 'u', 'e'] rest
      .ok (true, rest)
  | 'f' :: rest => do
      let (_, rest) ← readWord ['a', 'l', 's', 'e'] rest
      .ok (false, rest)
  | rest => .error (kindFault rest)

/- An integer between two bounds. -/
def Number.between
    (low high : Int) :
    Number → Except Mismatch Int
  | .integer value =>
      if low ≤ value ∧ value ≤ high then
        .ok value
      else
        .error .wrongValue
  | .double _ => .error .wrongKind

/- A natural of 32 bits. -/
def Number.toWord32
    (n : Number) : Except Mismatch UInt32 :=
  (n.between 0 (twoTo 32 - 1)).map
    fun value => UInt32.ofNat value.toNat

/- A natural of 64 bits. -/
def Number.toWord64
    (n : Number) : Except Mismatch UInt64 :=
  (n.between 0 (twoTo 64 - 1)).map
    fun value => UInt64.ofNat value.toNat

/- An integer of 64 bits. -/
def Number.toSigned64
    (n : Number) : Except Mismatch Int64 :=
  (n.between (-(twoTo 63 : Int)) (twoTo 63 - 1)).map
    Int64.ofInt

/- Reads a number of the given kind. -/
def readNumberAs
    {α : Type}
    (convert : Number → Except Mismatch α) : Reader α :=
  fun cs =>
    let finish (r : Except ReadError (Number × List Char)) :
        Except ReadError (α × List Char) := do
      let (n, rest) ← r
      match convert n with
      | .ok x => .ok (x, rest)
      | .error e => .error (.mismatch e)
    match skipBlanks cs with
    | [] => .error .endOfText
    | '-' :: rest => finish (readNumber true rest)
    | c :: rest =>
        if isDigit c then
          finish (readNumber false (c :: rest))
        else
          .error (kindFault (c :: rest))

------------------------------------------------------------
-- Variants
------------------------------------------------------------

/- The place of a name among the names of the variants. -/
def variant?
    (names : List String)
    (name : String) :
    Except Mismatch (Fin names.length) :=
  match names.finIdxOf? name with
  | some i => .ok i
  | none => .error (.unknownVariant name names)

/- Reads the name of a variant. -/
def readVariantName
    (names : List String) : Reader (Fin names.length) :=
  fun cs => do
    let (name, rest) ← readText cs
    match variant? names name with
    | .ok i => .ok (i, rest)
    | .error e => .error (.mismatch e)

/- Reads a null. -/
def readNull : Reader Unit := fun cs =>
  match skipBlanks cs with
  | 'n' :: rest => readWord ['u', 'l', 'l'] rest
  | rest => .error (kindFault rest)

/- The text of a variant's key, with its opening quote. -/
def variantKey
    (cs : List Char) : Except ReadError (List Char) :=
  match skipBlanks cs with
  | [] => .error .endOfText
  | '"' :: rest => .ok ('"' :: rest)
  | _ => .error (.malformed .expectedValue)

/-
  Reads a variant: its name, or an object with the name as
  its only key and a null under it.
-/
def readVariant
    (names : List String)
    (depth : Nat) : Reader (Fin names.length) := fun cs =>
  match skipBlanks cs with
  | [] => .error .endOfText
  | '"' :: rest => readVariantName names ('"' :: rest)
  | '{' :: rest =>
      match depth with
      | 0 => .error (.malformed .tooDeep)
      | _ + 1 => do
          let rest ← variantKey rest
          let (i, rest) ← readVariantName names rest
          let (_, rest) ← readColon rest
          let (_, rest) ← readNull rest
          match skipBlanks rest with
          | [] => .error .endOfText
          | '}' :: rest => .ok (i, rest)
          | _ => .error (.malformed .expectedValue)
  | _ => .error (.malformed .expectedValue)

------------------------------------------------------------
-- Shapes
------------------------------------------------------------

/- The fields that have been read, and those that may miss. -/
def Fields.close :
    (fields : Fields) →
    fields.Slots →
    Except Mismatch fields.Carrier
  | .nil, _ => .ok ()
  | .cons name shape absence rest, (slot, slots) =>
      match slot.or (shape.fill? absence) with
      | none => .error (.missingField name)
      | some x =>
          match rest.close slots with
          | .ok xs => .ok (x, xs)
          | .error e => .error e

/- What an array that ends too early leaves out. -/
def Fields.closeAtEnd :
    (fields : Fields) → Except Mismatch fields.Carrier
  | .nil => .ok ()
  | .cons _ shape absence rest =>
      match shape.fillAtEnd? absence with
      | none => .error .wrongLength
      | some x =>
          match rest.closeAtEnd with
          | .ok xs => .ok (x, xs)
          | .error e => .error e

/- A mismatch found while reading a text. -/
def fromMismatch
    {α : Type} :
    Except Mismatch α → Except ReadError α
  | .ok x => .ok x
  | .error e => .error (.mismatch e)

mutual

/-
  Reads a value of a shape with at most the given number of
  arrays and objects around its deepest part.
-/
def Shape.read :
    (shape : Shape) → Nat → Reader shape.Carrier
  | .text, _ => readText
  | .flag, _ => readFlag
  | .word32, _ => readNumberAs Number.toWord32
  | .word64, _ => readNumberAs Number.toWord64
  | .signed64, _ => readNumberAs Number.toSigned64
  | .oneOf names, depth => readVariant names depth
  | .free, depth => fun cs => do
      let (j, rest) ← Json.read depth cs
      .ok (j.settle, rest)
  | .list item, depth => fun cs =>
      match skipBlanks cs, depth with
      | '[' :: _, 0 => .error (.malformed .tooDeep)
      | '[' :: rest, depth + 1 =>
          readItems (item.read depth) rest
      | rest, _ => .error (kindFault rest)
  | .optional inner, depth => fun cs =>
      match skipBlanks cs with
      | 'n' :: rest => do
          let (_, rest) ← readWord ['u', 'l', 'l'] rest
          .ok (none, rest)
      | rest => do
          let (x, rest) ← inner.read depth rest
          .ok (some x, rest)
  | .record fields, depth => fun cs =>
      match skipBlanks cs, depth with
      | '{' :: _, 0 => .error (.malformed .tooDeep)
      | '{' :: rest, depth + 1 => do
          let (slots, rest) ←
            readMembers
              (fields.readMember depth) fields.noSlots rest
          let x ← fromMismatch (fields.close slots)
          .ok (x, rest)
      | '[' :: _, 0 => .error (.malformed .tooDeep)
      | '[' :: rest, depth + 1 => do
          let (x, rest) ← fields.readInOrder depth true rest
          let (_, rest) ← closeArray rest
          .ok (x, rest)
      | rest, _ => .error (kindFault rest)

/-
  Reads the member of the given key into its slot; a member
  of another key is passed over.
-/
def Fields.readMember :
    (fields : Fields) →
    Nat →
    String →
    fields.Slots →
    Reader fields.Slots
  | .nil, _, _, _ => fun cs => do
      let (_, rest) ← readColon cs
      let (_, rest) ← skipValue rest
      .ok ((), rest)
  | .cons name shape _ others, depth, key, (slot, slots) =>
      fun cs =>
        if key = name then
          if slot.isSome then
            .error (.mismatch (.duplicateField name))
          else do
            let (_, rest) ← readColon cs
            let (x, rest) ← shape.read depth rest
            .ok ((some x, slots), rest)
        else do
          let (slots, rest) ←
            others.readMember depth key slots cs
          .ok ((slot, slots), rest)

/-
  Reads the fields in their order from the items of an array,
  whose closing bracket is not passed.
-/
def Fields.readInOrder :
    (fields : Fields) →
    Nat →
    Bool →
    Reader fields.Carrier
  | .nil, _, _ => fun cs => .ok ((), cs)
  | .cons name shape absence others, depth, first => fun cs => do
      match ← nextItem first cs with
      | none =>
          let x ←
            fromMismatch
              (Fields.closeAtEnd
                (.cons name shape absence others))
          .ok (x, cs)
      | some cs =>
          let (x, rest) ← shape.read depth cs
          let (xs, rest) ←
            others.readInOrder depth false rest
          .ok ((x, xs), rest)

end

/- Reads a value of a shape from a whole text. -/
def Shape.parse
    (shape : Shape)
    (text : String) : Except ReadError shape.Carrier :=
  readWhole? (shape.read greatestDepth) text

end JourneyMatch
