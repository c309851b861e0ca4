import JourneyMatch.Toml.DateTime
import JourneyMatch.Toml.Text
import JourneyMatch.Toml.Value

/-
  This file defines how a TOML text is read: its keys, its
  values, and its statements, one in each line.

  Key definitions include:
    * `readPath`
    * `readValue`
    * `Statement`
    * `readStatements`
-/

namespace JourneyMatch

namespace Toml

------------------------------------------------------------
-- Keys
------------------------------------------------------------

/- The greatest number of parts of a key. -/
def greatestPath : Nat :=
  79

/- The characters of a key without quotes. -/
def isBare
    (c : Char) : Bool :=
  c.isAlphanum || c = '-' || c = '_'

/- Reads a part of a key. -/
def readKey : Scan String
  | '"' :: rest => do
      let (cs, rest) ← readBasic rest
      some (String.ofList cs, rest)
  | '\'' :: rest => do
      let (cs, rest) ← readLiteral rest
      some (String.ofList cs, rest)
  | cs =>
      match cs.takeWhile isBare with
      | [] => none
      | key => some (String.ofList key, cs.dropWhile isBare)

/- A key behind a path of others. -/
structure Target where
  path : List String
  key : String

/-
  Reads a key with dots between its parts. The first argument
  bounds their number.
-/
def readParts : Nat → Scan Target
  | 0, _ => none
  | fuel + 1, cs => do
      let (part, rest) ← readKey (skipBlanks cs)
      match skipBlanks rest with
      | '.' :: rest => do
          let (inner, rest) ← readParts fuel rest
          some ({ inner with path := part :: inner.path }, rest)
      | rest => some (⟨[], part⟩, rest)

/- Reads a key with dots and the blanks around it. -/
def readPath : Scan Target :=
  readParts greatestPath

------------------------------------------------------------
-- Values
------------------------------------------------------------

/- A value assigned to a key. -/
structure Assignment where
  target : Target
  value : Value

/- Carries out assignments. -/
def Table.assignAll
    (t : Table)
    (assignments : List Assignment) : Option Table :=
  assignments.foldlM
    (fun t a => t.assign a.target.path a.target.key a.value) t

/- Reads a value that begins with a sign or a digit. -/
def readNumber : Scan Value := fun cs =>
  match readDateTime cs with
  | some (_, rest) => some (.dateTime, rest)
  | none =>
      match readFloat cs with
      | some (_, rest) => some (.float, rest)
      | none => do
          let (i, rest) ← readInteger cs
          some (.integer i, rest)

/- Reads a value that holds no other. -/
def readScalar : Scan Value
  | [] => none
  | 't' :: 'r' :: 'u' :: 'e' :: rest =>
      some (.boolean true, rest)
  | 'f' :: 'a' :: 'l' :: 's' :: 'e' :: rest =>
      some (.boolean false, rest)
  | c :: rest => do
      if c = '"' || c = '\'' then
        let (s, rest) ← readText (c :: rest)
        some (.text s, rest)
      else
        readNumber (c :: rest)

/-
  Reads items with commas between them, up to a closing
  character. Where a last comma is allowed, it may stand
  before that.
-/
def readItems
    {α : Type}
    (readItem : Scan α)
    (close : Char)
    (lastComma : Bool) : Nat → Scan (List α)
  | 0, _ => none
  | fuel + 1, cs => do
      let (item, rest) ← readItem cs
      match rest with
      | [] => none
      | c :: rest =>
          if c = close then
            some ([item], rest)
          else if c ≠ ',' then
            none
          else if lastComma ∧ (skipGap rest).head? = close then
            some ([item], (skipGap rest).tail)
          else
            let (items, rest) ←
              readItems readItem close lastComma fuel rest
            some (item :: items, rest)

/- Reads an array whose bracket has been passed. -/
def readArray
    (readValue : Scan Value) : Scan Value := fun cs =>
  match skipGap cs with
  | ']' :: rest => some (.array [], rest)
  | cs => do
      let readItem : Scan Value := fun cs => do
        let (value, rest) ← readValue (skipGap cs)
        some (value, skipGap rest)
      let (items, rest) ←
        readItems readItem ']' true (cs.length + 1) cs
      some (.array items, rest)

/- Reads an assignment in one line. -/
def readAssignment
    (readValue : Scan Value) : Scan Assignment := fun cs => do
  let (target, rest) ← readPath cs
  let (_, rest) ← readChar '=' rest
  let (value, rest) ← readValue (skipBlanks rest)
  some (⟨target, value⟩, skipBlanks rest)

/- Reads a table whose brace has been passed. -/
def readBraces
    (readValue : Scan Value) : Scan Value := fun cs =>
  match skipBlanks cs with
  | '\x7d' :: rest => some (.table .braces [], rest)
  | cs => do
      let (assignments, rest) ←
        readItems (readAssignment readValue) '\x7d' false
          (cs.length + 1) cs
      let t ← (Table.empty .braces).assignAll assignments
      some (t.value, rest)

/- How deep values may lie in each other. -/
def greatestDepth : Nat :=
  79

/-
  Reads a value in which others lie no deeper than a number
  of levels.
-/
def readValue : Nat → Scan Value
  | depth + 1, '[' :: rest => readArray (readValue depth) rest
  | depth + 1, '\x7b' :: rest => readBraces (readValue depth) rest
  | _, cs => readScalar cs

------------------------------------------------------------
-- Statements
------------------------------------------------------------

/-
  A statement assigns a value, or is a header in brackets or
  in double brackets.
-/
inductive Statement where
  | assign (assignment : Assignment)
  | table (target : Target)
  | element (target : Target)

/- Reads a statement. -/
def readStatement : Scan Statement
  | '[' :: '[' :: rest => do
      let (target, rest) ← readPath rest
      let (_, rest) ← readChar ']' rest
      let (_, rest) ← readChar ']' rest
      some (.element target, rest)
  | '[' :: rest => do
      let (target, rest) ← readPath rest
      let (_, rest) ← readChar ']' rest
      some (.table target, rest)
  | cs => do
      let (a, rest) ← readAssignment (readValue greatestDepth) cs
      some (.assign a, rest)

/-
  Reads all statements; lines without one are passed over.
  The first argument bounds the number of lines.
-/
def readStatements :
    Nat → List Char → Option (List Statement)
  | 0, _ => none
  | fuel + 1, cs =>
      match skipBlanks cs with
      | [] => some []
      | cs =>
          match endLine? cs with
          | some rest => readStatements fuel rest
          | none => do
              let (statement, rest) ← readStatement cs
              let rest ← endLine? rest
              let statements ← readStatements fuel rest
              some (statement :: statements)

end Toml

end JourneyMatch
