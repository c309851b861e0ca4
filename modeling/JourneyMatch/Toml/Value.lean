import JourneyMatch.Sorted.Entries

/-
  This file defines the values of TOML and its tables. A
  table remembers how it came to be, since that decides what
  may still be added to it.

  Values are kept as far as settings can hold them: of a
  float and of a date-time there is no more than its kind.

  Key definitions include:
    * `Origin`
    * `Value`
    * `Table`
    * `Table.enter`
    * `Table.assign`
-/

namespace JourneyMatch

namespace Toml

------------------------------------------------------------
-- The types
------------------------------------------------------------

/-
  How a table came to be: in braces, as a part of a header
  that names one inside it, by a key with dots, or by a
  header of its own.
-/
inductive Origin where
  | braces
  | implied
  | dotted
  | header
  deriving DecidableEq, Repr

/-
  A value. Tables under one header in double brackets make up
  a value together, the latest of them first.
-/
inductive Value where
  | text (s : String)
  | integer (i : Int)
  | float
  | boolean (b : Bool)
  | dateTime
  | array (items : List Value)
  | table (origin : Origin) (entries : List (String × Value))
  | tables
      (latest : List (String × Value))
      (earlier : List (List (String × Value)))

/- A table: how it came to be, and what it holds. -/
structure Table where
  origin : Origin
  entries : List (String × Value)

namespace Table

/- A table without entries. -/
def empty
    (origin : Origin) : Table :=
  ⟨origin, []⟩

/- A table as a value. -/
def value
    (t : Table) : Value :=
  .table t.origin t.entries

/- The value under a key. -/
def find?
    (key : String)
    (t : Table) : Option Value :=
  Entries.find? key t.entries

/- Puts a value under a key. -/
def set
    (key : String)
    (v : Value)
    (t : Table) : Table :=
  { t with entries := Entries.insert key v t.entries }

/- Puts a value under a key that has none. -/
def add
    (key : String)
    (v : Value)
    (t : Table) : Option Table :=
  match t.find? key with
  | none => some (t.set key v)
  | some _ => none

------------------------------------------------------------
-- Paths
------------------------------------------------------------

/-
  Whether a path may lead through a table: none leads into
  braces, and a key with dots does not lead into a table that
  has a header of its own.
-/
def passable
    (made : Origin) : Origin → Bool
  | .braces => false
  | .header => made ≠ .dotted
  | .implied => true
  | .dotted => true

/-
  Lets an operation work on the table at the end of a path.
  Tables that are missing on the way are made; of tables
  under one header, the path leads through the latest.
-/
def enter
    (made : Origin)
    (operation : Table → Option Table) :
    List String → Table → Option Table
  | [], t => operation t
  | key :: path, t =>
      match t.find? key with
      | none => do
          let inner ← enter made operation path (empty made)
          some (t.set key inner.value)
      | some (.table origin entries) =>
          if passable made origin then do
            let inner ←
              enter made operation path ⟨origin, entries⟩
            some (t.set key inner.value)
          else
            none
      | some (.tables latest earlier) => do
          let inner ←
            enter made operation path ⟨.header, latest⟩
          some (t.set key (.tables inner.entries earlier))
      | some _ => none

/-
  Assigns a value to a key behind a path. A path ends in a
  table that keys with dots have made.
-/
def assign
    (path : List String)
    (key : String)
    (v : Value)
    (t : Table) : Option Table :=
  t.enter .dotted
    (fun inner =>
      if path ≠ [] ∧ inner.origin ≠ .dotted then
        none
      else
        inner.add key v)
    path

end Table

end Toml

end JourneyMatch
