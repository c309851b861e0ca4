import JourneyMatch.Json.Number
import JourneyMatch.Sorted.Entries

/-
  This file defines JSON values. An object keeps its members
  in the order and number in which they were read; a settled
  value has, in each of its objects, one member for each key,
  in ascending order of keys, the last member of a key being
  the one that counts.

  Key definitions include:
    * `Json`
    * `Json.settle`
    * `Json.depth`
-/

namespace JourneyMatch

------------------------------------------------------------
-- The type
------------------------------------------------------------

/- A JSON value. -/
inductive Json where
  | null
  | bool (value : Bool)
  | number (value : Number)
  | string (value : String)
  | array (items : List Json)
  | object (members : List (String × Json))

namespace Json

instance : Inhabited Json :=
  ⟨.null⟩

------------------------------------------------------------
-- Settled values
------------------------------------------------------------

mutual

/- Settles a value and all values within it. -/
def settle :
    Json → Json
  | .array items => .array (settleItems items)
  | .object members => .object (settleMembers members [])
  | .null => .null
  | .bool value => .bool value
  | .number value => .number value
  | .string value => .string value

/- Settles the items of an array. -/
def settleItems :
    List Json → List Json
  | [] => []
  | item :: rest => settle item :: settleItems rest

/- Inserts settled members one after the other. -/
def settleMembers :
    List (String × Json) →
    List (String × Json) →
    List (String × Json)
  | [], sorted => sorted
  | (name, value) :: rest, sorted =>
      settleMembers rest
        (Entries.insert name (settle value) sorted)

end

------------------------------------------------------------
-- Nesting
------------------------------------------------------------

mutual

/- The number of arrays and objects around the deepest value. -/
def depth :
    Json → Nat
  | .array items => depthItems items + 1
  | .object members => depthMembers members + 1
  | .null => 0
  | .bool _ => 0
  | .number _ => 0
  | .string _ => 0

/- The greatest depth of the items. -/
def depthItems :
    List Json → Nat
  | [] => 0
  | item :: rest => max (depth item) (depthItems rest)

/- The greatest depth of the members. -/
def depthMembers :
    List (String × Json) → Nat
  | [] => 0
  | (_, value) :: rest => max (depth value) (depthMembers rest)

end

end Json

end JourneyMatch
