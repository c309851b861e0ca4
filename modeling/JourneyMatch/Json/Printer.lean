import JourneyMatch.Json.Basic
import JourneyMatch.Json.Text

/-
  This file defines the compact text of a JSON value: no
  blanks, and the members of an object in the order in which
  they stand.

  Key definitions include:
    * `joinCommas`
    * `bracketed`
    * `Json.write`
    * `Json.compact`
-/

namespace JourneyMatch

/- Puts a comma between neighbours. -/
def joinCommas :
    List (List Char) → List Char
  | [] => []
  | [part] => part
  | part :: next :: rest =>
      part ++ ',' :: joinCommas (next :: rest)

/- The items of an array between its brackets. -/
def bracketed
    (parts : List (List Char)) : List Char :=
  '[' :: (joinCommas parts ++ [']'])

/- The members of an object between its braces. -/
def braced
    (parts : List (List Char)) : List Char :=
  '{' :: (joinCommas parts ++ ['}'])

/- A key and the text of its value. -/
def keyed
    (key : String)
    (value : List Char) : List Char :=
  Quoted.write key ++ ':' :: value

/- The two truth values. -/
def boolText :
    Bool → List Char
  | true => ['t', 'r', 'u', 'e']
  | false => ['f', 'a', 'l', 's', 'e']

/- The null value. -/
def nullText : List Char :=
  ['n', 'u', 'l', 'l']

namespace Json

mutual

/- The compact text of a value. -/
def write :
    Json → List Char
  | .null => nullText
  | .bool value => boolText value
  | .number value => value.text
  | .string value => Quoted.write value
  | .array items => bracketed (writeItems items)
  | .object members => braced (writeMembers members)

/- The texts of the items. -/
def writeItems :
    List Json → List (List Char)
  | [] => []
  | item :: rest => write item :: writeItems rest

/- The texts of the members. -/
def writeMembers :
    List (String × Json) → List (List Char)
  | [] => []
  | (name, value) :: rest =>
      keyed name (write value) :: writeMembers rest

end

/- The compact text of a value as a string. -/
def compact
    (j : Json) : String :=
  String.ofList j.write

end Json

end JourneyMatch
