import JourneyMatch.Visible.Unmarked

/-
  This file defines how a text is shown in a message: between
  quotes, with escapes for the quote, the backslash, and all
  characters that leave no mark of their own.

  Key definitions include:
    * `Visible.char`
    * `Visible.quote`
-/

namespace JourneyMatch

namespace Visible

/- A character by its number, in hexadecimal. -/
def byNumber
    (c : Char) : List Char :=
  ['\\', 'u', '{'] ++ Nat.toDigits 16 c.toNat ++ ['}']

/- A character as it is shown. -/
def char
    (c : Char) : List Char :=
  if c = '"' then ['\\', '"']
  else if c = '\\' then ['\\', '\\']
  else if c = '\n' then ['\\', 'n']
  else if c = '\r' then ['\\', 'r']
  else if c = '\t' then ['\\', 't']
  else if c.toNat = 0 then ['\\', '0']
  else if isUnmarked c then byNumber c
  else [c]

/- A text as it is shown. -/
def quote
    (s : String) : String :=
  String.ofList ('"' :: (s.toList.flatMap char ++ ['"']))

end Visible

end JourneyMatch
