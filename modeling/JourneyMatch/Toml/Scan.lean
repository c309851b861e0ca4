/-
  This file defines the least parts of a TOML text: blanks,
  comments, the ends of lines, and what may stand between the
  items of an array.

  Key definitions include:
    * `Scan`
    * `skipBlanks`
    * `endLine?`
    * `skipGap`
-/

namespace JourneyMatch

namespace Toml

/-
  Reads something from the front of a text and gives the
  rest, or refuses.
-/
abbrev Scan (α : Type) :=
  List Char → Option (α × List Char)

/- The blanks inside a line. -/
def isBlank
    (c : Char) : Bool :=
  c = ' ' || c = '\t'

/- The characters that stand for themselves in a line. -/
def isPlain
    (c : Char) : Bool :=
  c = '\t' || (' ' ≤ c && c ≤ '~') || 0x80 ≤ c.toNat

/- Passes over blanks. -/
def skipBlanks
    (cs : List Char) : List Char :=
  cs.dropWhile isBlank

/- Passes over a comment, up to the end of its line. -/
def skipComment : List Char → List Char
  | '#' :: rest => rest.dropWhile isPlain
  | cs => cs

/- Passes over a line break. -/
def newline? : List Char → Option (List Char)
  | '\n' :: rest => some rest
  | '\r' :: '\n' :: rest => some rest
  | _ => none

/-
  Passes over what may follow at the end of a line, and over
  the end, which may be that of the text.
-/
def endLine?
    (cs : List Char) : Option (List Char) :=
  match skipComment (skipBlanks cs) with
  | [] => some []
  | cs => newline? cs

/- Passes over blanks and line breaks. -/
def skipLines : List Char → List Char
  | '\n' :: rest => skipLines rest
  | '\r' :: '\n' :: rest => skipLines rest
  | c :: rest => if isBlank c then skipLines rest else c :: rest
  | [] => []

/-
  Passes over blanks, line breaks and comments. The first
  argument tells whether a comment has begun.
-/
def skipGapFrom : Bool → List Char → List Char
  | _, '\n' :: rest => skipGapFrom false rest
  | _, '\r' :: '\n' :: rest => skipGapFrom false rest
  | true, c :: rest =>
      if isPlain c then skipGapFrom true rest else c :: rest
  | false, '#' :: rest => skipGapFrom true rest
  | false, c :: rest =>
      if isBlank c then skipGapFrom false rest else c :: rest
  | _, [] => []

/- Passes over what may stand between items. -/
def skipGap
    (cs : List Char) : List Char :=
  skipGapFrom false cs

end Toml

end JourneyMatch
