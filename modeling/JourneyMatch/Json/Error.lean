/-
  This file defines why a JSON text is refused: it ends too
  early, it is not JSON, or it is JSON of another form than
  the one expected.

  Key definitions include:
    * `Malformed`
    * `Mismatch`
    * `ReadError`
    * `ReadError.message`
-/

namespace JourneyMatch

------------------------------------------------------------
-- Causes
------------------------------------------------------------

/- How a text fails to be JSON. -/
inductive Malformed where
  | expectedValue
  | unknownWord
  | badNumber
  | numberTooLarge
  | badEscape
  | loneSurrogate
  | controlCharacter
  | keyNotText
  | expectedColon
  | expectedComma
  | trailingComma
  | trailingText
  | tooDeep
  deriving DecidableEq, Repr

/- How JSON fails to have the expected form. -/
inductive Mismatch where
  | missingField (name : String)
  | duplicateField (name : String)
  | unknownVariant (name : String) (expected : List String)
  | wrongKind
  | wrongValue
  | wrongLength
  deriving DecidableEq, Repr

/- Why a text is refused. -/
inductive ReadError where
  | endOfText
  | malformed (cause : Malformed)
  | mismatch (cause : Mismatch)
  deriving DecidableEq, Repr

------------------------------------------------------------
-- Messages
------------------------------------------------------------

/- The wording of a text that is not JSON. -/
def Malformed.message :
    Malformed → String
  | .expectedValue => "expected value"
  | .unknownWord => "expected ident"
  | .badNumber => "invalid number"
  | .numberTooLarge => "number out of range"
  | .badEscape => "invalid escape"
  | .loneSurrogate => "lone leading surrogate in hex escape"
  | .controlCharacter =>
      "control character found while parsing a string"
  | .keyNotText => "key must be a string"
  | .expectedColon => "expected `:`"
  | .expectedComma => "expected `,`"
  | .trailingComma => "trailing comma"
  | .trailingText => "trailing characters"
  | .tooDeep => "recursion limit exceeded"

/- A name between backquotes. -/
def quotedName
    (name : String) : String :=
  "`" ++ name ++ "`"

/-
  The names a variant may have: two are joined by "or", and
  more are listed.
-/
def expectedNames :
    List String → String
  | [] => "there are no variants"
  | [a] => "expected " ++ quotedName a
  | [a, b] =>
      "expected " ++ quotedName a ++ " or " ++ quotedName b
  | names =>
      "expected one of "
        ++ String.intercalate ", " (names.map quotedName)

/- The wording of a mismatch. -/
def Mismatch.message :
    Mismatch → String
  | .missingField name => "missing field " ++ quotedName name
  | .duplicateField name =>
      "duplicate field " ++ quotedName name
  | .unknownVariant name expected =>
      "unknown variant " ++ quotedName name ++ ", "
        ++ expectedNames expected
  | .wrongKind => "invalid type"
  | .wrongValue => "invalid value"
  | .wrongLength => "invalid length"

/- The wording of a refusal. -/
def ReadError.message :
    ReadError → String
  | .endOfText => "unexpected end of text"
  | .malformed cause => cause.message
  | .mismatch cause => cause.message

end JourneyMatch
