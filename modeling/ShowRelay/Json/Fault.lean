/-
  ShowRelay.Json.Fault

  What can be wrong with a JSON document. A document is read in one pass from
  left to right, and the first fault ends the reading; faults are of the grammar,
  of an end that comes too early, or of a value that does not fit where it stands.
-/

import ShowRelay.Text.Quoted

namespace ShowRelay.Json

/-- The greatest natural number that is kept as a whole number. -/
def maxNatural : Nat := UInt64.size - 1

/-- A value as a fault names it. -/
inductive Found where
  | null
  | boolean (value : Bool)
  | integer (value : Int)
  -- A number with a fraction or an exponent, or one too large; held as its text.
  | floating (text : String)
  | string (value : String)
  | sequence
  | map
  deriving Repr, DecidableEq

/-- The name of a value. -/
def Found.text : Found → String
  | null => "null"
  | boolean value => "boolean `" ++ (if value then "true" else "false") ++ "`"
  | integer value =>
    "integer `" ++ (if value < 0 then "-" else "") ++ value.natAbs.repr ++ "`"
  | floating text => "floating point `" ++ text ++ "`"
  | string value => "string " ++ Text.quoted value
  | sequence => "sequence"
  | map => "map"

/-- The sorts of faults. -/
inductive Category where
  -- The grammar does not admit what stands there.
  | grammar
  | tooShort
  | misfit
  deriving Repr, DecidableEq

/-- The first fault of a document. -/
inductive Fault where
  | expectedValue
  -- A word that begins like `true`, `false` or `null` goes on differently.
  | expectedIdent
  | expectedColon
  | expectedCommaOrBrace
  | expectedCommaOrBracket
  | keyNotString
  | trailingComma
  | trailingCharacters
  | invalidNumber
  | numberOutOfRange
  | invalidEscape
  -- Half of a pair of escapes stands alone, or the wrong half comes first.
  | loneSurrogate
  -- No second escape follows the first half of a pair.
  | unfinishedEscape
  | controlCharacter
  -- The document ends where a value should begin, or within one.
  | endOfValue
  | endOfObject
  | endOfList
  | endOfString
  -- An object has a member of another name than the `expected` ones.
  | unknownField (name : String) (expected : List String)
  -- An object has two members of one name.
  | duplicateField (name : String)
  -- A value is of another type than expected.
  | invalidType (found : Found) (expected : String)
  -- A value is out of the expected range.
  | invalidValue (found : Found) (expected : String)
  -- A text does not write what it should.
  | malformed (message : String)
  deriving Repr, DecidableEq

namespace Fault

/-- The sort of a fault. -/
def category : Fault → Category
  | endOfValue | endOfObject | endOfList | endOfString => .tooShort
  | unknownField _ _ | duplicateField _ | invalidType _ _ | invalidValue _ _ | malformed _ =>
    .misfit
  | _ => .grammar

/-- The wording of a fault. -/
def message : Fault → String
  | expectedValue => "expected value"
  | expectedIdent => "expected ident"
  | expectedColon => "expected `:`"
  | expectedCommaOrBrace => "expected `,` or `\x7d`"
  | expectedCommaOrBracket => "expected `,` or `]`"
  | keyNotString => "key must be a string"
  | trailingComma => "trailing comma"
  | trailingCharacters => "trailing characters"
  | invalidNumber => "invalid number"
  | numberOutOfRange => "number out of range"
  | invalidEscape => "invalid escape"
  | loneSurrogate => "lone leading surrogate in hex escape"
  | unfinishedEscape => "unexpected end of hex escape"
  | controlCharacter =>
    "control character (\\u0000-\\u001F) found while parsing a string"
  | endOfValue => "EOF while parsing a value"
  | endOfObject => "EOF while parsing an object"
  | endOfList => "EOF while parsing a list"
  | endOfString => "EOF while parsing a string"
  | unknownField name expected =>
    "unknown field `" ++ name ++ "`, expected one of " ++
      ", ".intercalate (expected.map fun field => "`" ++ field ++ "`")
  | duplicateField name => "duplicate field `" ++ name ++ "`"
  | invalidType found expected => "invalid type: " ++ found.text ++ ", expected " ++ expected
  | invalidValue found expected => "invalid value: " ++ found.text ++ ", expected " ++ expected
  | malformed message => message

end Fault

end ShowRelay.Json
