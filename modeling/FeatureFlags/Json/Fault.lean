/-!
# Faults of a text

A text that is no JSON has one fault: a cause and the place where the reader
stopped.  While reading, the place is kept as the number of bytes still ahead;
`placeAfter` turns the bytes already read into a line and a column.
-/

namespace FeatureFlags.Json

inductive Flaw
  | endInValue
  | endInArray
  | endInObject
  | endInString
  | expectedValue
  | expectedWord
  | expectedColon
  | expectedCommaOrBracket
  | expectedCommaOrBrace
  | nameNotString
  | trailingComma
  | trailingCharacters
  | invalidNumber
  | numberOutOfRange
  | invalidEscape
  | unfinishedPair
  | loneSurrogate
  | controlCharacter
  | tooDeep
  deriving DecidableEq

def Flaw.message : Flaw → String
  | endInValue => "EOF while parsing a value"
  | endInArray => "EOF while parsing a list"
  | endInObject => "EOF while parsing an object"
  | endInString => "EOF while parsing a string"
  | expectedValue => "expected value"
  | expectedWord => "expected ident"
  | expectedColon => "expected `:`"
  | expectedCommaOrBracket => "expected `,` or `]`"
  | expectedCommaOrBrace => "expected `,` or `\x7d`"
  | nameNotString => "key must be a string"
  | trailingComma => "trailing comma"
  | trailingCharacters => "trailing characters"
  | invalidNumber => "invalid number"
  | numberOutOfRange => "number out of range"
  | invalidEscape => "invalid escape"
  | unfinishedPair => "unexpected end of hex escape"
  | loneSurrogate => "lone leading surrogate in hex escape"
  | controlCharacter =>
    "control character (\\u0000-\\u001F) found while parsing a string"
  | tooDeep => "recursion limit exceeded"

def byteCount : List Char → Nat
  | [] => 0
  | c :: cs => c.utf8Size + byteCount cs

/-- Lines count from one; a column is the number of bytes since the line began. -/
structure Place where
  line : Nat
  column : Nat
  deriving DecidableEq

def Place.after (place : Place) : Nat → List Char → Place
  | 0, _ => place
  | _, [] => place
  | bytes + 1, c :: cs =>
    if c = '\n' then Place.after ⟨place.line + 1, 0⟩ bytes cs
    else
      let step := min (bytes + 1) c.utf8Size
      Place.after ⟨place.line, place.column + step⟩ (bytes + 1 - step) cs

def placeAfter (bytes : Nat) (text : List Char) : Place :=
  Place.after ⟨1, 0⟩ bytes text

structure Located (κ : Type) where
  cause : κ
  place : Place
  deriving DecidableEq

def Place.suffix (place : Place) : String :=
  " at line " ++ Nat.repr place.line ++ " column " ++ Nat.repr place.column

abbrev SyntaxError := Located Flaw

def SyntaxError.message (error : SyntaxError) : String :=
  error.cause.message ++ error.place.suffix

/-- A flaw and the number of bytes that the reader had not yet taken. -/
structure Stop where
  flaw : Flaw
  left : Nat
  deriving DecidableEq

def Stop.before (flaw : Flaw) (rest : List Char) : Stop :=
  ⟨flaw, byteCount rest⟩

/-- Stopped on the first byte of the rest, which counts as taken. -/
def Stop.on (flaw : Flaw) (rest : List Char) : Stop :=
  ⟨flaw, byteCount rest - 1⟩

def Stop.located (text : List Char) (stop : Stop) : SyntaxError :=
  ⟨stop.flaw, placeAfter (byteCount text - stop.left) text⟩

end FeatureFlags.Json
