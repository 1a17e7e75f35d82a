import FeatureFlags.Json.Basic
import FeatureFlags.Json.Scan

/-!
# Reading JSON

`parse` reads a whole text as one value.  Arrays and objects nest at most
`depthLimit` deep.  A name that an object repeats keeps its first place and
takes its last value.

The steps between the items of an array and the members of an object are
functions of their own, because reading into a known shape takes them too.
-/

namespace FeatureFlags.Json

def depthLimit : Nat := 127

/-- What comes next inside brackets: something to read, or the closing bracket. -/
inductive Next (α : Type)
  | more (found : α) (rest : List Char)
  | done (after : List Char)

def nextItem (first : Bool) (cs : List Char) : Except Stop (Next Unit) :=
  match skipSpaces cs with
  | [] => .error (.on .endInArray [])
  | ']' :: after => .ok (.done after)
  | c :: rest =>
    if first then .ok (.more () (c :: rest))
    else if c = ',' then
      match skipSpaces rest with
      | [] => .error (.on .endInValue [])
      | ']' :: rest => .error (.on .trailingComma (']' :: rest))
      | rest => .ok (.more () rest)
    else .error (.on .expectedCommaOrBracket (c :: rest))

def memberName (cs : List Char) : Except Stop (Next String) :=
  match cs with
  | '"' :: rest =>
    match string rest with
    | .error stop => .error stop
    | .ok (name, rest) => .ok (.more name rest)
  | cs => .error (.on .nameNotString cs)

def nextName (first : Bool) (cs : List Char) : Except Stop (Next String) :=
  match skipSpaces cs with
  | [] => .error (.on .endInObject [])
  | '}' :: after => .ok (.done after)
  | c :: rest =>
    if first then memberName (c :: rest)
    else if c = ',' then
      match skipSpaces rest with
      | [] => .error (.on .endInValue [])
      | '}' :: rest => .error (.on .trailingComma ('}' :: rest))
      | rest => memberName rest
    else .error (.on .expectedCommaOrBrace (c :: rest))

def colon (cs : List Char) : Except Stop (List Char) :=
  match skipSpaces cs with
  | [] => .error (.on .endInObject [])
  | ':' :: rest => .ok rest
  | rest => .error (.on .expectedColon rest)

section Loops

variable {α ε : Type} (lift : Stop → ε)
  (read : List Char → Except ε (α × List Char))

/--
The items of an array up to its closing bracket, at most `fuel` of them less
one.  Each item takes a character, so the length of the text is fuel enough.
-/
def items : Nat → Bool → List Char → Except ε (List α × List Char)
  | 0, _, cs => .error (lift (.on .endInArray cs))
  | fuel + 1, first, cs =>
    match nextItem first cs with
    | .error stop => .error (lift stop)
    | .ok (.done after) => .ok ([], after)
    | .ok (.more _ rest) =>
      match read rest with
      | .error fault => .error fault
      | .ok (item, rest) =>
        match items fuel false rest with
        | .error fault => .error fault
        | .ok (items, rest) => .ok (item :: items, rest)

def members : Nat → Bool → List Char → Except ε (Entries α × List Char)
  | 0, _, cs => .error (lift (.on .endInObject cs))
  | fuel + 1, first, cs =>
    match nextName first cs with
    | .error stop => .error (lift stop)
    | .ok (.done after) => .ok ([], after)
    | .ok (.more name rest) =>
      match colon rest with
      | .error stop => .error (lift stop)
      | .ok rest =>
        match read rest with
        | .error fault => .error fault
        | .ok (value, rest) =>
          match members fuel false rest with
          | .error fault => .error fault
          | .ok (members, rest) => .ok ((name, value) :: members, rest)

end Loops

def scalar (cs : List Char) : Except Stop (Json × List Char) :=
  match cs with
  | [] => .error (.on .endInValue [])
  | 'n' :: rest => (word ['u', 'l', 'l'] rest).map (null, ·)
  | 't' :: rest => (word ['r', 'u', 'e'] rest).map (bool true, ·)
  | 'f' :: rest => (word ['a', 'l', 's', 'e'] rest).map (bool false, ·)
  | '"' :: rest => (string rest).map fun read => (str read.1, read.2)
  | '-' :: rest => (number true rest).map fun read => (num read.1, read.2)
  | c :: rest =>
    if c.isDigit then
      (number false (c :: rest)).map fun read => (num read.1, read.2)
    else .error (.on .expectedValue (c :: rest))

def value : Nat → List Char → Except Stop (Json × List Char)
  | 0, cs =>
    match skipSpaces cs with
    | '[' :: rest => .error (.on .tooDeep ('[' :: rest))
    | '{' :: rest => .error (.on .tooDeep ('{' :: rest))
    | cs => scalar cs
  | depth + 1, cs =>
    match skipSpaces cs with
    | '[' :: rest =>
      (items id (value depth) (rest.length + 1) true rest).map fun read =>
        (arr read.1, read.2)
    | '{' :: rest =>
      (members id (value depth) (rest.length + 1) true rest).map fun read =>
        (obj (Entries.collapse read.1), read.2)
    | cs => scalar cs

def atEnd (cs : List Char) : Except Stop Unit :=
  match skipSpaces cs with
  | [] => .ok ()
  | rest => .error (.on .trailingCharacters rest)

def parseChars (cs : List Char) : Except Stop Json :=
  match value depthLimit cs with
  | .error stop => .error stop
  | .ok (json, rest) => (atEnd rest).map fun _ => json

def parse (text : String) : Except SyntaxError Json :=
  (parseChars text.toList).mapError (Stop.located text.toList)

end FeatureFlags.Json
