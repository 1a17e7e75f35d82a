import FeatureFlags.Json.Basic

/-!
# Writing JSON

One printer serves both forms of the text.  A `Style` says what stands before
each item at a given depth and between a name and its value: nothing and a
colon in compact text, a new line with two spaces per level and a colon with a
space in indented text.  An empty array or object has nothing inside.
-/

namespace FeatureFlags.Json

structure Style where
  newline : Nat → List Char
  colon : List Char

def Style.compact : Style where
  newline _ := []
  colon := [':']

def Style.indented : Style where
  newline depth := '\n' :: List.replicate (2 * depth) ' '
  colon := [':', ' ']

def hexDigits (n : Nat) : List Char :=
  [Nat.digitChar (n / 4096 % 16), Nat.digitChar (n / 256 % 16),
   Nat.digitChar (n / 16 % 16), Nat.digitChar (n % 16)]

def escaped (c : Char) : List Char :=
  match c with
  | '"' => ['\\', '"']
  | '\\' => ['\\', '\\']
  | '\x08' => ['\\', 'b']
  | '\t' => ['\\', 't']
  | '\n' => ['\\', 'n']
  | '\x0c' => ['\\', 'f']
  | '\r' => ['\\', 'r']
  | c => if c.toNat < 0x20 then '\\' :: 'u' :: hexDigits c.toNat else [c]

def stringChars (text : String) : List Char :=
  '"' :: (text.toList.flatMap escaped ++ ['"'])

mutual

def chars (style : Style) (depth : Nat) : Json → List Char
  | null => ['n', 'u', 'l', 'l']
  | bool true => ['t', 'r', 'u', 'e']
  | bool false => ['f', 'a', 'l', 's', 'e']
  | num n => n.chars
  | str text => stringChars text
  | arr [] => ['[', ']']
  | arr (item :: items) =>
    '[' :: (style.newline (depth + 1) ++ chars style (depth + 1) item ++
      itemChars style depth items)
  | obj [] => ['{', '}']
  | obj ((name, value) :: members) =>
    '{' :: (style.newline (depth + 1) ++ stringChars name ++ style.colon ++
      chars style (depth + 1) value ++ memberChars style depth members)

def itemChars (style : Style) (depth : Nat) : List Json → List Char
  | [] => style.newline depth ++ [']']
  | item :: items =>
    ',' :: (style.newline (depth + 1) ++ chars style (depth + 1) item ++
      itemChars style depth items)

def memberChars (style : Style) (depth : Nat) :
    List (String × Json) → List Char
  | [] => style.newline depth ++ ['}']
  | (name, value) :: members =>
    ',' :: (style.newline (depth + 1) ++ stringChars name ++ style.colon ++
      chars style (depth + 1) value ++ memberChars style depth members)

end

def compact (value : Json) : String :=
  String.ofList (chars .compact 0 value)

def indented (value : Json) : String :=
  String.ofList (chars .indented 0 value)

end FeatureFlags.Json
