import FeatureFlags.Text.Glyph

/-!
# Quoted text in messages

A message shows a text between double quotes.  Inside, the quote and the
backslash take a backslash, four controls have a letter, and any other
character without a glyph of its own is written by its code point in braces.
-/

namespace FeatureFlags.Text

def braced (c : Char) : List Char :=
  '\\' :: 'u' :: '\x7b' :: (Nat.toDigits 16 c.toNat ++ ['\x7d'])

def shown (c : Char) : List Char :=
  match c with
  | '"' => ['\\', '"']
  | '\\' => ['\\', '\\']
  | '\t' => ['\\', 't']
  | '\n' => ['\\', 'n']
  | '\r' => ['\\', 'r']
  | '\x00' => ['\\', '0']
  | c => if hasGlyph c then [c] else braced c

def quoted (text : String) : String :=
  String.ofList ('"' :: (text.toList.flatMap shown ++ ['"']))

end FeatureFlags.Text
