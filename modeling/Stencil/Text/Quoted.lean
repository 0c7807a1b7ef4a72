/- # Quoted -- a text between double quotes, as messages show it

Messages quote a text so that its ends and its invisible characters can be seen: the six familiar
escapes are written with a backslash, a character without a glyph of its own, one that extends its
neighbour or one that is ignored in drawing is written by its code point, and everything else stands
for itself.
-/
import Stencil.Text.Marks

namespace Stencil.Text
set_option autoImplicit false

/-- The code point in lower-case hexadecimal without padding, between braces. -/
def codePoint (c : Char) : List Char :=
  '\\' :: 'u' :: '\x7b' :: (Nat.toDigits 16 c.toNat ++ ['\x7d'])

/-- How one character is written between the quotes. -/
def quotedChar (c : Char) : List Char :=
  if c = '\x00' then ['\\', '0']
  else if c = '\t' then ['\\', 't']
  else if c = '\r' then ['\\', 'r']
  else if c = '\n' then ['\\', 'n']
  else if c = '"' then ['\\', '"']
  else if c = '\\' then ['\\', '\\']
  else if isExtending c || isBlank c || isIgnorable c then codePoint c
  else [c]

/-- A text in double quotes. -/
def quoted (s : String) : String :=
  String.ofList ('"' :: (s.toList.flatMap quotedChar ++ ['"']))

end Stencil.Text
