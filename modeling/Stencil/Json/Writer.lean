/- # Json.Writer -- JSON value to JSON text

Two layouts: `compress` on one line without blanks, and `pretty` with a line for every item and two
blanks for every level. Strings escape the quote, the backslash and the characters below the space;
everything else is written as it is. A double that is not finite has no JSON token and is written as
null.
-/
import Stencil.Json.Basic
import Stencil.Number.Shortest

namespace Stencil.Json
set_option autoImplicit false

/-- A hexadecimal digit in lower case. -/
def hexDigit (n : Nat) : Char := Nat.digitChar n

/-- How one character is written inside a string. -/
def stringChar (c : Char) : List Char :=
  if c = '"' then ['\\', '"']
  else if c = '\\' then ['\\', '\\']
  else if c = '\x08' then ['\\', 'b']
  else if c = '\x0c' then ['\\', 'f']
  else if c = '\n' then ['\\', 'n']
  else if c = '\r' then ['\\', 'r']
  else if c = '\t' then ['\\', 't']
  else if c.toNat < 0x20 then
    ['\\', 'u', '0', '0', hexDigit (c.toNat / 16), hexDigit (c.toNat % 16)]
  else [c]

/-- A string token. -/
def stringChars (s : String) : List Char := '"' :: (s.toList.flatMap stringChar ++ ['"'])

/-- A number token. -/
def numberChars : Number → List Char
  | .int n => Binary64.integerChars n
  | .float x => if x.isFinite then x.chars else ['n', 'u', 'l', 'l']

/-- The token of a value that is neither array nor object. -/
def scalarChars : Json → List Char
  | .bool true => ['t', 'r', 'u', 'e']
  | .bool false => ['f', 'a', 'l', 's', 'e']
  | .num n => numberChars n
  | .str s => stringChars s
  | _ => ['n', 'u', 'l', 'l']

/-! ## One line -/

mutual

def compressChars : Json → List Char
  | .arr items => '[' :: (compressItems items ++ [']'])
  | .obj fields => '\x7b' :: (compressFields fields ++ ['\x7d'])
  | j => scalarChars j

def compressItems : List Json → List Char
  | [] => []
  | [item] => compressChars item
  | item :: items => compressChars item ++ ',' :: compressItems items

def compressFields : List (String × Json) → List Char
  | [] => []
  | [(key, value)] => stringChars key ++ ':' :: compressChars value
  | (key, value) :: fields =>
    stringChars key ++ ':' :: (compressChars value ++ ',' :: compressFields fields)

end

/-- The text on one line. -/
def compress (j : Json) : String := String.ofList j.compressChars

/-! ## A line for every item -/

/-- A line break and the indentation of a level. -/
def newline (level : Nat) : List Char := '\n' :: List.replicate (2 * level) ' '

mutual

/-- The text of a value whose lines are indented by `level`. -/
def prettyChars (level : Nat) : Json → List Char
  | .arr [] => ['[', ']']
  | .arr items => '[' :: (prettyItems (level + 1) items ++ newline level ++ [']'])
  | .obj [] => ['\x7b', '\x7d']
  | .obj fields => '\x7b' :: (prettyFields (level + 1) fields ++ newline level ++ ['\x7d'])
  | j => scalarChars j

def prettyItems (level : Nat) : List Json → List Char
  | [] => []
  | [item] => newline level ++ prettyChars level item
  | item :: items => newline level ++ prettyChars level item ++ ',' :: prettyItems level items

def prettyFields (level : Nat) : List (String × Json) → List Char
  | [] => []
  | [(key, value)] => newline level ++ stringChars key ++ ':' :: ' ' :: prettyChars level value
  | (key, value) :: fields =>
    newline level ++ stringChars key ++ ':' :: ' ' ::
      (prettyChars level value ++ ',' :: prettyFields level fields)

end

/-- The text with a line for every item. -/
def pretty (j : Json) : String := String.ofList (j.prettyChars 0)

end Stencil.Json
