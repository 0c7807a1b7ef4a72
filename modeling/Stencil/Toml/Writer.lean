/- # Toml.Writer -- TOML text

A string is written in the first of these forms that needs no escapes: double quotes, single quotes,
three double quotes, three single quotes. Where none will do, it is written with escapes in double
quotes, three of them around a line break. A key of plain letters, digits, dashes and underscores needs
no quotes, and other keys stay on one line.
-/
import Stencil.Toml.Reader

namespace Stencil.Toml
set_option autoImplicit false

/-- How a string is quoted. -/
inductive Quoting where
  | basic
  | literal
  | basicBlock
  | literalBlock
deriving DecidableEq

namespace Quoting

/-- The quotes on either side. -/
def marks : Quoting → List Char
  | basic => ['"']
  | literal => ['\x27']
  | basicBlock => ['"', '"', '"']
  | literalBlock => ['\x27', '\x27', '\x27']

/-- Whether the string may go over several lines. -/
def isBlock : Quoting → Bool
  | basicBlock => true
  | literalBlock => true
  | _ => false

/-- Whether backslashes introduce escapes. -/
def escapes : Quoting → Bool
  | basic => true
  | basicBlock => true
  | _ => false

end Quoting

/-! ## The choice of quotes -/

/-- The greatest number of times that `c` stands side by side, `n` times before the text. -/
def longestRun (c : Char) (n : Nat) : List Char → Nat
  | [] => n
  | d :: rest => if d = c then longestRun c (n + 1) rest else max n (longestRun c 0 rest)

/-- Whether a character can only be written by an escape, a line feed apart. -/
def isControl (c : Char) : Bool := !isPlain c && c != '\n'

/-- The quotes of a string that is a value. -/
def quotingOfValue (cs : List Char) : Quoting :=
  let breaks := cs.contains '\n'
  let escaped := if breaks then Quoting.basicBlock else .basic
  if cs.any isControl then escaped
  else
    let slashes := cs.contains '\\'
    let doubles := longestRun '"' 0 cs
    let singles := longestRun '\x27' 0 cs
    if !slashes && doubles = 0 && !breaks then .basic
    else if singles = 0 && !breaks then .literal
    else if !slashes && doubles ≤ 2 then .basicBlock
    else if singles ≤ 2 then .literalBlock
    else escaped

/-- The quotes of a string that is a key. -/
def quotingOfKey (cs : List Char) : Quoting :=
  if cs.all isPlain && (cs.contains '\\' || cs.contains '"') && !cs.contains '\x27' then .literal
  else .basic

/-! ## Text -/

/-- How one character other than a quote is written by an escape, if it needs one. -/
def stringChar (inBlock : Bool) (c : Char) : List Char :=
  if c = '\\' then ['\\', '\\']
  else if c = '\x08' then ['\\', 'b']
  else if c = '\t' then ['\\', 't']
  else if c = '\n' then if inBlock then ['\n'] else ['\\', 'n']
  else if c = '\x0c' then ['\\', 'f']
  else if c = '\r' then ['\\', 'r']
  else if isPlain c then [c]
  else ['\\', 'u', '0', '0', Nat.digitChar (c.toNat / 16), (Nat.digitChar (c.toNat % 16)).toUpper]

/-- A text with escapes, `quotes` quotes before it. Side by side stand two quotes at most in a block, and
none elsewhere. -/
def escapedText (inBlock : Bool) (quotes : Nat) : List Char → List Char
  | [] => []
  | c :: rest =>
    if c = '"' then
      if inBlock && quotes < 2 then '"' :: escapedText inBlock (quotes + 1) rest
      else '\\' :: '"' :: escapedText inBlock 0 rest
    else stringChar inBlock c ++ escapedText inBlock 0 rest

/-- A string in quotes. A block that holds a line break starts on a line of its own. -/
def quotedText (quoting : Quoting) (cs : List Char) : String :=
  let start := if quoting.isBlock && cs.contains '\n' then ['\n'] else []
  let body := if quoting.escapes then escapedText quoting.isBlock 0 cs else cs
  String.ofList (quoting.marks ++ start ++ body ++ quoting.marks)

/-- A string as a value. -/
def stringText (s : String) : String := quotedText (quotingOfValue s.toList) s.toList

/-- A key, in quotes where it needs them. -/
def keyText (key : String) : String :=
  if !key.isEmpty && key.toList.all isBare then key else quotedText (quotingOfKey key.toList) key.toList

/-- A line with a key and the text of its value. -/
def entryText (key value : String) : String := s!"{keyText key} = {value}\n"

end Stencil.Toml
