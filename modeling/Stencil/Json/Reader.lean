/- # Json.Reader -- JSON text to JSON value

The reader is a set of functions on lists of characters, each of which answers what it read and what
is left, or nothing. A number token is read exactly and then either kept as an integer or rounded
once to the nearest double. Text may nest arrays and objects up to `nestingLimit` levels. Of two
fields with one key the later one stands.
-/
import Stencil.Json.Basic
import Stencil.Number.Nearest
import Stencil.Text.Hex

namespace Stencil.Json
set_option autoImplicit false

/-- The greatest number of arrays and objects inside each other. -/
def nestingLimit : Nat := 127

/-- The four characters that may stand between tokens. -/
def isSpace (c : Char) : Bool := c == ' ' || c == '\n' || c == '\t' || c == '\r'

def skipSpace (cs : List Char) : List Char := cs.dropWhile isSpace

/-! ## Numbers -/

/-- The value of a list of decimal digits. -/
def digitsValue (ds : List Char) : Nat :=
  ds.foldl (fun acc d => acc * 10 + (d.toNat - '0'.toNat)) 0

/-- The digits at the front, at least one. -/
def digits1 (cs : List Char) : Option (List Char × List Char) :=
  match cs.span Char.isDigit with
  | ([], _) => none
  | parts => some parts

/-- The digits before the point: no zero stands in front of another digit. -/
def wholePart (cs : List Char) : Option (List Char × List Char) := do
  let (ds, rest) ← digits1 cs
  match ds with
  | '0' :: _ :: _ => none
  | _ => some (ds, rest)

/-- The digits after a point; empty where there is none. -/
def fractionPart : List Char → Option (List Char × List Char)
  | '.' :: cs => digits1 cs
  | cs => some ([], cs)

/-- A decimal exponent, or none where there is no exponent mark. -/
def exponentPart : List Char → Option (Option Int × List Char)
  | c :: cs =>
    if c = 'e' ∨ c = 'E' then
      let (negative, rest) : Bool × List Char :=
        match cs with
        | '+' :: rest => (false, rest)
        | '-' :: rest => (true, rest)
        | _ => (false, cs)
      (digits1 rest).map fun (ds, rest) =>
        (some (if negative then -(digitsValue ds : Int) else digitsValue ds), rest)
    else some (none, c :: cs)
  | [] => some (none, [])

/-- The number of a token: an integer token between `-2^63` and `2^64 - 1` is exact, except for a
negative zero; every other token is the nearest double, and has no value past the greatest one. -/
def numberOf (negative : Bool) (whole fraction : List Char) (exponent : Option Int) :
    Option Number :=
  let digits := digitsValue (whole ++ fraction)
  let double := (Binary64.ofDecimal? negative digits (exponent.getD 0 - fraction.length)).map
    Number.float
  if fraction.isEmpty && exponent.isNone then
    if negative then
      if 0 < digits ∧ digits ≤ Nat.pow 2 63 then some (.int (-digits)) else double
    else if digits < UInt64.size then some (.int digits) else double
  else double

def number (cs : List Char) : Option (Number × List Char) := do
  let (negative, cs) : Bool × List Char :=
    match cs with
    | '-' :: rest => (true, rest)
    | _ => (false, cs)
  let (whole, cs) ← wholePart cs
  let (fraction, cs) ← fractionPart cs
  let (exponent, cs) ← exponentPart cs
  let n ← numberOf negative whole fraction exponent
  return (n, cs)

/-! ## Strings -/

/-- The character of a one-letter escape. -/
def escaped? (c : Char) : Option Char :=
  if c = '"' then some '"'
  else if c = '\\' then some '\\'
  else if c = '/' then some '/'
  else if c = 'b' then some '\x08'
  else if c = 'f' then some '\x0c'
  else if c = 'n' then some '\n'
  else if c = 'r' then some '\r'
  else if c = 't' then some '\t'
  else none

/-- The characters up to the closing quote. A code unit above the plain range has to come as a pair
of surrogates; a surrogate alone is no character. -/
def stringBody : List Char → Option (List Char × List Char)
  | '"' :: rest => some ([], rest)
  | '\\' :: 'u' :: a :: b :: c :: d :: rest =>
    match Text.codeUnit? a b c d with
    | none => none
    | some unit =>
      if unit < 0xD800 ∨ 0xDFFF < unit then
        (stringBody rest).map fun (cs, rest) => (Char.ofNat unit :: cs, rest)
      else if unit < 0xDC00 then
        match rest with
        | '\\' :: 'u' :: e :: f :: g :: h :: rest =>
          match Text.codeUnit? e f g h with
          | none => none
          | some low =>
            if 0xDC00 ≤ low ∧ low ≤ 0xDFFF then
              let code := 0x10000 + (unit - 0xD800) * 0x400 + (low - 0xDC00)
              (stringBody rest).map fun (cs, rest) => (Char.ofNat code :: cs, rest)
            else none
        | _ => none
      else none
  | '\\' :: c :: rest =>
    match escaped? c with
    | none => none
    | some e => (stringBody rest).map fun (cs, rest) => (e :: cs, rest)
  | c :: rest =>
    if c.toNat < 0x20 ∨ c = '\\' then none
    else (stringBody rest).map fun (cs, rest) => (c :: cs, rest)
  | [] => none

/-! ## Values -/

/-- The rest behind a word at the front. -/
def word? (word : List Char) (cs : List Char) : Option (List Char) :=
  if word.isPrefixOf cs then some (cs.drop word.length) else none

/-- The values of an array after its opening bracket and up to the closing one, fewer than a bound. -/
def items (value : List Char → Option (Json × List Char)) :
    Nat → List Char → Option (List Json × List Char)
  | 0, _ => none
  | n + 1, cs => do
    let (v, rest) ← value (skipSpace cs)
    match skipSpace rest with
    | ']' :: rest => some ([v], rest)
    | ',' :: rest =>
      let (vs, rest) ← items value n rest
      some (v :: vs, rest)
    | _ => none

/-- Put a field in front, unless a later field has its key. -/
def addField (key : String) (value : Json) (fields : List (String × Json)) :
    List (String × Json) :=
  if (fields.lookup key).isSome then fields else (key, value) :: fields

/-- The fields of an object after its opening brace and up to the closing one, fewer than a bound. -/
def fields (value : List Char → Option (Json × List Char)) :
    Nat → List Char → Option (List (String × Json) × List Char)
  | 0, _ => none
  | n + 1, cs =>
    match skipSpace cs with
    | '"' :: rest => do
      let (key, rest) ← stringBody rest
      match skipSpace rest with
      | ':' :: rest =>
        let (v, rest) ← value (skipSpace rest)
        match skipSpace rest with
        | '\x7d' :: rest => some ([(String.ofList key, v)], rest)
        | ',' :: rest =>
          let (more, rest) ← fields value n rest
          some (addField (String.ofList key) v more, rest)
        | _ => none
      | _ => none
    | _ => none

/-- A value at the front, with at most `levels` arrays and objects inside each other and fewer than
`bound` values or fields in each. -/
def valueAt (bound : Nat) : Nat → List Char → Option (Json × List Char)
  | _, '"' :: rest =>
    (stringBody rest).map fun (cs, rest) => (.str (String.ofList cs), rest)
  | _, 'n' :: rest => (word? ['u', 'l', 'l'] rest).map fun rest => (.null, rest)
  | _, 't' :: rest => (word? ['r', 'u', 'e'] rest).map fun rest => (.bool true, rest)
  | _, 'f' :: rest => (word? ['a', 'l', 's', 'e'] rest).map fun rest => (.bool false, rest)
  | levels + 1, '[' :: rest =>
    match skipSpace rest with
    | ']' :: rest => some (.arr [], rest)
    | rest => (items (valueAt bound levels) bound rest).map fun (vs, rest) => (.arr vs, rest)
  | levels + 1, '\x7b' :: rest =>
    match skipSpace rest with
    | '\x7d' :: rest => some (.obj [], rest)
    | rest => (fields (valueAt bound levels) bound rest).map fun (fs, rest) => (.obj fs, rest)
  | _, cs => (number cs).map fun (n, rest) => (.num n, rest)

/-- Read a text that holds one JSON value and nothing else. Each value or field takes a character at
least, so the length of the text bounds their number. -/
def parse? (s : String) : Option Json := do
  let cs := s.toList
  let (v, rest) ← valueAt (cs.length + 1) nestingLimit (skipSpace cs)
  if (skipSpace rest).isEmpty then some v else none

end Stencil.Json
