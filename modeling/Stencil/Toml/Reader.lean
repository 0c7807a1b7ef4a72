/- # Toml.Reader -- TOML text to table

A document is read line by line: blank lines and comments, keys with values, and headers. Values are
strings in four kinds of quotes, numbers, truth values, moments in time, arrays and tables in braces.
The lines are then entered into one table, in their order.
-/
import Stencil.Number.Nearest
import Stencil.Text.Hex
import Stencil.Text.Split
import Stencil.Toml.Basic

namespace Stencil.Toml
set_option autoImplicit false

/-- The greatest number of arrays and braces inside each other. -/
def nestingLimit : Nat := 79

/-! ## Characters -/

def isBlank (c : Char) : Bool := c == ' ' || c == '\t'

/-- Characters that may stand in comments and literal strings: no controls but the tab. -/
def isPlain (c : Char) : Bool := c == '\t' || (0x20 ≤ c.toNat && c.toNat ≠ 0x7F)

/-- Characters of a key without quotes. -/
def isBare (c : Char) : Bool := c.isAlphanum || c == '-' || c == '_'

def skipBlank (cs : List Char) : List Char := cs.dropWhile isBlank

/-- The rest behind a line break. -/
def lineBreak? : List Char → Option (List Char)
  | '\n' :: rest => some rest
  | '\r' :: '\n' :: rest => some rest
  | _ => none

/-- Skip blanks, a comment and a line break; the end of the text ends a line as well. -/
def lineEnd? (cs : List Char) : Option (List Char) :=
  let rest :=
    match skipBlank cs with
    | '#' :: comment => comment.dropWhile isPlain
    | rest => rest
  if rest.isEmpty then some [] else lineBreak? rest

/-- Skip blanks, line breaks and comments. -/
def skipLines (inComment : Bool) : List Char → Option (List Char)
  | [] => some []
  | '\n' :: rest => skipLines false rest
  | '\r' :: '\n' :: rest => skipLines false rest
  | c :: rest =>
    if inComment then if isPlain c then skipLines true rest else none
    else if isBlank c then skipLines false rest
    else if c = '#' then skipLines true rest
    else some (c :: rest)

/-! ## Strings -/

/-- The character of a one-letter escape. -/
def escaped? (c : Char) : Option Char :=
  if c = 'b' then some '\x08'
  else if c = 't' then some '\t'
  else if c = 'n' then some '\n'
  else if c = 'f' then some '\x0c'
  else if c = 'r' then some '\r'
  else if c = '"' then some '"'
  else if c = '\\' then some '\\'
  else none

/-- The character of an escape, behind its backslash, and the rest. -/
def escape? : List Char → Option (Char × List Char)
  | 'u' :: rest =>
    if rest.length < 4 then none
    else ((Text.hexNumber? (rest.take 4)).bind Text.scalar?).map fun c => (c, rest.drop 4)
  | 'U' :: rest =>
    if rest.length < 8 then none
    else ((Text.hexNumber? (rest.take 8)).bind Text.scalar?).map fun c => (c, rest.drop 8)
  | c :: rest => (escaped? c).map fun c => (c, rest)
  | [] => none

/-- A string on one line up to its closing quote. -/
def basicBody : Nat → List Char → Option (List Char × List Char)
  | 0, _ => none
  | n + 1, cs =>
    match cs with
    | '"' :: rest => some ([], rest)
    | '\\' :: rest => do
      let (c, rest) ← escape? rest
      let (cs, rest) ← basicBody n rest
      return (c :: cs, rest)
    | c :: rest => do
      if isPlain c then
        let (cs, rest) ← basicBody n rest
        return (c :: cs, rest)
      else none
    | [] => none

/-- A string without escapes on one line up to its closing quote. -/
def literalBody (cs : List Char) : Option (List Char × List Char) :=
  match cs.span fun c => isPlain c && c != '\x27' with
  | (body, '\x27' :: rest) => some (body, rest)
  | _ => none

/-- Skip blanks and line breaks. -/
def skipBreaks : List Char → List Char
  | [] => []
  | '\n' :: rest => skipBreaks rest
  | '\r' :: '\n' :: rest => skipBreaks rest
  | c :: rest => if isBlank c then skipBreaks rest else c :: rest

/-- The rest behind the blanks and line breaks that follow a backslash at the end of a line; there is
one break at least. -/
def continuation? (cs : List Char) : Option (List Char) :=
  (lineBreak? (skipBlank cs)).map skipBreaks

/-- A string over several lines up to three closing quotes; two quotes may stand before these. Line
breaks are kept as line feeds. -/
def blockBody (quote : Char) (escapes : Bool) : Nat → List Char → Option (List Char × List Char)
  | 0, _ => none
  | n + 1, cs =>
    if cs.take 5 = List.replicate 5 quote then some ([quote, quote], cs.drop 5)
    else if cs.take 4 = List.replicate 4 quote then some ([quote], cs.drop 4)
    else if cs.take 3 = List.replicate 3 quote then some ([], cs.drop 3)
    else
      match cs with
      | [] => none
      | c :: rest => do
        if c = '\\' ∧ escapes then
          match escape? rest with
          | some (c, rest) =>
            let (cs, rest) ← blockBody quote escapes n rest
            return (c :: cs, rest)
          | none =>
            let rest ← continuation? rest
            blockBody quote escapes n rest
        else
          match lineBreak? (c :: rest) with
          | some rest =>
            let (cs, rest) ← blockBody quote escapes n rest
            return ('\n' :: cs, rest)
          | none =>
            if isPlain c then
              let (cs, rest) ← blockBody quote escapes n rest
              return (c :: cs, rest)
            else none

/-- A string over several lines behind its opening quotes; a line break right there is dropped. -/
def block (quote : Char) (escapes : Bool) (cs : List Char) : Option (List Char × List Char) :=
  let cs := (lineBreak? cs).getD cs
  blockBody quote escapes (cs.length + 1) cs

/-- A string in any kind of quotes. -/
def quotes? : List Char → Option (List Char × List Char)
  | '"' :: '"' :: '"' :: rest => block '"' true rest
  | '"' :: rest => basicBody (rest.length + 1) rest
  | '\x27' :: '\x27' :: '\x27' :: rest => block '\x27' false rest
  | '\x27' :: rest => literalBody rest
  | _ => none

/-! ## Keys -/

/-- A key without dots: bare, or in quotes on one line. -/
def simpleKey? : List Char → Option (String × List Char)
  | '"' :: rest => (basicBody (rest.length + 1) rest).map fun (cs, rest) => (String.ofList cs, rest)
  | '\x27' :: rest => (literalBody rest).map fun (cs, rest) => (String.ofList cs, rest)
  | cs =>
    match cs.span isBare with
    | ([], _) => none
    | (body, rest) => some (String.ofList body, rest)

/-- Keys with dots between them, blanks around the dots, and the blanks behind. -/
def key? : Nat → List Char → Option (List String × List Char)
  | 0, _ => none
  | n + 1, cs => do
    let (k, rest) ← simpleKey? (skipBlank cs)
    match skipBlank rest with
    | '.' :: rest =>
      let (ks, rest) ← key? n rest
      return (k :: ks, rest)
    | rest => return ([k], rest)

/-- A path of keys, split into the last one and those before it. -/
def path? (cs : List Char) : Option (List String × String × List Char) := do
  let (ks, rest) ← key? (nestingLimit + 1) cs
  let last ← ks.getLast?
  if ks.length ≤ nestingLimit then some (ks.dropLast, last, rest) else none

/-! ## Numbers -/

/-- Digits with single underscores between them, without the underscores. -/
def grouped? (isDigit : Char → Bool) (cs : List Char) : Option (List Char) :=
  let parts := cs.splitOn '_'
  if parts.all fun part => !part.isEmpty && part.all isDigit then some parts.flatten else none

/-- The number written by digits in a base. -/
def valueIn (base : Nat) (ds : List Char) : Nat :=
  ds.foldl (fun n d => n * base + (Text.hexValue? d).getD 0) 0

/-- A sign, and what is behind it. -/
def sign : List Char → Bool × List Char
  | '+' :: rest => (false, rest)
  | '-' :: rest => (true, rest)
  | cs => (false, cs)

/-- Decimal digits in groups; no zero stands in front of another digit. -/
def decimal? (cs : List Char) : Option (List Char) := do
  let ds ← grouped? Char.isDigit cs
  match ds with
  | '0' :: _ :: _ => none
  | _ => some ds

/-- An integer in the range of a signed sixty-four bit word. -/
def inRange? (n : Int) : Option Toml :=
  if Int64.minValue.toInt ≤ n ∧ n ≤ Int64.maxValue.toInt then some (.integer n) else none

/-- An integer token. -/
def integerToken? (cs : List Char) : Option Toml :=
  match cs with
  | '0' :: 'x' :: ds =>
    (grouped? (fun c => (Text.hexValue? c).isSome) ds).bind fun ds => inRange? (valueIn 16 ds)
  | '0' :: 'o' :: ds => (grouped? (fun c => '0' ≤ c && c ≤ '7') ds).bind fun ds => inRange? (valueIn 8 ds)
  | '0' :: 'b' :: ds => (grouped? (fun c => c == '0' || c == '1') ds).bind fun ds => inRange? (valueIn 2 ds)
  | _ =>
    let (negative, cs) := sign cs
    (decimal? cs).bind fun ds =>
      let n : Int := valueIn 10 ds
      inRange? (if negative then -n else n)

/-- The parts of a float before and behind its exponent mark. -/
def exponentSplit (cs : List Char) : List Char × Option (List Char) :=
  match cs.span fun c => c != 'e' && c != 'E' with
  | (mantissa, _ :: exponent) => (mantissa, some exponent)
  | (mantissa, []) => (mantissa, none)

/-- A decimal with a fraction or an exponent, or both. A positive one must not be too large. -/
def decimalFloat? (negative : Bool) (cs : List Char) : Option Toml := do
  let (mantissa, mark) := exponentSplit cs
  let point := Text.splitFirst? '.' mantissa
  let whole ← decimal? ((point.map Prod.fst).getD mantissa)
  let fraction ← (point.map fun (_, digits) => grouped? Char.isDigit digits).getD (some [])
  let exponent : Int ←
    match mark with
    | some exponent =>
      let (below, exponent) := sign exponent
      (grouped? Char.isDigit exponent).map fun ds =>
        if below then -(valueIn 10 ds : Int) else valueIn 10 ds
    | none => some 0
  if point.isNone ∧ mark.isNone then none
  else
    match Binary64.ofDecimal? negative (valueIn 10 (whole ++ fraction))
        (exponent - fraction.length) with
    | some x => some (.float x)
    | none =>
      if negative then some (.float (.ofMagnitude true Binary64.infinityBits)) else none

/-- A float token. -/
def floatToken? (cs : List Char) : Option Toml :=
  let (negative, cs) := sign cs
  if cs = ['i', 'n', 'f'] then some (.float (.ofMagnitude negative Binary64.infinityBits))
  else if cs = ['n', 'a', 'n'] then
    some (.float (.ofMagnitude negative (Binary64.infinityBits + Nat.pow 2 51)))
  else decimalFloat? negative cs

/-! ## Moments -/

/-- A number of exactly two digits up to a bound. -/
def twoDigits? (most : Nat) (a b : Char) : Option Nat :=
  if a.isDigit && b.isDigit then
    let n := valueIn 10 [a, b]
    if n ≤ most then some n else none
  else none

/-- The number of days in a month. -/
def daysIn (year month : Nat) : Nat :=
  if month = 2 then
    if (year % 4 = 0 ∧ year % 100 ≠ 0) ∨ year % 400 = 0 then 29 else 28
  else if month = 4 ∨ month = 6 ∨ month = 9 ∨ month = 11 then 30
  else 31

/-- A date and the rest behind it. -/
def date? : List Char → Option (List Char × List Char)
  | a :: b :: c :: d :: '-' :: e :: f :: '-' :: g :: h :: rest => do
    let month ← twoDigits? 12 e f
    let day ← twoDigits? 31 g h
    let year := valueIn 10 [a, b, c, d]
    if [a, b, c, d].all Char.isDigit && 1 ≤ month && 1 ≤ day && day ≤ daysIn year month then
      some ([a, b, c, d, '-', e, f, '-', g, h], rest)
    else none
  | _ => none

/-- The part of a second behind the point: nine digits at most, and no zero at the end. -/
def fraction (digits : List Char) : List Char :=
  match ((digits.take 9).reverse.dropWhile (· == '0')).reverse with
  | [] => []
  | digits => '.' :: digits

/-- A time of day and the rest behind it. -/
def time? : List Char → Option (List Char × List Char)
  | a :: b :: ':' :: c :: d :: ':' :: e :: f :: rest => do
    let _ ← twoDigits? 23 a b
    let _ ← twoDigits? 59 c d
    let _ ← twoDigits? 60 e f
    let seconds := [a, b, ':', c, d, ':', e, f]
    match rest with
    | '.' :: digits =>
      match digits.span Char.isDigit with
      | ([], _) => none
      | (digits, rest) => some (seconds ++ fraction digits, rest)
    | rest => some (seconds, rest)
  | _ => none

/-- The end of a moment: nothing, or the distance to universal time. A distance of zero is not
negative. -/
def offset? : List Char → Option (List Char)
  | [] => some []
  | ['Z'] => some ['Z']
  | ['z'] => some ['Z']
  | [s, a, b, ':', c, d] => do
    let hours ← twoDigits? 23 a b
    let minutes ← twoDigits? 59 c d
    if s = '+' ∨ s = '-' then
      some [if hours = 0 ∧ minutes = 0 then '+' else s, a, b, ':', c, d]
    else none
  | _ => none

/-- A date, a time, or a date and a time with or without an offset, in its one spelling: a `T` stands
between date and time. -/
def moment? (cs : List Char) : Option (List Char) :=
  match date? cs with
  | some (date, []) => some date
  | some (date, c :: rest) => do
    let (time, rest) ← time? rest
    let offset ← offset? rest
    if c = 'T' ∨ c = 't' ∨ c = ' ' then some (date ++ 'T' :: (time ++ offset)) else none
  | none =>
    match time? cs with
    | some (time, []) => some time
    | _ => none

/-! ## Values -/

/-- Characters of numbers, words and moments. -/
def isToken (c : Char) : Bool := isBare c || c == '+' || c == '.' || c == ':'

/-- The token at the front; a date may be followed by a blank and a time. -/
def token (cs : List Char) : List Char × List Char :=
  let (first, rest) := cs.span isToken
  match rest with
  | ' ' :: d :: more =>
    if (date? first).any (·.2.isEmpty) && d.isDigit then
      let (second, rest) := (d :: more).span isToken
      (first ++ ' ' :: second, rest)
    else (first, rest)
  | _ => (first, rest)

/-- The value of a token. -/
def ofToken? (cs : List Char) : Option Toml :=
  if cs = ['t', 'r', 'u', 'e'] then some (.boolean true)
  else if cs = ['f', 'a', 'l', 's', 'e'] then some (.boolean false)
  else
    match moment? cs with
    | some text => some (.moment (String.ofList text))
    | none => (floatToken? cs).or (integerToken? cs)

/-- The values of an array behind its opening bracket. -/
def items (value : List Char → Option (Toml × List Char)) :
    Nat → List Char → Option (List Toml × List Char)
  | 0, _ => none
  | n + 1, cs => do
    match ← skipLines false cs with
    | ']' :: rest => some ([], rest)
    | rest =>
      let (v, rest) ← value rest
      match ← skipLines false rest with
      | ']' :: rest => some ([v], rest)
      | ',' :: rest =>
        let (vs, rest) ← items value n rest
        some (v :: vs, rest)
      | _ => none

/-- A key with its value. -/
def keyValue (value : List Char → Option (Toml × List Char)) (cs : List Char) :
    Option (List String × String × Toml × List Char) := do
  let (path, key, rest) ← path? cs
  match rest with
  | '=' :: rest =>
    let (v, rest) ← value (skipBlank rest)
    return (path, key, v, rest)
  | _ => none

/-- The fields of a table in braces from the given ones on, all on one line and without a comma at the
end. -/
def braces (value : List Char → Option (Toml × List Char)) :
    Nat → Fields → List Char → Option (Fields × List Char)
  | 0, _, _ => none
  | n + 1, fields, cs => do
    let (path, key, v, rest) ← keyValue value cs
    let fields ← putDotted key v path fields
    match skipBlank rest with
    | '\x7d' :: rest => some (fields, rest)
    | ',' :: rest => braces value n fields rest
    | _ => none

/-- A value at the front, with at most `levels` arrays and braces inside each other. -/
def valueAt (levels : Nat) (cs : List Char) : Option (Toml × List Char) :=
  match cs with
  | '"' :: _ => (quotes? cs).map fun (s, rest) => (.string (String.ofList s), rest)
  | '\x27' :: _ => (quotes? cs).map fun (s, rest) => (.string (String.ofList s), rest)
  | '[' :: rest =>
    match levels with
    | 0 => none
    | levels + 1 =>
      (items (valueAt levels) (rest.length + 1) rest).map fun (vs, rest) => (.array vs, rest)
  | '\x7b' :: rest =>
    match levels with
    | 0 => none
    | levels + 1 =>
      match skipBlank rest with
      | '\x7d' :: rest => some (.table .braces [], rest)
      | rest =>
        (braces (valueAt levels) (rest.length + 1) [] rest).map fun (fields, rest) =>
          (.table .braces fields, rest)
  | _ =>
    let (first, rest) := token cs
    (ofToken? first).map fun v => (v, rest)

/-! ## Documents -/

/-- A line that says something. -/
inductive Line where
  | entry (path : List String) (key : String) (value : Toml)
  | header (path : List String) (key : String)
  | listHeader (path : List String) (key : String)

/-- A line at the front and the rest behind its end; none says nothing. -/
def line? (cs : List Char) : Option (Option Line × List Char) :=
  match skipBlank cs with
  | '[' :: '[' :: rest => do
    let (path, key, rest) ← path? rest
    match rest with
    | ']' :: ']' :: rest =>
      let rest ← lineEnd? rest
      return (some (.listHeader path key), rest)
    | _ => none
  | '[' :: rest => do
    let (path, key, rest) ← path? rest
    match rest with
    | ']' :: rest =>
      let rest ← lineEnd? rest
      return (some (.header path key), rest)
    | _ => none
  | cs =>
    match lineEnd? cs with
    | some rest => some (none, rest)
    | none => do
      let (path, key, v, rest) ← keyValue (valueAt nestingLimit) cs
      let rest ← lineEnd? rest
      return (some (.entry path key v), rest)

/-- The lines of a text. -/
def lines : Nat → List Char → Option (List Line)
  | _, [] => some []
  | 0, _ => none
  | n + 1, cs => do
    let (line, rest) ← line? cs
    let more ← lines n rest
    return line.toList ++ more

/-- Enter lines up to the next header into a table. -/
def fill : List Line → Fields → Option Fields
  | .entry path key v :: rest, fields => (putDotted key v path fields).bind (fill rest)
  | _, fields => some fields

/-- Enter the headers among lines, each with the lines up to the next one. -/
def enter : List Line → Fields → Option Fields
  | [], fields => some fields
  | .entry _ _ _ :: rest, fields => enter rest fields
  | .header path key :: rest, fields =>
    (descend (openTable key (fill rest)) path fields).bind (enter rest)
  | .listHeader path key :: rest, fields =>
    (descend (addTable key (fill rest)) path fields).bind (enter rest)

/-- Read a document. A byte order mark in front of it is skipped. -/
def parse? (text : String) : Option Fields := do
  let cs :=
    match text.toList with
    | '\ufeff' :: rest => rest
    | cs => cs
  let lines ← lines (cs.length + 1) cs
  let top ← fill lines []
  enter lines top

end Stencil.Toml
