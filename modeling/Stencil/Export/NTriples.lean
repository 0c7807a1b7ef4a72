/- # Export.NTriples -- one line for each triple

A line holds subject, predicate and object and ends with a point. Resources stand between angle
brackets as they are. A string is escaped between quotes; the other constants are quoted with the
datatype behind them.
-/
import Stencil.Triple

namespace Stencil.NTriples
set_option autoImplicit false

/-- How one character of a string is written. -/
def escapeChar (c : Char) : List Char :=
  if c = '\\' then ['\\', '\\']
  else if c = '"' then ['\\', '"']
  else if c = '\n' then ['\\', 'n']
  else if c = '\r' then ['\\', 'r']
  else if c = '\t' then ['\\', 't']
  else [c]

/-- A string with its special characters escaped. -/
def escape (s : String) : String := String.ofList (s.toList.flatMap escapeChar)

/-- The namespace of the datatypes. -/
def datatypeNamespace : String := "http://www.w3.org/2001/XMLSchema#"

/-- A text with a datatype behind it. -/
def typed (text datatype : String) : String := s!"\"{text}\"^^<{datatypeNamespace}{datatype}>"

def literal : Literal → String
  | .string s => s!"\"{escape s}\""
  | .integer n => typed (Literal.integer n).lexical "integer"
  | .float x => typed (Literal.float x).lexical "double"
  | .boolean b => typed (Literal.boolean b).lexical "boolean"

def object : Value → String
  | .uri u => s!"<{u.id}>"
  | .literal l => literal l

/-- The line of a triple, with its end. -/
def line (t : Triple) : String := s!"<{t.subject.id}> <{t.predicate.id}> {object t.object} .\n"

/-- The lines of triples. -/
def document : List Triple → String
  | [] => ""
  | t :: ts => line t ++ document ts

end Stencil.NTriples
