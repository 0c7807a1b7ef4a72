/- # Term -- resources and constants

A resource is known by its identifier and nothing else; a constant is an integer, a double, a text
or a truth value. The object of a triple may be either, which is what `Value` says. Each has a raw
text (`lexical`) for exports and a marked one (`display`) for messages.
-/
import Stencil.Number.Shortest
import Stencil.Text.Quoted

namespace Stencil
set_option autoImplicit false

/-- A resource identifier. -/
structure Uri where
  id : String
deriving DecidableEq

namespace Uri

/-- The empty identifier: the namespace where none is set. -/
def empty : Uri := ⟨""⟩

/-- The identifier followed by a delimiter and a segment. -/
def extend (base : Uri) (delimiter segment : String) : Uri := ⟨base.id ++ delimiter ++ segment⟩

def isEmpty (u : Uri) : Bool := u.id.isEmpty

def display (u : Uri) : String := s!"<{u.id}>"

end Uri

/-- A constant. -/
inductive Literal where
  | integer (n : Int64)
  | float (x : Binary64)
  | string (s : String)
  | boolean (b : Bool)
deriving DecidableEq

namespace Literal

def kind : Literal → String
  | .integer _ => "integer"
  | .float _ => "float"
  | .string _ => "string"
  | .boolean _ => "boolean"

def integer? : Literal → Option Int64
  | .integer n => some n
  | _ => none

/-- Decimal text of an integer. -/
def integerText (n : Int64) : String := String.ofList (Binary64.integerChars n.toInt)

def booleanText (b : Bool) : String := if b then "true" else "false"

/-- The raw text: a string stands for itself. -/
def lexical : Literal → String
  | .integer n => integerText n
  | .float x => x.text
  | .string s => s
  | .boolean b => booleanText b

/-- The text in messages: a string is quoted. -/
def display : Literal → String
  | .string s => Text.quoted s
  | l => l.lexical

end Literal

/-- What may be the object of a triple. -/
inductive Value where
  | uri (u : Uri)
  | literal (l : Literal)
deriving DecidableEq

namespace Value

def uri? : Value → Option Uri
  | .uri u => some u
  | .literal _ => none

def kind : Value → String
  | .uri _ => "resource"
  | .literal l => l.kind

/-- The raw text: the identifier of a resource, or the text of a constant. -/
def lexical : Value → String
  | .uri u => u.id
  | .literal l => l.lexical

def display : Value → String
  | .uri u => u.display
  | .literal l => l.display

end Value

end Stencil
