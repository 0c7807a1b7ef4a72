/- # Program -- the forms of a program

A program is a list of forms. Forms hold expressions, whose leaves are constants, names and, inside a
template that was prepared for its parameters, parameter references. An expansion instantiates a
template; a template is a body with parameters and perhaps a base that it specialises.
-/
import Stencil.Name

namespace Stencil
set_option autoImplicit false

/-- Where a node was written. Line zero means that nobody knows. -/
structure Location where
  source : Option String := none
  line : UInt32 := 0
  column : UInt32 := 0
deriving DecidableEq

def Location.display (l : Location) : String :=
  if l.line = 0 then "<unknown>"
  else
    match l.source with
    | some source => s!"{source}:{l.line.toNat}:{l.column.toNat}"
    | none => s!"{l.line.toNat}:{l.column.toNat}"

/-- A place for the argument at a position. -/
structure Parameter where
  name : String
  position : UInt64
deriving DecidableEq

mutual

/-- What yields a value. -/
inductive Expr where
  | literal (l : Literal)
  | name (n : Name)
  | param (p : Parameter)
  | expansion (e : Expansion)

/-- An expression for the parameter at a position. -/
structure Argument where
  value : Expr
  position : UInt64

/-- A predicate and its value in a body. -/
structure Property where
  name : Expr
  value : Expr
  location : Location

/-- An argument of a validator: an expression, or another validator. -/
inductive ExtensionArg where
  | expr (e : Expr)
  | extension (x : Extension)

/-- A validator with its arguments, attached to a body. -/
structure Extension where
  validator : String
  arguments : List ExtensionArg
  location : Location

/-- One entry of a body. -/
inductive Item where
  | property (p : Property)
  | expansion (e : Expansion)
  | extension (x : Extension)

/-- One instantiation of a template; anonymous without a name. -/
structure Expansion where
  name : Option Name
  template : Expr
  arguments : List Argument
  body : List Item
  location : Location

end

/-- The template that a template specialises, and the arguments it forwards. -/
structure Base where
  template : Name
  arguments : List Argument

/-- A named body with parameters. -/
structure Template where
  name : Name
  parameters : List Parameter
  base : Option Base
  body : List Item
  location : Location

/-- A statement at the top level. -/
inductive Form where
  | assignment (name : Name) (value : Expr) (location : Location)
  | template (t : Template)
  | expansion (e : Expansion)
  | triple (subject predicate object : Expr) (location : Location)
  | bindPrefix (symbol : String) (ns : Uri) (location : Location)
  | defaultPrefix (symbol : String) (location : Location)
  | imports (path : String) (location : Location)

def Form.location : Form → Location
  | .assignment _ _ location => location
  | .template t => t.location
  | .expansion e => e.location
  | .triple _ _ _ location => location
  | .bindPrefix _ _ location => location
  | .defaultPrefix _ location => location
  | .imports _ location => location

end Stencil
