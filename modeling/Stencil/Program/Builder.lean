/- # Program.Builder -- writing programs from texts

Short ways to write the nodes of a program: dotted texts for names, lists of expressions for
arguments, which take their positions from their places, and no location unless one is given.
-/
import Stencil.Program.Basic

namespace Stencil
set_option autoImplicit false

namespace Expr

/-- The name of a dotted text. -/
def dotted (text : String) : Expr := .name (Name.dotted text)

/-- A concrete identifier. -/
def resource (id : String) : Expr := .name (.ofUri ⟨id⟩)

/-- The identity of the expansion at hand. -/
def selfRef : Expr := .name .selfName

end Expr

/-- Expressions as arguments at the positions from `start` on. -/
def positionalFrom (start : Nat) : List Expr → List Argument
  | [] => []
  | e :: es => ⟨e, UInt64.ofNat start⟩ :: positionalFrom (start + 1) es

/-- Expressions as arguments in their order. -/
def positional (es : List Expr) : List Argument := positionalFrom 0 es

/-- Names as parameters at the positions from `start` on. -/
def parametersFrom (start : Nat) : List String → List Parameter
  | [] => []
  | p :: ps => ⟨p, UInt64.ofNat start⟩ :: parametersFrom (start + 1) ps

/-- A property without location. -/
def Item.of (name value : Expr) : Item := .property ⟨name, value, {}⟩

/-- A validator without location. -/
def Extension.of (validator : String) (arguments : List ExtensionArg) : Extension :=
  ⟨validator, arguments, {}⟩

namespace Template

/-- A template with parameters in their order and the given body. -/
def of (name : String) (parameters : List String) (body : List Item) : Template where
  name := Name.dotted name
  parameters := parametersFrom 0 parameters
  base := none
  body
  location := {}

/-- The template as a special case of a base, with arguments forwarded in their order. -/
def withBase (t : Template) (base : String) (arguments : List Expr) : Template :=
  { t with base := some ⟨Name.dotted base, positional arguments⟩ }

end Template

namespace Expansion

/-- An anonymous expansion of a template, with arguments in their order and a local body. -/
def of (template : String) (arguments : List Expr) (body : List Item) : Expansion where
  name := none
  template := Expr.dotted template
  arguments := positional arguments
  body
  location := {}

/-- The expansion under a name; a text without components leaves it anonymous. -/
def named (e : Expansion) (name : String) : Expansion := { e with name := Name.dotted? name }

end Expansion

/-- An assignment to a dotted name. -/
def Form.assignText (name : String) (value : Expr) : Form := .assignment (Name.dotted name) value {}

end Stencil
