/- # Program.Graft -- one walk over the expressions of a node

Parameterising a template and substituting arguments differ only in what they put in place of names
and parameter references. The walk itself is written once: `graft` replaces these two kinds of leaf
everywhere an expression may stand and keeps all else, that is constants, the names of expansions and
bases, validator names, positions and locations. What is put in is not walked again.
-/
import Stencil.Program.Basic

namespace Stencil
set_option autoImplicit false

/-- What stands in place of each name and each parameter reference. -/
structure Grafting where
  name : Name → Expr := .name
  param : Parameter → Expr := .param

mutual

def Expr.graft (g : Grafting) : Expr → Expr
  | .literal l => .literal l
  | .name n => g.name n
  | .param p => g.param p
  | .expansion e => .expansion (e.graft g)

def Argument.graft (g : Grafting) : Argument → Argument
  | ⟨value, position⟩ => ⟨value.graft g, position⟩

def Property.graft (g : Grafting) : Property → Property
  | ⟨name, value, location⟩ => ⟨name.graft g, value.graft g, location⟩

def ExtensionArg.graft (g : Grafting) : ExtensionArg → ExtensionArg
  | .expr e => .expr (e.graft g)
  | .extension x => .extension (x.graft g)

def Extension.graft (g : Grafting) : Extension → Extension
  | ⟨validator, arguments, location⟩ => ⟨validator, graftExtensionArgs g arguments, location⟩

def Item.graft (g : Grafting) : Item → Item
  | .property p => .property (p.graft g)
  | .expansion e => .expansion (e.graft g)
  | .extension x => .extension (x.graft g)

def Expansion.graft (g : Grafting) : Expansion → Expansion
  | ⟨name, template, arguments, body, location⟩ =>
    ⟨name, template.graft g, graftArguments g arguments, graftItems g body, location⟩

def graftArguments (g : Grafting) : List Argument → List Argument
  | [] => []
  | a :: as => a.graft g :: graftArguments g as

def graftExtensionArgs (g : Grafting) : List ExtensionArg → List ExtensionArg
  | [] => []
  | a :: as => a.graft g :: graftExtensionArgs g as

def graftItems (g : Grafting) : List Item → List Item
  | [] => []
  | i :: is => i.graft g :: graftItems g is

end

def Base.graft (g : Grafting) (b : Base) : Base := { b with arguments := graftArguments g b.arguments }

theorem graftArguments_eq_map (g : Grafting) (as : List Argument) :
    graftArguments g as = as.map (Argument.graft g) := by
  induction as with
  | nil => rfl
  | cons a as ih => simp [graftArguments, ih]

theorem graftItems_eq_map (g : Grafting) (is : List Item) :
    graftItems g is = is.map (Item.graft g) := by
  induction is with
  | nil => rfl
  | cons i is ih => simp [graftItems, ih]

/-! ## Parameter references for names, arguments for parameter references -/

/-- A name that is one symbol equal to the name of a parameter becomes a reference to the first such
parameter. -/
def parameterising (ps : List Parameter) : Grafting where
  name n :=
    match n.symbol?.bind fun s => ps.find? (·.name = s) with
    | some p => .param p
    | none => .name n

/-- A parameter reference becomes the first argument at its position; without one it stays. -/
def substituting (as : List Argument) : Grafting where
  param p :=
    match as.find? (·.position = p.position) with
    | some a => a.value
    | none => .param p

/-- The template with references to its parameters in place of their names, in its body and in the
arguments it forwards to its base. -/
def Template.parameterise (t : Template) : Template :=
  let g := parameterising t.parameters
  { t with base := t.base.map (·.graft g), body := graftItems g t.body }

end Stencil
