/- # Template.Lineage -- a template and the bases it specialises

A template may name a base, which may name another. The walk up this chain resolves each base name,
refuses a template it has met already, and forwards to each base the arguments that its special case
passes on. The body of the whole chain is the body of the outermost base first, each layer with the
arguments that reach it.
-/
import Stencil.Program.Graft
import Stencil.Resolver
import Stencil.Template.Table

namespace Stencil
set_option autoImplicit false

/-- A template takes one argument for each parameter. -/
def Template.checkArity (t : Template) (id : Uri) (arguments : List Argument) :
    Except TemplateError Unit :=
  if t.parameters.length = arguments.length then .ok ()
  else .error (.wrongArity id t.parameters.length arguments.length)

theorem Template.checkArity_eq_ok_iff {t : Template} {id : Uri} {arguments : List Argument} :
    t.checkArity id arguments = .ok () ↔ t.parameters.length = arguments.length := by
  unfold checkArity
  by_cases fits : t.parameters.length = arguments.length
  · simp [fits]
  · simp [fits]

/-- One layer of a chain: a template and the arguments that reach it. -/
structure Layer where
  template : Template
  arguments : List Argument

/-- The items of a layer with the arguments in place. -/
def Layer.body (l : Layer) : List Item := graftItems (substituting l.arguments) l.template.body

/-- The base of a layer: its identifier, its template and the arguments forwarded to it. A base met
before is refused, then one that is not registered, then one with a wrong number of arguments. -/
def Layer.next (r : Resolver) (table : TemplateTable) (met : List Uri) (l : Layer) (base : Base) :
    Except Error (Uri × Layer) := do
  let id ← (r.uriOf base.template "base template").mapError .resolve
  if id ∈ met then .error (.template (.inheritanceCycle id))
  else
    match table.get? id with
    | none => .error (.template (.notFound base.template))
    | some parent =>
      let forwarded := graftArguments (substituting l.arguments) base.arguments
      (parent.checkArity id forwarded).mapError .template
      return (id, ⟨parent, forwarded⟩)

/-- The layers from the outermost base down to the given one, going up at most `steps` links. A chain
with more links than there are templates has met one of them twice. -/
def lineageAt (r : Resolver) (table : TemplateTable) :
    Nat → List Uri → Layer → Except Error (List Layer)
  | steps, met, l =>
    match l.template.base with
    | none => .ok [l]
    | some base => do
      let (id, parent) ← l.next r table met base
      match steps with
      | 0 => .error (.template (.inheritanceCycle id))
      | steps + 1 =>
        let above ← lineageAt r table steps (id :: met) parent
        return above ++ [l]

/-- The layers of a template with an identifier and arguments, the outermost base first. -/
def lineage (r : Resolver) (table : TemplateTable) (id : Uri) (t : Template)
    (arguments : List Argument) : Except Error (List Layer) :=
  lineageAt r table table.size [id] ⟨t, arguments⟩

/-- The body of a template with all its bases, the outermost first, with the arguments in place. -/
def mergedBody (r : Resolver) (table : TemplateTable) (id : Uri) (t : Template)
    (arguments : List Argument) : Except Error (List Item) :=
  (lineage r table id t arguments).map fun layers => layers.flatMap Layer.body

theorem mergedBody_eq_ok_iff {r : Resolver} {table : TemplateTable} {id : Uri} {t : Template}
    {arguments : List Argument} {merged : List Item} :
    mergedBody r table id t arguments = .ok merged ↔
      ∃ layers, lineage r table id t arguments = .ok layers ∧ merged = layers.flatMap Layer.body := by
  unfold mergedBody
  cases lineage r table id t arguments with
  | error why => simp [Except.map]
  | ok layers => simp [Except.map, eq_comm]

end Stencil
