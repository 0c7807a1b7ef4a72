/- # Expansion.Scope -- what forms and expansions can see

A scope holds the settings, the symbol and prefix tables, the default namespace, the templates and
the validators. Working out a form reads a scope and never changes one in place; `Eval` is such a
computation: it threads the stack of expansions, which keeps what it has become when an error ends
the computation.
-/
import Stencil.Expansion.SelfStack
import Stencil.Resolver
import Stencil.Validator.Registry

namespace Stencil
set_option autoImplicit false

/-- The table of symbols. -/
def symbolTable : Context := ⟨⟨"motif:symbols"⟩⟩

/-- The table of namespace prefixes. -/
def prefixTable : Context := ⟨⟨"motif:prefixes"⟩⟩

/-- All that a form can see. -/
structure Scope where
  config : Config := {}
  bindings : Store := {}
  defaultPrefix : Option String := none
  defaultNamespace : Option Uri := none
  templates : TemplateTable := {}
  extensions : Registry := {}

namespace Scope

/-- Resolution under an identity, or outside of every expansion. -/
def resolver (scope : Scope) (me : Option Uri) : Resolver where
  bindings := scope.bindings
  symbols := symbolTable
  prefixes := prefixTable
  defaultNamespace := scope.defaultNamespace
  currentSelf := me

/-- The greatest number of expansions inside each other. -/
def limit (scope : Scope) : Nat := scope.config.maxExpansionDepth.toNat

/-- What validators see of the tables. -/
def view (scope : Scope) : View where
  symbols := some (scope.bindings, symbolTable)
  templates := some scope.templates

end Scope

/-- A computation that may fail and that threads the stack of expansions. -/
abbrev Eval := ExceptT Error (StateM SelfStack)

namespace Eval

/-- A result that is there already. -/
def ofExcept {α : Type} (x : Except Error α) : Eval α := ExceptT.mk (pure x)

/-- The identity of the innermost expansion. -/
def currentSelf : Eval (Option Uri) := do return (← get).current?

/-- Resolution as things stand. -/
def resolver (scope : Scope) : Eval Resolver := do return scope.resolver (← currentSelf)

/-- Compute inside an expansion, which is left again whether the computation fails or not. -/
def within {α : Type} (me : Uri) (inside : Eval α) : Eval α :=
  ExceptT.mk fun stack =>
    let (result, stack) := inside.run (stack.push me)
    (result, stack.pop)

end Eval

end Stencil
