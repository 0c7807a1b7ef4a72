/- # Validator.Pack -- what a validator looks at

A pack holds the triples of one expansion with the identity that the expansion has, its focus, and a
view of the symbol and template tables. It exists while validators run.
-/
import Stencil.Template.Table
import Stencil.Triple.Context

namespace Stencil
set_option autoImplicit false

/-- Read access to the tables behind a pack, where there are any. -/
structure View where
  symbols : Option (Store × Context) := none
  templates : Option TemplateTable := none

namespace View

/-- A view with no tables behind it. -/
def detached : View := {}

/-- The value bound to a symbol key. -/
def symbol? (v : View) (key : String) : Option Value :=
  v.symbols.bind fun (store, context) => context.get? store key

def hasTemplate (v : View) (id : Uri) : Bool := v.templates.any (·.contains id)

end View

/-- The triples of an expansion, its identity and a view of the tables. -/
structure Pack where
  focus : Uri
  triples : List Triple
  view : View := .detached

namespace Pack

def size (p : Pack) : Nat := p.triples.length

def isEmpty (p : Pack) : Bool := p.triples.isEmpty

/-- The focus and then every other subject, each where it is first seen. -/
def subjects (p : Pack) : List Uri := firstSeen (p.focus :: p.triples.map Triple.subject)

/-- The triples with a predicate. -/
def withPredicate (p : Pack) (predicate : Uri) : List Triple :=
  p.triples.filter (·.predicate = predicate)

/-- How many triples a subject has with a predicate. -/
def countFor (p : Pack) (subject predicate : Uri) : Nat :=
  ((p.withPredicate predicate).filter (·.subject = subject)).length

/-- The pack with the triples that pass a test. -/
def retain (p : Pack) (keep : Triple → Bool) : Pack := { p with triples := p.triples.filter keep }

end Pack

end Stencil
