/- # Environment.Step -- what one form does

Every form but an import is worked out against a scope: the answer is the scope after it, the triples
it adds to the graph and its value. Nothing is changed before the form has been worked out to its
end, so a form that fails leaves nothing behind but used-up anonymous identities.
-/
import Stencil.Expansion.Basic

namespace Stencil
set_option autoImplicit false

/-- What a form does: the scope after it, the triples it adds, and its value. -/
structure Step where
  scope : Scope
  triples : List Triple := []
  value : Option Value := none

/-- The symbol key of a name that is to be bound: its symbols joined by dots. -/
def Name.symbolKey (n : Name) : Except ResolveError String :=
  match n.segments.mapM Segment.symbol? with
  | some symbols => .ok (Context.pathKey symbols)
  | none =>
    .error (.typeMismatch s!"assignment target \"{n.display}\"" "symbol" "resource or self")

namespace Scope

/-- The value of a symbol key. -/
def symbol? (scope : Scope) (key : String) : Option Value := symbolTable.get? scope.bindings key

/-- The namespace of a prefix. -/
def namespace? (scope : Scope) (symbol : String) : Option Uri :=
  (prefixTable.get? scope.bindings symbol).bind Value.uri?

/-- Bind a prefix. The same namespace again changes nothing, another one is refused. -/
def bindPrefix (scope : Scope) (symbol : String) (ns : Uri) : Except EnvironmentError Scope :=
  match prefixTable.get? scope.bindings symbol with
  | some existing =>
    if existing = .uri ns then .ok scope
    else .error (.duplicateBinding .namespacePrefix symbol existing (.uri ns))
  | none => .ok { scope with bindings := prefixTable.put scope.bindings symbol (.uri ns) }

/-- Let names that are not bound be looked up under the namespace of a prefix. -/
def setDefaultPrefix (scope : Scope) (symbol : String) : Except ResolveError Scope :=
  match (scope.resolver none).expandPrefix symbol with
  | .ok ns => .ok { scope with defaultPrefix := some symbol, defaultNamespace := some ns }
  | .error e => .error e

/-- Bind a symbol key. The same value again is allowed, another one is refused. -/
def bindSymbol (scope : Scope) (key : String) (v : Value) : Except EnvironmentError Scope :=
  match scope.symbol? key with
  | some existing =>
    if existing = v then .ok { scope with bindings := symbolTable.put scope.bindings key v }
    else .error (.duplicateBinding .symbol key existing v)
  | none => .ok { scope with bindings := symbolTable.put scope.bindings key v }

/-- Prepare a template for its parameters and register it under what its name stands for. -/
def define (scope : Scope) (me : Option Uri) (t : Template) : Except Error (Uri × Scope) := do
  let id ← ((scope.resolver me).uriOf t.name "template name").mapError .resolve
  let templates ← (scope.templates.register id t.parameterise).mapError .template
  return (id, { scope with templates })

end Scope

/-- The resource that must stand in a position. -/
def Value.expectUri (context : String) : Value → Except Error Uri
  | .uri u => .ok u
  | .literal l => .error (.resolve (.notResource context l.kind))

namespace Form

/-- The value of an expression in a form, and the triples that came with it. -/
def value (scope : Scope) : Expr → Eval (Value × List Triple) :=
  Expansion.value scope (Expansion.evaluate scope)

/-- An expansion that is assigned and has no name takes that of the target. -/
def nameAfter (target : Name) : Expr → Expr
  | .expansion e => .expansion { e with name := e.name.or (some target) }
  | e => e

/-- Bind a name to the value of an expression. -/
def assign (scope : Scope) (name : Name) (e : Expr) : Eval Step := do
  let key ← Eval.ofExcept (name.symbolKey.mapError .resolve)
  let (v, triples) ← value scope (nameAfter name e)
  let after ← Eval.ofExcept ((scope.bindSymbol key v).mapError .environment)
  return ⟨after, triples, some v⟩

/-- State a triple; the triples of its positions come first. -/
def state (scope : Scope) (subject predicate object : Expr) : Eval Step := do
  let (s, first) ← value scope subject
  let s ← Eval.ofExcept (s.expectUri "subject")
  let (p, second) ← value scope predicate
  let p ← Eval.ofExcept (p.expectUri "predicate")
  let (o, third) ← value scope object
  return ⟨scope, first ++ second ++ third ++ [⟨s, p, o⟩], some (.uri s)⟩

/-- What a form does. An import does nothing here: it is the environment that runs other forms. -/
def step (scope : Scope) : Form → Eval Step
  | .assignment name e _ => assign scope name e
  | .template t => do
    let (id, after) ← Eval.ofExcept (scope.define (← Eval.currentSelf) t)
    return { scope := after, value := some (.uri id) }
  | .expansion e => do
    let out ← Expansion.evaluate scope e
    return ⟨scope, out.triples, some (.uri out.identity)⟩
  | .triple subject predicate object _ => state scope subject predicate object
  | .bindPrefix symbol ns _ => do
    let after ← Eval.ofExcept ((scope.bindPrefix symbol ns).mapError .environment)
    return { scope := after, value := some (.uri ns) }
  | .defaultPrefix symbol _ => do
    let after ← Eval.ofExcept ((scope.setDefaultPrefix symbol).mapError .resolve)
    return { scope := after }
  | .imports _ _ => return { scope }

end Form

end Stencil
