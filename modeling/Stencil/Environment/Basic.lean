/- # Environment -- running programs

An environment is a scope with the graph that programs write to, the modules they may import and the
failures they left. Forms run one after another; one that fails is recorded and the next one runs. A
module is imported by running its forms in the same environment. They cannot import the path they
came from again, nor one around it, so imports never nest deeper than there are modules.
-/
import Stencil.Environment.Step

namespace Stencil
set_option autoImplicit false

/-- What a host offers for import: programs by path, and what it says about any other path. -/
structure Modules where
  programs : List (String × List Form) := []
  refusal : String → String := fun path => s!"no such module: {path}"

/-- A form that failed: its place in the program, the module it is from, where it was written and
why. -/
structure Failure where
  index : Nat
  importPath : Option String
  location : Location
  error : Error
deriving DecidableEq

/-- The state of a run. -/
structure Environment where
  scope : Scope := {}
  graph : Store := {}
  selves : SelfStack := {}
  modules : Option Modules := none
  importing : List String := []
  failures : List Failure := []

namespace Environment

/-- An environment with these settings. -/
def ofConfig (config : Config) : Except Error Environment := do
  config.validate.mapError .config
  let extensions := if config.builtinExtensions then Registry.builtin else Registry.empty
  let bound ← config.prefixes.foldlM
    (fun (scope : Scope) (symbol, ns) => (scope.bindPrefix symbol ns).mapError .environment)
    { config, extensions }
  let scope ←
    match config.defaultPrefix with
    | some symbol => (bound.setDefaultPrefix symbol).mapError .resolve
    | none => .ok bound
  return { scope }

/-! ## Running forms -/

/-- Work out a form and put what it does into effect. -/
def perform (env : Environment) (form : Form) : Except Error (Option Value) × Environment :=
  match (form.step env.scope).run env.selves with
  | (.error e, selves) => (.error e, { env with selves })
  | (.ok step, selves) =>
    (.ok step.value,
      { env with scope := step.scope, graph := env.graph.insertAll step.triples, selves })

/-- Work out an expansion in an environment, with nothing of it put into effect. -/
def expand (env : Environment) (e : Expansion) : Except Error Expanded × Environment :=
  let (result, selves) := (Expansion.evaluate env.scope e).run env.selves
  (result, { env with selves })

/-- Put what an expansion gave into effect. -/
def committed : Except Error Expanded × Environment → Except Error (Option Value) × Environment
  | (.ok out, after) =>
    (.ok (some (.uri out.identity)), { after with graph := after.graph.insertAll out.triples })
  | (.error e, after) => (.error e, after)

/-- Import a path, given how programs run. Without modules an import is skipped. -/
def importWith (run : Environment → List Form → Option Value × Environment) (env : Environment)
    (path : String) : Except Error (Option Value) × Environment :=
  match env.modules with
  | none => (.ok none, env)
  | some modules =>
    if path ∈ env.importing then
      (.error (.environment (.importFailed path (.cycle env.importing))), env)
    else
      match modules.programs.lookup path with
      | none =>
        (.error (.environment (.importFailed path (.refused (modules.refusal path)))), env)
      | some forms =>
        let (last, after) := run { env with importing := env.importing ++ [path] } forms
        (.ok last, { after with importing := after.importing.dropLast })

/-- Run one form, given how imported programs run. -/
def evaluateWith (run : Environment → List Form → Option Value × Environment) (env : Environment)
    (form : Form) : Except Error (Option Value) × Environment :=
  match form with
  | .imports path _ => env.importWith run path
  | form => env.perform form

/-- Record that the form at an index failed. -/
def record (env : Environment) (index : Nat) (form : Form) (error : Error) : Environment :=
  let failure : Failure := ⟨index, env.importing.getLast?, form.location, error⟩
  { env with failures := env.failures ++ [failure] }

/-- Run forms from an index on, given how imported programs run. The answer is the last value, which
is `last` until a form has one. -/
def runForms (run : Environment → List Form → Option Value × Environment) :
    Nat → Option Value → Environment → List Form → Option Value × Environment
  | _, last, env, [] => (last, env)
  | index, last, env, form :: forms =>
    match env.evaluateWith run form with
    | (.ok (some v), after) => runForms run (index + 1) (some v) after forms
    | (.ok none, after) => runForms run (index + 1) last after forms
    | (.error e, after) => runForms run (index + 1) last (after.record index form e) forms

/-- Run a program in which imports are nested less deep than a bound. -/
def interpretAt : Nat → Environment → List Form → Option Value × Environment
  | 0, env, _ => (none, env)
  | depth + 1, env, forms => runForms (interpretAt depth) 0 none env forms

/-- The greatest depth of imports inside each other: every path once. -/
def importDepth (env : Environment) : Nat := (env.modules.getD {}).programs.length

/-- Run a program and answer its last value. Forms that fail are recorded. -/
def interpret (env : Environment) (forms : List Form) : Option Value × Environment :=
  interpretAt (env.importDepth + 1) env forms

/-- Run one form. -/
def evaluate (env : Environment) (form : Form) : Except Error (Option Value) × Environment :=
  env.evaluateWith (interpretAt env.importDepth) form

/-! ## Other ways to change an environment -/

/-- Bind a prefix. -/
def bindPrefix (env : Environment) (symbol : String) (ns : Uri) : Except Error Environment :=
  match env.scope.bindPrefix symbol ns with
  | .ok scope => .ok { env with scope }
  | .error e => .error (.environment e)

/-- Choose the default prefix. -/
def setDefaultPrefix (env : Environment) (symbol : String) : Except Error Environment :=
  match env.scope.setDefaultPrefix symbol with
  | .ok scope => .ok { env with scope }
  | .error e => .error (.resolve e)

/-- Add triples to the graph as they are, and tell how many there were. -/
def addTriples (env : Environment) (ts : List Triple) : Nat × Environment :=
  let (count, graph) := env.graph.extend ts
  (count, { env with graph })

/-- Register a validator. -/
def registerExtension (env : Environment) (name : String) (factory : Factory) :
    Except Error Environment :=
  match env.scope.extensions.register name factory with
  | .ok extensions => .ok { env with scope := { env.scope with extensions } }
  | .error e => .error (.extension e)

/-- Register another name for a validator. -/
def registerAlias (env : Environment) (other target : String) : Except Error Environment :=
  match env.scope.extensions.registerAlias other target with
  | .ok extensions => .ok { env with scope := { env.scope with extensions } }
  | .error e => .error (.extension e)

/-- Choose the modules that can be imported. -/
def setModules (env : Environment) (modules : Modules) : Environment :=
  { env with modules := some modules }

/-- The failures recorded so far, which are forgotten. -/
def takeFailures (env : Environment) : List Failure × Environment :=
  (env.failures, { env with failures := [] })

/-! ## Looking at an environment -/

/-- Resolution as things stand. -/
def resolver (env : Environment) : Resolver := env.scope.resolver env.selves.current?

/-- The committed triples. -/
def triples (env : Environment) : List Triple := env.graph.toList

/-- The registered template that a dotted text names. -/
def template? (env : Environment) (text : String) : Option Template := do
  let name ← Name.dotted? text
  match env.resolver.resolveUri name "template name" with
  | .ok (some id) => env.scope.templates.get? id
  | _ => none

/-- An optional text in a summary. -/
def optionText : Option String → String
  | some s => s!"Some({Text.quoted s})"
  | none => "None"

/-- A summary of the sizes of all parts. -/
def summary (env : Environment) : String :=
  s!"Environment \x7b triples: {env.graph.size}, bindings: {env.scope.bindings.size}, " ++
    s!"templates: {env.scope.templates.size}, extensions: {env.scope.extensions.size}, " ++
    s!"default_prefix: {optionText env.scope.defaultPrefix}, self_depth: {env.selves.depth} \x7d"

end Environment

end Stencil
