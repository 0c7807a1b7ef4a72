/- # Expansion -- from a template to triples

An expansion is worked out in three steps. Its template is found and merged with all its bases, and
its own body is put behind; its identity is settled; then, inside that identity, each item of the
body gives triples in turn, and the validators among the items judge everything that was produced.
Expansions inside a body come from templates and arguments and are no parts of the expansion itself,
so the recursion is on the depth that is left.
-/
import Stencil.Expansion.Scope
import Stencil.Template.Lineage

namespace Stencil
set_option autoImplicit false

/-- What an expansion hands to the one around it. -/
structure Expanded where
  identity : Uri
  triples : List Triple
deriving DecidableEq

/-- What items of a body give: triples, and validators that are to judge them. -/
structure Yield where
  triples : List Triple := []
  calls : List Call := []

def Yield.append (a b : Yield) : Yield := ⟨a.triples ++ b.triples, a.calls ++ b.calls⟩

namespace Expansion

/-! ## Before the body -/

/-- The name in the place of a template reference. -/
def templateName : Expr → Except Error Name
  | .name n => .ok n
  | .param p => .error (.template (.unboundParameter p))
  | .literal l => .error (.resolve (.notResource "template reference" l.kind))
  | .expansion _ => .error (.resolve (.notResource "template reference" "expansion"))

/-- The template of a reference, with its identifier. -/
def templateOf (scope : Scope) (r : Resolver) (reference : Expr) :
    Except Error (Uri × Template) := do
  let name ← templateName reference
  let id ← (r.uriOf name "template reference").mapError .resolve
  match scope.templates.get? id with
  | some t => return (id, t)
  | none => .error (.template (.notFound name))

/-- The items of an expansion: those of its template and bases with the arguments in place, then its
own. -/
def fullBody (scope : Scope) (r : Resolver) (e : Expansion) : Except Error (List Item) := do
  let (id, t) ← templateOf scope r e.template
  (t.checkArity id e.arguments).mapError .template
  let merged ← mergedBody r scope.templates id t e.arguments
  return merged ++ e.body

theorem templateOf_eq_ok {scope : Scope} {r : Resolver} {reference : Expr} {id : Uri} {t : Template}
    (found : templateOf scope r reference = .ok (id, t)) : scope.templates.get? id = some t := by
  unfold templateOf at found
  obtain ⟨name, _, found⟩ := bind_eq_ok found
  obtain ⟨known, _, found⟩ := bind_eq_ok found
  split at found <;> cases found
  assumption

theorem templateOf_name {scope : Scope} {r : Resolver} {n : Name} {id : Uri} {t : Template}
    (named : r.uriOf n "template reference" = .ok id) (known : scope.templates.get? id = some t) :
    templateOf scope r (.name n) = .ok (id, t) := by
  show (r.uriOf n "template reference").mapError Error.resolve >>= _ = _
  rw [named]
  show (match scope.templates.get? id with
    | some t => _
    | none => _) = _
  rw [known]
  rfl

/-- An expansion has items exactly if it has a template, an argument for each parameter of it, and a
chain of bases: these give the items in front of its own. -/
theorem fullBody_eq_ok_iff {scope : Scope} {r : Resolver} {e : Expansion} {body : List Item} :
    fullBody scope r e = .ok body ↔
      ∃ id t merged, templateOf scope r e.template = .ok (id, t) ∧
        t.parameters.length = e.arguments.length ∧
        mergedBody r scope.templates id t e.arguments = .ok merged ∧ body = merged ++ e.body := by
  unfold fullBody
  constructor
  · intro found
    obtain ⟨⟨id, t⟩, known, found⟩ := bind_eq_ok found
    obtain ⟨_, checked, found⟩ := bind_eq_ok found
    obtain ⟨merged, walked, found⟩ := bind_eq_ok found
    cases found
    exact ⟨id, t, merged, known, Template.checkArity_eq_ok_iff.mp (eq_ok_of_mapError checked), walked,
      rfl⟩
  · rintro ⟨id, t, merged, known, fits, walked, rfl⟩
    have checked : t.checkArity id e.arguments = .ok () := Template.checkArity_eq_ok_iff.mpr fits
    rw [known]
    show (t.checkArity id e.arguments).mapError Error.template >>= _ = _
    rw [checked]
    show mergedBody r scope.templates id t e.arguments >>= _ = _
    rw [walked]
    rfl

/-- The identity of an expansion: what its name stands for in the scope around it, or a fresh one. -/
def identityOf (scope : Scope) (e : Expansion) : Eval Uri := do
  match e.name with
  | some name =>
    let r ← Eval.resolver scope
    Eval.ofExcept ((r.uriOf name "expansion name").mapError .resolve)
  | none =>
    let (me, stack) := (← get).mint scope.config scope.defaultNamespace
    set stack
    return me

/-- The identity and the items of an expansion. -/
def prepare (scope : Scope) (e : Expansion) : Eval (Uri × List Item) := do
  let r ← Eval.resolver scope
  let body ← Eval.ofExcept (fullBody scope r e)
  let me ← identityOf scope e
  return (me, body)

/-! ## The body

The functions of this section are given the evaluation of the expansions inside. -/

section Body

variable (scope : Scope) (inner : Expansion → Eval Expanded)

/-- The value of an expression, and the triples that came with it. -/
def value : Expr → Eval (Value × List Triple)
  | .literal l => return (.literal l, [])
  | .name n => do
    let r ← Eval.resolver scope
    let v ← Eval.ofExcept ((r.valueOf n).mapError .resolve)
    return (v, [])
  | .param p => throw (.template (.unboundParameter p))
  | .expansion e => do
    let out ← inner e
    return (.uri out.identity, out.triples)

/-- A property gives the triples of its two expressions and then its own. -/
def property (me : Uri) (p : Property) : Eval (List Triple) := do
  let (name, before) ← value scope inner p.name
  match name with
  | .literal l => throw (.resolve (.notResource "predicate" l.kind))
  | .uri predicate =>
    let (object, after) ← value scope inner p.value
    return before ++ after ++ [⟨me, predicate, object⟩]

mutual

/-- The call of a validator with its arguments worked out, and the triples that came with them. -/
def call : Extension → Eval (Call × List Triple)
  | ⟨validator, arguments, _⟩ => do
    let (arguments, triples) ← callArgs arguments
    return (⟨validator, arguments⟩, triples)

def callArgs : List ExtensionArg → Eval (List CallArg × List Triple)
  | [] => return ([], [])
  | a :: as => do
    let (a, before) ← callArg a
    let (as, after) ← callArgs as
    return (a :: as, before ++ after)

def callArg : ExtensionArg → Eval (CallArg × List Triple)
  | .expr e => do
    let (v, triples) ← value scope inner e
    return (.value v, triples)
  | .extension x => do
    let (c, triples) ← call x
    return (.call c, triples)

end

/-- What one item gives. -/
def item (me : Uri) : Item → Eval Yield
  | .property p => do return { triples := ← property scope inner me p }
  | .expansion e => do return { triples := (← inner e).triples }
  | .extension x => do
    let (c, triples) ← call scope inner x
    return ⟨triples, [c]⟩

/-- What the items of a body give, from the first to the last. -/
def items (me : Uri) : List Item → Eval Yield
  | [] => return {}
  | i :: is => do
    let first ← item scope inner me i
    let rest ← items me is
    return first.append rest

end Body

/-! ## After the body -/

/-- Build the validators, then let them judge the triples one after another. -/
def judge (scope : Scope) (me : Uri) (out : Yield) : Except ExtensionError (List Triple) := do
  let validators ← out.calls.mapM scope.extensions.instantiate
  let pack ← Validator.runAll validators ⟨me, out.triples, scope.view⟩
  return pack.triples

/-- Work out an expansion when so many more may be entered. -/
def evaluateAt (scope : Scope) : Nat → Expansion → Eval Expanded
  | 0, e => do
    let _ ← prepare scope e
    throw (.template (.depthExceeded scope.limit))
  | depth + 1, e => do
    let (me, body) ← prepare scope e
    Eval.within me do
      let out ← items scope (evaluateAt scope depth) me body
      let triples ← Eval.ofExcept ((judge scope me out).mapError .extension)
      return ⟨me, triples⟩

/-- Work out an expansion. The limit of the scope bounds the expansions inside each other, those
around included. -/
def evaluate (scope : Scope) (e : Expansion) : Eval Expanded := do
  evaluateAt scope (scope.limit - (← get).depth) e

end Expansion

end Stencil
