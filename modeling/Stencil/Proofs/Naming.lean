/- # Proofs.Naming -- which expansions a run names, and how

An identity that was given out may be seen nowhere afterwards: the form may fail, or a validator may
drop every triple of it. To speak of all identities of a run, the evaluator is written once more for
computations that keep a log (`Logged`), with one more line, where an expansion has got its identity.
Without the log it is the evaluator that runs (`compute_evaluateLogged`, `compute_stepLogged`), so
the log tells what that one does. What is kept by sequencing and holds of the expansions inside a body
holds of the body (`LoggedBody`).

`Moment.namings` are the expansions that are named between a moment and the next one, and
`Environment.moments` the moments of everything that a host does.
-/
import Stencil.Proofs.Minting
import Stencil.Proofs.Moments

namespace Stencil
set_option autoImplicit false

/-- An expansion, and the identity it has got. -/
structure Naming where
  expansion : Expansion
  identity : Uri

/-- A computation, and the expansions that it names when it starts from a stack. -/
structure Logged (α : Type) where
  compute : Eval α
  names : SelfStack → List Naming

namespace Logged

variable {α β : Type}

/-- A computation that names nothing. -/
def silent (x : Eval α) : Logged α := ⟨x, fun _ => []⟩

/-- Note that an expansion has got its identity. -/
def tell (n : Naming) : Logged Unit := ⟨pure (), fun _ => [n]⟩

/-- The rest names something only if it is come to. -/
def andThen (x : Logged α) (rest : α → Logged β) : Logged β where
  compute := x.compute >>= fun a => (rest a).compute
  names s := x.names s ++
    match x.compute.run s with
    | (.ok a, t) => (rest a).names t
    | (.error _, _) => []

instance : Monad Logged where
  pure a := silent (pure a)
  bind := andThen

/-- Compute inside an expansion. -/
def within (me : Uri) (inside : Logged α) : Logged α :=
  ⟨Eval.within me inside.compute, fun s => inside.names (s.push me)⟩

theorem compute_bind (x : Logged α) (rest : α → Logged β) :
    (x >>= rest).compute = x.compute >>= fun a => (rest a).compute := rfl

theorem names_bind (x : Logged α) (rest : α → Logged β) (s : SelfStack) :
    (x >>= rest).names s = x.names s ++
      match x.compute.run s with
      | (.ok a, t) => (rest a).names t
      | (.error _, _) => [] := rfl

theorem names_silent_bind (x : Eval α) (rest : α → Logged β) (s : SelfStack) :
    (silent x >>= rest).names s =
      match x.run s with
      | (.ok a, t) => (rest a).names t
      | (.error _, _) => [] := rfl

theorem compute_tell_bind (n : Naming) (rest : Unit → Logged β) :
    (tell n >>= rest).compute = (rest ()).compute := rfl

theorem names_tell_bind (n : Naming) (rest : Unit → Logged β) (s : SelfStack) :
    (tell n >>= rest).names s = n :: (rest ()).names s := rfl

end Logged

/-! ## The evaluator with a log -/

namespace Expansion

open Logged

section Body

variable (scope : Scope) (inner : Expansion → Logged Expanded)

def valueLogged : Expr → Logged (Value × List Triple)
  | .expansion e => do
    let out ← inner e
    return (.uri out.identity, out.triples)
  | e => .silent (value scope (fun e => (inner e).compute) e)

def propertyLogged (me : Uri) (p : Property) : Logged (List Triple) := do
  let (name, before) ← valueLogged scope inner p.name
  match name with
  | .literal l => .silent (throw (.resolve (.notResource "predicate" l.kind)))
  | .uri predicate =>
    let (object, after) ← valueLogged scope inner p.value
    return before ++ after ++ [⟨me, predicate, object⟩]

mutual

def callLogged : Extension → Logged (Call × List Triple)
  | ⟨validator, arguments, _⟩ => do
    let (arguments, triples) ← callArgsLogged arguments
    return (⟨validator, arguments⟩, triples)

def callArgsLogged : List ExtensionArg → Logged (List CallArg × List Triple)
  | [] => return ([], [])
  | a :: as => do
    let (a, before) ← callArgLogged a
    let (as, after) ← callArgsLogged as
    return (a :: as, before ++ after)

def callArgLogged : ExtensionArg → Logged (CallArg × List Triple)
  | .expr e => do
    let (v, triples) ← valueLogged scope inner e
    return (.value v, triples)
  | .extension x => do
    let (c, triples) ← callLogged x
    return (.call c, triples)

end

def itemLogged (me : Uri) : Item → Logged Yield
  | .property p => do return { triples := ← propertyLogged scope inner me p }
  | .expansion e => do return { triples := (← inner e).triples }
  | .extension x => do
    let (c, triples) ← callLogged scope inner x
    return ⟨triples, [c]⟩

def itemsLogged (me : Uri) : List Item → Logged Yield
  | [] => return {}
  | i :: is => do
    let first ← itemLogged scope inner me i
    let rest ← itemsLogged me is
    return first.append rest

end Body

/-! ## What holds of a body with a log -/

/-- The property holds of computations that name nothing and of the expansions inside, and is kept when
computations follow each other. Then it holds of everything that a body is made of. -/
structure LoggedBody (P : ∀ {α : Type}, Logged α → Prop) (inner : Expansion → Logged Expanded) :
    Prop where
  silent : ∀ {α : Type} {x : Eval α}, x.OnlyMints → P (.silent x)
  bind : ∀ {α β : Type} {x : Logged α} {rest : α → Logged β},
    P x → (∀ a, P (rest a)) → P (x >>= rest)
  inside : ∀ e, P (inner e)

namespace LoggedBody

variable {P : ∀ {α : Type}, Logged α → Prop} {scope : Scope} {inner : Expansion → Logged Expanded}

theorem pure (body : LoggedBody P inner) {α : Type} (a : α) : P (Pure.pure a : Logged α) :=
  body.silent (.pure a)

theorem value (body : LoggedBody P inner) (e : Expr) : P (valueLogged scope inner e) := by
  cases e with
  | literal l => exact body.silent (.pure _)
  | name n =>
      exact body.silent (moves_value fun _ isExpansion => nomatch isExpansion)
  | param p => exact body.silent (.throw _)
  | expansion e => exact body.bind (body.inside e) fun out => body.pure _

theorem property (body : LoggedBody P inner) (me : Uri) (p : Property) :
    P (propertyLogged scope inner me p) := by
  unfold propertyLogged
  refine body.bind (body.value p.name) fun found => ?_
  obtain ⟨name, before⟩ := found
  cases name with
  | literal l => exact body.silent (.throw _)
  | uri predicate => exact body.bind (body.value p.value) fun found => body.pure _

mutual

theorem call (body : LoggedBody P inner) : ∀ x : Extension, P (callLogged scope inner x)
  | ⟨validator, arguments, location⟩ => by
      unfold callLogged
      exact body.bind (body.callArgs arguments) fun found => body.pure _

theorem callArgs (body : LoggedBody P inner) :
    ∀ as : List ExtensionArg, P (callArgsLogged scope inner as)
  | [] => by
      unfold callArgsLogged
      exact body.pure _
  | a :: as => by
      unfold callArgsLogged
      refine body.bind (body.callArg a) fun found => ?_
      exact body.bind (body.callArgs as) fun found => body.pure _

theorem callArg (body : LoggedBody P inner) :
    ∀ a : ExtensionArg, P (callArgLogged scope inner a)
  | .expr e => by
      unfold callArgLogged
      exact body.bind (body.value e) fun found => body.pure _
  | .extension x => by
      unfold callArgLogged
      exact body.bind (body.call x) fun found => body.pure _

end

theorem item (body : LoggedBody P inner) (me : Uri) (i : Item) :
    P (itemLogged scope inner me i) := by
  cases i with
  | property p => exact body.bind (body.property me p) fun triples => body.pure _
  | expansion e => exact body.bind (body.inside e) fun out => body.pure _
  | extension x => exact body.bind (body.call x) fun found => body.pure _

theorem items (body : LoggedBody P inner) (me : Uri) (is : List Item) :
    P (itemsLogged scope inner me is) := by
  induction is with
  | nil => exact body.pure _
  | cons i is ih =>
      unfold itemsLogged
      refine body.bind (body.item me i) fun first => ?_
      exact body.bind ih fun rest => body.pure _

end LoggedBody

/-! ## Expansions -/

/-- An expansion is named when it has been prepared, whether it is entered then or not. -/
def evaluateLoggedAt (scope : Scope) : Nat → Expansion → Logged Expanded
  | 0, e => do
    let (me, _) ← .silent (prepare scope e)
    .tell ⟨e, me⟩
    .silent (throw (.template (.depthExceeded scope.limit)))
  | depth + 1, e => do
    let (me, body) ← .silent (prepare scope e)
    .tell ⟨e, me⟩
    .within me do
      let out ← itemsLogged scope (evaluateLoggedAt scope depth) me body
      let triples ← .silent (Eval.ofExcept ((judge scope me out).mapError .extension))
      return ⟨me, triples⟩

def evaluateLogged (scope : Scope) (e : Expansion) : Logged Expanded := do
  let s ← .silent get
  evaluateLoggedAt scope (scope.limit - s.depth) e

/-! ## Without the log -/

section Body

variable (scope : Scope) (inner : Expansion → Logged Expanded)

theorem compute_valueLogged (e : Expr) :
    (valueLogged scope inner e).compute = value scope (fun e => (inner e).compute) e := by
  cases e with
  | expansion e => rfl
  | _ => rfl

theorem compute_propertyLogged (me : Uri) (p : Property) :
    (propertyLogged scope inner me p).compute =
      property scope (fun e => (inner e).compute) me p := by
  unfold propertyLogged property
  rw [compute_bind, compute_valueLogged]
  refine bind_congr fun found => ?_
  obtain ⟨name, before⟩ := found
  cases name with
  | literal l => rfl
  | uri predicate =>
      simp only [compute_bind, compute_valueLogged]
      rfl

mutual

theorem compute_callLogged : ∀ x : Extension,
    (callLogged scope inner x).compute = call scope (fun e => (inner e).compute) x
  | ⟨validator, arguments, location⟩ => by
      unfold callLogged call
      rw [compute_bind, compute_callArgsLogged arguments]
      rfl

theorem compute_callArgsLogged : ∀ as : List ExtensionArg,
    (callArgsLogged scope inner as).compute = callArgs scope (fun e => (inner e).compute) as
  | [] => by
      unfold callArgsLogged callArgs
      rfl
  | a :: as => by
      unfold callArgsLogged callArgs
      rw [compute_bind, compute_callArgLogged a]
      refine bind_congr fun found => ?_
      simp only [compute_bind, compute_callArgsLogged as]
      rfl

theorem compute_callArgLogged : ∀ a : ExtensionArg,
    (callArgLogged scope inner a).compute = callArg scope (fun e => (inner e).compute) a
  | .expr e => by
      unfold callArgLogged callArg
      rw [compute_bind, compute_valueLogged]
      rfl
  | .extension x => by
      unfold callArgLogged callArg
      rw [compute_bind, compute_callLogged x]
      rfl

end

theorem compute_itemLogged (me : Uri) (i : Item) :
    (itemLogged scope inner me i).compute = item scope (fun e => (inner e).compute) me i := by
  cases i with
  | property p =>
      unfold itemLogged item
      rw [compute_bind, compute_propertyLogged]
      rfl
  | expansion e => rfl
  | extension x =>
      unfold itemLogged item
      rw [compute_bind, compute_callLogged]
      rfl

theorem compute_itemsLogged (me : Uri) (is : List Item) :
    (itemsLogged scope inner me is).compute = items scope (fun e => (inner e).compute) me is := by
  induction is with
  | nil => rfl
  | cons i is ih =>
      unfold itemsLogged items
      rw [compute_bind, compute_itemLogged]
      refine bind_congr fun first => ?_
      rw [compute_bind, ih]
      rfl

end Body

theorem compute_evaluateLoggedAt (scope : Scope) (depth : Nat) (e : Expansion) :
    (evaluateLoggedAt scope depth e).compute = evaluateAt scope depth e := by
  induction depth generalizing e with
  | zero => rfl
  | succ depth ih =>
      unfold evaluateLoggedAt evaluateAt
      refine bind_congr fun prepared => ?_
      obtain ⟨me, body⟩ := prepared
      have inside : (itemsLogged scope (evaluateLoggedAt scope depth) me body).compute =
          items scope (evaluateAt scope depth) me body := by
        rw [compute_itemsLogged, funext ih]
      change Eval.within me
        ((itemsLogged scope (evaluateLoggedAt scope depth) me body).compute >>= _) = _
      rw [inside]
      rfl

theorem compute_evaluateLogged (scope : Scope) (e : Expansion) :
    (evaluateLogged scope e).compute = evaluate scope e := by
  unfold evaluateLogged evaluate
  refine bind_congr fun s => ?_
  exact compute_evaluateLoggedAt scope (scope.limit - s.depth) e

end Expansion

/-! ## Forms -/

namespace Form

open Logged

def valueLogged (scope : Scope) : Expr → Logged (Value × List Triple) :=
  Expansion.valueLogged scope (Expansion.evaluateLogged scope)

def assignLogged (scope : Scope) (name : Name) (e : Expr) : Logged Step := do
  let key ← .silent (Eval.ofExcept (name.symbolKey.mapError .resolve))
  let (v, triples) ← valueLogged scope (nameAfter name e)
  let after ← .silent (Eval.ofExcept ((scope.bindSymbol key v).mapError .environment))
  return ⟨after, triples, some v⟩

def stateLogged (scope : Scope) (subject predicate object : Expr) : Logged Step := do
  let (s, first) ← valueLogged scope subject
  let s ← .silent (Eval.ofExcept (s.expectUri "subject"))
  let (p, second) ← valueLogged scope predicate
  let p ← .silent (Eval.ofExcept (p.expectUri "predicate"))
  let (o, third) ← valueLogged scope object
  return ⟨scope, first ++ second ++ third ++ [⟨s, p, o⟩], some (.uri s)⟩

/-- Forms of the other kinds hold no expression. -/
def stepLogged (scope : Scope) : Form → Logged Step
  | .assignment name e _ => assignLogged scope name e
  | .expansion e => do
    let out ← Expansion.evaluateLogged scope e
    return ⟨scope, out.triples, some (.uri out.identity)⟩
  | .triple subject predicate object _ => stateLogged scope subject predicate object
  | form => .silent (form.step scope)

theorem compute_valueLogged (scope : Scope) (e : Expr) :
    (valueLogged scope e).compute = value scope e := by
  unfold valueLogged value
  rw [Expansion.compute_valueLogged, funext (Expansion.compute_evaluateLogged scope)]

theorem compute_assignLogged (scope : Scope) (name : Name) (e : Expr) :
    (assignLogged scope name e).compute = assign scope name e := by
  unfold assignLogged assign
  refine bind_congr fun key => ?_
  simp only [compute_bind, compute_valueLogged]
  rfl

theorem compute_stateLogged (scope : Scope) (subject predicate object : Expr) :
    (stateLogged scope subject predicate object).compute =
      state scope subject predicate object := by
  unfold stateLogged state
  simp only [compute_bind, compute_valueLogged]
  rfl

theorem compute_stepLogged (scope : Scope) (form : Form) :
    (form.stepLogged scope).compute = form.step scope := by
  cases form with
  | assignment name e location => exact compute_assignLogged scope name e
  | expansion e =>
      unfold stepLogged step
      rw [compute_bind, Expansion.compute_evaluateLogged]
      rfl
  | triple subject predicate object location =>
      exact compute_stateLogged scope subject predicate object
  | _ => rfl

end Form

/-! ## Runs -/

/-- The expansions that are named from a moment to the next one. Only a form that is evaluated names
any. -/
def Moment.namings (m : Moment) : List Naming :=
  match m.program.forms with
  | [] => []
  | form :: _ => (form.stepLogged m.env.scope).names m.env.selves

namespace Environment

/-- The forms that an operation runs. -/
def Operation.forms : Operation → List Form
  | .interpret forms => forms
  | .evaluate form => [form]
  | _ => []

/-- The moments of operations one after another, so many of each at most. -/
def moments (count : Nat) : Environment → List Operation → List Moment
  | _, [] => []
  | env, op :: ops => Moment.trace count (.start env op.forms) ++ moments count (op.apply env) ops

end Environment

end Stencil
