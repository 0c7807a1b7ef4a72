/- # Proofs.BodyRelation -- one walk over bodies for all that is said of them

Working out a body comes down to few things: expansions inside are worked out, names are looked up, a
parameter without an argument or a predicate that is a constant is refused, and one computation follows
another. A relation between computations that holds of these few things on two sides, in two scopes and
with two evaluations of what is inside, is a `BodyRelation`; it then holds of the two values, validator
calls and bodies as a whole (`value`, `call`, `items`). The recursion over properties, validators and
their arguments is done here once.

What is said of one computation is a relation that does not look at the other side.
-/
import Stencil.Expansion.Basic

namespace Stencil
set_option autoImplicit false

namespace Expansion

/-- The relation holds of all that a body is made of, and is kept when computations follow each
other. -/
structure BodyRelation (R : ∀ {α : Type}, Eval α → Eval α → Prop) (scope scope' : Scope)
    (inner inner' : Expansion → Eval Expanded) : Prop where
  pure : ∀ {α : Type} (a : α), R (pure a) (pure a)
  bind : ∀ {α β : Type} {x y : Eval α} {f g : α → Eval β},
    R x y → (∀ a, R (f a) (g a)) → R (x >>= f) (y >>= g)
  inside : ∀ e, R (inner e) (inner' e)
  name : ∀ n, R (value scope inner (.name n)) (value scope' inner' (.name n))
  parameter : ∀ p, R (value scope inner (.param p)) (value scope' inner' (.param p))
  predicate : ∀ l : Literal, R (throw (.resolve (.notResource "predicate" l.kind)) : Eval (List Triple))
    (throw (.resolve (.notResource "predicate" l.kind)))

namespace BodyRelation

variable {R : ∀ {α : Type}, Eval α → Eval α → Prop} {scope scope' : Scope}
  {inner inner' : Expansion → Eval Expanded}

theorem value (body : BodyRelation R scope scope' inner inner') (e : Expr) :
    R (Expansion.value scope inner e) (Expansion.value scope' inner' e) := by
  cases e with
  | literal l => exact body.pure _
  | name n => exact body.name n
  | param p => exact body.parameter p
  | expansion e => exact body.bind (body.inside e) fun out => body.pure _

theorem property (body : BodyRelation R scope scope' inner inner') (me : Uri) (p : Property) :
    R (Expansion.property scope inner me p) (Expansion.property scope' inner' me p) := by
  unfold Expansion.property
  refine body.bind (body.value p.name) fun named => ?_
  obtain ⟨name, before⟩ := named
  cases name with
  | literal l => exact body.predicate l
  | uri predicate => exact body.bind (body.value p.value) fun object => body.pure _

mutual

theorem call (body : BodyRelation R scope scope' inner inner') :
    ∀ x : Extension, R (Expansion.call scope inner x) (Expansion.call scope' inner' x)
  | ⟨validator, arguments, location⟩ => by
      unfold Expansion.call
      exact body.bind (body.callArgs arguments) fun out => body.pure _

theorem callArgs (body : BodyRelation R scope scope' inner inner') :
    ∀ as : List ExtensionArg,
      R (Expansion.callArgs scope inner as) (Expansion.callArgs scope' inner' as)
  | [] => by
      unfold Expansion.callArgs
      exact body.pure _
  | a :: as => by
      unfold Expansion.callArgs
      refine body.bind (body.callArg a) fun first => ?_
      exact body.bind (body.callArgs as) fun rest => body.pure _

theorem callArg (body : BodyRelation R scope scope' inner inner') :
    ∀ a : ExtensionArg, R (Expansion.callArg scope inner a) (Expansion.callArg scope' inner' a)
  | .expr e => by
      unfold Expansion.callArg
      exact body.bind (body.value e) fun out => body.pure _
  | .extension x => by
      unfold Expansion.callArg
      exact body.bind (body.call x) fun out => body.pure _

end

theorem item (body : BodyRelation R scope scope' inner inner') (me : Uri) (i : Item) :
    R (Expansion.item scope inner me i) (Expansion.item scope' inner' me i) := by
  cases i with
  | property p => exact body.bind (body.property me p) fun triples => body.pure _
  | expansion e => exact body.bind (body.inside e) fun out => body.pure _
  | extension x => exact body.bind (body.call x) fun out => body.pure _

/-- What holds of the parts of a body on both sides holds of the body. -/
theorem items (body : BodyRelation R scope scope' inner inner') (me : Uri) (is : List Item) :
    R (Expansion.items scope inner me is) (Expansion.items scope' inner' me is) := by
  induction is with
  | nil => exact body.pure _
  | cons i is ih =>
      unfold Expansion.items
      refine body.bind (body.item me i) fun first => ?_
      exact body.bind ih fun rest => body.pure _

end BodyRelation

end Expansion

end Stencil
