/- # Proofs.Avoidance -- errors that a computation cannot end with

`Avoids bad` says of a result, and of a computation from any stack, that it is none of the errors in
`bad`. It is closed under sequencing, where the rest has to be looked at only for what the first part
can yield. Errors of one family are passed on by `mapError`, so a family without a bad error is dealt
with at once.

Said of the errors that are not in a list, it says which errors there are. The walk up a chain of bases
ends with few (`Error.OfChain`), the search for the items of an expansion with one more
(`Error.Unprepared`); and whatever an expansion ends with, at any depth, comes from a name, a template or
a validator (`avoids_foreign_evaluate`).
-/
import Stencil.Proofs.Minting

namespace Stencil
set_option autoImplicit false

/-- The result is none of certain errors. -/
def Avoids {α : Type} (bad : Error → Prop) (x : Except Error α) : Prop :=
  ∀ e, x = .error e → ¬ bad e

namespace Avoids

variable {α β : Type} {bad : Error → Prop}

theorem ok (a : α) : Avoids bad (.ok a) := by
  intro e failed
  cases failed

theorem error {e : Error} (other : ¬ bad e) : Avoids bad (.error e : Except Error α) := by
  intro e' failed
  cases failed
  exact other

theorem mapError {ε : Type} {f : ε → Error} (family : ∀ e, ¬ bad (f e)) (x : Except ε α) :
    Avoids bad (x.mapError f) := by
  cases x with
  | ok a => exact .ok a
  | error e => exact .error (family e)

/-- Fewer errors are avoided as well. -/
theorem mono {fewer : Error → Prop} (among : ∀ e, fewer e → bad e) {x : Except Error α}
    (avoids : Avoids bad x) : Avoids fewer x :=
  fun e failed isFewer => avoids e failed (among e isFewer)

theorem bind {x : Except Error α} {f : α → Except Error β} (first : Avoids bad x)
    (rest : ∀ a, x = .ok a → Avoids bad (f a)) : Avoids bad (x >>= f) := by
  cases x with
  | ok a => exact rest a rfl
  | error e => exact .error (first e rfl)

theorem map {x : Except Error α} (first : Avoids bad x) (f : α → β) : Avoids bad (x.map f) := by
  cases x with
  | ok a => exact .ok (f a)
  | error e => exact .error (first e rfl)

end Avoids

namespace Eval

/-- From no stack does the computation end with one of certain errors. -/
def Avoids {α : Type} (bad : Error → Prop) (x : Eval α) : Prop :=
  ∀ s : SelfStack, Stencil.Avoids bad (x.run s).1

namespace Avoids

variable {α β : Type} {bad : Error → Prop}

theorem pure (a : α) : Avoids bad (pure a) := fun _ => .ok a

theorem throw {e : Error} (other : ¬ bad e) : Avoids bad (throw e : Eval α) := fun _ => .error other

theorem ofExcept {x : Except Error α} (avoids : Stencil.Avoids bad x) :
    Avoids bad (Eval.ofExcept x) := fun _ => avoids

theorem currentSelf : Avoids bad Eval.currentSelf := fun s => .ok s.current?

theorem resolver (scope : Scope) : Avoids bad (Eval.resolver scope) :=
  fun s => .ok (scope.resolver s.current?)

theorem bind {x : Eval α} {f : α → Eval β} (first : Avoids bad x)
    (rest : ∀ a s t, x.run s = (.ok a, t) → Avoids bad (f a)) : Avoids bad (x >>= f) := by
  intro s
  have here := first s
  rw [run_bind]
  split
  · rename_i a next done
    exact rest a s next done next
  · rename_i e next failed
    rw [failed] at here
    exact .error (here e rfl)

theorem within {x : Eval α} (inside : Avoids bad x) (me : Uri) : Avoids bad (within me x) :=
  fun s => inside (s.push me)

end Avoids

end Eval

/-! ## Errors of a chain of bases -/

namespace Error

/-- A base cannot be had: its name does not resolve, it is not registered, it is given a wrong number of
arguments, or it was met before. -/
def OfChain : Error → Prop
  | .resolve _ => True
  | .template (.notFound _) => True
  | .template (.wrongArity _ _ _) => True
  | .template (.inheritanceCycle _) => True
  | _ => False

/-- The items of an expansion cannot be had: its template or a base of it cannot, or a parameter stands
in the place of the template. -/
def Unprepared (e : Error) : Prop := e.OfChain ∨ ∃ p, e = .template (.unboundParameter p)

/-- The error does not come from a name, a template or a validator. -/
def Foreign : Error → Prop
  | .resolve _ => False
  | .template _ => False
  | .extension _ => False
  | _ => True

theorem Foreign.not_unprepared {e : Error} (foreign : e.Foreign) : ¬ e.Unprepared := by
  rintro (ofChain | ⟨p, rfl⟩)
  · cases e with
    | resolve why => exact foreign
    | template why => exact foreign
    | _ => exact ofChain
  · exact foreign

end Error

section Chain

variable {bad : Error → Prop} {r : Resolver} {table : TemplateTable}

theorem avoids_checkArity (apart : ∀ why, (Error.template why).OfChain → ¬ bad (.template why))
    (t : Template) (id : Uri) (args : List Argument) :
    Avoids bad ((t.checkArity id args).mapError .template) := by
  unfold Template.checkArity
  split
  · exact .ok ()
  · exact .error (apart _ trivial)

theorem avoids_next (names : ∀ n context, Avoids bad ((r.uriOf n context).mapError .resolve))
    (apart : ∀ why, (Error.template why).OfChain → ¬ bad (.template why)) (met : List Uri)
    (l : Layer) (base : Base) : Avoids bad (l.next r table met base) := by
  unfold Layer.next
  refine (names base.template "base template").bind fun id _ => ?_
  split
  · exact .error (apart _ trivial)
  · split
    · exact .error (apart _ trivial)
    · exact (avoids_checkArity apart _ _ _).bind fun _ _ => .ok _

/-- The walk up a chain of bases meets an error only where a name does, or a template of the chain. -/
theorem avoids_lineageAt (names : ∀ n context, Avoids bad ((r.uriOf n context).mapError .resolve))
    (apart : ∀ why, (Error.template why).OfChain → ¬ bad (.template why)) (steps : Nat)
    (met : List Uri) (l : Layer) : Avoids bad (lineageAt r table steps met l) := by
  induction steps generalizing met l with
  | zero =>
      unfold lineageAt
      split
      · exact .ok _
      · exact (avoids_next names apart met l _).bind fun found _ => .error (apart _ trivial)
  | succ steps ih =>
      unfold lineageAt
      split
      · exact .ok _
      · refine (avoids_next names apart met l _).bind fun found _ => ?_
        exact (ih (found.1 :: met) found.2).bind fun above _ => .ok _

theorem checkArity_ofChain (t : Template) (id : Uri) (args : List Argument) :
    Avoids (¬ ·.OfChain) ((t.checkArity id args).mapError .template) :=
  avoids_checkArity (fun _ => not_not_intro) t id args

theorem lineageAt_ofChain (steps : Nat) (met : List Uri) (l : Layer) :
    Avoids (¬ ·.OfChain) (lineageAt r table steps met l) :=
  avoids_lineageAt (fun _ _ => .mapError (fun _ => not_not_intro trivial) _)
    (fun _ => not_not_intro) steps met l

end Chain

/-! ## Errors of an expansion -/

namespace Expansion

open Error

/-- The search for the items of an expansion meets an error where a name does, where something else
stands in the place of its template, or where a template cannot be had. -/
theorem avoids_fullBody_of_names {bad : Error → Prop} {r : Resolver}
    (names : ∀ n context, Avoids bad ((r.uriOf n context).mapError .resolve))
    (kinds : ∀ context found, ¬ bad (.resolve (.notResource context found)))
    (apart : ∀ why, (Error.template why).Unprepared → ¬ bad (.template why)) (scope : Scope)
    (e : Expansion) : Avoids bad (fullBody scope r e) := by
  have ofChain : ∀ why, (Error.template why).OfChain → ¬ bad (.template why) :=
    fun why chain => apart why (.inl chain)
  have named : Avoids bad (templateName e.template) := by
    cases e.template with
    | literal l => exact .error (kinds _ _)
    | name n => exact .ok n
    | param p => exact .error (apart _ (.inr ⟨p, rfl⟩))
    | expansion e => exact .error (kinds _ _)
  have found : Avoids bad (templateOf scope r e.template) := by
    unfold templateOf
    refine named.bind fun name _ => ?_
    refine (names name "template reference").bind fun id _ => ?_
    split
    · exact .ok _
    · exact .error (ofChain _ trivial)
  unfold fullBody
  refine found.bind fun template _ => ?_
  refine (avoids_checkArity ofChain _ _ _).bind fun _ _ => ?_
  exact ((avoids_lineageAt names ofChain _ _ _).map _).bind fun merged _ => .ok _

theorem fullBody_unprepared (scope : Scope) (r : Resolver) (e : Expansion) :
    Avoids (¬ ·.Unprepared) (fullBody scope r e) :=
  avoids_fullBody_of_names (fun _ _ => .mapError (fun _ => not_not_intro (.inl trivial)) _)
    (fun _ _ => not_not_intro (.inl trivial)) (fun _ => not_not_intro) scope e

theorem avoids_foreign_prepare (scope : Scope) (e : Expansion) :
    Eval.Avoids Foreign (prepare scope e) := by
  have body : ∀ r, Avoids Foreign (fullBody scope r e) := fun r =>
    (fullBody_unprepared scope r e).mono fun _ => Foreign.not_unprepared
  unfold prepare
  refine (Eval.Avoids.resolver scope).bind fun r _ _ _ => ?_
  refine (Eval.Avoids.ofExcept (body r)).bind fun items _ _ _ => ?_
  refine Eval.Avoids.bind ?_ fun me _ _ _ => .pure _
  unfold identityOf
  cases e.name with
  | some name =>
      exact (Eval.Avoids.resolver scope).bind fun r _ _ _ =>
        .ofExcept (.mapError (fun _ => not_false) _)
  | none => exact fun s => .ok _

/-- An expansion fails for a name, a template or a validator, whatever depth is left. -/
theorem avoids_foreign_evaluateAt (scope : Scope) (depth : Nat) (e : Expansion) :
    Eval.Avoids Foreign (evaluateAt scope depth e) := by
  induction depth generalizing e with
  | zero =>
      unfold evaluateAt
      exact (avoids_foreign_prepare scope e).bind fun prepared _ _ _ => .throw not_false
  | succ depth ih =>
      have body : BodyRelation (fun x _ => Eval.Avoids Foreign x) scope scope
          (evaluateAt scope depth) (evaluateAt scope depth) :=
        { pure := .pure
          bind := fun first rest => first.bind fun a _ _ _ => rest a
          inside := ih
          name := by
            intro n
            refine (Eval.Avoids.resolver scope).bind fun r _ _ _ => ?_
            exact (Eval.Avoids.ofExcept (.mapError (fun _ => not_false) _)).bind
              fun v _ _ _ => .pure _
          parameter := fun p => .throw not_false
          predicate := fun l => .throw not_false }
      unfold evaluateAt
      refine (avoids_foreign_prepare scope e).bind fun start _ _ _ => ?_
      refine Eval.Avoids.within ?_ _
      refine (body.items _ _).bind fun out _ _ _ => ?_
      exact (Eval.Avoids.ofExcept (.mapError (fun _ => not_false) _)).bind fun triples _ _ _ => .pure _

theorem avoids_foreign_evaluate (scope : Scope) (e : Expansion) :
    Eval.Avoids Foreign (evaluate scope e) :=
  fun s => avoids_foreign_evaluateAt scope (scope.limit - s.depth) e s

end Expansion

end Stencil
