/- # Proofs.ConcreteSelf -- inside a body `self` is always concrete

A name that mentions `self` stands for nothing outside of every expansion. Inside of one it stands for
what it stands for with the identity at hand written in its place, and what is written out in this way no
longer depends on the identity at hand (`resolve_bindSelf`). So inside of an expansion every name has a
value or an error of its own, and a `self` that is not bound is never met: not by a template reference or
a name of a base, which are looked up before the expansion is entered, and not by a predicate, a value or
a validator argument, which are looked up after that.

`Eval.Concrete` says this of a computation. It is closed under sequencing because a computation ends
inside of the expansion in which it began, so that the next one has the same `self`.
-/
import Stencil.Proofs.Avoidance
import Stencil.Proofs.LongestKey
import Stencil.Proofs.Nesting

namespace Stencil
set_option autoImplicit false

/-! ## Names -/

namespace Resolver

/-- The search for a key asks the table of symbols and nothing else. -/
theorem longestKey?_congr {r r' : Resolver}
    (keys : ∀ symbols k, r'.boundKey? symbols k = r.boundKey? symbols k) (symbols : List String)
    (most : Nat) : r'.longestKey? symbols most = r.longestKey? symbols most := by
  induction most with
  | zero => rfl
  | succ most ih => rw [longestKey?, longestKey?, keys, ih]

/-- An error of a name without `self` is not that its `self` is not bound. -/
theorem Denotes.ne_unboundSelf {r : Resolver} {n : Name} {x : Except ResolveError Value}
    (denotes : r.Denotes n x) (m : Name) : x ≠ .error (.unboundSelf m) := by
  intro same
  subst same
  cases denotes

/-- Where `self` is bound, a name has a value or an error of another kind. -/
theorem resolve_concrete {r : Resolver} {me : Uri} (current : r.currentSelf = some me) (n : Name) :
    ∃ x : Except ResolveError Value,
      r.resolve n = x.map .value ∧ ∀ m, x ≠ .error (.unboundSelf m) := by
  have bound : n.Bound r.currentSelf (n.bindSelf me) := .bound current
  obtain ⟨x, denotes⟩ := r.exists_denotes bound.hasSelf
  refine ⟨x, ?_, denotes.ne_unboundSelf⟩
  rw [r.resolve_of_bound bound, denotes.resolveBound]

end Resolver

namespace Scope

/-- A name without `self` stands for the same under every identity and outside of all. -/
theorem resolveBound_resolver (scope : Scope) (me other : Option Uri) (n : Name) :
    (scope.resolver me).resolveBound n = (scope.resolver other).resolveBound n := by
  have keys : ∀ symbols most, (scope.resolver me).longestKey? symbols most =
      (scope.resolver other).longestKey? symbols most :=
    Resolver.longestKey?_congr fun _ _ => rfl
  rw [Resolver.resolveBound_eq, Resolver.resolveBound_eq, keys]
  rfl

/-- A name stands for what it stands for with the identity at hand in the place of `self`. -/
theorem resolve_bindSelf (scope : Scope) (n : Name) (me : Uri) (other : Option Uri) :
    (scope.resolver (some me)).resolve n = (scope.resolver other).resolve (n.bindSelf me) := by
  have inside : n.Bound (scope.resolver (some me)).currentSelf (n.bindSelf me) := .bound rfl
  have written : (n.bindSelf me).Bound (scope.resolver other).currentSelf (n.bindSelf me) :=
    .free (Name.hasSelf_bindSelf me n)
  rw [Resolver.resolve_of_bound _ inside, Resolver.resolve_of_bound _ written]
  exact scope.resolveBound_resolver (some me) other _

end Scope

/-! ## Looking names up -/

/-- A name mentions a `self` that is not bound. -/
def Error.UnboundSelf : Error → Prop
  | .resolve (.unboundSelf _) => True
  | _ => False

open Error

namespace Resolver

variable {r : Resolver} {me : Uri}

theorem avoids_valueOf (current : r.currentSelf = some me) (n : Name) :
    Avoids UnboundSelf ((r.valueOf n).mapError .resolve) := by
  obtain ⟨x, resolved, other⟩ := resolve_concrete current n
  unfold valueOf
  rw [resolved]
  cases x with
  | ok v => exact .ok v
  | error why =>
      cases why with
      | unboundSelf m => exact absurd rfl (other m)
      | _ => exact .error not_false

theorem avoids_uriOf (current : r.currentSelf = some me) (n : Name) (context : String) :
    Avoids UnboundSelf ((r.uriOf n context).mapError .resolve) := by
  obtain ⟨x, resolved, other⟩ := resolve_concrete current n
  unfold uriOf resolveUri
  rw [resolved]
  cases x with
  | ok v =>
      cases v with
      | uri u => exact .ok u
      | literal l => exact .error not_false
  | error why =>
      cases why with
      | unboundSelf m => exact absurd rfl (other m)
      | _ => exact .error not_false

end Resolver

/-! ## Computations inside of an expansion -/

namespace Eval

variable {α β : Type}

/-- The computation leaves the expansions around it as they are; and if there is one, it does not end
with a `self` that is not bound. -/
structure Concrete (x : Eval α) : Prop where
  mints : OnlyMints x
  avoids : ∀ (s : SelfStack) (me : Uri), s.current? = some me →
    Stencil.Avoids UnboundSelf (x.run s).1

namespace Concrete

theorem pure (a : α) : Concrete (pure a) := ⟨.pure a, fun _ _ _ => .ok a⟩

theorem throw {e : Error} (other : ¬ e.UnboundSelf) : Concrete (throw e : Eval α) :=
  ⟨.throw e, fun _ _ _ => .error other⟩

theorem bind {x : Eval α} {f : α → Eval β} (first : Concrete x) (rest : ∀ a, Concrete (f a)) :
    Concrete (x >>= f) := by
  refine ⟨first.mints.bind fun a => (rest a).mints, fun s me current => ?_⟩
  have here := first.avoids s me current
  have same := (first.mints s).current?
  rw [run_bind]
  split
  · rename_i a next done
    rw [done] at same
    exact (rest a).avoids next me (same.trans current)
  · rename_i e next failed
    rw [failed] at here
    exact .error (here e rfl)

/-- A name is looked up as things stand, and the rest follows. -/
theorem lookup {scope : Scope} {f : Resolver → Except Error α} {rest : α → Eval β}
    (avoids : ∀ me, Stencil.Avoids UnboundSelf (f (scope.resolver (some me))))
    (onward : ∀ a, Concrete (rest a)) :
    Concrete (Eval.resolver scope >>= fun r => Eval.ofExcept (f r) >>= rest) := by
  have found : Concrete (Eval.resolver scope >>= fun r => Eval.ofExcept (f r)) := by
    refine ⟨(Moves.resolver scope).bind fun r => .ofExcept _, fun s me current => ?_⟩
    show Stencil.Avoids UnboundSelf (f (scope.resolver s.current?))
    rw [current]
    exact avoids me
  rw [← bind_assoc]
  exact found.bind onward

theorem within {x : Eval α} (inside : Concrete x) (me : Uri) : Concrete (within me x) :=
  ⟨inside.mints.within me, fun s _ _ => inside.avoids (s.push me) me rfl⟩

end Concrete

end Eval

namespace Expansion

open Eval

theorem concrete_identityOf (scope : Scope) (e : Expansion) : Concrete (identityOf scope e) := by
  refine ⟨onlyMints_identityOf scope e, fun s me current => ?_⟩
  unfold identityOf
  cases e.name with
  | some name =>
      show Avoids UnboundSelf
        (((scope.resolver s.current?).uriOf name "expansion name").mapError .resolve)
      rw [current]
      exact Resolver.avoids_uriOf rfl name _
  | none => exact .ok _

/-- The template and its bases are looked up before the expansion is entered, under the identity of the
one around it. -/
theorem concrete_prepare (scope : Scope) (e : Expansion) : Concrete (prepare scope e) := by
  have body : ∀ me, Avoids UnboundSelf (fullBody scope (scope.resolver (some me)) e) := fun me =>
    avoids_fullBody_of_names (Resolver.avoids_uriOf rfl) (fun _ _ => not_false)
      (fun _ _ => not_false) scope e
  exact Concrete.lookup body fun items => (concrete_identityOf scope e).bind fun me => .pure _

theorem concrete_body {scope : Scope} {inner : Expansion → Eval Expanded}
    (inside : ∀ e, Concrete (inner e)) :
    BodyRelation (fun x _ => Concrete x) scope scope inner inner where
  pure := .pure
  bind first rest := first.bind rest
  inside := inside
  name n := .lookup (fun _ => Resolver.avoids_valueOf rfl n) fun _ => .pure _
  parameter _ := .throw not_false
  predicate _ := .throw not_false

theorem concrete_judged {scope : Scope} {inner : Expansion → Eval Expanded}
    (inside : ∀ e, Concrete (inner e)) (me : Uri) (is : List Item) :
    Concrete (judged scope inner me is) := by
  refine ((concrete_body inside).items me is).bind fun out => ?_
  refine Concrete.bind ⟨.ofExcept _, fun _ _ _ => ?_⟩ fun triples => .pure _
  exact .mapError (fun _ => not_false) _

/-- Inside of an expansion every other one has a `self` to be looked up with, by induction on the depth
that is left. -/
theorem concrete_evaluateAt (scope : Scope) (depth : Nat) (e : Expansion) :
    Concrete (evaluateAt scope depth e) := by
  induction depth generalizing e with
  | zero => exact (concrete_prepare scope e).bind fun prepared => .throw not_false
  | succ depth ih =>
      exact (concrete_prepare scope e).bind fun start =>
        (concrete_judged ih start.1 start.2).within start.1

theorem concrete_evaluate (scope : Scope) (e : Expansion) : Concrete (evaluate scope e) :=
  ⟨onlyMints_evaluate scope e, fun s me current =>
    (concrete_evaluateAt scope (scope.limit - s.depth) e).avoids s me current⟩

theorem concrete_items (scope : Scope) (me : Uri) (is : List Item) :
    Concrete (items scope (evaluate scope) me is) :=
  (concrete_body (concrete_evaluate scope)).items me is

end Expansion

namespace Environment

/-- **Inside a body `self` is always concrete.** Under an identity a name stands for what it stands for
with the identity written in the place of `self`, be it looked up under another identity or outside of
all; it is never left unresolved. So an expansion inside of another one does not fail for a `self` that is
not bound, however deep below it that would be. Nor does any part of a body, be the expansion itself
inside of another one or not. -/
theorem self_concrete (env : Environment) :
    (∀ (n : Name) (me : Uri),
        (∀ other, (env.scope.resolver (some me)).resolve n =
          (env.scope.resolver other).resolve (n.bindSelf me)) ∧
        (env.scope.resolver (some me)).resolve n ≠ .ok .unresolved) ∧
      (env.selves.frames ≠ [] →
        ∀ e n, (env.expand e).1 ≠ .error (.resolve (.unboundSelf n))) ∧
      ∀ me part n,
        ((Expansion.items env.scope (Expansion.evaluate env.scope) me part).run
          (env.selves.push me)).1 ≠ .error (.resolve (.unboundSelf n)) := by
  refine ⟨fun n me => ⟨env.scope.resolve_bindSelf n me, ?_⟩, fun inside e n failed => ?_,
    fun me part n failed => ?_⟩
  · have current : (env.scope.resolver (some me)).currentSelf = some me := rfl
    obtain ⟨x, resolved, _⟩ := Resolver.resolve_concrete current n
    rw [resolved]
    cases x with
    | ok v => simp [Except.map]
    | error why => simp [Except.map]
  · obtain ⟨frame, around, stacked⟩ := List.exists_cons_of_ne_nil inside
    have current : env.selves.current? = some frame.identity := by
      rw [SelfStack.current?, stacked]
      rfl
    exact (Expansion.concrete_evaluate env.scope e).avoids env.selves _ current _ failed trivial
  · exact (Expansion.concrete_items env.scope me part).avoids (env.selves.push me) me rfl _ failed
      trivial

/-- The identity at hand, followed by a text. -/
def here (text : String) : Name := ⟨.selfRef, [.symbol text]⟩

/-- An expansion that is named, and refers to its template, by way of `self`. -/
def placed (name template : String) : Expansion :=
  ⟨some (here name), .name (here template), [], [], {}⟩

/-- Inside of an expansion of `room`: a template with a base that is named by way of `self`, and with
`self` in a predicate, a value, an expansion and a validator argument. -/
def room : Environment where
  scope.extensions := .builtin
  scope.templates.byId :=
    [(⟨"room/thing"⟩, ⟨.ofUri ⟨"room/thing"⟩, [], none, [], {}⟩),
      (⟨"room/shelf/thing"⟩, ⟨.ofUri ⟨"room/shelf/thing"⟩, [], none, [], {}⟩),
      (⟨"room/rack"⟩, ⟨.ofUri ⟨"room/rack"⟩, [], some ⟨here "/thing", []⟩,
        [.property ⟨.name (here "#is"), .name .selfName, {}⟩,
          .property ⟨.name (here "#has"), .expansion (placed "/book" "/thing"), {}⟩,
          .extension ⟨"ExactlyOne", [.expr (.name (here "#has"))], {}⟩], {}⟩)]
  scope.templates.order := [⟨"room/thing"⟩, ⟨"room/shelf/thing"⟩, ⟨"room/rack"⟩]
  selves.frames := [⟨⟨"room"⟩, 0⟩]

/-- The same outside of every expansion has no template to expand. -/
theorem self_found_inside_only :
    room.selves.frames ≠ [] ∧
      (room.expand (placed "/shelf" "/rack")).1 =
        .ok ⟨⟨"room/shelf"⟩,
          [⟨⟨"room/shelf"⟩, ⟨"room/shelf#is"⟩, .uri ⟨"room/shelf"⟩⟩,
            ⟨⟨"room/shelf"⟩, ⟨"room/shelf#has"⟩, .uri ⟨"room/shelf/book"⟩⟩]⟩ ∧
      (Environment.expand { room with selves := {} } (placed "/shelf" "/rack")).1 =
        .error (.resolve (.unboundSelf (here "/rack"))) ∧
      (room.expand (placed "/shelf" "/rack")).1 ≠
        .error (.resolve (.unboundSelf (here "/rack"))) := by
  have inside : room.selves.frames ≠ [] := by simp [room]
  exact ⟨inside, rfl, rfl,
    (self_concrete room).2.1 inside (placed "/shelf" "/rack") (here "/rack")⟩

end Environment

end Stencil
