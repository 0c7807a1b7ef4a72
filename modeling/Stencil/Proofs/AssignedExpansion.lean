/- # Proofs.AssignedExpansion -- expansions that take the name of what they are assigned to

An expansion without a name that is assigned takes the name of the target, and the target is bound to
the identity that comes of it. Such an assignment is the expansion under that name, worked out in the
environment, and then the binding, which cannot be refused (`evaluate_assignment_named`). It cannot,
because the name of the expansion is looked up by the same key that the binding compares: where the
target is bound to a resource, the expansion has that resource for its identity, and where it is bound to
a constant, the expansion has no identity and fails before there is anything to compare
(`assigned_expansion_fits`).

From outside, a name that goes on behind the target goes through the key that was bound; from inside the
expansion it goes on behind `self`. Both append the same texts to the same identity
(`assigned_name_meets_self`).
-/
import Stencil.Proofs.AssignmentLocality
import Stencil.Proofs.Avoidance
import Stencil.Proofs.Nesting

namespace Stencil
set_option autoImplicit false

open Eval

/-! ## Names that go on behind another -/

/-- The name with more segments behind it. -/
def Name.followedBy (n : Name) (tail : List Segment) : Name := ⟨n.head, n.tail ++ tail⟩

theorem Name.segments_followedBy (n : Name) (tail : List Segment) :
    (n.followedBy tail).segments = n.segments ++ tail := rfl

theorem Name.StartsWith.followedBy {n : Name} {key : String} (starts : n.StartsWith n.length key)
    (tail : List Segment) : (n.followedBy tail).StartsWith n.length key := by
  have front : (n.followedBy tail).segments.take n.length = n.segments.take n.length := by
    rw [segments_followedBy, length, List.take_left', List.take_length]
    rfl
  refine ⟨?_, ?_, ?_⟩
  · simp [length, segments_followedBy]
  · rw [front]
    exact starts.symbols
  · rw [Name.key, front]
    exact starts.joined

theorem Name.hasSelf_followedBy {n : Name} {tail : List Segment} (whole : n.hasSelf = false)
    (free : ∀ s ∈ tail, s ≠ .selfRef) : (n.followedBy tail).hasSelf = false := by
  rw [hasSelf, segments_followedBy, List.any_append, ← hasSelf, whole, Bool.false_or,
    List.any_eq_false]
  intro s listed
  have other := free s listed
  cases s with
  | selfRef => exact absurd rfl other
  | _ => simp [Segment.isSelf]

namespace Resolver

variable {r : Resolver} {u : Uri} {tail : List Segment}

/-- From outside, the segments behind a bound name are appended to what it is bound to, where no key is
made of more of them. -/
theorem resolve_followedBy {n : Name} {key : String} (starts : n.StartsWith n.length key)
    (bound : r.symbols.get? r.bindings key = some (.uri u)) (longer : tail ≠ [])
    (free : ∀ s ∈ tail, s ≠ .selfRef)
    (longest : ∀ j v, r.KeyOf (n.followedBy tail) j v → j ≤ n.length) :
    r.resolve (n.followedBy tail) = .ok (.value (.uri ⟨u.id ++ texts tail⟩)) := by
  have decides : r.LongestKey (n.followedBy tail) n.length (.uri u) :=
    ⟨keyOf_iff_startsWith.mpr ⟨n.length_pos, key, starts.followedBy tail, bound⟩, longest⟩
  have shorter : n.length < (n.followedBy tail).length := by
    have some := List.length_pos_iff.mpr longer
    simp only [Name.length, Name.segments_followedBy, List.length_append]
    omega
  have behind : (n.followedBy tail).segments.drop n.length = tail := by
    rw [Name.segments_followedBy, Name.length, List.drop_left]
  have denotes := (Denotes.extended decides shorter).resolveBound
  rw [behind] at denotes
  rw [r.resolve_of_bound (.free (Name.hasSelf_followedBy starts.hasSelf free)), denotes]
  rfl

/-- From inside, the segments behind `self` are appended to the identity at hand. -/
theorem resolve_self (current : r.currentSelf = some u) (free : ∀ s ∈ tail, s ≠ .selfRef) :
    r.resolve ⟨.selfRef, tail⟩ = .ok (.value (.uri ⟨u.id ++ texts tail⟩)) := by
  have kept : tail.map (Segment.bindSelf u) = tail := by
    have each : ∀ s ∈ tail, s.bindSelf u = s := by
      intro s listed
      have other := free s listed
      cases s with
      | selfRef => exact absurd rfl other
      | _ => rfl
    rw [List.map_congr_left each, List.map_id']
  rw [resolve_selfRef current, kept]

end Resolver

/-! ## Expansions under the name of a target -/

/-- The expansion under the name of a target. -/
def Expansion.under (e : Expansion) (target : Name) : Expansion := { e with name := some target }

/-- What a name gives where a resource is wanted. -/
theorem Resolver.uriOf_of_resolve {r : Resolver} {n : Name} {v : Value} (context : String)
    (stands : r.resolve n = .ok (.value v)) :
    (r.uriOf n context).mapError .resolve = v.expectUri context := by
  cases v with
  | uri u => simp [uriOf, resolveUri, stands, Except.mapError, Value.expectUri]
  | literal l => simp [uriOf, resolveUri, stands, Except.mapError, Value.expectUri]

section Target

variable {scope : Scope} {target : Name} {key : String} {e : Expansion} {s t : SelfStack}

/-- A target that is bound gives its value to an expansion of its name, whatever is around. -/
theorem Expansion.run_identityOf_target (keyed : target.symbolKey = .ok key) {v : Value}
    (bound : scope.symbol? key = some v) (e : Expansion) (s : SelfStack) :
    (identityOf scope (e.under target)).run s = (v.expectUri "expansion name", s) := by
  have stands : (scope.resolver s.current?).resolve target = .ok (.value v) :=
    Resolver.resolve_of_whole (Name.startsWith_of_symbolKey keyed) bound
  show (((scope.resolver s.current?).uriOf target "expansion name").mapError Error.resolve, s) = _
  rw [Resolver.uriOf_of_resolve _ stands]

/-- So the identity of the expansion is what the target is bound to. -/
theorem Expansion.identity_of_target (keyed : target.symbolKey = .ok key) {v : Value}
    (bound : scope.symbol? key = some v) {out : Expanded}
    (worked : (evaluate scope (e.under target)).run s = (.ok out, t)) : v = .uri out.identity := by
  have settled := identityOf_of_evaluate worked
  rw [run_identityOf_target keyed bound] at settled
  cases v with
  | uri u =>
      cases settled
      rfl
  | literal l => cases settled

/-- And the target can be bound to that identity, whether it was bound or not. -/
theorem Scope.bindSymbol_target (keyed : target.symbolKey = .ok key) {out : Expanded}
    (worked : (Expansion.evaluate scope (e.under target)).run s = (.ok out, t)) :
    scope.bindSymbol key (.uri out.identity) = .ok (scope.putSymbol key (.uri out.identity)) := by
  unfold bindSymbol
  split
  · rename_i existing bound
    rw [if_pos (Expansion.identity_of_target keyed bound worked)]
    rfl
  · rfl

theorem Form.nameAfter_expansion (unnamed : e.name = none) (target : Name) :
    nameAfter target (.expansion e) = .expansion (e.under target) := by
  rw [nameAfter, unnamed, Option.none_or, Expansion.under]

/-- An assigned expansion is worked out under the name of the target, and then the target is bound. -/
theorem Form.run_assign_named (keyed : target.symbolKey = .ok key) (unnamed : e.name = none)
    (s : SelfStack) :
    (assign scope target (.expansion e)).run s =
      match (Expansion.evaluate scope (e.under target)).run s with
      | (.ok out, t) =>
        (.ok ⟨scope.putSymbol key (.uri out.identity), out.triples, some (.uri out.identity)⟩, t)
      | (.error cause, t) => (.error cause, t) := by
  have assigned : (assign scope target (.expansion e)).run s =
      (Expansion.evaluate scope (e.under target) >>= fun out =>
        Eval.ofExcept ((scope.bindSymbol key (.uri out.identity)).mapError .environment) >>=
          fun after => pure ⟨after, out.triples, some (.uri out.identity)⟩).run s := by
    unfold assign
    rw [keyed, nameAfter_expansion unnamed, run_bind, run_bind]
    show (Expansion.evaluate scope (e.under target) >>= _ >>= _).run s = _
    rw [bind_assoc, run_bind]
    rfl
  rw [assigned, run_bind]
  cases worked : (Expansion.evaluate scope (e.under target)).run s with
  | mk result t =>
      cases result with
      | ok out =>
          simp only [Scope.bindSymbol_target keyed worked]
          rfl
      | error cause => rfl

/-- A target that is bound to a constant refuses every expansion, once its items have been found. -/
theorem Expansion.run_evaluate_constant (keyed : target.symbolKey = .ok key) {l : Literal}
    (bound : scope.symbol? key = some (.literal l)) (e : Expansion) (s : SelfStack) :
    (evaluate scope (e.under target)).run s =
      match fullBody scope (scope.resolver s.current?) (e.under target) with
      | .ok _ => (.error (.resolve (.typeMismatch "expansion name" "resource" l.kind)), s)
      | .error cause => (.error cause, s) := by
  have refused : (identityOf scope (e.under target)).run s =
      (.error (.resolve (.typeMismatch "expansion name" "resource" l.kind)), s) :=
    run_identityOf_target keyed bound e s
  have looked : (Eval.resolver scope).run s = (.ok (scope.resolver s.current?), s) := rfl
  rw [evaluate_eq, run_bind]
  unfold prepare
  rw [run_bind, looked]
  simp only
  rw [run_bind, run_ofExcept]
  cases fullBody scope (scope.resolver s.current?) (e.under target) with
  | ok body =>
      simp only
      rw [run_bind, refused]
  | error cause => rfl

end Target

/-! ## Assignments -/

namespace Environment

/-- Put what an expansion gave into effect, and bind a key to its identity. -/
def boundTo (key : String) :
    Except Error Expanded × Environment → Except Error (Option Value) × Environment
  | (.ok out, after) =>
    (.ok (some (.uri out.identity)),
      { after with
        scope := after.scope.putSymbol key (.uri out.identity)
        graph := after.graph.insertAll out.triples })
  | (.error cause, after) => (.error cause, after)

/-- To assign an expansion without a name is to work it out under the name of the target and to bind
the target to its identity. -/
theorem evaluate_assignment_named (env : Environment) {target : Name} {key : String} {e : Expansion}
    (keyed : target.symbolKey = .ok key) (unnamed : e.name = none) (location : Location) :
    env.evaluate (.assignment target (.expansion e) location) =
      boundTo key (env.expand (e.under target)) := by
  have step : (Form.step env.scope (.assignment target (.expansion e) location)).run env.selves = _ :=
    Form.run_assign_named keyed unnamed env.selves
  show env.perform (.assignment target (.expansion e) location) = _
  unfold perform expand
  rw [step]
  cases (Expansion.evaluate env.scope (e.under target)).run env.selves with
  | mk result selves =>
      cases result with
      | ok out => rfl
      | error cause => rfl

theorem boundTo_eq_ok {env after : Environment} {key : String} {e : Expansion}
    {answer : Option Value} (done : boundTo key (env.expand e) = (.ok answer, after)) :
    ∃ out, (env.expand e).1 = .ok out ∧ answer = some (.uri out.identity) ∧
      after.scope = env.scope.putSymbol key (.uri out.identity) := by
  cases worked : env.expand e with
  | mk result next =>
      have scope : next.scope = env.scope := by
        have unchanged := congrArg (fun x => x.2.scope) worked
        exact unchanged.symm
      rw [worked] at done
      cases result with
      | ok out =>
          cases done
          exact ⟨out, rfl, rfl, by rw [scope]⟩
      | error cause => cases done

/-- **Inside and outside agree.** An expansion without a name that is assigned to a target succeeds under
some identity. The target stands for that identity from then on. A name that goes on behind the target,
no longer key being bound, stands outside for the same resource as the one that goes on behind `self`
inside: the identity followed by the texts of the other segments. The store is asked to be indexed, which
it is at every moment of an environment's life. -/
theorem assigned_name_meets_self {env after : Environment} (indexed : env.scope.bindings.Indexed)
    {target : Name} {e : Expansion} (unnamed : e.name = none) {location : Location}
    {answer : Option Value}
    (done : env.evaluate (.assignment target (.expansion e) location) = (.ok answer, after)) :
    ∃ out, (env.expand (e.under target)).1 = .ok out ∧ answer = some (.uri out.identity) ∧
      (∀ me, (after.scope.resolver me).resolve target = .ok (.value (.uri out.identity))) ∧
      ∀ tail, tail ≠ [] → (∀ s ∈ tail, s ≠ .selfRef) →
        (∀ j v, (after.scope.resolver none).KeyOf (target.followedBy tail) j v → j ≤ target.length) →
        (after.scope.resolver none).resolve (target.followedBy tail) =
            (after.scope.resolver (some out.identity)).resolve ⟨.selfRef, tail⟩ ∧
          (after.scope.resolver none).resolve (target.followedBy tail) =
            .ok (.value (.uri ⟨out.identity.id ++ texts tail⟩)) := by
  obtain ⟨key, _, keyed, _, _⟩ := evaluate_assignment_eq_ok done
  rw [env.evaluate_assignment_named keyed unnamed] at done
  obtain ⟨out, worked, rfl, put⟩ := boundTo_eq_ok done
  have starts := Name.startsWith_of_symbolKey keyed
  have held : symbolTable.get? after.scope.bindings key = some (.uri out.identity) := by
    rw [put]
    exact Context.get?_put_self indexed _ _ _
  refine ⟨out, worked, rfl, fun me => Resolver.resolve_of_whole starts held, ?_⟩
  intro tail longer free longest
  have outside : (after.scope.resolver none).resolve (target.followedBy tail) = _ :=
    Resolver.resolve_followedBy starts held longer free longest
  have inside : (after.scope.resolver (some out.identity)).resolve ⟨.selfRef, tail⟩ = _ :=
    Resolver.resolve_self rfl free
  exact ⟨outside.trans inside.symm, outside⟩

/-- A template without parameters, base and body is defined. -/
def plain : Environment :=
  Operation.apply { scope := { extensions := .builtin } }
    (.evaluate (.template ⟨.ofUri ⟨"t"⟩, [], none, [], {}⟩))

theorem plain_reachable : plain.Reachable := by
  have fresh : ofConfig {} = .ok { scope := { extensions := .builtin } } := rfl
  exact .operated (.created fresh) _

/-- It is expanded without a name. -/
def plainExpansion : Expansion := ⟨none, .name (.ofUri ⟨"t"⟩), [], [], {}⟩

/-- The name `a.b`. -/
def abName : Name := ⟨.symbol "a", [.symbol "b"]⟩

/-- The expansion is assigned to that name. -/
def assignPlain : Form := .assignment abName (.expansion plainExpansion) {}

/-- The name `a.b` was not bound; now `a.b.c<u>` is looked up outside, and `self.c<u>` inside. -/
theorem dotted_name_meets_self :
    (plain.evaluate assignPlain).1 = .ok (some (.uri ⟨"ab"⟩)) ∧
      ((plain.evaluate assignPlain).2.scope.resolver none).resolve
          (abName.followedBy [.symbol "c", .uri ⟨"u"⟩]) =
        .ok (.value (.uri ⟨"abcu"⟩)) ∧
      ((plain.evaluate assignPlain).2.scope.resolver (some ⟨"ab"⟩)).resolve
          ⟨.selfRef, [.symbol "c", .uri ⟨"u"⟩]⟩ =
        .ok (.value (.uri ⟨"abcu"⟩)) := by
  have answer : (plain.evaluate assignPlain).1 = .ok (some (.uri ⟨"ab"⟩)) := rfl
  have longest : ∀ j v, ((plain.evaluate assignPlain).2.scope.resolver none).KeyOf
      (abName.followedBy [.symbol "c", .uri ⟨"u"⟩]) j v → j ≤ abName.length := by
    intro j v key
    obtain ⟨_, inside, bound⟩ := Resolver.keyOf_iff.mp key
    have three : j ≤ 3 := inside
    by_contra beyond
    have last : j = 3 := by
      have two : abName.length = 2 := rfl
      omega
    subst last
    have free : ((plain.evaluate assignPlain).2.scope.resolver none).boundKey?
        (leadingSymbols (abName.followedBy [.symbol "c", .uri ⟨"u"⟩]).segments) 3 = none := by
      decide +kernel
    rw [free] at bound
    cases bound
  obtain ⟨out, _, answered, _, names⟩ :=
    assigned_name_meets_self plain_reachable.sound.bindings (e := plainExpansion) rfl
      (Prod.ext answer rfl)
  obtain ⟨meets, outside⟩ := names [.symbol "c", .uri ⟨"u"⟩] (by decide) (by decide) longest
  have identity : out.identity = ⟨"ab"⟩ := by simpa using answered.symm
  rw [identity] at meets outside
  exact ⟨answer, outside, meets.symm.trans outside⟩

/-! ## Targets that are bound already -/

/-- A target that is no symbol key is refused at once. -/
theorem evaluate_assignment_unkeyed (env : Environment) {target : Name} {why : ResolveError}
    (unkeyed : target.symbolKey = .error why) (e : Expr) (location : Location) :
    env.evaluate (.assignment target e location) = (.error (.resolve why), env) := by
  have step : (Form.step env.scope (.assignment target e location)).run env.selves =
      (.error (.resolve why), env.selves) := by
    show (Form.assign env.scope target e).run env.selves = _
    unfold Form.assign
    rw [unkeyed]
    rfl
  show env.perform (.assignment target e location) = _
  unfold perform
  rw [step]

/-- An assigned expansion that fails, fails for a name, a template or a validator. -/
theorem evaluate_assignment_not_foreign (env : Environment) (target : Name) {e : Expansion}
    (unnamed : e.name = none) (location : Location) :
    Avoids Error.Foreign (env.evaluate (.assignment target (.expansion e) location)).1 := by
  cases keyed : target.symbolKey with
  | error why =>
      rw [env.evaluate_assignment_unkeyed keyed]
      exact .error not_false
  | ok key =>
      have inside : Avoids Error.Foreign (env.expand (e.under target)).1 :=
        Expansion.avoids_foreign_evaluate env.scope (e.under target) env.selves
      rw [env.evaluate_assignment_named keyed unnamed]
      cases worked : env.expand (e.under target) with
      | mk result after =>
          rw [worked] at inside
          cases result with
          | ok out => exact .ok _
          | error cause => exact .error (inside cause rfl)

/-- **An assigned expansion fits its target.** Whatever the target is bound to, an expansion that takes
its name is never refused for a second binding. Where the target is bound to a resource, that resource
is the identity of the expansion, and the assignment succeeds if the expansion does. Where it is bound
to a constant, the form changes nothing and fails: for what comes first, the template, its arguments,
its bases or a name in these; else because the constant is no resource. -/
theorem assigned_expansion_fits (env : Environment) (target : Name) {e : Expansion}
    (unnamed : e.name = none) (location : Location) :
    (∀ kind key existing attempted,
        (env.evaluate (.assignment target (.expansion e) location)).1 ≠
          .error (.environment (.duplicateBinding kind key existing attempted))) ∧
      (∀ key u, target.symbolKey = .ok key → env.scope.symbol? key = some (.uri u) →
        (Expansion.identityOf env.scope (e.under target)).run env.selves = (.ok u, env.selves) ∧
          ∀ out, (env.expand (e.under target)).1 = .ok out →
            out.identity = u ∧
              (env.evaluate (.assignment target (.expansion e) location)).1 = .ok (some (.uri u))) ∧
      ∀ key l, target.symbolKey = .ok key → env.scope.symbol? key = some (.literal l) →
        ∃ cause, env.evaluate (.assignment target (.expansion e) location) = (.error cause, env) ∧
          ((∃ body, Expansion.fullBody env.scope env.resolver (e.under target) = .ok body) ∧
              cause = .resolve (.typeMismatch "expansion name" "resource" l.kind) ∨
            Expansion.fullBody env.scope env.resolver (e.under target) = .error cause ∧
              cause.Unprepared) := by
  refine ⟨?_, ?_, ?_⟩
  · intro kind key existing attempted clash
    exact env.evaluate_assignment_not_foreign target unnamed location _ clash trivial
  · intro key u keyed bound
    refine ⟨Expansion.run_identityOf_target keyed bound e env.selves, ?_⟩
    intro out worked
    have evaluated : (Expansion.evaluate env.scope (e.under target)).run env.selves =
        (.ok out, (env.expand (e.under target)).2.selves) := Prod.ext worked rfl
    have identity : u = out.identity := by
      simpa using Expansion.identity_of_target keyed bound evaluated
    subst identity
    refine ⟨rfl, ?_⟩
    rw [env.evaluate_assignment_named keyed unnamed]
    cases ended : env.expand (e.under target) with
    | mk result after =>
        rw [ended] at worked
        cases worked
        rfl
  · intro key l keyed bound
    have ended : (Expansion.evaluate env.scope (e.under target)).run env.selves = _ :=
      Expansion.run_evaluate_constant keyed bound e env.selves
    rw [env.evaluate_assignment_named keyed unnamed]
    unfold expand
    rw [ended]
    cases found : Expansion.fullBody env.scope (env.scope.resolver env.selves.current?)
        (e.under target) with
    | ok body => exact ⟨_, rfl, Or.inl ⟨⟨body, found⟩, rfl⟩⟩
    | error cause =>
        refine ⟨cause, rfl, Or.inr ⟨found, ?_⟩⟩
        by_contra other
        exact Expansion.fullBody_unprepared env.scope _ (e.under target) cause found other

/-- In the environment with the template, the symbol `b` is bound to a resource and `c` to a constant. -/
def taken : Environment :=
  [.evaluate (.assignment (.ofSymbol "b") (.name (.ofUri ⟨"x"⟩)) {}),
    .evaluate (.assignment (.ofSymbol "c") (.literal (.boolean true)) {})].foldl Operation.apply plain

/-- The expansion is assigned to `b`, whose resource it takes, and to `c`, which refuses it. -/
theorem bound_target_takes_resource_refuses_constant :
    plainExpansion.name = none ∧
      (taken.evaluate (.assignment (.ofSymbol "b") (.expansion plainExpansion) {})).1 =
        .ok (some (.uri ⟨"x"⟩)) ∧
      taken.evaluate (.assignment (.ofSymbol "c") (.expansion plainExpansion) {}) =
        (.error (.resolve (.typeMismatch "expansion name" "resource" "boolean")), taken) := by
  have unnamed : plainExpansion.name = none := rfl
  obtain ⟨_, resource, _⟩ := assigned_expansion_fits taken (.ofSymbol "b") unnamed {}
  obtain ⟨_, _, constant⟩ := assigned_expansion_fits taken (.ofSymbol "c") unnamed {}
  have worked : (taken.expand (plainExpansion.under (.ofSymbol "b"))).1 = .ok ⟨⟨"x"⟩, []⟩ := rfl
  obtain ⟨_, binds⟩ := resource "b" ⟨"x"⟩ rfl (by decide +kernel)
  refine ⟨unnamed, (binds _ worked).2, ?_⟩
  obtain ⟨cause, failed, ⟨_, rfl⟩ | ⟨unfound, _⟩⟩ :=
    constant "c" (.boolean true) rfl (by decide +kernel)
  · exact failed
  · cases unfound

end Environment

end Stencil
