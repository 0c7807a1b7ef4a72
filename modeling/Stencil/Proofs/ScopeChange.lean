/- # Proofs.ScopeChange -- all that can happen to a scope

A scope is changed in seven ways only, each guarded by its own check: a symbol is bound, a template
is registered, a prefix is bound, the default prefix is chosen, a validator or another name for one
is registered, or nothing happens (`Scope.Change`). `Form.step_change` says that a form does one of
these, and `Operation.apply_changes` that an operation does several of them in a row, a whole run
with its imports included. A fresh environment comes from an empty scope in the same way
(`ofConfig_changes`). So what every change keeps, every run keeps, and it is shown for the seven
changes alone.
-/
import Mathlib.Logic.Relation
import Stencil.Proofs.Minting
import Stencil.Proofs.Run
import Stencil.Proofs.StoreRefinement

namespace Stencil
set_option autoImplicit false

namespace Scope

/-- One change of a scope, after the check that admits it. -/
inductive Change (scope : Scope) : Scope → Prop
  | nothing : Change scope scope
  | symbol {key : String} {v : Value} {after : Scope} (bound : scope.bindSymbol key v = .ok after) :
      Change scope after
  | template {id : Uri} {t : Template} {templates : TemplateTable}
      (registered : scope.templates.register id t.parameterise = .ok templates) :
      Change scope { scope with templates }
  | namespacePrefix {symbol : String} {ns : Uri} {after : Scope}
      (bound : scope.bindPrefix symbol ns = .ok after) : Change scope after
  | defaultPrefix {symbol : String} {after : Scope}
      (chosen : scope.setDefaultPrefix symbol = .ok after) : Change scope after
  | validator {name : String} {factory : Factory} {extensions : Registry}
      (registered : scope.extensions.register name factory = .ok extensions) :
      Change scope { scope with extensions }
  | validatorAlias {other target : String} {extensions : Registry}
      (registered : scope.extensions.registerAlias other target = .ok extensions) :
      Change scope { scope with extensions }

/-- Changes one after another. -/
abbrev Changes : Scope → Scope → Prop := Relation.ReflTransGen Change

theorem Change.changes {scope after : Scope} (change : scope.Change after) : scope.Changes after :=
  .single change

theorem define_change {scope : Scope} {me : Option Uri} {t : Template} {id : Uri} {after : Scope}
    (defined : scope.define me t = .ok (id, after)) : scope.Change after := by
  unfold define at defined
  obtain ⟨found, _, rest⟩ := bind_eq_ok defined
  obtain ⟨templates, registered, rest⟩ := bind_eq_ok rest
  cases rest
  exact .template (eq_ok_of_mapError registered)

end Scope

open Eval

/-- An assignment that can be worked out binds the key of its target to its value. -/
theorem Form.assign_eq_ok {scope : Scope} {target : Name} {e : Expr} {s t : SelfStack} {step : Step}
    (done : (assign scope target e).run s = (.ok step, t)) :
    ∃ key v, target.symbolKey = .ok key ∧ scope.bindSymbol key v = .ok step.scope ∧
      step.value = some v := by
  unfold assign at done
  obtain ⟨key, s₁, keyed, done⟩ := run_bind_eq_ok done
  obtain ⟨⟨v, triples⟩, s₂, _, done⟩ := run_bind_eq_ok done
  obtain ⟨after, s₃, bound, done⟩ := run_bind_eq_ok done
  cases done
  rw [run_ofExcept, Prod.mk.injEq] at keyed bound
  exact ⟨key, v, eq_ok_of_mapError keyed.1, eq_ok_of_mapError bound.1, rfl⟩

theorem Form.state_scope {scope : Scope} {subject predicate object : Expr} {s t : SelfStack}
    {step : Step} (done : (state scope subject predicate object).run s = (.ok step, t)) :
    step.scope = scope := by
  unfold state at done
  obtain ⟨_, s₁, _, done⟩ := run_bind_eq_ok done
  obtain ⟨_, s₂, _, done⟩ := run_bind_eq_ok done
  obtain ⟨_, s₃, _, done⟩ := run_bind_eq_ok done
  obtain ⟨_, s₄, _, done⟩ := run_bind_eq_ok done
  obtain ⟨_, s₅, _, done⟩ := run_bind_eq_ok done
  cases done
  rfl

/-- A form that can be worked out makes one change. -/
theorem Form.step_change {form : Form} {scope : Scope} {s t : SelfStack} {step : Step}
    (done : (form.step scope).run s = (.ok step, t)) : scope.Change step.scope := by
  cases form with
  | assignment name e location =>
      obtain ⟨key, v, _, bound, _⟩ := assign_eq_ok done
      exact .symbol bound
  | template template =>
      obtain ⟨me, s₁, _, done⟩ := run_bind_eq_ok done
      obtain ⟨⟨id, after⟩, s₂, defined, done⟩ := run_bind_eq_ok done
      cases done
      rw [run_ofExcept, Prod.mk.injEq] at defined
      exact Scope.define_change defined.1
  | expansion e =>
      obtain ⟨out, s₁, _, done⟩ := run_bind_eq_ok done
      cases done
      exact .nothing
  | triple subject predicate object location =>
      rw [state_scope done]
      exact .nothing
  | bindPrefix symbol ns location =>
      obtain ⟨after, s₁, bound, done⟩ := run_bind_eq_ok done
      cases done
      rw [run_ofExcept, Prod.mk.injEq] at bound
      exact .namespacePrefix (eq_ok_of_mapError bound.1)
  | defaultPrefix symbol location =>
      obtain ⟨after, s₁, chosen, done⟩ := run_bind_eq_ok done
      cases done
      rw [run_ofExcept, Prod.mk.injEq] at chosen
      exact .defaultPrefix (eq_ok_of_mapError chosen.1)
  | imports path location =>
      cases done
      exact .nothing

namespace Environment

/-- Performing a form makes one change of the scope; a form that fails makes none. -/
theorem perform_change (env : Environment) (form : Form) :
    env.scope.Change (env.perform form).2.scope := by
  unfold perform
  split
  · exact .nothing
  · rename_i step selves done
    exact Form.step_change done

theorem respected_changes :
    Respected fun env after => env.scope.Changes after.scope where
  refl _ := .refl
  trans first second := first.trans second
  perform env form := (env.perform_change form).changes
  record _ _ _ _ := .refl
  through _ _ _ inside := inside

/-- What an operation does besides running forms: one change of the scope, triples added to the
graph, and a new choice of modules and of failures. -/
def Adjusts (env after : Environment) : Prop :=
  ∃ scope ts modules failures, env.scope.Change scope ∧
    after = { env with scope, graph := env.graph.insertAll ts, modules, failures }

theorem Adjusts.refl (env : Environment) : env.Adjusts env :=
  ⟨env.scope, [], env.modules, env.failures, .nothing, rfl⟩

theorem Adjusts.ofScope {env : Environment} {scope : Scope} (change : env.scope.Change scope) :
    env.Adjusts { env with scope } :=
  ⟨scope, [], env.modules, env.failures, change, rfl⟩

theorem Adjusts.unlessRefused {env : Environment} {x : Except Error Environment}
    (admitted : ∀ after, x = .ok after → env.Adjusts after) :
    env.Adjusts (env.unlessRefused x) := by
  cases x with
  | ok after => exact admitted after rfl
  | error e => exact .refl env

/-- An operation runs a program, runs a form, or adjusts the environment. -/
theorem Operation.apply_cases (env : Environment) (op : Operation) :
    (∃ forms, op.apply env = (env.interpret forms).2) ∨
      (∃ form, op.apply env = (env.evaluate form).2) ∨ env.Adjusts (op.apply env) := by
  cases op with
  | interpret forms => exact Or.inl ⟨forms, rfl⟩
  | evaluate form => exact Or.inr (Or.inl ⟨form, rfl⟩)
  | bindPrefix symbol ns =>
      refine Or.inr (Or.inr (.unlessRefused fun after done => ?_))
      unfold Environment.bindPrefix at done
      split at done <;> cases done
      exact .ofScope (.namespacePrefix ‹_›)
  | setDefaultPrefix symbol =>
      refine Or.inr (Or.inr (.unlessRefused fun after done => ?_))
      unfold Environment.setDefaultPrefix at done
      split at done <;> cases done
      exact .ofScope (.defaultPrefix ‹_›)
  | addTriples ts =>
      refine Or.inr (Or.inr ⟨env.scope, ts, env.modules, env.failures, .nothing, ?_⟩)
      rw [apply, Environment.addTriples, Store.extend_eq]
  | registerExtension name factory =>
      refine Or.inr (Or.inr (.unlessRefused fun after done => ?_))
      unfold Environment.registerExtension at done
      split at done <;> cases done
      exact .ofScope (.validator ‹_›)
  | registerAlias other target =>
      refine Or.inr (Or.inr (.unlessRefused fun after done => ?_))
      unfold Environment.registerAlias at done
      split at done <;> cases done
      exact .ofScope (.validatorAlias ‹_›)
  | setModules modules =>
      exact Or.inr (Or.inr ⟨env.scope, [], some modules, env.failures, .nothing, rfl⟩)
  | takeFailures => exact Or.inr (Or.inr ⟨env.scope, [], env.modules, [], .nothing, rfl⟩)

/-- An operation changes the scope step by step. -/
theorem Operation.apply_changes (env : Environment) (op : Operation) :
    env.scope.Changes (op.apply env).scope := by
  rcases op.apply_cases env with ⟨forms, same⟩ | ⟨form, same⟩ | ⟨scope, _, _, _, change, same⟩
  · rw [same]
    exact respected_changes.interpret env forms
  · rw [same]
    exact respected_changes.evaluate env form
  · rw [same]
    exact change.changes

theorem foldlM_bindPrefix_changes {prefixes : List (String × Uri)} {scope after : Scope}
    (folded :
      prefixes.foldlM (fun (scope : Scope) (symbol, ns) =>
        (scope.bindPrefix symbol ns).mapError Error.environment) scope = .ok after) :
    scope.Changes after := by
  induction prefixes generalizing scope with
  | nil =>
      cases folded
      exact .refl
  | cons entry prefixes ih =>
      rw [List.foldlM_cons] at folded
      obtain ⟨next, bound, rest⟩ := bind_eq_ok folded
      exact .head (.namespacePrefix (eq_ok_of_mapError bound)) (ih rest)

/-- A fresh environment has nothing but a scope, which comes from one without bindings, templates
and default prefix, with the bundled validators or none. -/
theorem ofConfig_changes {config : Config} {env : Environment} (fresh : ofConfig config = .ok env) :
    env = { scope := env.scope } ∧
      ∃ extensions, (extensions = Registry.builtin ∨ extensions = Registry.empty) ∧
        Scope.Changes { config, extensions } env.scope := by
  unfold ofConfig at fresh
  obtain ⟨_, _, fresh⟩ := bind_eq_ok fresh
  obtain ⟨bound, folded, fresh⟩ := bind_eq_ok fresh
  have prefixes := foldlM_bindPrefix_changes folded
  have offered : ∀ choice : Bool,
      (if choice then Registry.builtin else Registry.empty) = Registry.builtin ∨
        (if choice then Registry.builtin else Registry.empty) = Registry.empty := by
    intro choice
    cases choice with
    | true => exact Or.inl rfl
    | false => exact Or.inr rfl
  cases chosen : config.defaultPrefix with
  | none =>
      rw [chosen] at fresh
      cases fresh
      exact ⟨rfl, _, offered _, prefixes⟩
  | some symbol =>
      rw [chosen] at fresh
      obtain ⟨scope, set, fresh⟩ := bind_eq_ok fresh
      cases fresh
      exact ⟨rfl, _, offered _, prefixes.tail (.defaultPrefix (eq_ok_of_mapError set))⟩

end Environment

end Stencil
