/- # Proofs.NeverUnbound -- well-scoped programs never lose a parameter

What holds no parameter reference cannot fail for one: not while its body is put together, where the
references of every template and base are replaced (`avoids_prepare`), and not while the body is
worked out, where the expansions inside hold none either (`avoids_evaluateAt`, by induction on the
depth that is left).

Along a run of well-scoped forms every template that is registered is scoped, every program that is
opened is well-scoped, and every failure that is recorded is another one (`Moment.Scoped`, kept by
each step). So it is for every form, imported ones included (`never_unbound`).
-/
import Stencil.Proofs.Avoidance
import Stencil.Proofs.WellScoped

namespace Stencil
set_option autoImplicit false

/-- A parameter had no argument. -/
def Error.Unbound : Error → Prop
  | .template (.unboundParameter _) => True
  | _ => False

open Error

/-! ## Putting a body together -/

/-- No base is refused for a parameter. -/
theorem Error.Unbound.not_ofChain {e : Error} (unbound : e.Unbound) : ¬ e.OfChain := by
  intro ofChain
  cases e with
  | template why =>
      cases why with
      | unboundParameter p => exact ofChain
      | _ => exact unbound
  | _ => exact unbound

namespace Expansion

open Eval

theorem avoids_templateOf {scope : Scope} {r : Resolver} {reference : Expr}
    (closed : Closed reference.params reference.expansions) :
    Avoids Unbound (templateOf scope r reference) := by
  have named : Avoids Unbound (templateName reference) := by
    cases reference with
    | literal l => exact .error not_false
    | name n => exact .ok n
    | param p => exact (closed.params p (by simp [Expr.params])).elim
    | expansion e => exact .error not_false
  unfold templateOf
  refine named.bind fun name _ => ?_
  refine (Avoids.mapError (fun _ => not_false) _).bind fun id _ => ?_
  split
  · exact .ok _
  · exact .error not_false

theorem avoids_fullBody {scope : Scope} {r : Resolver} {e : Expansion}
    (closed : Closed e.params e.expansions) : Avoids Unbound (fullBody scope r e) := by
  obtain ⟨name, reference, arguments, own, location⟩ := e
  obtain ⟨_, inReference, _, _⟩ := confined_expansion.mp closed
  unfold fullBody
  refine (avoids_templateOf inReference).bind fun (id, t) _ => ?_
  have ofChain : ∀ e : Error, e.Unbound → ¬ e.OfChain := fun _ => Unbound.not_ofChain
  refine ((checkArity_ofChain t id arguments).mono ofChain).bind fun _ _ => ?_
  exact (((lineageAt_ofChain _ _ _).mono ofChain).map _).bind fun merged _ => .ok _

theorem avoids_identityOf (scope : Scope) (e : Expansion) :
    Eval.Avoids Unbound (identityOf scope e) := by
  unfold identityOf
  cases e.name with
  | some name =>
      exact (Eval.Avoids.resolver scope).bind fun r _ _ _ =>
        .ofExcept (.mapError (fun _ => not_false) _)
  | none => exact fun s => .ok _

theorem avoids_prepare {scope : Scope} {e : Expansion} (closed : Closed e.params e.expansions) :
    Eval.Avoids Unbound (prepare scope e) := by
  unfold prepare
  refine (Eval.Avoids.resolver scope).bind fun r _ _ _ => ?_
  refine (Eval.Avoids.ofExcept (avoids_fullBody closed)).bind fun body _ _ _ => ?_
  exact (avoids_identityOf scope e).bind fun me _ _ _ => .pure _

/-- The items of an expansion that has been prepared are without references. -/
theorem prepare_closed {scope : Scope} (registered : scope.templates.Scoped) {e : Expansion}
    (closed : Closed e.params e.expansions) {s t : SelfStack} {me : Uri} {body : List Item}
    (prepared : (prepare scope e).run s = (.ok (me, body), t)) :
    Closed (itemParams body) (itemExpansions body) :=
  fullBody_closed registered closed (prepare_eq_ok prepared).1

/-! ## Working it out -/

section Body

variable {scope : Scope} {inner : Expansion → Eval Expanded}

/-- The evaluation of the expansions inside avoids the error for those without references. -/
abbrev InnerAvoids (inner : Expansion → Eval Expanded) : Prop :=
  ∀ e : Expansion, Closed e.params e.expansions → Eval.Avoids Unbound (inner e)

theorem avoids_value (inside : InnerAvoids inner) {e : Expr}
    (closed : Closed e.params e.expansions) : Eval.Avoids Unbound (value scope inner e) := by
  cases e with
  | literal l => exact .pure _
  | name n =>
      unfold value
      refine (Eval.Avoids.resolver scope).bind fun r _ _ _ => ?_
      exact (Eval.Avoids.ofExcept (.mapError (fun _ => not_false) _)).bind fun v _ _ _ => .pure _
  | param p => exact (closed.params p (by simp [Expr.params])).elim
  | expansion e =>
      simp only [Expr.params, Expr.expansions] at closed
      unfold value
      exact (inside e closed).bind fun out _ _ _ => .pure _

theorem avoids_property (inside : InnerAvoids inner) (me : Uri) {p : Property}
    (closed : Closed p.params p.expansions) :
    Eval.Avoids Unbound (property scope inner me p) := by
  obtain ⟨name, value, location⟩ := p
  simp only [Property.params, Property.expansions, confined_append] at closed
  unfold property
  refine (avoids_value inside closed.1).bind fun found _ _ _ => ?_
  obtain ⟨name, before⟩ := found
  cases name with
  | literal l => exact .throw not_false
  | uri predicate =>
      refine (avoids_value inside closed.2).bind fun found _ _ _ => ?_
      obtain ⟨object, after⟩ := found
      exact .pure _

mutual

theorem avoids_call (inside : InnerAvoids inner) :
    ∀ x : Extension, Closed x.params x.expansions → Eval.Avoids Unbound (call scope inner x)
  | ⟨validator, arguments, location⟩, closed => by
      simp only [Extension.params, Extension.expansions] at closed
      unfold call
      exact (avoids_callArgs inside arguments closed).bind fun (arguments, triples) _ _ _ => .pure _

theorem avoids_callArgs (inside : InnerAvoids inner) :
    ∀ as : List ExtensionArg, Closed (extensionArgParams as) (extensionArgExpansions as) →
      Eval.Avoids Unbound (callArgs scope inner as)
  | [], _ => by
      unfold callArgs
      exact .pure _
  | a :: as, closed => by
      simp only [extensionArgParams, extensionArgExpansions, confined_append] at closed
      unfold callArgs
      refine (avoids_callArg inside a closed.1).bind fun (a, before) _ _ _ => ?_
      exact (avoids_callArgs inside as closed.2).bind fun (as, after) _ _ _ => .pure _

theorem avoids_callArg (inside : InnerAvoids inner) :
    ∀ a : ExtensionArg, Closed a.params a.expansions → Eval.Avoids Unbound (callArg scope inner a)
  | .expr e, closed => by
      simp only [ExtensionArg.params, ExtensionArg.expansions] at closed
      unfold callArg
      exact (avoids_value inside closed).bind fun (v, triples) _ _ _ => .pure _
  | .extension x, closed => by
      simp only [ExtensionArg.params, ExtensionArg.expansions] at closed
      unfold callArg
      exact (avoids_call inside x closed).bind fun (c, triples) _ _ _ => .pure _

end

theorem avoids_item (inside : InnerAvoids inner) (me : Uri) {i : Item}
    (closed : Closed i.params i.expansions) : Eval.Avoids Unbound (item scope inner me i) := by
  cases i with
  | property p =>
      simp only [Item.params, Item.expansions] at closed
      exact (avoids_property inside me closed).bind fun triples _ _ _ => .pure _
  | expansion e =>
      simp only [Item.params, Item.expansions] at closed
      exact (inside e closed).bind fun out _ _ _ => .pure _
  | extension x =>
      simp only [Item.params, Item.expansions] at closed
      exact (avoids_call inside x closed).bind fun (c, triples) _ _ _ => .pure _

theorem avoids_items (inside : InnerAvoids inner) (me : Uri) {is : List Item}
    (closed : Closed (itemParams is) (itemExpansions is)) :
    Eval.Avoids Unbound (items scope inner me is) := by
  induction is with
  | nil => exact .pure _
  | cons i is ih =>
      simp only [itemParams, itemExpansions, confined_append] at closed
      unfold items
      refine (avoids_item inside me closed.1).bind fun first _ _ _ => ?_
      exact (ih closed.2).bind fun rest _ _ _ => .pure _

end Body

/-- An expansion without references never meets one, whatever depth is left. -/
theorem avoids_evaluateAt {scope : Scope} (registered : scope.templates.Scoped) (depth : Nat)
    {e : Expansion} (closed : Closed e.params e.expansions) :
    Eval.Avoids Unbound (evaluateAt scope depth e) := by
  induction depth generalizing e with
  | zero =>
      unfold evaluateAt
      exact (avoids_prepare closed).bind fun prepared _ _ _ => .throw not_false
  | succ depth ih =>
      unfold evaluateAt
      refine (avoids_prepare closed).bind fun start s t prepared => ?_
      obtain ⟨me, body⟩ := start
      refine Eval.Avoids.within ?_ me
      -- the items are no parts of the expansion, but what it was prepared to, which is closed too
      have inBody := prepare_closed registered closed prepared
      refine (avoids_items (fun e closed => ih closed) me inBody).bind fun out _ _ _ => ?_
      refine (Eval.Avoids.ofExcept (.mapError (fun _ => not_false) _)).bind fun triples _ _ _ => ?_
      exact .pure _

theorem avoids_evaluate {scope : Scope} (registered : scope.templates.Scoped) {e : Expansion}
    (closed : Closed e.params e.expansions) : Eval.Avoids Unbound (evaluate scope e) :=
  fun s => avoids_evaluateAt registered (scope.limit - s.depth) closed s

end Expansion

/-! ## Forms -/

theorem Scope.bindPrefix_templates {scope after : Scope} {symbol : String} {ns : Uri}
    (bound : scope.bindPrefix symbol ns = .ok after) : after.templates = scope.templates := by
  rcases bindPrefix_eq_ok bound with rfl | ⟨_, rfl⟩
  · rfl
  · rfl

theorem Scope.setDefaultPrefix_templates {scope after : Scope} {symbol : String}
    (chosen : scope.setDefaultPrefix symbol = .ok after) : after.templates = scope.templates := by
  obtain ⟨ns, rfl⟩ := setDefaultPrefix_eq_ok chosen
  rfl

namespace Form

open Eval

variable {scope : Scope}

theorem avoids_value (registered : scope.templates.Scoped) {e : Expr}
    (closed : Closed e.params e.expansions) : Eval.Avoids Unbound (value scope e) :=
  Expansion.avoids_value (fun _ => Expansion.avoids_evaluate registered) closed

/-- Giving an expansion a name puts nothing into it. -/
theorem closed_nameAfter (target : Name) {e : Expr} (closed : Closed e.params e.expansions) :
    Closed (nameAfter target e).params (nameAfter target e).expansions := by
  cases e with
  | literal l => exact closed
  | name n => exact closed
  | param p => exact closed
  | expansion e =>
      obtain ⟨name, reference, arguments, body, location⟩ := e
      simp only [nameAfter, Expr.params, Expr.expansions] at closed ⊢
      obtain ⟨ordered, parts⟩ := confined_expansion.mp closed
      exact confined_expansion.mpr ⟨ordered, parts⟩

theorem avoids_assign (registered : scope.templates.Scoped) (name : Name) {e : Expr}
    (closed : Closed e.params e.expansions) : Eval.Avoids Unbound (assign scope name e) := by
  unfold assign
  refine (Eval.Avoids.ofExcept (.mapError (fun _ => not_false) _)).bind fun key _ _ _ => ?_
  refine (avoids_value registered (closed_nameAfter name closed)).bind
    fun (v, triples) _ _ _ => ?_
  refine (Eval.Avoids.ofExcept (.mapError (fun _ => not_false) _)).bind fun after _ _ _ => ?_
  exact .pure _

theorem avoids_expectUri (context : String) (v : Value) :
    Avoids Unbound (v.expectUri context) := by
  cases v with
  | uri u => exact .ok u
  | literal l => exact .error not_false

theorem avoids_state (registered : scope.templates.Scoped) {subject predicate object : Expr}
    (first : Closed subject.params subject.expansions)
    (second : Closed predicate.params predicate.expansions)
    (third : Closed object.params object.expansions) :
    Eval.Avoids Unbound (state scope subject predicate object) := by
  unfold state
  refine (avoids_value registered first).bind fun (s, before) _ _ _ => ?_
  refine (Eval.Avoids.ofExcept (avoids_expectUri _ s)).bind fun s _ _ _ => ?_
  refine (avoids_value registered second).bind fun (p, between) _ _ _ => ?_
  refine (Eval.Avoids.ofExcept (avoids_expectUri _ p)).bind fun p _ _ _ => ?_
  exact (avoids_value registered third).bind fun (o, after) _ _ _ => .pure _

theorem avoids_define (me : Option Uri) (t : Template) :
    Avoids Unbound (scope.define me t) := by
  unfold Scope.define
  refine (Avoids.mapError (fun _ => not_false) _).bind fun id _ => ?_
  refine Avoids.bind ?_ fun templates _ => .ok _
  unfold TemplateTable.register
  split
  · exact .error not_false
  · exact .ok _

/-- A well-scoped form never meets a parameter without an argument. -/
theorem avoids_step (registered : scope.templates.Scoped) {form : Form}
    (written : form.WellScoped) : Eval.Avoids Unbound (form.step scope) := by
  cases form with
  | assignment name e location => exact avoids_assign registered name written
  | template t =>
      refine Eval.Avoids.currentSelf.bind fun me _ _ _ => ?_
      exact (Eval.Avoids.ofExcept (avoids_define me t)).bind fun (id, after) _ _ _ => .pure _
  | expansion e =>
      exact (Expansion.avoids_evaluate registered written).bind fun out _ _ _ => .pure _
  | triple subject predicate object location =>
      exact avoids_state registered written.1 written.2.1 written.2.2
  | bindPrefix symbol ns location =>
      refine (Eval.Avoids.ofExcept (.mapError (fun _ => not_false) _)).bind fun after _ _ _ => ?_
      exact .pure _
  | defaultPrefix symbol location =>
      refine (Eval.Avoids.ofExcept (.mapError (fun _ => not_false) _)).bind fun after _ _ _ => ?_
      exact .pure _
  | imports path location => exact .pure _

/-- A form leaves the templates alone, or it is a template and is registered. -/
theorem step_templates {form : Form} {s t : SelfStack} {step : Step}
    (done : (form.step scope).run s = (.ok step, t)) :
    step.scope.templates = scope.templates ∨
      ∃ template id, form = .template template ∧
        scope.templates.register id template.parameterise = .ok step.scope.templates := by
  cases form with
  | assignment name e location =>
      refine Or.inl ?_
      change (assign scope name e).run s = (.ok step, t) at done
      unfold assign at done
      obtain ⟨key, s₁, _, done⟩ := run_bind_eq_ok done
      obtain ⟨⟨v, triples⟩, s₂, _, done⟩ := run_bind_eq_ok done
      obtain ⟨after, s₃, bound, done⟩ := run_bind_eq_ok done
      cases done
      rw [run_ofExcept, Prod.mk.injEq] at bound
      rw [(Scope.bindSymbol_eq_ok (eq_ok_of_mapError bound.1)).2]
  | template template =>
      refine Or.inr ?_
      obtain ⟨me, s₁, _, done⟩ := run_bind_eq_ok done
      obtain ⟨⟨id, after⟩, s₂, defined, done⟩ := run_bind_eq_ok done
      cases done
      rw [run_ofExcept, Prod.mk.injEq] at defined
      have defined := defined.1
      unfold Scope.define at defined
      obtain ⟨found, _, defined⟩ := bind_eq_ok defined
      obtain ⟨templates, registered, defined⟩ := bind_eq_ok defined
      cases defined
      exact ⟨template, id, rfl, eq_ok_of_mapError registered⟩
  | expansion e =>
      obtain ⟨out, s₁, _, done⟩ := run_bind_eq_ok done
      cases done
      exact Or.inl rfl
  | triple subject predicate object location =>
      rw [state_scope done]
      exact Or.inl rfl
  | bindPrefix symbol ns location =>
      obtain ⟨after, s₁, bound, done⟩ := run_bind_eq_ok done
      cases done
      rw [run_ofExcept, Prod.mk.injEq] at bound
      exact Or.inl (Scope.bindPrefix_templates (eq_ok_of_mapError bound.1))
  | defaultPrefix symbol location =>
      obtain ⟨after, s₁, chosen, done⟩ := run_bind_eq_ok done
      cases done
      rw [run_ofExcept, Prod.mk.injEq] at chosen
      exact Or.inl (Scope.setDefaultPrefix_templates (eq_ok_of_mapError chosen.1))
  | imports path location =>
      cases done
      exact Or.inl rfl

end Form

/-! ## Runs -/

namespace Environment

/-- The templates of an environment are scoped, the programs that it can import are well-scoped, and
no failure of it is for a parameter without an argument. -/
structure Scoped (env : Environment) : Prop where
  templates : env.scope.templates.Scoped
  modules : ∀ modules, env.modules = some modules →
    ∀ program ∈ modules.programs, ∀ form ∈ program.2, form.WellScoped
  failures : ∀ failure ∈ env.failures, ¬ failure.error.Unbound

/-- All that the condition looks at. -/
theorem Scoped.congr {env after : Environment} (sound : env.Scoped)
    (templates : after.scope.templates = env.scope.templates)
    (modules : after.modules = env.modules) (failures : after.failures = env.failures) :
    after.Scoped where
  templates := templates ▸ sound.templates
  modules := modules ▸ sound.modules
  failures := failures ▸ sound.failures

theorem Scoped.record {env : Environment} (sound : env.Scoped) (index : Nat) (form : Form)
    {e : Error} (other : ¬ e.Unbound) : (env.record index form e).Scoped where
  templates := sound.templates
  modules := sound.modules
  failures := List.forall_mem_append.mpr ⟨sound.failures, List.forall_mem_singleton.mpr other⟩

theorem Scoped.perform {env : Environment} (sound : env.Scoped) {form : Form}
    (written : form.WellScoped) : (env.perform form).2.Scoped := by
  unfold Environment.perform
  split
  · exact sound.congr rfl rfl rfl
  · rename_i step selves done
    rcases Form.step_templates done with same | ⟨t, id, rfl, registered⟩
    · exact sound.congr same rfl rfl
    · refine ⟨?_, sound.modules, sound.failures⟩
      intro other u found
      rcases TemplateTable.get?_of_register registered found with old | rfl
      · exact sound.templates other u old
      · exact Template.Scoped.parameterise written

theorem Scoped.perform_error {env after : Environment} (sound : env.Scoped) {form : Form}
    (written : form.WellScoped) {e : Error} (failed : env.perform form = (.error e, after)) :
    ¬ e.Unbound := by
  have avoids := Form.avoids_step sound.templates written env.selves
  unfold Environment.perform at failed
  split at failed
  · rename_i selves cause
    cases failed
    exact avoids e (by rw [cause])
  · cases failed

end Environment

namespace Moment

open Environment

/-- The environment is scoped, and the forms to come are well-scoped. -/
structure Scoped (m : Moment) : Prop where
  env : m.env.Scoped
  program : ∀ form ∈ m.program.forms, form.WellScoped
  around : ∀ outer ∈ m.around, ∀ form ∈ outer.forms, form.WellScoped

theorem Next.scoped {m n : Moment} (next : m.Next n) (sound : m.Scoped) : n.Scoped := by
  obtain ⟨env, program, around⟩ := sound
  cases next with
  | returned =>
      rw [List.forall_mem_cons] at around
      exact ⟨env.congr rfl rfl rfl, around.1, around.2⟩
  | opened opens =>
      obtain ⟨_, _, modules, offered, listed⟩ := opens?_eq_some opens
      obtain ⟨before, after, split, _⟩ := List.lookup_eq_some_iff.mp listed
      have supplied := env.modules modules offered
      rw [split, List.forall_mem_append, List.forall_mem_cons] at supplied
      refine ⟨env.congr rfl rfl rfl, supplied.2.1, ?_⟩
      exact List.forall_mem_cons.mpr ⟨(List.forall_mem_cons.mp program).2, around⟩
  | skipped => exact ⟨env, (List.forall_mem_cons.mp program).2, around⟩
  | refused =>
      exact ⟨env.record _ _ not_false, (List.forall_mem_cons.mp program).2, around⟩
  | performed done =>
      obtain ⟨written, rest⟩ := List.forall_mem_cons.mp program
      have after := env.perform written
      rw [done] at after
      exact ⟨after, rest, around⟩
  | failed failed =>
      obtain ⟨written, rest⟩ := List.forall_mem_cons.mp program
      have after := env.perform written
      rw [failed] at after
      exact ⟨after.record _ _ (env.perform_error written failed), rest, around⟩

theorem Steps.scoped {m n : Moment} (steps : m.Steps n) (sound : m.Scoped) : n.Scoped := by
  induction steps with
  | refl => exact sound
  | tail _ stepped ih => exact (next_of_next? stepped).scoped ih

end Moment

namespace Environment

theorem Scoped.interpret {env : Environment} (sound : env.Scoped) {forms : List Form}
    (written : ∀ form ∈ forms, form.WellScoped) : (env.interpret forms).2.Scoped := by
  obtain ⟨index, run⟩ := Moment.interpret_steps env forms
  have start : (Moment.start env forms).Scoped := ⟨sound, written, by simp [Moment.start]⟩
  exact (run.scoped start).env

/-- A failure of the form would be recorded if it stood in a program. -/
theorem Scoped.evaluate {env : Environment} (sound : env.Scoped) {form : Form}
    (written : form.WellScoped) :
    Avoids Unbound (env.evaluate form).1 ∧ (env.evaluate form).2.Scoped := by
  have start : Moment.Scoped ⟨env, ⟨0, none, [form]⟩, []⟩ :=
    ⟨sound, List.forall_mem_singleton.mpr written, by simp⟩
  have settled := ((Moment.evaluate_steps env form 0 none [] []).scoped start).env
  cases evaluated : env.evaluate form with
  | mk answer after =>
      rw [evaluated] at settled
      cases answer with
      | ok v => exact ⟨.ok v, settled⟩
      | error e =>
          obtain ⟨templates, modules, failures⟩ := settled
          obtain ⟨before, here⟩ := List.forall_mem_append.mp failures
          rw [List.forall_mem_singleton] at here
          exact ⟨.error here, templates, modules, before⟩

/-- The other operations leave templates and failures alone. -/
theorem Scoped.unlessRefused {env : Environment} (sound : env.Scoped)
    {x : Except Error Environment}
    (admitted : ∀ after, x = .ok after → after.scope.templates = env.scope.templates ∧
      after.modules = env.modules ∧ after.failures = env.failures) :
    (env.unlessRefused x).Scoped := by
  cases x with
  | ok after =>
      obtain ⟨templates, modules, failures⟩ := admitted after rfl
      exact sound.congr templates modules failures
  | error e => exact sound

theorem Scoped.apply {env : Environment} (sound : env.Scoped) {op : Operation}
    (written : op.WellScoped) : (op.apply env).Scoped := by
  cases op with
  | interpret forms => exact sound.interpret written
  | evaluate form => exact (sound.evaluate written).2
  | bindPrefix symbol ns =>
      refine sound.unlessRefused fun after done => ?_
      unfold Environment.bindPrefix at done
      split at done <;> cases done
      rename_i bound
      exact ⟨Scope.bindPrefix_templates bound, rfl, rfl⟩
  | setDefaultPrefix symbol =>
      refine sound.unlessRefused fun after done => ?_
      unfold Environment.setDefaultPrefix at done
      split at done <;> cases done
      rename_i chosen
      exact ⟨Scope.setDefaultPrefix_templates chosen, rfl, rfl⟩
  | addTriples ts => exact sound.congr rfl rfl rfl
  | registerExtension name factory =>
      refine sound.unlessRefused fun after done => ?_
      unfold Environment.registerExtension at done
      split at done <;> cases done
      exact ⟨rfl, rfl, rfl⟩
  | registerAlias other target =>
      refine sound.unlessRefused fun after done => ?_
      unfold Environment.registerAlias at done
      split at done <;> cases done
      exact ⟨rfl, rfl, rfl⟩
  | setModules modules =>
      refine ⟨sound.templates, ?_, sound.failures⟩
      intro offered same
      cases same
      exact written
  | takeFailures => exact ⟨sound.templates, sound.modules, by simp [Operation.apply, takeFailures]⟩

theorem Scoped.foldl {env : Environment} (sound : env.Scoped) {ops : List Operation}
    (written : ∀ op ∈ ops, op.WellScoped) : (ops.foldl Operation.apply env).Scoped := by
  induction ops generalizing env with
  | nil => exact sound
  | cons op ops ih =>
      rw [List.forall_mem_cons] at written
      exact ih (sound.apply written.1) written.2

theorem foldlM_bindPrefix_templates {prefixes : List (String × Uri)} {scope after : Scope}
    (folded :
      prefixes.foldlM (fun (scope : Scope) (symbol, ns) =>
        (scope.bindPrefix symbol ns).mapError Error.environment) scope = .ok after) :
    after.templates = scope.templates := by
  induction prefixes generalizing scope with
  | nil =>
      cases folded
      rfl
  | cons entry prefixes ih =>
      rw [List.foldlM_cons] at folded
      obtain ⟨next, bound, rest⟩ := bind_eq_ok folded
      exact (ih rest).trans (Scope.bindPrefix_templates (eq_ok_of_mapError bound))

/-- The settings of an environment bind prefixes, and define no template. -/
theorem ofConfig_scoped {config : Config} {env : Environment} (fresh : ofConfig config = .ok env) :
    env.Scoped := by
  have none : env.scope.templates = {} := by
    unfold ofConfig at fresh
    obtain ⟨_, _, fresh⟩ := bind_eq_ok fresh
    obtain ⟨bound, folded, fresh⟩ := bind_eq_ok fresh
    have prefixes := foldlM_bindPrefix_templates folded
    cases chosen : config.defaultPrefix with
    | none =>
        rw [chosen] at fresh
        cases fresh
        exact prefixes
    | some symbol =>
        rw [chosen] at fresh
        obtain ⟨scope, set, fresh⟩ := bind_eq_ok fresh
        cases fresh
        exact (Scope.setDefaultPrefix_templates (eq_ok_of_mapError set)).trans prefixes
  rw [(ofConfig_changes fresh).1]
  refine ⟨?_, by simp, by simp⟩
  rw [none]
  intro id t found
  cases found

/-- In an environment that has run well-scoped programs only, imported ones included, a well-scoped
form never fails for a parameter without an argument: neither does the form itself, nor one in a
module that it imports. -/
theorem never_unbound {config : Config} {env : Environment} (fresh : ofConfig config = .ok env)
    (ops : List Operation) (ran : ∀ op ∈ ops, op.WellScoped) (form : Form)
    (written : form.WellScoped) (p : Parameter) :
    ((ops.foldl Operation.apply env).evaluate form).1 ≠
        .error (.template (.unboundParameter p)) ∧
      ∀ failure ∈ ((ops.foldl Operation.apply env).evaluate form).2.failures,
        failure.error ≠ .template (.unboundParameter p) := by
  have sound := (ofConfig_scoped fresh).foldl ran
  obtain ⟨answer, after⟩ := sound.evaluate written
  refine ⟨fun failed => answer _ failed trivial, fun failure recorded same => ?_⟩
  have other := after.failures failure recorded
  rw [same] at other
  exact other trivial

/-- A module with two templates. The second has the first as its base, forwards one parameter to it,
and expands it again in its body, with an expansion of it as the argument. -/
def lending : List Form :=
  [.template ⟨.ofUri ⟨"a"⟩, [⟨"v", 0⟩], none,
      [.property ⟨.name (.ofUri ⟨"p"⟩), .name (.ofSymbol "v"), {}⟩], {}⟩,
    .template ⟨.ofUri ⟨"b"⟩, [⟨"v", 0⟩, ⟨"w", 1⟩],
      some ⟨.ofUri ⟨"a"⟩, [⟨.name (.ofSymbol "w"), 0⟩]⟩,
      [.expansion ⟨none, .name (.ofUri ⟨"a"⟩),
        [⟨.expansion ⟨none, .name (.ofUri ⟨"a"⟩), [⟨.name (.ofSymbol "v"), 0⟩], [], {}⟩, 0⟩], [], {}⟩],
      {}⟩]

/-- Offer the module, and import it. -/
def borrowing : List Operation :=
  [.setModules { programs := [("lib", lending)] }, .evaluate (.imports "lib" {})]

/-- The environment after that. -/
def lent : Environment := borrowing.foldl Operation.apply { scope := { extensions := .builtin } }

/-- An expansion of the second template, with an expansion of the first as one argument. -/
def borrowed : Form :=
  .expansion ⟨none, .name (.ofUri ⟨"b"⟩),
    [⟨.expansion ⟨none, .name (.ofUri ⟨"a"⟩), [⟨.literal (.boolean true), 0⟩], [], {}⟩, 0⟩,
      ⟨.literal (.boolean false), 1⟩], [], {}⟩

theorem imported_template_finds_its_arguments :
    (∀ op ∈ borrowing, op.WellScoped) ∧ borrowed.WellScoped ∧
      (lent.evaluate borrowed).1 = .ok (some (.uri ⟨"_0"⟩)) ∧
      (lent.evaluate borrowed).1 ≠ .error (.template (.unboundParameter ⟨"v", 0⟩)) := by
  have fresh : ofConfig {} = .ok { scope := { extensions := .builtin } } := rfl
  have ran : ∀ op ∈ borrowing, op.WellScoped := by
    refine List.forall_mem_cons.mpr ⟨?_, List.forall_mem_singleton.mpr trivial⟩
    change ∀ program ∈ [("lib", lending)], ∀ form ∈ program.2, form.WellScoped
    decide
  have written : borrowed.WellScoped := by decide
  exact ⟨ran, written, rfl, (never_unbound fresh borrowing ran borrowed written ⟨"v", 0⟩).1⟩

end Environment

end Stencil
