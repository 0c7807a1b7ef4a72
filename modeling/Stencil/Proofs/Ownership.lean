/- # Proofs.Ownership -- an expansion speaks of what is its own

An expansion inside of another one has the identity of that one in front of its own, if it has no name or
a name that begins with `self`: an anonymous identity is made behind that of the expansion around it, and
the segments behind `self` are appended to it (`Inward.owns_identity`). What a template states of itself
has its identity as the subject. So wherever all expansions are of this kind, the triples of an expansion
are about it and what is below it (`subjects_owned`).

Expansions come into a body from far: from a base, or with an argument that was written inside of another
expansion and forwarded through several. Substituting keeps their names, so they are of this kind there as
well (`fullBody_inward`); and the `self` with which they are looked up is that of the body they came to,
not that of the place where they were written.
-/
import Stencil.Proofs.DroppedPredicates
import Stencil.Proofs.Inheritance
import Stencil.Proofs.LongestKey
import Stencil.Proofs.Nesting
import Stencil.Proofs.Provenance

namespace Stencil
set_option autoImplicit false

/-! ## Identifiers that begin with another -/

/-- The second identifier begins with the first. -/
def Uri.Owns (me u : Uri) : Prop := ∃ rest : String, u.id = me.id ++ rest

theorem Uri.Owns.refl (u : Uri) : u.Owns u := ⟨"", String.append_empty.symm⟩

theorem Uri.Owns.trans {u v w : Uri} (first : u.Owns v) (second : v.Owns w) : u.Owns w := by
  obtain ⟨front, begins⟩ := first
  obtain ⟨back, continues⟩ := second
  exact ⟨front ++ back, by rw [continues, begins, String.append_assoc]⟩

theorem Uri.owns_extend (u : Uri) (delimiter text : String) : u.Owns (u.extend delimiter text) :=
  ⟨delimiter ++ text, String.append_assoc⟩

/-! ## Expansions that stay below the one around them -/

namespace Expansion

/-- The expansion has no name, or a name that begins with `self`. -/
def Inward (e : Expansion) : Prop := ∀ n, e.name = some n → n.head = .selfRef

instance : DecidablePred Inward := fun e =>
  match same : e.name with
  | none => .isTrue fun n named => nomatch same.symm.trans named
  | some m => decidable_of_iff (m.head = .selfRef)
      ⟨fun begins n named => by cases same.symm.trans named; exact begins, fun inward => inward m same⟩

theorem name_graft (g : Grafting) (e : Expansion) : (e.graft g).name = e.name := by
  cases e
  rfl

theorem Inward.graft {e : Expansion} (inward : e.Inward) (g : Grafting) : (e.graft g).Inward := by
  rw [Inward, name_graft]
  exact inward

open Eval

/-- The identity of such an expansion begins with that of the one around it. -/
theorem Inward.owns_identity {scope : Scope} {e : Expansion} (inward : e.Inward) {s t : SelfStack}
    {around me : Uri} (current : s.current? = some around)
    (settled : (identityOf scope e).run s = (.ok me, t)) : around.Owns me := by
  unfold identityOf at settled
  cases named : e.name with
  | none =>
      rw [named] at settled
      obtain ⟨frames, minted⟩ := s
      cases frames with
      | nil => cases current
      | cons frame frames =>
          cases current
          cases settled
          exact Uri.owns_extend _ _ _
  | some n =>
      have begins := inward n named
      obtain ⟨head, tail⟩ := n
      subst begins
      rw [named] at settled
      change (((scope.resolver s.current?).uriOf ⟨.selfRef, tail⟩ "expansion name").mapError
        Error.resolve, s) = (.ok me, t) at settled
      have bound : (scope.resolver s.current?).currentSelf = some around := current
      have resolved := Resolver.resolve_selfRef bound tail
      unfold Resolver.uriOf Resolver.resolveUri at settled
      rw [resolved] at settled
      cases settled
      exact ⟨_, rfl⟩

end Expansion

/-- All expansions in the body of the template, and in the arguments for its base, stay below the one
around them. -/
structure Template.Inward (t : Template) : Prop where
  body : ∀ e ∈ itemExpansions t.body, e.Inward
  base : ∀ base ∈ t.base, ∀ e ∈ argumentExpansions base.arguments, e.Inward

instance : DecidablePred Template.Inward := fun t =>
  decidable_of_iff
    ((∀ e ∈ itemExpansions t.body, e.Inward) ∧
      ∀ base ∈ t.base, ∀ e ∈ argumentExpansions base.arguments, e.Inward)
    ⟨fun ⟨body, base⟩ => ⟨body, base⟩, fun ⟨body, base⟩ => ⟨body, base⟩⟩

/-- All expansions that occur stay below the one around them. -/
abbrev AllInward : List Parameter → List Expansion → Prop :=
  Confined (fun _ => True) Expansion.Inward

theorem allInward {ps : List Parameter} {es : List Expansion} (inward : ∀ e ∈ es, e.Inward) :
    AllInward ps es := ⟨fun _ _ => trivial, inward⟩

/-- Such expansions are put in the place of parameters, and those around them keep their names. -/
theorem substituting_carries_inward {as : List Argument}
    (inward : AllInward (argumentParams as) (argumentExpansions as)) :
    (substituting as).Carries (fun _ => True) Expansion.Inward (fun _ => True) Expansion.Inward where
  name n := by simpa [substituting, Expr.params, Expr.expansions] using confined_nil
  param p _ := by
    by_cases given : ∃ a ∈ as, a.position = p.position
    · obtain ⟨a, first⟩ := exists_first_argument given
      rw [substituting_param_eq_value first]
      exact confined_arguments_iff.mp inward a (List.mem_of_find?_eq_some first)
    · rw [substituting_param_eq_param given, Expr.params, Expr.expansions]
      exact allInward (List.forall_mem_nil _)
  expansion e inward := inward.graft _

/-! ## Bodies -/

section Chain

variable {scope : Scope} {r : Resolver}

/-- A layer with such a template and such arguments. -/
structure Layer.Inward (l : Layer) : Prop where
  template : l.template.Inward
  arguments : AllInward (argumentParams l.arguments) (argumentExpansions l.arguments)

theorem Layer.Inward.body {l : Layer} (inward : l.Inward) :
    AllInward (itemParams l.body) (itemExpansions l.body) :=
  confined_graftItems (substituting_carries_inward inward.arguments) _
    (allInward inward.template.body)

theorem Layer.Inward.next {table : TemplateTable}
    (registered : ∀ id t, table.get? id = some t → t.Inward) {met : List Uri} {l parent : Layer}
    {base : Base} {id : Uri} (inward : l.Inward) (refers : l.template.base = some base)
    (stepped : l.next r table met base = .ok (id, parent)) : parent.Inward := by
  obtain ⟨_, _, found, forwarded, _⟩ := Layer.next_eq_ok stepped
  refine ⟨registered id _ found, ?_⟩
  rw [forwarded]
  exact confined_graftArguments (substituting_carries_inward inward.arguments) _
    (allInward (inward.template.base base refers))

/-- The items of an expansion, wherever they come from. -/
theorem fullBody_inward (registered : ∀ id t, scope.templates.get? id = some t → t.Inward)
    {e : Expansion} {body : List Item} (arguments : ∀ x ∈ argumentExpansions e.arguments, x.Inward)
    (own : ∀ x ∈ itemExpansions e.body, x.Inward)
    (found : Expansion.fullBody scope r e = .ok body) : ∀ x ∈ itemExpansions body, x.Inward := by
  obtain ⟨id, t, merged, known, _, walked, rfl⟩ := Expansion.fullBody_eq_ok_iff.mp found
  obtain ⟨layers, climbed, rfl⟩ := mergedBody_eq_ok_iff.mp walked
  have first : Layer.Inward ⟨t, e.arguments⟩ :=
    ⟨registered id t (Expansion.templateOf_eq_ok known), allInward arguments⟩
  have all := lineageAt_forall (fun inward => inward.next registered) first climbed
  have above := confined_items_flatMap fun l inChain => (all l inChain).body
  exact (confined_items_append.mpr ⟨above, allInward own⟩).expansions

end Chain

/-! ## Triples -/

namespace Expansion

open Eval

theorem expansions_eq (e : Expansion) :
    e.expansions =
      e :: (e.template.expansions ++ (argumentExpansions e.arguments ++ itemExpansions e.body)) := by
  cases e
  rw [Expansion.expansions]

/-- By induction on the depth that is left: what came with an expansion inside begins with the identity
of that one, which begins with the identity at hand. -/
theorem owns_subjects {scope : Scope} (only : scope.extensions.OnlyBundled)
    (registered : ∀ id t, scope.templates.get? id = some t → t.Inward) {e : Expansion}
    {s t : SelfStack} {out : Expanded} (arguments : ∀ x ∈ argumentExpansions e.arguments, x.Inward)
    (own : ∀ x ∈ itemExpansions e.body, x.Inward)
    (worked : (evaluate scope e).run s = (.ok out, t)) :
    ∀ triple ∈ out.triples, out.identity.Owns triple.subject := by
  induction counted : scope.limit - s.depth using Nat.strongRecOn generalizing e s t out with
  | ind left ih =>
      obtain ⟨body, yield, _, found, settled, room, given, accepted⟩ := evaluate_eq_ok_iff.mp worked
      have inBody := fullBody_inward registered arguments own found
      intro triple mem
      have produced := (judge_sublist only accepted).subset mem
      cases origin_items (onlyMints_evaluate scope) given triple produced with
      | own subject =>
          rw [subject]
          exact .refl _
      | @nested inner before after result occurs grown nested mem =>
          rw [expansions_eq, List.cons_subset, List.append_subset, List.append_subset] at occurs
          obtain ⟨itself, _, inArguments, inItems⟩ := occurs
          obtain ⟨_, _, _, _, identified, _⟩ := evaluate_eq_ok_iff.mp nested
          have current : before.current? = some out.identity := grown.current?
          have below : out.identity.Owns result.identity :=
            (inBody inner itself).owns_identity current identified
          have kept : t.depth = s.depth := ((onlyMints_identityOf scope e).grows settled).depth
          have deeper : before.depth = t.depth + 1 := grown.depth
          have fewer : scope.limit - before.depth < left := by omega
          have inside := ih _ fewer (fun x listed => inBody x (inArguments listed))
            (fun x listed => inBody x (inItems listed)) nested rfl
          exact below.trans (inside triple mem)

end Expansion

namespace Environment

/-- **Subjects are owned.** Let no validator of a host be registered, and let every expansion in the
registered templates, in the arguments for their bases and in the arguments and the body of an expansion
have no name, or one that begins with `self`. If the expansion gives triples, under whatever name and
inside of whatever others, the identity of the expansion is in front of the subject of each. -/
theorem subjects_owned {env after : Environment} (only : env.scope.extensions.OnlyBundled)
    (registered : ∀ id t, env.scope.templates.get? id = some t → t.Inward) {e : Expansion}
    (arguments : ∀ x ∈ argumentExpansions e.arguments, x.Inward)
    (own : ∀ x ∈ itemExpansions e.body, x.Inward) {out : Expanded}
    (worked : env.expand e = (.ok out, after)) :
    ∀ triple ∈ out.triples, ∃ rest : String, triple.subject.id = out.identity.id ++ rest :=
  Expansion.owns_subjects only registered arguments own (expand_eq_iff.mp worked).1

/-- An expansion of a template that states one thing of it. -/
def leaf (name : Option Name) : Expansion := ⟨name, .name (.ofUri ⟨"leaf"⟩), [], [], {}⟩

/-- Inside of an expansion of `yard`: a template that forwards an expansion to its base, and has
expansions as an item, in an argument and in a validator. -/
def yard : Environment where
  scope.extensions := .builtin
  scope.templates.byId :=
    [(⟨"leaf"⟩, ⟨.ofUri ⟨"leaf"⟩, [], none,
        [.property ⟨.name (.ofUri ⟨"is"⟩), .literal (.boolean true), {}⟩], {}⟩),
      (⟨"base"⟩, ⟨.ofUri ⟨"base"⟩, [⟨"v", 0⟩], none,
        [.property ⟨.name (.ofUri ⟨"has"⟩), .param ⟨"v", 0⟩, {}⟩], {}⟩),
      (⟨"tree"⟩, ⟨.ofUri ⟨"tree"⟩, [⟨"w", 0⟩],
        some ⟨.ofUri ⟨"base"⟩, [⟨.expansion (leaf none), 0⟩]⟩,
        [.expansion ⟨some ⟨.selfRef, [.symbol "/twig"]⟩, .name (.ofUri ⟨"base"⟩),
            [⟨.param ⟨"w", 0⟩, 0⟩], [], {}⟩,
          .property ⟨.name .selfName, .literal (.boolean true), {}⟩,
          .extension ⟨"Exclude", [.expr (.expansion (leaf (some .selfName)))], {}⟩], {}⟩)]
  scope.templates.order := [⟨"leaf"⟩, ⟨"base"⟩, ⟨"tree"⟩]
  selves.frames := [⟨⟨"yard"⟩, 0⟩]

/-- A named expansion of it, whose argument is written here and worked out inside of the twig. -/
def elm : Expansion :=
  ⟨some (.ofUri ⟨"elm"⟩), .name (.ofUri ⟨"tree"⟩),
    [⟨.expansion (leaf (some ⟨.selfRef, [.symbol "/bud"]⟩)), 0⟩], [], {}⟩

/-- What it gives: the argument goes by the identity of the twig, not by that of the yard. -/
def elmTriples : List Triple :=
  [⟨⟨"elm/_0"⟩, ⟨"is"⟩, .literal (.boolean true)⟩, ⟨⟨"elm"⟩, ⟨"has"⟩, .uri ⟨"elm/_0"⟩⟩,
    ⟨⟨"elm/twig/bud"⟩, ⟨"is"⟩, .literal (.boolean true)⟩,
    ⟨⟨"elm/twig"⟩, ⟨"has"⟩, .uri ⟨"elm/twig/bud"⟩⟩,
    ⟨⟨"elm"⟩, ⟨"is"⟩, .literal (.boolean true)⟩]

theorem forwarded_subjects_owned :
    yard.scope.extensions.OnlyBundled ∧
      (∀ id t, yard.scope.templates.get? id = some t → t.Inward) ∧
      (∀ x ∈ argumentExpansions elm.arguments, x.Inward) ∧
      (∀ x ∈ itemExpansions elm.body, x.Inward) ∧
      yard.expand elm = (.ok ⟨⟨"elm"⟩, elmTriples⟩, yard) ∧
      ∀ triple ∈ elmTriples, ∃ rest : String, triple.subject.id = "elm" ++ rest := by
  have only : yard.scope.extensions.OnlyBundled := Registry.onlyBundled_builtin
  have entries : ∀ entry ∈ yard.scope.templates.byId, entry.2.Inward := by decide
  have registered : ∀ id t, yard.scope.templates.get? id = some t → t.Inward :=
    fun id t found => entries (id, t) (TemplateTable.mem_byId_of_get? found)
  have arguments : ∀ x ∈ argumentExpansions elm.arguments, x.Inward := by decide
  have own : ∀ x ∈ itemExpansions elm.body, x.Inward := by decide
  have worked : yard.expand elm = (.ok ⟨⟨"elm"⟩, elmTriples⟩, yard) := rfl
  exact ⟨only, registered, arguments, own, worked,
    subjects_owned only registered arguments own worked⟩

end Environment

end Stencil
