/- # Proofs.InheritedTriples -- what a base states comes first, as it is

The items of an expansion are those of the outermost base first, then those of each special case, then
its own. They are worked out in this order, in one and the same place: so what the items in front give,
triples, anonymous identities and the judgement of nested validators, does not depend on what comes
behind (`items_append`). Where the items bring no validator of their own, nothing looks at the triples
afterwards, and the items in front alone, under the same name, give a prefix of all the triples
(`evaluate_front`).

Two expansions have such a front as their whole: the base with the arguments that are forwarded to it,
and the expansion without its own items. That the base can be expanded at all is seen from the walk up
its bases, which is a part of the walk from the special case (`lineageAt_mono`).
-/
import Stencil.Proofs.BaseChain
import Stencil.Proofs.Nesting

namespace Stencil
set_option autoImplicit false

/-- The context only tells the error of a name that stands for something else. -/
theorem Resolver.uriOf_context {r : Resolver} {n : Name} {context : String} {u : Uri}
    (named : r.uriOf n context = .ok u) (other : String) : r.uriOf n other = .ok u := by
  unfold uriOf resolveUri at named ⊢
  cases resolved : r.resolve n with
  | error why => simp [resolved] at named
  | ok found =>
      cases found with
      | unresolved => simp [resolved] at named
      | value v =>
          cases v with
          | uri id => simpa [resolved] using named
          | literal l => simp [resolved] at named

/-- A walk that has met less, and may go further, comes to the same end. -/
theorem lineageAt_mono {r : Resolver} {table : TemplateTable} {steps more : Nat}
    {met fewer : List Uri} {l : Layer} {layers : List Layer}
    (walked : lineageAt r table steps met l = .ok layers) (longer : steps ≤ more)
    (less : fewer ⊆ met) : lineageAt r table more fewer l = .ok layers := by
  induction steps using Nat.strongRecOn generalizing more met fewer l layers with
  | ind steps ih =>
      rcases lineageAt_cases walked with
        ⟨alone, rfl⟩ | ⟨base, id, parent, rest, above, refers, rfl, stepped, higher, rfl⟩
      · exact lineageAt_of_root more fewer alone
      · obtain ⟨link, fresh⟩ := link_of_next refers stepped
        obtain ⟨further, rfl⟩ := Nat.exists_eq_add_of_lt longer
        have onward : lineageAt r table (rest + further) (id :: fewer) parent = .ok above :=
          ih rest (Nat.lt_succ_self rest) higher (Nat.le_add_right rest further)
            (List.cons_subset_cons id less)
        rw [lineageAt_of_link _ link fun again => fresh (less again), onward]
        rfl

/-- The merged body of a template begins with that of its base, which has the forwarded arguments. -/
theorem mergedBody_of_base {r : Resolver} {table : TemplateTable} {id : Uri} {t : Template}
    {args : List Argument} {merged : List Item} {base : Base}
    (walked : mergedBody r table id t args = .ok merged) (derived : t.base = some base) :
    ∃ above parent inherited, r.uriOf base.template "base template" = .ok above ∧
      table.get? above = some parent ∧
      parent.parameters.length = (Layer.forwarded ⟨t, args⟩ base).length ∧
      mergedBody r table above parent (Layer.forwarded ⟨t, args⟩ base) = .ok inherited ∧
      merged = inherited ++ Layer.body ⟨t, args⟩ := by
  obtain ⟨layers, climbed, rfl⟩ := mergedBody_eq_ok_iff.mp walked
  rcases lineageAt_cases climbed with
    ⟨alone, _⟩ | ⟨_, above, parent, rest, layers, refers, size, stepped, higher, rfl⟩
  · rw [derived] at alone
    cases alone
  · rw [derived] at refers
    cases refers
    obtain ⟨named, _, registered, forwarded, suits⟩ := Layer.next_eq_ok stepped
    obtain ⟨parent, args'⟩ := parent
    cases forwarded
    have again : lineage r table above parent (Layer.forwarded ⟨t, args⟩ base) = .ok layers :=
      lineageAt_mono higher (by omega) (by simp)
    refine ⟨above, parent, layers.flatMap Layer.body, named, registered, suits,
      mergedBody_eq_ok_iff.mpr ⟨layers, again, rfl⟩, ?_⟩
    rw [List.flatMap_append, List.flatMap_singleton]

namespace Expansion

open Eval

/-! ## Items in front -/

/-- The expansion of a base, under the same name, with the arguments that are forwarded to it. -/
def ofBase (e : Expansion) (base : Base) (location : Location) : Expansion where
  name := e.name
  template := .name base.template
  arguments := graftArguments (substituting e.arguments) base.arguments
  body := []
  location := location

/-- The expansion without items of its own. -/
def bare (e : Expansion) : Expansion := { e with body := [] }

/-- The items of the base are in front of those of the special case, and these in front of the own items
of the expansion. -/
theorem exists_items_of_base {scope : Scope} {r : Resolver} {e : Expansion} {body : List Item}
    {id : Uri} {t : Template} {base : Base} (found : fullBody scope r e = .ok body)
    (known : templateOf scope r e.template = .ok (id, t)) (derived : t.base = some base)
    (location : Location) :
    ∃ inherited special, fullBody scope r (e.ofBase base location) = .ok inherited ∧
      fullBody scope r e.bare = .ok (inherited ++ special) ∧
      body = inherited ++ special ++ e.body := by
  obtain ⟨_, _, merged, same, fits, walked, rfl⟩ := fullBody_eq_ok_iff.mp found
  rw [known] at same
  cases same
  obtain ⟨above, parent, inherited, named, registered, suits, higher, rfl⟩ :=
    mergedBody_of_base walked derived
  have reference : templateOf scope r (.name base.template) = .ok (above, parent) :=
    templateOf_name (Resolver.uriOf_context named _) registered
  refine ⟨inherited, Layer.body ⟨t, e.arguments⟩, ?_, ?_, rfl⟩
  · exact fullBody_eq_ok_iff.mpr
      ⟨above, parent, inherited, reference, suits, higher, (List.append_nil _).symm⟩
  · exact fullBody_eq_ok_iff.mpr ⟨id, t, _, known, fits, walked, (List.append_nil _).symm⟩

section Body

variable {scope : Scope} {inner : Expansion → Eval Expanded} {me : Uri}

/-- Items behind others are worked out when those are done, and change nothing of what they gave. -/
theorem items_append (front back : List Item) :
    items scope inner me (front ++ back) = (do
      let first ← items scope inner me front
      let rest ← items scope inner me back
      return first.append rest) := by
  induction front with
  | nil =>
      show items scope inner me back = pure (Yield.mk [] []) >>= _
      rw [pure_bind]
      exact (bind_pure _).symm
  | cons i is ih =>
      rw [List.cons_append, items, items, ih]
      simp only [bind_assoc, pure_bind, Yield.append, List.append_assoc]

/-- Items that are no validators call none. -/
theorem calls_eq_nil {is : List Item} (plain : ∀ x, Item.extension x ∉ is) {s t : SelfStack}
    {yield : Yield} (given : (items scope inner me is).run s = (.ok yield, t)) : yield.calls = [] := by
  induction is generalizing s yield with
  | nil =>
      cases given
      rfl
  | cons i is ih =>
      obtain ⟨first, next, here, given⟩ := run_bind_eq_ok given
      obtain ⟨rest, last, behind, given⟩ := run_bind_eq_ok given
      cases given
      have later : rest.calls = [] := ih (fun x listed => plain x (List.mem_cons_of_mem i listed)) behind
      have now : first.calls = [] := by
        cases i with
        | property p =>
            obtain ⟨triples, _, _, here⟩ := run_bind_eq_ok here
            cases here
            rfl
        | expansion e =>
            obtain ⟨out, _, _, here⟩ := run_bind_eq_ok here
            cases here
            rfl
        | extension x => exact absurd List.mem_cons_self (plain x)
      show first.calls ++ rest.calls = []
      rw [now, later, List.append_nil]

end Body

/-- Without validators the triples stay as they are. -/
theorem judge_of_no_calls (scope : Scope) (me : Uri) {yield : Yield} (none : yield.calls = []) :
    judge scope me yield = .ok yield.triples := by
  unfold judge
  rw [none]
  rfl

/-- Of two expansions under one name, let the items of one be those in front of the other, and let no
validator be among the items. If the longer one succeeds, the shorter one does, in the same state, with
the same identity and the first of its triples. -/
theorem evaluate_front {scope : Scope} {e short : Expansion} {front back : List Item}
    {s t : SelfStack} {out : Expanded}
    (found : fullBody scope (scope.resolver s.current?) e = .ok (front ++ back))
    (shorter : fullBody scope (scope.resolver s.current?) short = .ok front)
    (same : short.name = e.name) (plain : ∀ x, Item.extension x ∉ front ++ back)
    (worked : (evaluate scope e).run s = (.ok out, t)) :
    ∃ ts, (evaluate scope short).run s = (.ok ⟨out.identity, ts⟩, t) ∧ ts <+: out.triples := by
  obtain ⟨body, yield, inside, listed, settled, room, given, accepted⟩ :=
    evaluate_eq_ok_iff.mp worked
  rw [found] at listed
  cases listed
  have all : out.triples = yield.triples := by
    rw [judge_of_no_calls scope _ (calls_eq_nil plain given)] at accepted
    exact (Except.ok.inj accepted).symm
  rw [items_append] at given
  obtain ⟨first, next, here, given⟩ := run_bind_eq_ok given
  obtain ⟨rest, last, _, given⟩ := run_bind_eq_ok given
  cases given
  have named : identityOf scope short = identityOf scope e := by
    unfold identityOf
    rw [same]
  have unjudged : judge scope out.identity first = .ok first.triples :=
    judge_of_no_calls scope _
      (calls_eq_nil (fun x listed => plain x (List.mem_append_left back listed)) here)
  refine ⟨first.triples, evaluate_eq_ok_iff.mpr ?_, ?_⟩
  · exact ⟨front, first, next, shorter, named ▸ settled, room, here, unjudged⟩
  · rw [all]
    exact List.prefix_append first.triples rest.triples

end Expansion

namespace Environment

/-- **The triples of a base come first, as they are.** Let an expansion of a template with a base
succeed, under a name or without one, and let no validator be among the items of the template, its bases
and the expansion itself; nested expansions may bring their own. Then the base, with the arguments
forwarded to it, can be expanded in the same environment under the same name. It gets the same identity
and leaves the same environment, and its triples, with all identities in them, are a prefix of those of
the expansion. So are those of the expansion without its own items. -/
theorem base_triples_first {env after : Environment} {e : Expansion} {id : Uri} {t : Template}
    {base : Base} {out : Expanded}
    (known : Expansion.templateOf env.scope env.resolver e.template = .ok (id, t))
    (derived : t.base = some base)
    (plain : ∀ merged, mergedBody env.resolver env.scope.templates id t e.arguments = .ok merged →
      ∀ x, Item.extension x ∉ merged ++ e.body)
    (worked : env.expand e = (.ok out, after)) (location : Location) :
    (∃ ts, env.expand (e.ofBase base location) = (.ok ⟨out.identity, ts⟩, after) ∧
        ts <+: out.triples) ∧
      ∃ ts, env.expand e.bare = (.ok ⟨out.identity, ts⟩, after) ∧ ts <+: out.triples := by
  obtain ⟨evaluated, unchanged⟩ := expand_eq_iff.mp worked
  obtain ⟨body, _, _, found, _⟩ := Expansion.evaluate_eq_ok_iff.mp evaluated
  obtain ⟨_, _, merged, same, _, walked, rfl⟩ := Expansion.fullBody_eq_ok_iff.mp found
  have free : ∀ x, Item.extension x ∉ merged ++ e.body := by
    have template := known.symm.trans same
    cases template
    exact plain merged walked
  obtain ⟨inherited, special, ofBase, bare, split⟩ :=
    Expansion.exists_items_of_base found known derived location
  rw [split] at free found
  constructor
  · rw [List.append_assoc] at free found
    obtain ⟨ts, short, isPrefix⟩ := Expansion.evaluate_front found ofBase rfl free evaluated
    exact ⟨ts, expand_eq_iff.mpr ⟨short, unchanged⟩, isPrefix⟩
  · obtain ⟨ts, short, isPrefix⟩ := Expansion.evaluate_front found bare rfl free evaluated
    exact ⟨ts, expand_eq_iff.mpr ⟨short, unchanged⟩, isPrefix⟩

/-- A template that states `z` of every expansion and has this checked. -/
def checkedLeaf : Template where
  name := .ofUri ⟨"leaf"⟩
  parameters := []
  base := none
  body := [.property ⟨.name (.ofUri ⟨"z"⟩), .name .selfName, {}⟩,
    .extension ⟨"AtLeastOne", [.expr (.name (.ofUri ⟨"z"⟩))], {}⟩]
  location := {}

/-- An expansion of it without a name. -/
def leafExpansion : Expr := .expansion ⟨none, .name (.ofUri ⟨"leaf"⟩), [], [], {}⟩

/-- A template with such an expansion in its body. -/
def branchBase : Template where
  name := .ofUri ⟨"a"⟩
  parameters := [⟨"v", 0⟩]
  base := none
  body := [.property ⟨.name (.ofUri ⟨"x"⟩), leafExpansion, {}⟩,
    .property ⟨.name (.ofUri ⟨"y"⟩), .param ⟨"v", 0⟩, {}⟩]
  location := {}

/-- Its special case, with one more. -/
def branchTemplate : Template where
  name := .ofUri ⟨"b"⟩
  parameters := [⟨"w", 0⟩]
  base := some ⟨.ofUri ⟨"a"⟩, [⟨.param ⟨"w", 0⟩, 0⟩]⟩
  body := [.property ⟨.name (.ofUri ⟨"p"⟩), leafExpansion, {}⟩]
  location := {}

def branching : Environment where
  scope.extensions := .builtin
  scope.templates.byId := [(⟨"leaf"⟩, checkedLeaf), (⟨"a"⟩, branchBase), (⟨"b"⟩, branchTemplate)]
  scope.templates.order := [⟨"leaf"⟩, ⟨"a"⟩, ⟨"b"⟩]

/-- The template is expanded with an item more. -/
def branch : Expansion where
  name := some (.ofUri ⟨"id"⟩)
  template := .name (.ofUri ⟨"b"⟩)
  arguments := [⟨.literal (.boolean true), 0⟩]
  body := [.property ⟨.name (.ofUri ⟨"q"⟩), .literal (.boolean false), {}⟩]
  location := {}

/-- What it states: the first three triples are from the base, the last one is its own. -/
def branchTriples : List Triple :=
  [⟨⟨"id/_0"⟩, ⟨"z"⟩, .uri ⟨"id/_0"⟩⟩, ⟨⟨"id"⟩, ⟨"x"⟩, .uri ⟨"id/_0"⟩⟩,
    ⟨⟨"id"⟩, ⟨"y"⟩, .literal (.boolean true)⟩, ⟨⟨"id/_1"⟩, ⟨"z"⟩, .uri ⟨"id/_1"⟩⟩,
    ⟨⟨"id"⟩, ⟨"p"⟩, .uri ⟨"id/_1"⟩⟩, ⟨⟨"id"⟩, ⟨"q"⟩, .literal (.boolean false)⟩]

theorem base_triples_first_with_nested_expansions :
    (branching.expand branch).1 = .ok ⟨⟨"id"⟩, branchTriples⟩ ∧
      (∃ ts, (branching.expand (branch.ofBase ⟨.ofUri ⟨"a"⟩, [⟨.param ⟨"w", 0⟩, 0⟩]⟩ {})).1 =
          .ok ⟨⟨"id"⟩, ts⟩ ∧ ts <+: branchTriples) ∧
      ∃ ts, (branching.expand branch.bare).1 = .ok ⟨⟨"id"⟩, ts⟩ ∧ ts <+: branchTriples := by
  have worked : (branching.expand branch).1 = .ok ⟨⟨"id"⟩, branchTriples⟩ := by decide +kernel
  have known : Expansion.templateOf branching.scope branching.resolver branch.template =
      .ok (⟨"b"⟩, branchTemplate) := rfl
  have merged : mergedBody branching.resolver branching.scope.templates ⟨"b"⟩ branchTemplate
      branch.arguments = .ok
        [.property ⟨.name (.ofUri ⟨"x"⟩), leafExpansion, {}⟩,
          .property ⟨.name (.ofUri ⟨"y"⟩), .literal (.boolean true), {}⟩,
          .property ⟨.name (.ofUri ⟨"p"⟩), leafExpansion, {}⟩] := rfl
  have plain : ∀ items, mergedBody branching.resolver branching.scope.templates ⟨"b"⟩ branchTemplate
      branch.arguments = .ok items → ∀ x, Item.extension x ∉ items ++ branch.body := by
    intro items found
    rw [merged] at found
    cases found
    simp [branch]
  obtain ⟨⟨ts, ofBase, front⟩, us, bare, own⟩ :=
    base_triples_first known rfl plain (Prod.ext worked rfl) {}
  exact ⟨worked, ⟨ts, congrArg Prod.fst ofBase, front⟩, us, congrArg Prod.fst bare, own⟩

end Environment

end Stencil
