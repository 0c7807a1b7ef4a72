/- # Proofs.Inheritance -- inheritance is static flattening

A template without a base is its body. One with a base is its base, flattened, with the arguments
of the reference in place, followed by its own body (`Flat`). The program never builds this: it
walks up the chain with the arguments it was given, substitutes them into the arguments of each
reference, and so brings to every layer arguments of its own. `mergedBody_eq_flat` says that the
two agree, layer by layer with the outermost base first: forwarding link by link is one
substitution into the flat template.

They agree as long as no link leaves out a parameter that its base, flattened, still mentions
(`Forwards`). The walk would carry such a reference down unchanged, and the arguments of a lower
layer would be put in its place.
-/
import Mathlib.Logic.Relation
import Stencil.Proofs.GraftLaws
import Stencil.Template.Lineage

namespace Stencil
set_option autoImplicit false

section Chain

variable {r : Resolver} {table : TemplateTable}

/-- The base reference of a template, and the registered template that its name stands for. -/
structure BaseOf (r : Resolver) (table : TemplateTable) (t : Template) (base : Base)
    (parent : Template) : Prop where
  refers : t.base = some base
  resolves : ∃ id, r.uriOf base.template "base template" = .ok id ∧ table.get? id = some parent

/-- A template has one base at most. -/
theorem BaseOf.unique {t : Template} {base other : Base} {parent relative : Template}
    (first : BaseOf r table t base parent) (second : BaseOf r table t other relative) :
    base = other ∧ parent = relative := by
  have same : some base = some other := first.refers.symm.trans second.refers
  cases same
  obtain ⟨id, named, found⟩ := first.resolves
  obtain ⟨id', named', found'⟩ := second.resolves
  rw [named] at named'
  cases named'
  rw [found] at found'
  cases found'
  exact ⟨rfl, rfl⟩

/-- The items of a template with all its bases written out in it. -/
inductive Flat (r : Resolver) (table : TemplateTable) : Template → List Item → Prop
  | root {t : Template} (alone : t.base = none) : Flat r table t t.body
  | derived {t : Template} {base : Base} {parent : Template} {above : List Item}
      (link : BaseOf r table t base parent) (flat : Flat r table parent above) :
      Flat r table t (graftItems (substituting base.arguments) above ++ t.body)

theorem Flat.unique {t : Template} {items others : List Item} (first : Flat r table t items)
    (second : Flat r table t others) : items = others := by
  induction first generalizing others with
  | root alone =>
      cases second with
      | root _ => rfl
      | derived link _ =>
          rw [link.refers] at alone
          cases alone
  | derived link _ ih =>
      cases second with
      | root alone =>
          rw [link.refers] at alone
          cases alone
      | derived other flat =>
          obtain ⟨rfl, rfl⟩ := link.unique other
          rw [ih flat]

/-- Going up from a template to its base, and on to theirs. -/
abbrev Ascends (r : Resolver) (table : TemplateTable) : Template → Template → Prop :=
  Relation.ReflTransGen fun t parent => ∃ base, BaseOf r table t base parent

/-- At every link of the chain above a template, the reference has an argument for each parameter
that its base, flattened, mentions. -/
def Forwards (r : Resolver) (table : TemplateTable) (t : Template) : Prop :=
  ∀ child base parent above, Ascends r table t child → BaseOf r table child base parent →
    Flat r table parent above → Supplied base.arguments (itemParams above)

theorem Forwards.parent {t parent : Template} {base : Base} (forwards : Forwards r table t)
    (link : BaseOf r table t base parent) : Forwards r table parent :=
  fun child base' parent' above up => forwards child base' parent' above (.head ⟨base, link⟩ up)

theorem forwards_root {t : Template} (alone : t.base = none) : Forwards r table t := by
  intro child base parent above up link _
  cases up.cases_head with
  | inl same =>
      subst same
      rw [link.refers] at alone
      cases alone
  | inr step =>
      obtain ⟨_, ⟨_, first⟩, _⟩ := step
      rw [first.refers] at alone
      cases alone

theorem forwards_derived {t parent : Template} {base : Base} {above : List Item}
    (link : BaseOf r table t base parent) (flat : Flat r table parent above)
    (supplied : Supplied base.arguments (itemParams above)) (forwards : Forwards r table parent) :
    Forwards r table t := by
  intro child base' parent' above' up link' flat'
  cases up.cases_head with
  | inl same =>
      subst same
      obtain ⟨rfl, rfl⟩ := link.unique link'
      rw [← flat.unique flat']
      exact supplied
  | inr step =>
      obtain ⟨relative, ⟨_, first⟩, rest⟩ := step
      obtain ⟨_, rfl⟩ := link.unique first
      exact forwards child base' parent' above' rest link' flat'

/-! ## The walk -/

/-- A step up the chain has passed four checks: the base name resolves, to an identifier not met
before, that of a registered template, whose parameters are as many as the arguments forwarded. -/
theorem Layer.next_eq_ok {met : List Uri} {l next : Layer} {base : Base} {id : Uri}
    (stepped : l.next r table met base = .ok (id, next)) :
    r.uriOf base.template "base template" = .ok id ∧ id ∉ met ∧
      table.get? id = some next.template ∧
      next.arguments = graftArguments (substituting l.arguments) base.arguments ∧
      next.template.parameters.length = next.arguments.length := by
  unfold Layer.next at stepped
  obtain ⟨found, named, stepped⟩ := bind_eq_ok stepped
  have named := eq_ok_of_mapError named
  split at stepped
  · cases stepped
  · rename_i fresh
    split at stepped
    · cases stepped
    · rename_i parent registered
      obtain ⟨_, checked, stepped⟩ := bind_eq_ok stepped
      cases stepped
      exact ⟨named, fresh, registered, rfl,
        Template.checkArity_eq_ok_iff.mp (eq_ok_of_mapError checked)⟩

/-- A walk that comes to its end is at a template without a base, or goes one step up and comes to
its end from there. -/
theorem lineageAt_cases {steps : Nat} {met : List Uri} {l : Layer} {layers : List Layer}
    (walked : lineageAt r table steps met l = .ok layers) :
    l.template.base = none ∧ layers = [l] ∨
      ∃ base id parent rest above, l.template.base = some base ∧ steps = rest + 1 ∧
        l.next r table met base = .ok (id, parent) ∧
        lineageAt r table rest (id :: met) parent = .ok above ∧ layers = above ++ [l] := by
  unfold lineageAt at walked
  split at walked
  · rename_i alone
    cases walked
    exact Or.inl ⟨alone, rfl⟩
  · rename_i base refers
    obtain ⟨⟨id, parent⟩, stepped, walked⟩ := bind_eq_ok walked
    cases steps with
    | zero => cases walked
    | succ rest =>
        obtain ⟨above, higher, walked⟩ := bind_eq_ok walked
        cases walked
        exact Or.inr ⟨base, id, parent, rest, above, refers, rfl, stepped, higher, rfl⟩

/-- What holds of the layer where a walk begins, and goes over from each layer to its base, holds of all
layers. -/
theorem lineageAt_forall {P : Layer → Prop}
    (up : ∀ {met l base id parent}, P l → l.template.base = some base →
      l.next r table met base = .ok (id, parent) → P parent)
    {steps : Nat} {met : List Uri} {l : Layer} {layers : List Layer} (start : P l)
    (walked : lineageAt r table steps met l = .ok layers) : ∀ layer ∈ layers, P layer := by
  induction steps using Nat.strongRecOn generalizing met l layers with
  | ind steps ih =>
      rcases lineageAt_cases walked with
        ⟨_, rfl⟩ | ⟨base, id, parent, rest, above, refers, rfl, stepped, higher, rfl⟩
      · exact List.forall_mem_singleton.mpr start
      · have higherUp := ih rest (Nat.lt_succ_self rest) (up start refers stepped) higher
        exact List.forall_mem_append.mpr ⟨higherUp, List.forall_mem_singleton.mpr start⟩

/-- The layers of a walk, each with the arguments that reach it, are the flat template with the
arguments of the lowest layer. -/
theorem lineageAt_flat {steps : Nat} {met : List Uri} {l : Layer} {layers : List Layer}
    (walked : lineageAt r table steps met l = .ok layers)
    (forwards : Forwards r table l.template) :
    ∃ flat, Flat r table l.template flat ∧
      layers.flatMap Layer.body = graftItems (substituting l.arguments) flat := by
  induction steps using Nat.strongRecOn generalizing met l layers with
  | ind steps ih =>
      rcases lineageAt_cases walked with
        ⟨alone, rfl⟩ | ⟨base, id, parent, rest, above, refers, rfl, stepped, higher, rfl⟩
      · exact ⟨l.template.body, .root alone, List.flatMap_singleton Layer.body l⟩
      · obtain ⟨named, _, registered, forwarded, _⟩ := Layer.next_eq_ok stepped
        have link : BaseOf r table l.template base parent.template :=
          ⟨refers, id, named, registered⟩
        obtain ⟨flat, isFlat, same⟩ := ih rest (Nat.lt_succ_self rest) higher (forwards.parent link)
        have supplied := forwards _ _ _ _ .refl link isFlat
        refine ⟨_, .derived link isFlat, ?_⟩
        calc (above ++ [l]).flatMap Layer.body
            = graftItems (substituting parent.arguments) flat ++ l.body := by
              rw [List.flatMap_append, same, List.flatMap_singleton]
          _ = graftItems (substituting (graftArguments (substituting l.arguments) base.arguments))
                flat ++ graftItems (substituting l.arguments) l.template.body := by
              rw [forwarded, Layer.body]
          _ = graftItems (substituting l.arguments)
                (graftItems (substituting base.arguments) flat ++ l.template.body) := by
              rw [graftItems_append, graftItems_substituting l.arguments supplied]

/-- **Inheritance is static flattening.** Where the merged body of a template exists and every link
forwards what its base needs, it is the one flat form of the template with the arguments substituted
into each item. -/
theorem mergedBody_eq_flat {id : Uri} {t : Template} {args : List Argument} {merged : List Item}
    (done : mergedBody r table id t args = .ok merged) (forwards : Forwards r table t) :
    ∃ flat, (∀ items, Flat r table t items ↔ items = flat) ∧
      merged = graftItems (substituting args) flat := by
  unfold mergedBody lineage at done
  cases walked : lineageAt r table table.size [id] ⟨t, args⟩ with
  | error e =>
      rw [walked] at done
      cases done
  | ok layers =>
      rw [walked] at done
      cases done
      obtain ⟨flat, isFlat, same⟩ := lineageAt_flat walked forwards
      refine ⟨flat, fun items => ⟨fun other => other.unique isFlat, ?_⟩, same⟩
      rintro rfl
      exact isFlat

end Chain

/-! ## A chain of three -/

/-- A template that states its first parameter, and hands both on to its base the other way round.
-/
def swapping (name : String) (base : Option String) : Template where
  name := .ofUri ⟨name⟩
  parameters := [⟨"v", 0⟩, ⟨"w", 1⟩]
  base := base.map fun b => ⟨.ofUri ⟨b⟩, [⟨.param ⟨"w", 1⟩, 0⟩, ⟨.param ⟨"v", 0⟩, 1⟩]⟩
  body := [.property ⟨.name (.ofUri ⟨name⟩), .param ⟨"v", 0⟩, {}⟩]
  location := {}

def swappingTable : TemplateTable where
  byId :=
    [(⟨"a"⟩, swapping "a" none), (⟨"b"⟩, swapping "b" (some "a")), (⟨"c"⟩, swapping "c" (some "b"))]
  order := [⟨"a"⟩, ⟨"b"⟩, ⟨"c"⟩]

/-- Resolution where nothing is bound. -/
def unboundResolver : Resolver := ⟨{}, ⟨⟨"s"⟩⟩, ⟨⟨"p"⟩⟩, none, none⟩

theorem swapping_forwards :
    Forwards unboundResolver swappingTable (swapping "c" (some "b")) := by
  have middle : BaseOf unboundResolver swappingTable (swapping "b" (some "a"))
      ⟨.ofUri ⟨"a"⟩, [⟨.param ⟨"w", 1⟩, 0⟩, ⟨.param ⟨"v", 0⟩, 1⟩]⟩ (swapping "a" none) :=
    ⟨rfl, ⟨"a"⟩, rfl, rfl⟩
  have lower : BaseOf unboundResolver swappingTable (swapping "c" (some "b"))
      ⟨.ofUri ⟨"b"⟩, [⟨.param ⟨"w", 1⟩, 0⟩, ⟨.param ⟨"v", 0⟩, 1⟩]⟩ (swapping "b" (some "a")) :=
    ⟨rfl, ⟨"b"⟩, rfl, rfl⟩
  have top : Flat unboundResolver swappingTable (swapping "a" none) (swapping "a" none).body :=
    .root rfl
  refine forwards_derived lower (.derived middle top) ?_ (forwards_derived middle top ?_ ?_)
  · unfold Supplied
    decide
  · unfold Supplied
    decide
  · exact forwards_root rfl

/-- Two different arguments. -/
def truthValues : List Argument :=
  [⟨.literal (.boolean true), 0⟩, ⟨.literal (.boolean false), 1⟩]

/-- What the chain states of them, swapped once a link: the outermost layer comes first. -/
def swappedItems : List Item :=
  [.property ⟨.name (.ofUri ⟨"a"⟩), .literal (.boolean true), {}⟩,
    .property ⟨.name (.ofUri ⟨"b"⟩), .literal (.boolean false), {}⟩,
    .property ⟨.name (.ofUri ⟨"c"⟩), .literal (.boolean true), {}⟩]

theorem mergedBody_swaps_once_a_link :
    mergedBody unboundResolver swappingTable ⟨"c"⟩ (swapping "c" (some "b")) truthValues =
        .ok swappedItems ∧
      ∃ flat,
        (∀ items, Flat unboundResolver swappingTable (swapping "c" (some "b")) items ↔
          items = flat) ∧
        swappedItems = graftItems (substituting truthValues) flat := by
  have done : mergedBody unboundResolver swappingTable ⟨"c"⟩ (swapping "c" (some "b"))
      truthValues = .ok swappedItems := rfl
  exact ⟨done, mergedBody_eq_flat done swapping_forwards⟩

end Stencil
