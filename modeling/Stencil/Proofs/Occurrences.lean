/- # Proofs.Occurrences -- what occurs in a node, before and after a graft

Beside the parameter references of a node (`params`) stand the expansions in it, at any depth and the
node itself included (`expansions`). A condition on both is `Confined`. The one lemma of this module,
proved by one recursion over all kinds of node, is that grafting carries such conditions over
(`confined_graft`): what is in the grafted node was in the node and has been grafted, or it came with
a leaf that was put in.
-/
import Stencil.Proofs.GraftLaws

namespace Stencil
set_option autoImplicit false

/-! ## The expansions that occur -/

mutual

def Expr.expansions : Expr → List Expansion
  | .literal _ => []
  | .name _ => []
  | .param _ => []
  | .expansion e => e.expansions

def Argument.expansions : Argument → List Expansion
  | ⟨value, _⟩ => value.expansions

def Property.expansions : Property → List Expansion
  | ⟨name, value, _⟩ => name.expansions ++ value.expansions

def ExtensionArg.expansions : ExtensionArg → List Expansion
  | .expr e => e.expansions
  | .extension x => x.expansions

def Extension.expansions : Extension → List Expansion
  | ⟨_, arguments, _⟩ => extensionArgExpansions arguments

def Item.expansions : Item → List Expansion
  | .property p => p.expansions
  | .expansion e => e.expansions
  | .extension x => x.expansions

def Expansion.expansions : Expansion → List Expansion
  | ⟨name, template, arguments, body, location⟩ =>
    ⟨name, template, arguments, body, location⟩ ::
      (template.expansions ++ (argumentExpansions arguments ++ itemExpansions body))

def argumentExpansions : List Argument → List Expansion
  | [] => []
  | a :: as => a.expansions ++ argumentExpansions as

def extensionArgExpansions : List ExtensionArg → List Expansion
  | [] => []
  | a :: as => a.expansions ++ extensionArgExpansions as

def itemExpansions : List Item → List Expansion
  | [] => []
  | i :: is => i.expansions ++ itemExpansions is

end

/-! ## Conditions on what occurs -/

/-- All parameters of a list and all expansions of another meet a condition. -/
structure Confined (P : Parameter → Prop) (Q : Expansion → Prop) (ps : List Parameter)
    (es : List Expansion) : Prop where
  params : ∀ p ∈ ps, P p
  expansions : ∀ e ∈ es, Q e

section Confinement

variable {P P' : Parameter → Prop} {Q Q' : Expansion → Prop}

theorem confined_nil : Confined P Q [] [] := ⟨by simp, by simp⟩

@[simp] theorem confined_append {ps qs : List Parameter} {es fs : List Expansion} :
    Confined P Q (ps ++ qs) (es ++ fs) ↔ Confined P Q ps es ∧ Confined P Q qs fs := by
  constructor
  · rintro ⟨params, expansions⟩
    rw [List.forall_mem_append] at params expansions
    exact ⟨⟨params.1, expansions.1⟩, ⟨params.2, expansions.2⟩⟩
  · rintro ⟨first, second⟩
    exact ⟨List.forall_mem_append.mpr ⟨first.params, second.params⟩,
      List.forall_mem_append.mpr ⟨first.expansions, second.expansions⟩⟩

/-- What occurs in an expansion, apart from itself, occurs in one of its parts. -/
theorem confined_expansion {name : Option Name} {template : Expr} {arguments : List Argument}
    {body : List Item} {location : Location} :
    Confined P Q (Expansion.mk name template arguments body location).params
        (Expansion.mk name template arguments body location).expansions ↔
      Q ⟨name, template, arguments, body, location⟩ ∧
        Confined P Q template.params template.expansions ∧
        Confined P Q (argumentParams arguments) (argumentExpansions arguments) ∧
        Confined P Q (itemParams body) (itemExpansions body) := by
  rw [Expansion.params, Expansion.expansions, ← confined_append, ← confined_append]
  constructor
  · rintro ⟨params, expansions⟩
    rw [List.forall_mem_cons] at expansions
    exact ⟨expansions.1, params, expansions.2⟩
  · rintro ⟨itself, params, expansions⟩
    exact ⟨params, List.forall_mem_cons.mpr ⟨itself, expansions⟩⟩

theorem confined_arguments_iff {as : List Argument} :
    Confined P Q (argumentParams as) (argumentExpansions as) ↔
      ∀ a ∈ as, Confined P Q a.value.params a.value.expansions := by
  induction as with
  | nil => simpa [argumentParams, argumentExpansions] using confined_nil
  | cons a as ih =>
      obtain ⟨value, position⟩ := a
      rw [argumentParams, argumentExpansions, confined_append, ih, List.forall_mem_cons,
        Argument.params, Argument.expansions]

theorem confined_items_iff {is : List Item} :
    Confined P Q (itemParams is) (itemExpansions is) ↔
      ∀ i ∈ is, Confined P Q i.params i.expansions := by
  induction is with
  | nil => simpa [itemParams, itemExpansions] using confined_nil
  | cons i is ih => rw [itemParams, itemExpansions, confined_append, ih, List.forall_mem_cons]

theorem confined_items_append {is js : List Item} :
    Confined P Q (itemParams (is ++ js)) (itemExpansions (is ++ js)) ↔
      Confined P Q (itemParams is) (itemExpansions is) ∧
        Confined P Q (itemParams js) (itemExpansions js) := by
  rw [confined_items_iff, confined_items_iff, confined_items_iff, List.forall_mem_append]

theorem confined_items_flatMap {α : Type} {f : α → List Item} {as : List α}
    (each : ∀ a ∈ as, Confined P Q (itemParams (f a)) (itemExpansions (f a))) :
    Confined P Q (itemParams (as.flatMap f)) (itemExpansions (as.flatMap f)) := by
  refine confined_items_iff.mpr fun i held => ?_
  obtain ⟨a, listed, inside⟩ := List.mem_flatMap.mp held
  exact confined_items_iff.mp (each a listed) i inside

/-! ## Grafting -/

/-- A graft takes nodes that meet the first conditions to nodes that meet the second: whatever it
puts in for a name or for a parameter meets them, and so does an expansion that has been grafted. -/
structure Grafting.Carries (g : Grafting) (P' : Parameter → Prop) (Q' : Expansion → Prop)
    (P : Parameter → Prop) (Q : Expansion → Prop) : Prop where
  name : ∀ n, Confined P Q (g.name n).params (g.name n).expansions
  param : ∀ p, P' p → Confined P Q (g.param p).params (g.param p).expansions
  expansion : ∀ e, Q' e → Q (e.graft g)

variable {g : Grafting}

mutual

theorem Expr.confined_graft (carries : g.Carries P' Q' P Q) :
    ∀ e : Expr, Confined P' Q' e.params e.expansions →
      Confined P Q (e.graft g).params (e.graft g).expansions
  | .literal l, _ => by simpa only [Expr.graft, Expr.params, Expr.expansions] using confined_nil
  | .name n, _ => by
      simp only [Expr.graft]
      exact carries.name n
  | .param p, confined => by
      simp only [Expr.graft]
      exact carries.param p (confined.params p (by simp [Expr.params]))
  | .expansion e, confined => by
      simp only [Expr.graft, Expr.params, Expr.expansions] at confined ⊢
      exact Expansion.confined_graft carries e confined

theorem Argument.confined_graft (carries : g.Carries P' Q' P Q) :
    ∀ a : Argument, Confined P' Q' a.params a.expansions →
      Confined P Q (a.graft g).params (a.graft g).expansions
  | ⟨value, position⟩, confined => by
      simp only [Argument.graft, Argument.params, Argument.expansions] at confined ⊢
      exact Expr.confined_graft carries value confined

theorem Property.confined_graft (carries : g.Carries P' Q' P Q) :
    ∀ p : Property, Confined P' Q' p.params p.expansions →
      Confined P Q (p.graft g).params (p.graft g).expansions
  | ⟨name, value, location⟩, confined => by
      simp only [Property.graft, Property.params, Property.expansions, confined_append]
        at confined ⊢
      exact ⟨Expr.confined_graft carries name confined.1,
        Expr.confined_graft carries value confined.2⟩

theorem ExtensionArg.confined_graft (carries : g.Carries P' Q' P Q) :
    ∀ a : ExtensionArg, Confined P' Q' a.params a.expansions →
      Confined P Q (a.graft g).params (a.graft g).expansions
  | .expr e, confined => by
      simp only [ExtensionArg.graft, ExtensionArg.params, ExtensionArg.expansions] at confined ⊢
      exact Expr.confined_graft carries e confined
  | .extension x, confined => by
      simp only [ExtensionArg.graft, ExtensionArg.params, ExtensionArg.expansions] at confined ⊢
      exact Extension.confined_graft carries x confined

theorem Extension.confined_graft (carries : g.Carries P' Q' P Q) :
    ∀ x : Extension, Confined P' Q' x.params x.expansions →
      Confined P Q (x.graft g).params (x.graft g).expansions
  | ⟨validator, arguments, location⟩, confined => by
      simp only [Extension.graft, Extension.params, Extension.expansions] at confined ⊢
      exact confined_graftExtensionArgs carries arguments confined

theorem Item.confined_graft (carries : g.Carries P' Q' P Q) :
    ∀ i : Item, Confined P' Q' i.params i.expansions →
      Confined P Q (i.graft g).params (i.graft g).expansions
  | .property p, confined => by
      simp only [Item.graft, Item.params, Item.expansions] at confined ⊢
      exact Property.confined_graft carries p confined
  | .expansion e, confined => by
      simp only [Item.graft, Item.params, Item.expansions] at confined ⊢
      exact Expansion.confined_graft carries e confined
  | .extension x, confined => by
      simp only [Item.graft, Item.params, Item.expansions] at confined ⊢
      exact Extension.confined_graft carries x confined

theorem Expansion.confined_graft (carries : g.Carries P' Q' P Q) :
    ∀ e : Expansion, Confined P' Q' e.params e.expansions →
      Confined P Q (e.graft g).params (e.graft g).expansions
  | ⟨name, template, arguments, body, location⟩, confined => by
      rw [confined_expansion] at confined
      obtain ⟨itself, inTemplate, inArguments, inBody⟩ := confined
      have grafted := carries.expansion _ itself
      simp only [Expansion.graft] at grafted ⊢
      rw [confined_expansion]
      exact ⟨grafted, Expr.confined_graft carries template inTemplate,
        confined_graftArguments carries arguments inArguments,
        confined_graftItems carries body inBody⟩

theorem confined_graftArguments (carries : g.Carries P' Q' P Q) :
    ∀ as : List Argument, Confined P' Q' (argumentParams as) (argumentExpansions as) →
      Confined P Q (argumentParams (graftArguments g as)) (argumentExpansions (graftArguments g as))
  | [], _ => by
      simpa only [graftArguments, argumentParams, argumentExpansions] using confined_nil
  | a :: as, confined => by
      simp only [graftArguments, argumentParams, argumentExpansions, confined_append]
        at confined ⊢
      exact ⟨Argument.confined_graft carries a confined.1,
        confined_graftArguments carries as confined.2⟩

theorem confined_graftExtensionArgs (carries : g.Carries P' Q' P Q) :
    ∀ as : List ExtensionArg, Confined P' Q' (extensionArgParams as) (extensionArgExpansions as) →
      Confined P Q (extensionArgParams (graftExtensionArgs g as))
        (extensionArgExpansions (graftExtensionArgs g as))
  | [], _ => by
      simpa only [graftExtensionArgs, extensionArgParams, extensionArgExpansions] using confined_nil
  | a :: as, confined => by
      simp only [graftExtensionArgs, extensionArgParams, extensionArgExpansions, confined_append]
        at confined ⊢
      exact ⟨ExtensionArg.confined_graft carries a confined.1,
        confined_graftExtensionArgs carries as confined.2⟩

theorem confined_graftItems (carries : g.Carries P' Q' P Q) :
    ∀ is : List Item, Confined P' Q' (itemParams is) (itemExpansions is) →
      Confined P Q (itemParams (graftItems g is)) (itemExpansions (graftItems g is))
  | [], _ => by simpa only [graftItems, itemParams, itemExpansions] using confined_nil
  | i :: is, confined => by
      simp only [graftItems, itemParams, itemExpansions, confined_append] at confined ⊢
      exact ⟨Item.confined_graft carries i confined.1, confined_graftItems carries is confined.2⟩

end

end Confinement

end Stencil
