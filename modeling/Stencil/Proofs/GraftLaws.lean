/- # Proofs.GraftLaws -- what a graft comes to

Grafting puts something in place of the names and parameter references of a node, and what it puts
in is not walked by the same graft. Three laws say all that is used of it, each of every kind of node
and by one recursion over all of them:

* `graft_id`: putting names and parameter references in place of themselves changes nothing;
* `graft_graft`: two grafts in a row are one, whose leaves are those of the first with the second
  applied to them (`Grafting.andThen`);
* `graft_eq_iff`: two grafts give the same node just if they agree on the names and the parameter
  references that occur in it (`Grafting.Agrees`).

For arguments the last two are the composition law: substituting twice is substituting once, the
arguments of the first time having been substituted into (`graftItems_substituting`). It needs every
parameter that occurs to have an argument the first time. One that has none stays as it is, and the
second substitution would take it for a parameter of its own.
-/
import Stencil.Program.Graft

namespace Stencil
set_option autoImplicit false

/-! ## The names and the parameter references that occur -/

mutual

/-- The names that stand as expressions. -/
def Expr.names : Expr → List Name
  | .literal _ => []
  | .name n => [n]
  | .param _ => []
  | .expansion e => e.names

def Argument.names : Argument → List Name
  | ⟨value, _⟩ => value.names

def Property.names : Property → List Name
  | ⟨name, value, _⟩ => name.names ++ value.names

def ExtensionArg.names : ExtensionArg → List Name
  | .expr e => e.names
  | .extension x => x.names

def Extension.names : Extension → List Name
  | ⟨_, arguments, _⟩ => extensionArgNames arguments

def Item.names : Item → List Name
  | .property p => p.names
  | .expansion e => e.names
  | .extension x => x.names

def Expansion.names : Expansion → List Name
  | ⟨_, template, arguments, body, _⟩ =>
    template.names ++ (argumentNames arguments ++ itemNames body)

def argumentNames : List Argument → List Name
  | [] => []
  | a :: as => a.names ++ argumentNames as

def extensionArgNames : List ExtensionArg → List Name
  | [] => []
  | a :: as => a.names ++ extensionArgNames as

def itemNames : List Item → List Name
  | [] => []
  | i :: is => i.names ++ itemNames is

end

mutual

/-- The references to parameters. -/
def Expr.params : Expr → List Parameter
  | .literal _ => []
  | .name _ => []
  | .param p => [p]
  | .expansion e => e.params

def Argument.params : Argument → List Parameter
  | ⟨value, _⟩ => value.params

def Property.params : Property → List Parameter
  | ⟨name, value, _⟩ => name.params ++ value.params

def ExtensionArg.params : ExtensionArg → List Parameter
  | .expr e => e.params
  | .extension x => x.params

def Extension.params : Extension → List Parameter
  | ⟨_, arguments, _⟩ => extensionArgParams arguments

def Item.params : Item → List Parameter
  | .property p => p.params
  | .expansion e => e.params
  | .extension x => x.params

def Expansion.params : Expansion → List Parameter
  | ⟨_, template, arguments, body, _⟩ =>
    template.params ++ (argumentParams arguments ++ itemParams body)

def argumentParams : List Argument → List Parameter
  | [] => []
  | a :: as => a.params ++ argumentParams as

def extensionArgParams : List ExtensionArg → List Parameter
  | [] => []
  | a :: as => a.params ++ extensionArgParams as

def itemParams : List Item → List Parameter
  | [] => []
  | i :: is => i.params ++ itemParams is

end

/-! ## Nothing put in place -/

mutual

theorem Expr.graft_id : ∀ e : Expr, e.graft {} = e
  | .literal _ | .name _ | .param _ => rfl
  | .expansion e => by simp only [Expr.graft, Expansion.graft_id e]

theorem Argument.graft_id : ∀ a : Argument, a.graft {} = a
  | ⟨value, _⟩ => by simp only [Argument.graft, Expr.graft_id value]

theorem Property.graft_id : ∀ p : Property, p.graft {} = p
  | ⟨name, value, _⟩ => by simp only [Property.graft, Expr.graft_id name, Expr.graft_id value]

theorem ExtensionArg.graft_id : ∀ a : ExtensionArg, a.graft {} = a
  | .expr e => by simp only [ExtensionArg.graft, Expr.graft_id e]
  | .extension x => by simp only [ExtensionArg.graft, Extension.graft_id x]

theorem Extension.graft_id : ∀ x : Extension, x.graft {} = x
  | ⟨_, arguments, _⟩ => by simp only [Extension.graft, graftExtensionArgs_id arguments]

theorem Item.graft_id : ∀ i : Item, i.graft {} = i
  | .property p => by simp only [Item.graft, Property.graft_id p]
  | .expansion e => by simp only [Item.graft, Expansion.graft_id e]
  | .extension x => by simp only [Item.graft, Extension.graft_id x]

theorem Expansion.graft_id : ∀ e : Expansion, e.graft {} = e
  | ⟨_, template, arguments, body, _⟩ => by
      simp only [Expansion.graft, Expr.graft_id template, graftArguments_id arguments,
        graftItems_id body]

theorem graftArguments_id : ∀ as : List Argument, graftArguments {} as = as
  | [] => rfl
  | a :: as => by simp only [graftArguments, Argument.graft_id a, graftArguments_id as]

theorem graftExtensionArgs_id : ∀ as : List ExtensionArg, graftExtensionArgs {} as = as
  | [] => rfl
  | a :: as => by simp only [graftExtensionArgs, ExtensionArg.graft_id a, graftExtensionArgs_id as]

theorem graftItems_id : ∀ is : List Item, graftItems {} is = is
  | [] => rfl
  | i :: is => by simp only [graftItems, Item.graft_id i, graftItems_id is]

end

/-! ## One walk for two -/

/-- Grafting with one and then with the other. -/
def Grafting.andThen (g h : Grafting) : Grafting where
  name n := (g.name n).graft h
  param p := (g.param p).graft h

section Composition

variable (g h : Grafting)

mutual

theorem Expr.graft_graft : ∀ e : Expr, (e.graft g).graft h = e.graft (g.andThen h)
  | .literal _ | .name _ | .param _ => rfl
  | .expansion e => by simp only [Expr.graft, Expansion.graft_graft e]

theorem Argument.graft_graft : ∀ a : Argument, (a.graft g).graft h = a.graft (g.andThen h)
  | ⟨value, _⟩ => by simp only [Argument.graft, Expr.graft_graft value]

theorem Property.graft_graft : ∀ p : Property, (p.graft g).graft h = p.graft (g.andThen h)
  | ⟨name, value, _⟩ => by
      simp only [Property.graft, Expr.graft_graft name, Expr.graft_graft value]

theorem ExtensionArg.graft_graft :
    ∀ a : ExtensionArg, (a.graft g).graft h = a.graft (g.andThen h)
  | .expr e => by simp only [ExtensionArg.graft, Expr.graft_graft e]
  | .extension x => by simp only [ExtensionArg.graft, Extension.graft_graft x]

theorem Extension.graft_graft : ∀ x : Extension, (x.graft g).graft h = x.graft (g.andThen h)
  | ⟨_, arguments, _⟩ => by simp only [Extension.graft, graftExtensionArgs_graft arguments]

theorem Item.graft_graft : ∀ i : Item, (i.graft g).graft h = i.graft (g.andThen h)
  | .property p => by simp only [Item.graft, Property.graft_graft p]
  | .expansion e => by simp only [Item.graft, Expansion.graft_graft e]
  | .extension x => by simp only [Item.graft, Extension.graft_graft x]

theorem Expansion.graft_graft : ∀ e : Expansion, (e.graft g).graft h = e.graft (g.andThen h)
  | ⟨_, template, arguments, body, _⟩ => by
      simp only [Expansion.graft, Expr.graft_graft template, graftArguments_graft arguments,
        graftItems_graft body]

theorem graftArguments_graft :
    ∀ as : List Argument, graftArguments h (graftArguments g as) = graftArguments (g.andThen h) as
  | [] => rfl
  | a :: as => by simp only [graftArguments, Argument.graft_graft a, graftArguments_graft as]

theorem graftExtensionArgs_graft :
    ∀ as : List ExtensionArg,
      graftExtensionArgs h (graftExtensionArgs g as) = graftExtensionArgs (g.andThen h) as
  | [] => rfl
  | a :: as => by
      simp only [graftExtensionArgs, ExtensionArg.graft_graft a, graftExtensionArgs_graft as]

theorem graftItems_graft :
    ∀ is : List Item, graftItems h (graftItems g is) = graftItems (g.andThen h) is
  | [] => rfl
  | i :: is => by simp only [graftItems, Item.graft_graft i, graftItems_graft is]

end

end Composition

/-! ## Grafts that agree -/

/-- Two grafts put the same in place of these names and of these parameter references. -/
structure Grafting.Agrees (g h : Grafting) (ns : List Name) (ps : List Parameter) : Prop where
  names : ∀ n ∈ ns, g.name n = h.name n
  params : ∀ p ∈ ps, g.param p = h.param p

section Agreement

variable {g h : Grafting}

theorem agrees_nil : g.Agrees h [] [] := ⟨List.forall_mem_nil _, List.forall_mem_nil _⟩

theorem agrees_append {ns ms : List Name} {ps qs : List Parameter} :
    g.Agrees h (ns ++ ms) (ps ++ qs) ↔ g.Agrees h ns ps ∧ g.Agrees h ms qs := by
  constructor
  · rintro ⟨names, params⟩
    rw [List.forall_mem_append] at names params
    exact ⟨⟨names.1, params.1⟩, ⟨names.2, params.2⟩⟩
  · rintro ⟨first, second⟩
    exact ⟨List.forall_mem_append.mpr ⟨first.names, second.names⟩,
      List.forall_mem_append.mpr ⟨first.params, second.params⟩⟩

mutual

theorem Expr.graft_eq_iff : ∀ e : Expr, e.graft g = e.graft h ↔ g.Agrees h e.names e.params
  | .literal _ => iff_of_true rfl agrees_nil
  | .name n => by
      simp only [Expr.graft, Expr.names, Expr.params]
      exact ⟨fun same => ⟨by simpa using same, by simp⟩, fun agrees => agrees.names n (by simp)⟩
  | .param p => by
      simp only [Expr.graft, Expr.names, Expr.params]
      exact ⟨fun same => ⟨by simp, by simpa using same⟩, fun agrees => agrees.params p (by simp)⟩
  | .expansion e => by
      rw [Expr.graft, Expr.graft, Expr.names, Expr.params, Expr.expansion.injEq]
      exact Expansion.graft_eq_iff e

theorem Argument.graft_eq_iff :
    ∀ a : Argument, a.graft g = a.graft h ↔ g.Agrees h a.names a.params
  | ⟨value, _⟩ => by
      simp only [Argument.graft, Argument.names, Argument.params, Argument.mk.injEq, and_true]
      exact Expr.graft_eq_iff value

theorem Property.graft_eq_iff :
    ∀ p : Property, p.graft g = p.graft h ↔ g.Agrees h p.names p.params
  | ⟨name, value, _⟩ => by
      simp only [Property.graft, Property.names, Property.params, Property.mk.injEq, and_true,
        agrees_append, Expr.graft_eq_iff name, Expr.graft_eq_iff value]

theorem ExtensionArg.graft_eq_iff :
    ∀ a : ExtensionArg, a.graft g = a.graft h ↔ g.Agrees h a.names a.params
  | .expr e => by
      rw [ExtensionArg.graft, ExtensionArg.graft, ExtensionArg.names, ExtensionArg.params,
        ExtensionArg.expr.injEq]
      exact Expr.graft_eq_iff e
  | .extension x => by
      rw [ExtensionArg.graft, ExtensionArg.graft, ExtensionArg.names, ExtensionArg.params,
        ExtensionArg.extension.injEq]
      exact Extension.graft_eq_iff x

theorem Extension.graft_eq_iff :
    ∀ x : Extension, x.graft g = x.graft h ↔ g.Agrees h x.names x.params
  | ⟨_, arguments, _⟩ => by
      simp only [Extension.graft, Extension.names, Extension.params, Extension.mk.injEq, true_and,
        and_true]
      exact graftExtensionArgs_eq_iff arguments

theorem Item.graft_eq_iff : ∀ i : Item, i.graft g = i.graft h ↔ g.Agrees h i.names i.params
  | .property p => by
      rw [Item.graft, Item.graft, Item.names, Item.params, Item.property.injEq]
      exact Property.graft_eq_iff p
  | .expansion e => by
      rw [Item.graft, Item.graft, Item.names, Item.params, Item.expansion.injEq]
      exact Expansion.graft_eq_iff e
  | .extension x => by
      rw [Item.graft, Item.graft, Item.names, Item.params, Item.extension.injEq]
      exact Extension.graft_eq_iff x

theorem Expansion.graft_eq_iff :
    ∀ e : Expansion, e.graft g = e.graft h ↔ g.Agrees h e.names e.params
  | ⟨_, template, arguments, body, _⟩ => by
      simp only [Expansion.graft, Expansion.names, Expansion.params, Expansion.mk.injEq, true_and,
        and_true, agrees_append, Expr.graft_eq_iff template, graftArguments_eq_iff arguments,
        graftItems_eq_iff body]

theorem graftArguments_eq_iff :
    ∀ as : List Argument,
      graftArguments g as = graftArguments h as ↔ g.Agrees h (argumentNames as) (argumentParams as)
  | [] => iff_of_true rfl agrees_nil
  | a :: as => by
      simp only [graftArguments, argumentNames, argumentParams, List.cons.injEq, agrees_append,
        Argument.graft_eq_iff a, graftArguments_eq_iff as]

theorem graftExtensionArgs_eq_iff :
    ∀ as : List ExtensionArg,
      graftExtensionArgs g as = graftExtensionArgs h as ↔
        g.Agrees h (extensionArgNames as) (extensionArgParams as)
  | [] => iff_of_true rfl agrees_nil
  | a :: as => by
      simp only [graftExtensionArgs, extensionArgNames, extensionArgParams, List.cons.injEq,
        agrees_append, ExtensionArg.graft_eq_iff a, graftExtensionArgs_eq_iff as]

theorem graftItems_eq_iff :
    ∀ is : List Item,
      graftItems g is = graftItems h is ↔ g.Agrees h (itemNames is) (itemParams is)
  | [] => iff_of_true rfl agrees_nil
  | i :: is => by
      simp only [graftItems, itemNames, itemParams, List.cons.injEq, agrees_append,
        Item.graft_eq_iff i, graftItems_eq_iff is]

end

end Agreement

/-! ## Arguments into arguments -/

@[simp] theorem Argument.position_graft (g : Grafting) (a : Argument) :
    (a.graft g).position = a.position := by
  cases a
  rfl

@[simp] theorem Argument.value_graft (g : Grafting) (a : Argument) :
    (a.graft g).value = a.value.graft g := by
  cases a
  rfl

/-- Every parameter of a list has an argument at its position. -/
def Supplied (as : List Argument) (ps : List Parameter) : Prop :=
  ∀ p ∈ ps, ∃ a ∈ as, a.position = p.position

theorem exists_first_argument {as : List Argument} {p : Parameter}
    (given : ∃ a ∈ as, a.position = p.position) :
    ∃ a, as.find? (·.position = p.position) = some a := by
  rw [← Option.isSome_iff_exists]
  simpa using given

/-- A parameter that has an argument becomes the first one at its position. -/
theorem substituting_param_eq_value {as : List Argument} {p : Parameter} {a : Argument}
    (first : as.find? (·.position = p.position) = some a) :
    (substituting as).param p = a.value := by
  simp only [substituting, first]

/-- A parameter that has none stays. -/
theorem substituting_param_eq_param {as : List Argument} {p : Parameter}
    (missing : ¬∃ a ∈ as, a.position = p.position) : (substituting as).param p = .param p := by
  have none_found : as.find? (·.position = p.position) = none := by
    simpa using missing
  simp only [substituting, none_found]

theorem substituting_name_graft (as bs cs : List Argument) (n : Name) :
    ((substituting as).name n).graft (substituting bs) = (substituting cs).name n := by
  simp only [substituting, Expr.graft]

/-- The argument of a parameter, substituted into, is the argument that it has among those
substituted into. -/
theorem substituting_param_graft {as : List Argument} (bs : List Argument) {p : Parameter}
    (given : ∃ a ∈ as, a.position = p.position) :
    ((substituting as).param p).graft (substituting bs) =
      (substituting (graftArguments (substituting bs) as)).param p := by
  have same : (fun a : Argument => decide (a.position = p.position)) ∘
      Argument.graft (substituting bs) = fun a => decide (a.position = p.position) := by
    funext a
    simp only [Function.comp_apply, Argument.position_graft]
  obtain ⟨a, first⟩ := exists_first_argument given
  have first_grafted : (graftArguments (substituting bs) as).find? (·.position = p.position) =
      some (a.graft (substituting bs)) := by
    rw [graftArguments_eq_map, List.find?_map, same, first, Option.map_some]
  rw [substituting_param_eq_value first, substituting_param_eq_value first_grafted,
    Argument.value_graft]

/-- **Substitution composes** on the items of a body. -/
theorem graftItems_substituting {as : List Argument} (bs : List Argument) {is : List Item}
    (supplied : Supplied as (itemParams is)) :
    graftItems (substituting bs) (graftItems (substituting as) is) =
      graftItems (substituting (graftArguments (substituting bs) as)) is := by
  rw [graftItems_graft, graftItems_eq_iff]
  exact ⟨fun n _ => substituting_name_graft as bs _ n,
    fun p occurs => substituting_param_graft bs (supplied p occurs)⟩


/-! ## Parameter references stay -/

/-- A name that became a parameter reference, or stayed a name, does so for good. -/
theorem parameterising_name_graft (ps : List Parameter) (n : Name) :
    ((parameterising ps).name n).graft (parameterising ps) = (parameterising ps).name n := by
  cases found : n.symbol?.bind fun s => ps.find? (·.name = s) with
  | some p => simp only [parameterising, found, Expr.graft]
  | none => simp only [parameterising, found, Expr.graft]

theorem parameterising_andThen_self (ps : List Parameter) :
    (parameterising ps).andThen (parameterising ps) = parameterising ps := by
  have names : (fun n => ((parameterising ps).name n).graft (parameterising ps)) =
      (parameterising ps).name := funext (parameterising_name_graft ps)
  rw [Grafting.andThen, names]
  rfl

theorem graftItems_parameterising (ps : List Parameter) (is : List Item) :
    graftItems (parameterising ps) (graftItems (parameterising ps) is) =
      graftItems (parameterising ps) is := by
  rw [graftItems_graft, parameterising_andThen_self]

theorem graftArguments_parameterising (ps : List Parameter) (as : List Argument) :
    graftArguments (parameterising ps) (graftArguments (parameterising ps) as) =
      graftArguments (parameterising ps) as := by
  rw [graftArguments_graft, parameterising_andThen_self]

/-! ## Bodies -/

theorem graftItems_append (g : Grafting) (is js : List Item) :
    graftItems g (is ++ js) = graftItems g is ++ graftItems g js := by
  simp only [graftItems_eq_map, List.map_append]

end Stencil
