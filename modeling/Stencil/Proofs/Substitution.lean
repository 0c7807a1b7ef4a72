/- # Proofs.Substitution -- what substitution comes to, at every kind of node

A template is prepared by parameterising and instantiated by substituting: names become parameter
references, parameter references become arguments. Two laws say what these come to, for each of the
eight kinds of node in which expressions stand (`Node`).

The two steps in a row are one replacement of names (`Node.substitute_parameterise`). What is meant
by replacement is written down on its own, without `graft`: `replace` looks up every expression that
is one symbol, takes what it finds as it stands and goes on everywhere else. The walk is shared by the
two steps, because both visit the same positions and differ only in the kind of leaf they replace, so
that no reference made by the first is missed by the second. What remains to be shown is that the
second finds for each of them the argument of the parameter that was named, that it does not walk what
it puts in, and that the places visited are just those where `replace` looks.

Two substitutions in a row are one (`Node.substitute_composes`), where every parameter that occurs
has an argument the first time, and only there: the second substitution takes a parameter that was
left over for one of its own.
-/
import Stencil.Proofs.GraftLaws

namespace Stencil
set_option autoImplicit false

/-! ## Nodes -/

/-- A piece of a program in which expressions stand. -/
inductive Node where
  | expr (e : Expr)
  | argument (a : Argument)
  | property (p : Property)
  | extensionArg (a : ExtensionArg)
  | extension (x : Extension)
  | item (i : Item)
  | expansion (e : Expansion)
  | base (b : Base)

namespace Node

def graft (g : Grafting) : Node → Node
  | .expr e => .expr (e.graft g)
  | .argument a => .argument (a.graft g)
  | .property p => .property (p.graft g)
  | .extensionArg a => .extensionArg (a.graft g)
  | .extension x => .extension (x.graft g)
  | .item i => .item (i.graft g)
  | .expansion e => .expansion (e.graft g)
  | .base b => .base (b.graft g)

/-- The node with references to these parameters in place of their names. -/
def parameterise (ps : List Parameter) (node : Node) : Node := node.graft (parameterising ps)

/-- The node with these arguments in place of the references to parameters. -/
def substitute (as : List Argument) (node : Node) : Node := node.graft (substituting as)

def params : Node → List Parameter
  | .expr e => e.params
  | .argument a => a.params
  | .property p => p.params
  | .extensionArg a => a.params
  | .extension x => x.params
  | .item i => i.params
  | .expansion e => e.params
  | .base b => argumentParams b.arguments

def names : Node → List Name
  | .expr e => e.names
  | .argument a => a.names
  | .property p => p.names
  | .extensionArg a => a.names
  | .extension x => x.names
  | .item i => i.names
  | .expansion e => e.names
  | .base b => argumentNames b.arguments

theorem graft_graft (g h : Grafting) (node : Node) :
    (node.graft g).graft h = node.graft (g.andThen h) := by
  cases node with
  | expr e => exact congrArg Node.expr (e.graft_graft g h)
  | argument a => exact congrArg Node.argument (a.graft_graft g h)
  | property p => exact congrArg Node.property (p.graft_graft g h)
  | extensionArg a => exact congrArg Node.extensionArg (a.graft_graft g h)
  | extension x => exact congrArg Node.extension (x.graft_graft g h)
  | item i => exact congrArg Node.item (i.graft_graft g h)
  | expansion e => exact congrArg Node.expansion (e.graft_graft g h)
  | base b => simp only [graft, Base.graft, graftArguments_graft]

theorem graft_eq_iff {g h : Grafting} (node : Node) :
    node.graft g = node.graft h ↔ g.Agrees h node.names node.params := by
  cases node with
  | expr e => simp only [graft, names, params, expr.injEq, e.graft_eq_iff]
  | argument a => simp only [graft, names, params, argument.injEq, a.graft_eq_iff]
  | property p => simp only [graft, names, params, property.injEq, p.graft_eq_iff]
  | extensionArg a => simp only [graft, names, params, extensionArg.injEq, a.graft_eq_iff]
  | extension x => simp only [graft, names, params, extension.injEq, x.graft_eq_iff]
  | item i => simp only [graft, names, params, item.injEq, i.graft_eq_iff]
  | expansion e => simp only [graft, names, params, expansion.injEq, e.graft_eq_iff]
  | base b =>
    simp only [graft, names, params, Base.graft, base.injEq, Base.mk.injEq, true_and,
      graftArguments_eq_iff]

end Node

/-! ## Replacement of names -/

mutual

/-- What `f` has for a name that is one symbol stands in place of that name, and is taken as it is;
everything else is kept. -/
def Expr.replace (f : String → Option Expr) : Expr → Expr
  | .name ⟨.symbol s, []⟩ => (f s).getD (.name (.ofSymbol s))
  | .name n => .name n
  | .expansion e => .expansion (e.replace f)
  | .literal l => .literal l
  | .param p => .param p

def Argument.replace (f : String → Option Expr) : Argument → Argument
  | ⟨value, position⟩ => ⟨value.replace f, position⟩

def Property.replace (f : String → Option Expr) : Property → Property
  | ⟨name, value, location⟩ => ⟨name.replace f, value.replace f, location⟩

def ExtensionArg.replace (f : String → Option Expr) : ExtensionArg → ExtensionArg
  | .expr e => .expr (e.replace f)
  | .extension x => .extension (x.replace f)

def Extension.replace (f : String → Option Expr) : Extension → Extension
  | ⟨validator, arguments, location⟩ => ⟨validator, replaceExtensionArgs f arguments, location⟩

def Item.replace (f : String → Option Expr) : Item → Item
  | .property p => .property (p.replace f)
  | .expansion e => .expansion (e.replace f)
  | .extension x => .extension (x.replace f)

def Expansion.replace (f : String → Option Expr) : Expansion → Expansion
  | ⟨name, template, arguments, body, location⟩ =>
    ⟨name, template.replace f, replaceArguments f arguments, replaceItems f body, location⟩

def replaceArguments (f : String → Option Expr) : List Argument → List Argument
  | [] => []
  | a :: as => a.replace f :: replaceArguments f as

def replaceExtensionArgs (f : String → Option Expr) : List ExtensionArg → List ExtensionArg
  | [] => []
  | a :: as => a.replace f :: replaceExtensionArgs f as

def replaceItems (f : String → Option Expr) : List Item → List Item
  | [] => []
  | i :: is => i.replace f :: replaceItems f is

end

def Node.replace (f : String → Option Expr) : Node → Node
  | .expr e => .expr (e.replace f)
  | .argument a => .argument (a.replace f)
  | .property p => .property (p.replace f)
  | .extensionArg a => .extensionArg (a.replace f)
  | .extension x => .extension (x.replace f)
  | .item i => .item (i.replace f)
  | .expansion e => .expansion (e.replace f)
  | .base ⟨template, arguments⟩ => .base ⟨template, replaceArguments f arguments⟩

/-- The first argument at the position of the first parameter of a name. -/
def argumentFor (ps : List Parameter) (as : List Argument) (s : String) : Option Expr := do
  let p ← ps.find? (·.name = s)
  let a ← as.find? (·.position = p.position)
  return a.value

/-! ## Replacement is a graft -/

/-- The graft that replaces names and leaves parameter references alone. -/
def replacing (f : String → Option Expr) : Grafting where
  name n := (n.symbol?.bind f).getD (.name n)

section Replacing

variable (f : String → Option Expr)

theorem replacing_name (n : Name) : (replacing f).name n = (Expr.name n).replace f := by
  match n with
  | ⟨.symbol s, []⟩ => rfl
  | ⟨.symbol s, _ :: _⟩ => rfl
  | ⟨.uri u, _⟩ => rfl
  | ⟨.selfRef, _⟩ => rfl

mutual

theorem Expr.graft_replacing : ∀ e : Expr, e.graft (replacing f) = e.replace f
  | .literal l => by simp only [Expr.graft, Expr.replace]
  | .name n => by rw [Expr.graft, replacing_name]
  | .param p => by simp only [Expr.graft, Expr.replace, replacing]
  | .expansion e => by simp only [Expr.graft, Expr.replace, Expansion.graft_replacing e]

theorem Argument.graft_replacing : ∀ a : Argument, a.graft (replacing f) = a.replace f
  | ⟨value, _⟩ => by simp only [Argument.graft, Argument.replace, Expr.graft_replacing value]

theorem Property.graft_replacing : ∀ p : Property, p.graft (replacing f) = p.replace f
  | ⟨name, value, _⟩ => by
      simp only [Property.graft, Property.replace, Expr.graft_replacing name,
        Expr.graft_replacing value]

theorem ExtensionArg.graft_replacing : ∀ a : ExtensionArg, a.graft (replacing f) = a.replace f
  | .expr e => by simp only [ExtensionArg.graft, ExtensionArg.replace, Expr.graft_replacing e]
  | .extension x => by
      simp only [ExtensionArg.graft, ExtensionArg.replace, Extension.graft_replacing x]

theorem Extension.graft_replacing : ∀ x : Extension, x.graft (replacing f) = x.replace f
  | ⟨_, arguments, _⟩ => by
      simp only [Extension.graft, Extension.replace, graftExtensionArgs_replacing arguments]

theorem Item.graft_replacing : ∀ i : Item, i.graft (replacing f) = i.replace f
  | .property p => by simp only [Item.graft, Item.replace, Property.graft_replacing p]
  | .expansion e => by simp only [Item.graft, Item.replace, Expansion.graft_replacing e]
  | .extension x => by simp only [Item.graft, Item.replace, Extension.graft_replacing x]

theorem Expansion.graft_replacing : ∀ e : Expansion, e.graft (replacing f) = e.replace f
  | ⟨_, template, arguments, body, _⟩ => by
      simp only [Expansion.graft, Expansion.replace, Expr.graft_replacing template,
        graftArguments_replacing arguments, graftItems_replacing body]

theorem graftArguments_replacing :
    ∀ as : List Argument, graftArguments (replacing f) as = replaceArguments f as
  | [] => rfl
  | a :: as => by
      simp only [graftArguments, replaceArguments, Argument.graft_replacing a,
        graftArguments_replacing as]

theorem graftExtensionArgs_replacing :
    ∀ as : List ExtensionArg, graftExtensionArgs (replacing f) as = replaceExtensionArgs f as
  | [] => rfl
  | a :: as => by
      simp only [graftExtensionArgs, replaceExtensionArgs, ExtensionArg.graft_replacing a,
        graftExtensionArgs_replacing as]

theorem graftItems_replacing : ∀ is : List Item, graftItems (replacing f) is = replaceItems f is
  | [] => rfl
  | i :: is => by
      simp only [graftItems, replaceItems, Item.graft_replacing i, graftItems_replacing is]

end

theorem Node.graft_replacing (node : Node) : node.graft (replacing f) = node.replace f := by
  cases node with
  | expr e => exact congrArg Node.expr (e.graft_replacing f)
  | argument a => exact congrArg Node.argument (a.graft_replacing f)
  | property p => exact congrArg Node.property (p.graft_replacing f)
  | extensionArg a => exact congrArg Node.extensionArg (a.graft_replacing f)
  | extension x => exact congrArg Node.extension (x.graft_replacing f)
  | item i => exact congrArg Node.item (i.graft_replacing f)
  | expansion e => exact congrArg Node.expansion (e.graft_replacing f)
  | base b => simp only [Node.graft, Node.replace, Base.graft, graftArguments_replacing]

end Replacing

/-! ## Parameterise, then substitute -/

/-- What becomes of one name: the argument of the parameter it names, if it names one. -/
theorem parameterising_name_substituting {ps : List Parameter} {as : List Argument}
    (supplied : Supplied as ps) (n : Name) :
    ((parameterising ps).name n).graft (substituting as) =
      (replacing (argumentFor ps as)).name n := by
  cases symbol : n.symbol? with
  | none => simp [parameterising, replacing, substituting, Expr.graft, symbol]
  | some s =>
    cases named : ps.find? (·.name = s) with
    | none => simp [parameterising, replacing, substituting, argumentFor, Expr.graft, symbol, named]
    | some p =>
      obtain ⟨a, first⟩ := exists_first_argument (supplied p (List.mem_of_find?_eq_some named))
      simp [parameterising, replacing, argumentFor, Expr.graft, symbol, named, first,
        substituting_param_eq_value first]

/-- **Parameterising and then substituting replaces names**, all at once: a node in which no
parameter reference stands yet comes out with the argument of each parameter in place of its name,
and with nothing else changed. -/
theorem Node.substitute_parameterise {node : Node} {ps : List Parameter} {as : List Argument}
    (unprepared : node.params = []) (supplied : Supplied as ps) :
    (node.parameterise ps).substitute as = node.replace (argumentFor ps as) := by
  have agrees : ((parameterising ps).andThen (substituting as)).Agrees
      (replacing (argumentFor ps as)) node.names node.params := by
    rw [unprepared]
    exact ⟨fun n _ => parameterising_name_substituting supplied n, List.forall_mem_nil _⟩
  calc (node.parameterise ps).substitute as
      = node.graft ((parameterising ps).andThen (substituting as)) := node.graft_graft _ _
    _ = node.graft (replacing (argumentFor ps as)) := node.graft_eq_iff.mpr agrees
    _ = node.replace (argumentFor ps as) := node.graft_replacing _

/-- An expansion with the names of two parameters wherever a name may stand, also where it is not
an expression. -/
def porch : Expansion :=
  ⟨some (.ofSymbol "w"), .name (.ofSymbol "w"),
    [⟨.name (.ofSymbol "v"), 7⟩, ⟨.name ⟨.symbol "w", [.symbol "v"]⟩, 7⟩],
    [.property ⟨.name (.ofSymbol "v"), .name .selfName, {}⟩,
      .extension ⟨"w", [.expr (.name (.ofSymbol "w")),
        .extension ⟨"v", [.expr (.name (.ofSymbol "u"))], {}⟩], {}⟩], {}⟩

/-- It with `v` for `w` and a parameter reference for `v`. -/
def porchBuilt : Expansion :=
  ⟨some (.ofSymbol "w"), .name (.ofSymbol "v"),
    [⟨.param ⟨"w", 1⟩, 7⟩, ⟨.name ⟨.symbol "w", [.symbol "v"]⟩, 7⟩],
    [.property ⟨.param ⟨"w", 1⟩, .name .selfName, {}⟩,
      .extension ⟨"w", [.expr (.name (.ofSymbol "v")),
        .extension ⟨"v", [.expr (.name (.ofSymbol "u"))], {}⟩], {}⟩], {}⟩

def porchParameters : List Parameter := [⟨"w", 1⟩, ⟨"w", 0⟩, ⟨"v", 0⟩]

def porchArguments : List Argument :=
  [⟨.name (.ofSymbol "v"), 1⟩, ⟨.param ⟨"w", 1⟩, 0⟩, ⟨.name (.ofSymbol "u"), 1⟩]

/-- The first of two parameters `w` counts, and the first of two arguments for it. Both arguments
that are put in would be changed by another round. -/
theorem Node.substitute_parameterise_first_matches :
    (Node.expansion porch).params = [] ∧ Supplied porchArguments porchParameters ∧
      ((Node.expansion porch).parameterise porchParameters).substitute porchArguments =
        .expansion porchBuilt := by
  have unprepared : (Node.expansion porch).params = [] := rfl
  have supplied : Supplied porchArguments porchParameters := by
    unfold Supplied
    decide
  exact ⟨unprepared, supplied, Node.substitute_parameterise unprepared supplied⟩

/-! ## Substitute, then substitute -/

/-- At one parameter the two ways agree if it has an argument, and else only if the second
substitution leaves it alone. -/
theorem substituting_param_composes_iff (as bs : List Argument) (p : Parameter) :
    (substituting (graftArguments (substituting bs) as)).param p =
        ((substituting as).param p).graft (substituting bs) ↔
      (∃ a ∈ as, a.position = p.position) ∨ (substituting bs).param p = .param p := by
  by_cases given : ∃ a ∈ as, a.position = p.position
  · exact iff_of_true (substituting_param_graft bs given).symm (.inl given)
  · have missing : ¬∃ a ∈ graftArguments (substituting bs) as, a.position = p.position := by
      simpa [graftArguments_eq_map] using given
    rw [substituting_param_eq_param given, substituting_param_eq_param missing, Expr.graft,
      or_iff_right given]
    exact eq_comm

theorem Node.substitute_graftArguments_iff (node : Node) (as bs : List Argument) :
    node.substitute (graftArguments (substituting bs) as) = (node.substitute as).substitute bs ↔
      ∀ p ∈ node.params,
        (∃ a ∈ as, a.position = p.position) ∨ (substituting bs).param p = .param p := by
  rw [substitute, substitute, substitute, Node.graft_graft, Node.graft_eq_iff]
  constructor
  · intro agrees p occurs
    exact (substituting_param_composes_iff as bs p).mp (agrees.params p occurs)
  · intro composes
    exact ⟨fun n _ => (substituting_name_graft as bs _ n).symm,
      fun p occurs => (substituting_param_composes_iff as bs p).mpr (composes p occurs)⟩

/-- **Substitution composes** where every parameter that occurs has an argument, and nowhere else:
`as` with `bs` substituted into its values, put into the node, is `as` put into the node and then
`bs` put into the result. -/
theorem Node.substitute_composes (node : Node) (as : List Argument) :
    Supplied as node.params ↔
      ∀ bs : List Argument,
        node.substitute (as.map fun a => ⟨a.value.graft (substituting bs), a.position⟩) =
          (node.substitute as).substitute bs := by
  have values (bs : List Argument) :
      as.map (fun a => ⟨a.value.graft (substituting bs), a.position⟩) =
        graftArguments (substituting bs) as := by
    rw [graftArguments_eq_map]
    exact List.map_congr_left fun ⟨_, _⟩ _ => rfl
  simp only [values, Node.substitute_graftArguments_iff]
  constructor
  · intro supplied bs p occurs
    exact .inl (supplied p occurs)
  · intro composes p occurs
    -- a parameter that was left over shows once the second substitution has a constant for it
    refine (composes [⟨.literal (.boolean true), p.position⟩] p occurs).resolve_right ?_
    rw [substituting_param_eq_value (List.find?_cons_of_pos (decide_eq_true rfl))]
    exact Expr.noConfusion

end Stencil
