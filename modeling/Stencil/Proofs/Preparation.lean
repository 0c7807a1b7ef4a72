/- # Proofs.Preparation -- a template is prepared once

Parameterising puts references to the parameters of a template in place of their names. Wherever an
expression may stand, such a name is found: in the properties of a body, in the template, the arguments
and the body of an expansion at any depth, in the arguments of validators within validators, and in what
is forwarded to the base. So afterwards no name of a parameter is left (`Template.Prepared`), and a
template in which none is left is not changed (`Template.parameterise_eq_self_iff`): parameterising it
agrees with the graft that puts everything in place of itself. That the second time does nothing follows
from these two.

The names of expansions, of bases and of validators are no expressions, and neither is a symbol that is
part of a longer name. These stay, also when they look like the name of a parameter.
-/
import Stencil.Proofs.GraftLaws

namespace Stencil
set_option autoImplicit false

/-! ## Names of parameters -/

theorem Name.symbol?_eq_some_iff {n : Name} {s : String} :
    n.symbol? = some s ↔ n = .ofSymbol s := by
  constructor
  · intro isSymbol
    obtain ⟨head, tail⟩ := n
    cases head with
    | symbol _ =>
      cases tail with
      | nil =>
        cases isSymbol
        rfl
      | cons _ _ => cases isSymbol
    | uri _ => cases isSymbol
    | selfRef => cases isSymbol
  · rintro rfl
    rfl

/-- A name is kept just if no parameter has it. -/
theorem parameterising_name_eq_name_iff (ps : List Parameter) (n : Name) :
    (parameterising ps).name n = .name n ↔ ∀ p ∈ ps, n ≠ .ofSymbol p.name := by
  have kept : (parameterising ps).name n = .name n ↔
      (n.symbol?.bind fun s => ps.find? (·.name = s)) = none := by
    cases found : n.symbol?.bind fun s => ps.find? (·.name = s) with
    | none => simp only [parameterising, found]
    | some p => simp only [parameterising, found, reduceCtorEq]
  simp only [kept, Option.bind_eq_none_iff, List.find?_eq_none, decide_eq_true_eq,
    Name.symbol?_eq_some_iff]
  constructor
  · rintro unnamed p mem rfl
    exact unnamed p.name rfl p mem rfl
  · rintro unnamed s rfl p mem rfl
    exact unnamed p mem rfl

/-- Parameterising keeps parameter references, so that the names alone decide whether it changes
anything. -/
theorem parameterising_agrees_id_iff {ps qs : List Parameter} {ns : List Name} :
    (parameterising ps).Agrees {} ns qs ↔ ∀ n ∈ ns, (parameterising ps).name n = .name n :=
  ⟨fun agrees => agrees.names, fun kept => ⟨kept, fun _ _ => rfl⟩⟩

theorem graftArguments_parameterising_eq_self_iff (ps : List Parameter) (as : List Argument) :
    graftArguments (parameterising ps) as = as ↔
      ∀ n ∈ argumentNames as, (parameterising ps).name n = .name n := by
  rw [← parameterising_agrees_id_iff, ← graftArguments_eq_iff, graftArguments_id]

theorem graftItems_parameterising_eq_self_iff (ps : List Parameter) (is : List Item) :
    graftItems (parameterising ps) is = is ↔
      ∀ n ∈ itemNames is, (parameterising ps).name n = .name n := by
  rw [← parameterising_agrees_id_iff, ← graftItems_eq_iff, graftItems_id]

/-! ## Templates -/

namespace Template

/-- The names that stand as expressions in the arguments for the base and in the body. -/
def names (t : Template) : List Name :=
  (t.base.elim [] fun base => argumentNames base.arguments) ++ itemNames t.body

/-- None of them is the name of a parameter. -/
def Prepared (t : Template) : Prop := ∀ n ∈ t.names, ∀ p ∈ t.parameters, n ≠ .ofSymbol p.name

theorem prepared_iff (t : Template) :
    t.Prepared ↔ ∀ n ∈ t.names, (parameterising t.parameters).name n = .name n := by
  simp only [Prepared, parameterising_name_eq_name_iff]

/-- Just the prepared templates are left as they are. -/
theorem parameterise_eq_self_iff (t : Template) : t.parameterise = t ↔ t.Prepared := by
  obtain ⟨name, parameters, base, body, location⟩ := t
  have items := graftItems_parameterising_eq_self_iff parameters body
  rw [prepared_iff, names, List.forall_mem_append]
  simp only [parameterise, Template.mk.injEq, true_and, and_true, items]
  cases base with
  | none => simp
  | some base =>
    have forwarded := graftArguments_parameterising_eq_self_iff parameters base.arguments
    obtain ⟨template, arguments⟩ := base
    simp [Base.graft, forwarded]

/-- Parameterising leaves no name of a parameter. -/
theorem prepared_parameterise (t : Template) : t.parameterise.Prepared := by
  obtain ⟨name, parameters, base, body, location⟩ := t
  rw [prepared_iff, names, List.forall_mem_append]
  constructor
  · cases base with
    | none => exact List.forall_mem_nil _
    | some base =>
      exact (graftArguments_parameterising_eq_self_iff parameters _).mp
        (graftArguments_parameterising parameters base.arguments)
  · exact (graftItems_parameterising_eq_self_iff parameters _).mp
      (graftItems_parameterising parameters body)

/-- **Parameterising is idempotent.** Whatever the parameters of a template are, and whether or not there
are references to them in it already, a second time does nothing after the first. The templates to which
the first time does nothing are those where no name of a parameter stands as an expression. -/
theorem parameterise_idempotent (t : Template) :
    t.parameterise.parameterise = t.parameterise ∧ (t.parameterise = t ↔ t.Prepared) := by
  constructor
  · rw [parameterise_eq_self_iff]
    exact t.prepared_parameterise
  · exact t.parameterise_eq_self_iff

/-- Of two parameters with one name the first is meant. A reference to the other stays, and so do the
names of the base and of the validator. -/
example : parameterise
    ⟨.ofSymbol "t", [⟨"a", 1⟩, ⟨"a", 0⟩], some ⟨.ofSymbol "a", [⟨.name (.ofSymbol "a"), 0⟩]⟩,
      [.extension ⟨"a", [.expr (.param ⟨"a", 0⟩), .expr (.name (.ofSymbol "a"))], {}⟩], {}⟩ =
    ⟨.ofSymbol "t", [⟨"a", 1⟩, ⟨"a", 0⟩], some ⟨.ofSymbol "a", [⟨.param ⟨"a", 1⟩, 0⟩]⟩,
      [.extension ⟨"a", [.expr (.param ⟨"a", 0⟩), .expr (.param ⟨"a", 1⟩)], {}⟩], {}⟩ := rfl

end Template

end Stencil
