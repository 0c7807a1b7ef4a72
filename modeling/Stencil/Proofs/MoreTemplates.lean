/- # Proofs.MoreTemplates -- expansions when more templates are registered

Identifiers are resolved without the table of templates, so a table that holds more answers every
question that was answered before in the same way. What it does for the others is to turn
`notFound` into something else. The chain of bases of a template persists in this sense because each of
its links does (`Link.of_within`), also where it ends with an error: the walk allows more layers in a
larger table, but it has come to its end before. Validators could tell the tables apart, and the bundled
ones do not. So an expansion that ended with anything but `notFound` ends in the same way when more
templates are registered (`expand_with_more_templates`).
-/
import Stencil.Proofs.BaseChain
import Stencil.Proofs.BundledValidators
import Stencil.Proofs.Persistence
import Stencil.Proofs.WriteOnce

namespace Stencil
set_option autoImplicit false

/-! ## Registering many templates -/

namespace TemplateTable

/-- Register templates one after another. -/
def registerAll : TemplateTable → List (Uri × Template) → Except TemplateError TemplateTable
  | table, [] => .ok table
  | table, entry :: more => do
    let after ← table.register entry.1 entry.2
    after.registerAll more

/-- Every template of the first table is in the second, under the same identifier. -/
def Within (table after : TemplateTable) : Prop :=
  ∀ id t, table.get? id = some t → after.get? id = some t

/-- Under different identifiers that are free, all are registered. -/
theorem exists_registerAll {table : TemplateTable} {more : List (Uri × Template)}
    (free : ∀ entry ∈ more, table.contains entry.1 = false) (distinct : (more.map Prod.fst).Nodup) :
    ∃ after, table.registerAll more = .ok after ∧ table.Within after := by
  induction more generalizing table with
  | nil => exact ⟨table, rfl, fun _ _ found => found⟩
  | cons entry more ih =>
      rw [List.forall_mem_cons] at free
      rw [List.map_cons, List.nodup_cons] at distinct
      obtain ⟨next, registered⟩ : ∃ next, table.register entry.1 entry.2 = .ok next :=
        ⟨_, register_eq_ok_iff.mpr ⟨free.1, rfl⟩⟩
      have stillFree : ∀ other ∈ more, next.contains other.1 = false := by
        intro other mem
        have apart : other.1 ≠ entry.1 := by
          intro same
          exact distinct.1 (same ▸ List.mem_map_of_mem mem)
        rw [← Bool.not_eq_true, contains_register registered, free.2 other mem]
        simp [apart]
      obtain ⟨after, all, within⟩ := ih stillFree distinct.2
      refine ⟨after, ?_, ?_⟩
      · rw [registerAll, registered]
        exact all
      · intro id t found
        exact within id t (get?_register_of_eq_some registered found)

end TemplateTable

/-- A template is not found. -/
def Error.NotFound (e : Error) : Prop := ∃ name, e = .template (.notFound name)

/-! ## The chain of bases -/

section Chain

variable {r : Resolver} {table after : TemplateTable}

theorem Link.of_within (within : table.Within after) {l parent : Layer} {id : Uri}
    (link : Link r table l id parent) : Link r after l id parent := by
  cases link with
  | base refers resolves registered forwarded fits =>
      exact .base refers resolves (within _ _ registered) forwarded fits

theorem Ancestry.of_within (within : table.Within after) {id : Uri} {start : Layer}
    {chain : List (Uri × Layer)} (ancestry : Ancestry r table id start chain) :
    Ancestry r after id start chain := by
  induction ancestry with
  | alone => exact .alone
  | up below link ih => exact .up ih (link.of_within within)

/-- The one reason to stop that a larger table may do away with is that a base is not found. -/
theorem Stops.of_within (within : table.Within after) {met : List Uri} {l : Layer} {why : Error}
    (stops : Stops r table met l why) : why.NotFound ∨ Stops r after met l why := by
  cases stops with
  | unresolved refers fails => exact .inr (.unresolved refers fails)
  | revisited refers resolves again => exact .inr (.revisited refers resolves again)
  | unregistered refers resolves fresh unknown => exact .inl ⟨_, rfl⟩
  | misfit refers resolves fresh registered differ =>
      exact .inr (.misfit refers resolves fresh (within _ _ registered) differ)

theorem persists_mergedBody (within : table.Within after) {id : Uri} {t : Template}
    (known : table.get? id = some t) (args : List Argument) :
    Persists Error.NotFound (mergedBody r table id t args) (mergedBody r after id t args) := by
  have first : Ancestry r table id ⟨t, args⟩ [(id, ⟨t, args⟩)] := .alone
  obtain ⟨chain, answer, ancestry, distinct, tops⟩ := first.exists_tops known (by simp)
  have climbed := ancestry.of_within within
  rw [ancestry.mergedBody_of_tops known distinct tops]
  cases tops with
  | root alone =>
      rw [climbed.mergedBody_of_tops (within _ _ known) distinct (.root alone)]
      exact .refl _
  | stopped stops =>
      rcases stops.of_within within with notFound | still
      · exact .ofCut notFound _
      · rw [climbed.mergedBody_of_tops (within _ _ known) distinct (.stopped still)]
        exact .refl _

end Chain

/-! ## Expansions -/

/-- The scope with another table of templates. -/
def Scope.withTemplates (scope : Scope) (templates : TemplateTable) : Scope := { scope with templates }

/-- The environment with another table of templates. -/
def Environment.withTemplates (env : Environment) (templates : TemplateTable) : Environment :=
  { env with scope := env.scope.withTemplates templates }

namespace Expansion

variable {scope : Scope} {templates : TemplateTable}

theorem persists_templateOf (within : scope.templates.Within templates) (r : Resolver)
    (reference : Expr) : Persists Error.NotFound (templateOf scope r reference)
      (templateOf (scope.withTemplates templates) r reference) := by
  unfold templateOf
  refine (Persists.refl _).bind fun name _ => (Persists.refl _).bind fun id _ => ?_
  cases known : scope.templates.get? id with
  | none => exact .ofCut ⟨name, rfl⟩ _
  | some t =>
      have there : (scope.withTemplates templates).templates.get? id = some t := within _ _ known
      rw [there]
      exact .refl _

theorem persists_fullBody (within : scope.templates.Within templates) (r : Resolver)
    (e : Expansion) : Persists Error.NotFound (fullBody scope r e)
      (fullBody (scope.withTemplates templates) r e) := by
  unfold fullBody
  refine (persists_templateOf within r e.template).bind fun found same => ?_
  obtain ⟨id, t⟩ := found
  refine (Persists.refl _).bind fun _ _ => ?_
  refine (persists_mergedBody within (templateOf_eq_ok same) e.arguments).bind fun merged _ => ?_
  exact .refl _

end Expansion

theorem Scope.persists_withTemplates {scope : Scope} (only : scope.extensions.OnlyBundled)
    {templates : TemplateTable} (within : scope.templates.Within templates) :
    scope.Persists Error.NotFound (scope.withTemplates templates) where
  names _ := rfl
  bodies r e := Expansion.persists_fullBody within r e
  identities _ := rfl
  judgements me out := by
    have same : (scope.withTemplates templates).extensions = scope.extensions := rfl
    exact Expansion.judge_of_onlyBundled only same me out

namespace Environment

/-- **More templates change no answer but `notFound`.** Let no validator of a host be registered, and let
there be more templates, under different identifiers that are free. They can be registered; and an
expansion that ended before with triples, or with any error except that a template is not found, ends
with the same after, and leaves the same counts of identities. -/
theorem expand_with_more_templates {env : Environment} (only : env.scope.extensions.OnlyBundled)
    {more : List (Uri × Template)}
    (free : ∀ entry ∈ more, env.scope.templates.contains entry.1 = false)
    (distinct : (more.map Prod.fst).Nodup) {e : Expansion}
    (found : ∀ name, (env.expand e).1 ≠ .error (.template (.notFound name))) :
    ∃ templates, env.scope.templates.registerAll more = .ok templates ∧
      (env.withTemplates templates).expand e =
        ((env.expand e).1, (env.expand e).2.withTemplates templates) := by
  obtain ⟨templates, registered, within⟩ := TemplateTable.exists_registerAll free distinct
  refine ⟨templates, registered, ?_⟩
  have persists := env.scope.persists_withTemplates only within
  refine expand_persists persists (Nat.le_refl _) (.inr rfl) ?_
  rintro why ⟨name, rfl⟩
  exact found name

/-- A template that expands another one in its body, and has this checked. -/
def wrapping (name inside : String) : Template where
  name := .ofUri ⟨name⟩
  parameters := []
  base := none
  body := [.property ⟨.name (.ofUri ⟨"x"⟩),
      .expansion ⟨none, .name (.ofUri ⟨inside⟩), [], [], {}⟩, {}⟩,
    .extension ⟨"ExactlyOne", [.expr (.name (.ofUri ⟨"x"⟩))], {}⟩]
  location := {}

/-- Expansions of `full` work out, those of `hollow` look for a template that is not there. -/
def shelf : Environment where
  scope.extensions := .builtin
  scope.templates.byId :=
    [(⟨"base"⟩, ⟨.ofUri ⟨"base"⟩, [], none, [], {}⟩),
      (⟨"leaf"⟩, ⟨.ofUri ⟨"leaf"⟩, [], some ⟨.ofUri ⟨"base"⟩, []⟩, [], {}⟩),
      (⟨"full"⟩, wrapping "full" "leaf"), (⟨"hollow"⟩, wrapping "hollow" "late")]
  scope.templates.order := [⟨"base"⟩, ⟨"leaf"⟩, ⟨"full"⟩, ⟨"hollow"⟩]

/-- What is registered later: the missing template, and one more. -/
def lateTemplates : List (Uri × Template) :=
  [(⟨"late"⟩, ⟨.ofUri ⟨"late"⟩, [], none, [], {}⟩), (⟨"later"⟩, wrapping "later" "late")]

/-- An expansion of one of the templates. -/
def shelved (template : String) : Expansion :=
  ⟨some (.ofUri ⟨"id"⟩), .name (.ofUri ⟨template⟩), [], [], {}⟩

theorem late_templates_leave_expansion :
    (shelf.expand (shelved "full")).1 = .ok ⟨⟨"id"⟩, [⟨⟨"id"⟩, ⟨"x"⟩, .uri ⟨"id/_0"⟩⟩]⟩ ∧
      (shelf.expand (shelved "hollow")).1 = .error (.template (.notFound (.ofUri ⟨"late"⟩))) ∧
      ∃ templates, shelf.scope.templates.registerAll lateTemplates = .ok templates ∧
        ((shelf.withTemplates templates).expand (shelved "full")).1 =
          .ok ⟨⟨"id"⟩, [⟨⟨"id"⟩, ⟨"x"⟩, .uri ⟨"id/_0"⟩⟩]⟩ := by
  have worked : (shelf.expand (shelved "full")).1 =
      .ok ⟨⟨"id"⟩, [⟨⟨"id"⟩, ⟨"x"⟩, .uri ⟨"id/_0"⟩⟩]⟩ := by decide +kernel
  have free : ∀ entry ∈ lateTemplates, shelf.scope.templates.contains entry.1 = false := by decide
  have found : ∀ name, (shelf.expand (shelved "full")).1 ≠ .error (.template (.notFound name)) := by
    simp [worked]
  obtain ⟨templates, registered, same⟩ :=
    expand_with_more_templates Registry.onlyBundled_builtin free (by decide) found
  refine ⟨worked, by decide +kernel, templates, registered, ?_⟩
  rw [same]
  exact worked

end Environment

end Stencil
