/- # Proofs.Coherence -- the parts of an environment agree with each other

Some of what an environment holds is said twice or shared: symbols and prefixes are two tables in one
store, the default namespace is a copy of what a prefix stood for, a template is kept with its
parameters already in place. `Scope.Coherent` states that these parts fit together, and
`Change.coherent` that each of the ways in which a scope can change keeps them together. So they fit
in every environment that operations can make, however deep its imports went and whatever failed
(`reachable_coherent`).

The copy of a namespace stays right because a prefix is never bound to another one; that a table has
a key once only rests, as in every table kept in a store, on the old triple of the key being found
and removed.
-/
import Stencil.Proofs.Atomicity
import Stencil.Proofs.ImportStack
import Stencil.Proofs.Preparation
import Stencil.Proofs.WriteOnce

namespace Stencil
set_option autoImplicit false

/-! ## Two tables in one store -/

/-- Every triple belongs to one of the two tables, a table has each key once, and the prefixes stand
for resources. -/
structure Store.Tables (s : Store) : Prop where
  roots : ∀ t ∈ s.toList, t.subject = symbolTable.root ∨ t.subject = prefixTable.root
  single : (s.toList.map fun t => (t.subject, t.predicate)).Nodup
  resources : ∀ t ∈ s.toList, t.subject = prefixTable.root → ∃ ns, t.object = .uri ns

namespace Store.Tables

variable {s : Store}

theorem empty : Store.empty.Tables := ⟨by simp, by simp, by simp⟩

/-- Putting a key of one of the tables, a resource where it is a prefix, keeps them. -/
theorem put (tables : s.Tables) (indexed : s.Indexed) {c : Context} {key : String} {v : Value}
    (root : c.root = symbolTable.root ∨ c.root = prefixTable.root)
    (resource : c.root = prefixTable.root → ∃ ns, v = .uri ns) : (c.put s key v).Tables := by
  have split := Context.toList_put indexed c key v
  have inside : ∀ t ∈ (c.put s key v).toList, t ∈ s.toList ∨ t = ⟨c.root, ⟨key⟩, v⟩ := by
    intro t held
    rw [split, List.mem_append, List.mem_singleton] at held
    exact held.imp_left List.mem_of_mem_filter
  refine ⟨?_, ?_, ?_⟩
  · intro t held
    rcases inside t held with old | rfl
    · exact tables.roots t old
    · exact root
  · rw [split, List.map_append, List.nodup_append]
    refine ⟨tables.single.sublist (List.filter_sublist.map _), by simp, ?_⟩
    -- what is left of the old triples has another root or another key
    rintro _ kept _ new rfl
    obtain ⟨t, other, same⟩ := List.mem_map.mp kept
    rw [List.map_singleton, List.mem_singleton] at new
    rw [new, Prod.mk.injEq] at same
    have bound : (c.pattern key).holds t = true := Context.holds_pattern_iff.mpr same
    simp [bound] at other
  · intro t held inPrefixes
    rcases inside t held with old | rfl
    · exact tables.resources t old inPrefixes
    · exact resource inPrefixes

/-- What a prefix stands for is a resource. -/
theorem exists_uri (tables : s.Tables) (indexed : s.Indexed) {symbol : String} {v : Value}
    (bound : prefixTable.get? s symbol = some v) : ∃ ns, v = .uri ns := by
  rw [Context.get?_eq indexed, Option.map_eq_some_iff] at bound
  obtain ⟨t, last, rfl⟩ := bound
  obtain ⟨held, binds⟩ := List.mem_filter.mp (List.mem_of_getLast? last)
  exact tables.resources t held (Context.holds_pattern_iff.mp binds).1

end Store.Tables

/-! ## Templates with their parameters in place -/

/-- The templates have their parameters in place already. -/
def TemplateTable.Settled (table : TemplateTable) : Prop :=
  ∀ id t, table.get? id = some t → t.parameterise = t

theorem TemplateTable.Settled.register {table after : TemplateTable} (settled : table.Settled)
    {id : Uri} {t : Template} (registered : table.register id t.parameterise = .ok after) :
    after.Settled := by
  intro other u found
  rcases get?_of_register registered found with old | rfl
  · exact settled other u old
  · exact t.parameterise.parameterise_eq_self_iff.mpr t.prepared_parameterise

/-! ## Scopes -/

namespace Scope

/-- The default prefix and the default namespace are there together, and the prefix stands for the
namespace. -/
def DefaultAgrees (scope : Scope) : Prop :=
  match scope.defaultPrefix, scope.defaultNamespace with
  | some symbol, some ns => scope.namespace? symbol = some ns
  | none, none => True
  | _, _ => False

/-- The parts of a scope fit together. -/
structure Coherent (scope : Scope) : Prop where
  tables : scope.bindings.Tables
  default : scope.DefaultAgrees
  templates : scope.templates.Settled

/-- The default stays right where it stays as it is and no prefix loses its namespace. -/
theorem DefaultAgrees.extends {scope after : Scope} (agrees : scope.DefaultAgrees)
    (grown : scope.Extends after) (symbol : after.defaultPrefix = scope.defaultPrefix)
    (ns : after.defaultNamespace = scope.defaultNamespace) : after.DefaultAgrees := by
  unfold DefaultAgrees at agrees ⊢
  rw [symbol, ns]
  split at agrees
  · exact grown.prefixes _ _ agrees
  · trivial
  · exact agrees

theorem namespace?_eq_some_iff {scope : Scope} {symbol : String} {ns : Uri} :
    scope.namespace? symbol = some ns ↔
      prefixTable.get? scope.bindings symbol = some (.uri ns) := by
  unfold namespace?
  cases prefixTable.get? scope.bindings symbol with
  | none => simp
  | some v =>
      cases v with
      | uri u => simp [Value.uri?]
      | literal l => simp [Value.uri?]

theorem setDefaultPrefix_agrees {scope after : Scope} {symbol : String}
    (chosen : scope.setDefaultPrefix symbol = .ok after) : after.DefaultAgrees := by
  unfold setDefaultPrefix at chosen
  split at chosen <;> cases chosen
  rename_i ns expands
  unfold Resolver.expandPrefix at expands
  split at expands <;> cases expands
  rename_i bound
  exact namespace?_eq_some_iff.mpr bound

/-- Every change keeps a scope together. -/
theorem Change.coherent {scope after : Scope} (change : scope.Change after) (sound : scope.Sound)
    (coherent : scope.Coherent) : after.Coherent := by
  have grown := (change.extends sound).2
  obtain ⟨tables, agrees, settled⟩ := coherent
  cases change with
  | nothing => exact ⟨tables, agrees, settled⟩
  | symbol bound =>
      obtain ⟨_, rfl⟩ := bindSymbol_eq_ok bound
      refine ⟨tables.put sound.bindings (Or.inl rfl) ?_, agrees.extends grown rfl rfl, settled⟩
      exact fun same => absurd same tables_apart
  | template registered =>
      exact ⟨tables, agrees.extends grown rfl rfl, settled.register registered⟩
  | namespacePrefix bound =>
      rcases bindPrefix_eq_ok bound with rfl | ⟨_, rfl⟩
      · exact ⟨tables, agrees, settled⟩
      · refine ⟨tables.put sound.bindings (Or.inr rfl) ?_, agrees.extends grown rfl rfl, settled⟩
        exact fun _ => ⟨_, rfl⟩
  | defaultPrefix chosen =>
      have now := setDefaultPrefix_agrees chosen
      obtain ⟨ns, rfl⟩ := setDefaultPrefix_eq_ok chosen
      exact ⟨tables, now, settled⟩
  | validator registered => exact ⟨tables, agrees.extends grown rfl rfl, settled⟩
  | validatorAlias registered => exact ⟨tables, agrees.extends grown rfl rfl, settled⟩

theorem Changes.coherent {scope after : Scope} (changes : scope.Changes after)
    (sound : scope.Sound) (coherent : scope.Coherent) : after.Coherent := by
  induction changes with
  | refl => exact coherent
  | tail before change ih => exact change.coherent (Changes.extends before sound).1 ih

/-- A scope without bindings, templates and default prefix. -/
theorem coherent_empty (config : Config) (extensions : Registry) :
    Coherent { config, extensions } :=
  ⟨.empty, trivial, fun _ _ found => by cases found⟩

end Scope

/-! ## Environments -/

namespace Environment

theorem Reachable.coherent {env : Environment} (reachable : env.Reachable) :
    env.scope.Coherent := by
  induction reachable with
  | created fresh =>
      obtain ⟨_, extensions, offered, changes⟩ := ofConfig_changes fresh
      refine changes.coherent ⟨Store.indexed_empty, TemplateTable.sound_empty, ?_⟩
        (Scope.coherent_empty _ _)
      rcases offered with rfl | rfl
      · exact Registry.whole_builtin.sound
      · exact Registry.whole_empty.sound
  | operated before op ih => exact (op.apply_changes _).coherent before.sound ih

/-- A prefix that cannot be expanded is not bound; it is never bound to something else than a
namespace. -/
theorem Reachable.expandPrefix_eq_error {env : Environment} (reachable : env.Reachable)
    {me : Option Uri} {symbol : String} {e : ResolveError}
    (failed : (env.scope.resolver me).expandPrefix symbol = .error e) :
    e = .unboundPrefix symbol := by
  unfold Resolver.expandPrefix at failed
  split at failed
  · cases failed
  · rename_i l bound
    obtain ⟨ns, isUri⟩ := reachable.coherent.tables.exists_uri reachable.sound.bindings bound
    cases isUri
  · cases failed
    rfl

/-- What holds of an environment between operations. -/
structure Coherent (env : Environment) : Prop where
  /-- The bindings are those of the two tables, -/
  roots : ∀ t ∈ env.scope.bindings.toList,
    t.subject = symbolTable.root ∨ t.subject = prefixTable.root
  /-- one for each key of a table. -/
  single : (env.scope.bindings.toList.map fun t => (t.subject, t.predicate)).Nodup
  /-- Prefixes stand for resources, -/
  resources : ∀ t ∈ env.scope.bindings.toList, t.subject = prefixTable.root →
    ∃ ns, t.object = .uri ns
  /-- so that one is never refused for standing for something else. -/
  expandable : ∀ me symbol context expected found,
    (env.scope.resolver me).expandPrefix symbol ≠ .error (.typeMismatch context expected found)
  /-- A default prefix and a default namespace are there together, -/
  together : (∃ symbol, env.scope.defaultPrefix = some symbol) ↔
    ∃ ns, env.scope.defaultNamespace = some ns
  /-- and the namespace is what the prefix stands for. -/
  default : ∀ symbol ns, env.scope.defaultPrefix = some symbol →
    env.scope.defaultNamespace = some ns →
      prefixTable.get? env.scope.bindings symbol = some (.uri ns)
  /-- Templates have their parameters in place. -/
  parameterised : ∀ id t, env.scope.templates.get? id = some t → t.parameterise = t
  /-- Their identifiers are listed without repetition, -/
  nodup : env.scope.templates.ids.Nodup
  /-- and they are those that the table holds. -/
  listed : ∀ id, id ∈ env.scope.templates.ids ↔ env.scope.templates.contains id = true
  /-- No expansion is being worked out, -/
  idle : env.selves.frames = []
  /-- and no path is being imported. -/
  outside : env.importing = []

/-- **Coherence.** The parts of every environment that operations can make fit together. -/
theorem reachable_coherent {env : Environment} (reachable : env.Reachable) : env.Coherent := by
  obtain ⟨tables, agrees, settled⟩ := reachable.coherent
  unfold Scope.DefaultAgrees at agrees
  constructor
  case roots => exact tables.roots
  case single => exact tables.single
  case resources => exact tables.resources
  case expandable =>
    intro me symbol context expected found failed
    cases reachable.expandPrefix_eq_error failed
  case together =>
    split at agrees
    · rename_i chosen copied
      simp [chosen, copied]
    · rename_i chosen copied
      simp [chosen, copied]
    · exact agrees.elim
  case default =>
    intro symbol ns chosen copied
    rw [chosen, copied] at agrees
    exact Scope.namespace?_eq_some_iff.mp agrees
  case parameterised => exact settled
  case nodup => exact reachable.sound.templates.once
  case listed => exact reachable.sound.templates.listed
  case idle => exact reachable.idle
  case outside => exact reachable.importing

/-- Operations after which all parts of an environment hold something: a prefix is bound and chosen
as the default, a symbol is bound in the same store, a template is registered. -/
def furnishing : List Operation :=
  [.bindPrefix "p" ⟨"n"⟩, .setDefaultPrefix "p",
    .evaluate (.assignment (.ofSymbol "p") (.literal (.boolean true)) {}),
    .evaluate (.template ⟨.ofSymbol "t", [⟨"v", 0⟩], none,
      [.property ⟨.name (.ofSymbol "q"), .name (.ofSymbol "v"), {}⟩], {}⟩)]

/-- The environment after them. -/
def furnished : Environment :=
  furnishing.foldl Operation.apply { scope := { extensions := .builtin } }

theorem coherent_after_bindings_and_template :
    furnished.scope.bindings.toList.length = 2 ∧ furnished.scope.defaultPrefix = some "p" ∧
      furnished.scope.templates.ids = [⟨"nt"⟩] ∧ furnished.Coherent := by
  have fresh : ofConfig {} = .ok { scope := { extensions := .builtin } } := rfl
  have reachable : furnished.Reachable := Reachable.foldl (.created fresh) furnishing
  exact ⟨rfl, rfl, rfl, reachable_coherent reachable⟩

end Environment

end Stencil
