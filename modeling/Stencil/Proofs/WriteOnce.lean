/- # Proofs.WriteOnce -- what has been stated stays

Triples, symbols, prefixes, templates and validators are written once. Over every sequence of
operations, with failing forms and nested imports, the triples and the template identifiers of
before are a prefix of those of after, and each key that stood for something stands for the same
thing (`run_write_once`).

Symbols and prefixes are two tables in one indexed store, in which binding a key is removing and
inserting; that a binding disturbs no other one rests on the indexes being exact. That a template can be
found that is listed rests on the list and the table beside it being about the same identifiers, and that
a validator can be looked up on its place being in range. `Scope.Sound` asks for all three, and every change
of a scope keeps it while it extends the scope (`Change.extends`).
-/
import Stencil.Proofs.ContextTable
import Stencil.Proofs.Registration
import Stencil.Proofs.ScopeChange

namespace Stencil
set_option autoImplicit false

/-! ## Templates -/

namespace TemplateTable

/-- The order lists the identifiers that have a template, and each of them once. -/
structure Sound (table : TemplateTable) : Prop where
  listed : ∀ id, id ∈ table.ids ↔ table.contains id = true
  once : table.ids.Nodup

theorem sound_empty : Sound {} := ⟨fun _ => by simp [ids, contains, get?], List.nodup_nil⟩

/-- Registering adds the same identifier to both parts, and it was in neither. -/
theorem Sound.register {table after : TemplateTable} (sound : table.Sound) {id : Uri} {t : Template}
    (registered : table.register id t = .ok after) : after.Sound := by
  constructor
  · intro other
    rw [ids_register registered, contains_register registered, List.mem_append, List.mem_singleton,
      sound.listed]
  · have fresh : id ∉ table.ids := by
      rw [sound.listed, contains_of_register registered]
      exact Bool.false_ne_true
    rw [ids_register registered, List.nodup_append]
    refine ⟨sound.once, List.nodup_singleton id, ?_⟩
    rintro _ old _ new rfl
    exact fresh (List.mem_singleton.mp new ▸ old)

theorem Sound.exists_get? {table : TemplateTable} (sound : table.Sound) {id : Uri}
    (known : id ∈ table.ids) : ∃ t, table.get? id = some t :=
  Option.isSome_iff_exists.mp ((sound.listed id).mp known)

/-- The first templates of the second table are those of the first. -/
structure Extends (table after : TemplateTable) : Prop where
  ids : table.ids <+: after.ids
  same : ∀ id ∈ table.ids, ∃ t, table.get? id = some t ∧ after.get? id = some t

theorem Sound.extends_refl {table : TemplateTable} (sound : table.Sound) : table.Extends table where
  ids := List.prefix_refl _
  same _ known := by
    obtain ⟨t, found⟩ := sound.exists_get? known
    exact ⟨t, found, found⟩

theorem Extends.trans {first second third : TemplateTable} (before : first.Extends second)
    (later : second.Extends third) : first.Extends third where
  ids := before.ids.trans later.ids
  same id known := by
    obtain ⟨t, here, there⟩ := before.same id known
    obtain ⟨u, found, after⟩ := later.same id (before.ids.subset known)
    rw [there, Option.some.injEq] at found
    subst found
    exact ⟨t, here, after⟩

/-- What was found before a registration is found after it: its identifier is another one. -/
theorem get?_register_of_eq_some {table after : TemplateTable} {id other : Uri} {t u : Template}
    (registered : table.register id t = .ok after) (found : table.get? other = some u) :
    after.get? other = some u := by
  rw [get?_register registered, if_neg, found]
  rintro rfl
  rw [contains_eq_false_iff.mp (contains_of_register registered)] at found
  cases found

theorem Sound.extends_register {table after : TemplateTable} (sound : table.Sound) {id : Uri}
    {t : Template} (registered : table.register id t = .ok after) : table.Extends after where
  ids := ids_register registered ▸ List.prefix_append _ _
  same _ known := by
    obtain ⟨u, found⟩ := sound.exists_get? known
    exact ⟨u, found, get?_register_of_eq_some registered found⟩

/-- What a table holds after a registration, it held before, or it is what was registered. -/
theorem get?_of_register {table after : TemplateTable} {id other : Uri} {t u : Template}
    (registered : table.register id t = .ok after) (found : after.get? other = some u) :
    table.get? other = some u ∨ u = t := by
  rw [get?_register registered] at found
  split at found
  · cases found
    exact Or.inr rfl
  · exact Or.inl found

end TemplateTable

/-! ## Scopes -/

namespace Scope

/-- The tables of a scope can be trusted: the indexes of its store are exact, the list of its templates is
that of those it holds, and every validator name stands for a factory that is there. -/
structure Sound (scope : Scope) : Prop where
  bindings : scope.bindings.Indexed
  templates : scope.templates.Sound
  extensions : scope.extensions.Sound

/-- All that the first scope knows, the second knows as well and as the same. -/
structure Extends (scope after : Scope) : Prop where
  symbols : ∀ key v, scope.symbol? key = some v → after.symbol? key = some v
  prefixes : ∀ symbol ns, scope.namespace? symbol = some ns → after.namespace? symbol = some ns
  templates : scope.templates.Extends after.templates
  validators : scope.extensions.Extends after.extensions

theorem Sound.extends_refl {scope : Scope} (sound : scope.Sound) : scope.Extends scope :=
  ⟨fun _ _ bound => bound, fun _ _ bound => bound, sound.templates.extends_refl,
    sound.extensions.extends_refl⟩

theorem Extends.trans {first second third : Scope} (before : first.Extends second)
    (later : second.Extends third) : first.Extends third where
  symbols key v bound := later.symbols key v (before.symbols key v bound)
  prefixes symbol ns bound := later.prefixes symbol ns (before.prefixes symbol ns bound)
  templates := before.templates.trans later.templates
  validators := before.validators.trans later.validators

theorem tables_apart : symbolTable.root ≠ prefixTable.root := by decide

/-- A symbol is bound to a value that it had already, or to any value where it had none. -/
theorem bindSymbol_eq_ok {scope after : Scope} {key : String} {v : Value}
    (bound : scope.bindSymbol key v = .ok after) :
    (∀ existing, scope.symbol? key = some existing → existing = v) ∧
      after = { scope with bindings := symbolTable.put scope.bindings key v } := by
  unfold bindSymbol at bound
  split at bound
  · rename_i existing known
    split at bound <;> cases bound
    rename_i same
    refine ⟨?_, rfl⟩
    intro other found
    rw [known, Option.some.injEq] at found
    rw [← found, same]
  · rename_i unknown
    cases bound
    refine ⟨?_, rfl⟩
    intro existing found
    rw [unknown] at found
    cases found

/-- A prefix is bound where it was free; bound to the same namespace again, nothing happens. -/
theorem bindPrefix_eq_ok {scope after : Scope} {symbol : String} {ns : Uri}
    (bound : scope.bindPrefix symbol ns = .ok after) :
    after = scope ∨
      prefixTable.get? scope.bindings symbol = none ∧
        after = { scope with bindings := prefixTable.put scope.bindings symbol (.uri ns) } := by
  unfold bindPrefix at bound
  split at bound
  · split at bound <;> cases bound
    exact Or.inl rfl
  · rename_i free
    cases bound
    exact Or.inr ⟨free, rfl⟩

theorem setDefaultPrefix_eq_ok {scope after : Scope} {symbol : String}
    (chosen : scope.setDefaultPrefix symbol = .ok after) :
    ∃ ns, after = { scope with defaultPrefix := some symbol, defaultNamespace := some ns } := by
  unfold setDefaultPrefix at chosen
  split at chosen <;> cases chosen
  exact ⟨_, rfl⟩

theorem Sound.bindSymbol {scope after : Scope} (sound : scope.Sound) {key : String} {v : Value}
    (bound : scope.bindSymbol key v = .ok after) : after.Sound ∧ scope.Extends after := by
  obtain ⟨agrees, rfl⟩ := bindSymbol_eq_ok bound
  refine ⟨{ sound with bindings := Context.indexed_put sound.bindings _ _ _ },
    { sound.extends_refl with symbols := ?_, prefixes := ?_ }⟩
  · intro k w known
    by_cases same : k = key
    · subst same
      rw [← agrees w known]
      exact Context.get?_put_self sound.bindings _ _ _
    · unfold symbol? at known ⊢
      rw [Context.get?_put_of_ne sound.bindings _ _ _ (Or.inr same)]
      exact known
  · intro symbol ns known
    unfold namespace? at known ⊢
    rw [Context.get?_put_of_ne sound.bindings _ _ _ (Or.inl tables_apart.symm)]
    exact known

theorem Sound.bindPrefix {scope after : Scope} (sound : scope.Sound) {symbol : String} {ns : Uri}
    (bound : scope.bindPrefix symbol ns = .ok after) : after.Sound ∧ scope.Extends after := by
  rcases bindPrefix_eq_ok bound with rfl | ⟨free, rfl⟩
  · exact ⟨sound, sound.extends_refl⟩
  · refine ⟨{ sound with bindings := Context.indexed_put sound.bindings _ _ _ },
      { sound.extends_refl with symbols := ?_, prefixes := ?_ }⟩
    · intro key v known
      unfold symbol? at known ⊢
      rw [Context.get?_put_of_ne sound.bindings _ _ _ (Or.inl tables_apart)]
      exact known
    · intro other namespaceOf known
      unfold namespace? at known ⊢
      -- the prefix was free, so the known one is another
      have ne : other ≠ symbol := by
        rintro rfl
        rw [free] at known
        cases known
      rw [Context.get?_put_of_ne sound.bindings _ _ _ (Or.inr ne)]
      exact known

/-- Every change keeps a scope sound and extends it. -/
theorem Change.extends {scope after : Scope} (change : scope.Change after) (sound : scope.Sound) :
    after.Sound ∧ scope.Extends after := by
  cases change with
  | nothing => exact ⟨sound, sound.extends_refl⟩
  | symbol bound => exact sound.bindSymbol bound
  | template registered =>
      exact ⟨{ sound with templates := sound.templates.register registered },
        { sound.extends_refl with templates := sound.templates.extends_register registered }⟩
  | namespacePrefix bound => exact sound.bindPrefix bound
  | defaultPrefix chosen =>
      obtain ⟨ns, rfl⟩ := setDefaultPrefix_eq_ok chosen
      exact ⟨{ sound with }, { sound.extends_refl with }⟩
  | validator registered =>
      obtain ⟨kept, grown⟩ := sound.extensions.apply (Registration.apply_register.trans registered)
      exact ⟨{ sound with extensions := kept }, { sound.extends_refl with validators := grown }⟩
  | validatorAlias registered =>
      obtain ⟨kept, grown⟩ :=
        sound.extensions.apply (Registration.apply_registerAlias.trans registered)
      exact ⟨{ sound with extensions := kept }, { sound.extends_refl with validators := grown }⟩

theorem Changes.extends {scope after : Scope} (changes : scope.Changes after)
    (sound : scope.Sound) : after.Sound ∧ scope.Extends after := by
  induction changes with
  | refl => exact ⟨sound, sound.extends_refl⟩
  | tail _ change ih =>
      obtain ⟨kept, grown⟩ := change.extends ih.1
      exact ⟨kept, ih.2.trans grown⟩

end Scope

/-! ## Environments -/

namespace Environment

theorem Reachable.sound {env : Environment} (reachable : env.Reachable) : env.scope.Sound := by
  induction reachable with
  | created fresh =>
      obtain ⟨_, extensions, offered, changes⟩ := ofConfig_changes fresh
      refine (changes.extends ⟨Store.indexed_empty, TemplateTable.sound_empty, ?_⟩).1
      rcases offered with rfl | rfl
      · exact Registry.whole_builtin.sound
      · exact Registry.whole_empty.sound
  | operated before op ih => exact ((op.apply_changes _).extends ih).1

/-- Performing a form adds triples at the end. -/
theorem respected_triples : Respected fun env after => env.triples <+: after.triples where
  refl _ := List.prefix_refl _
  trans first second := first.trans second
  perform env form := by
    unfold perform
    split
    · exact List.prefix_refl _
    · rename_i step selves done
      unfold triples
      rw [Store.toList_insertAll]
      exact List.prefix_append _ _
  record _ _ _ _ := List.prefix_refl _
  through _ _ _ inside := inside

theorem Operation.apply_triples (env : Environment) (op : Operation) :
    env.triples <+: (op.apply env).triples := by
  rcases op.apply_cases env with ⟨forms, same⟩ | ⟨form, same⟩ | ⟨_, ts, _, _, _, same⟩
  · rw [same]
    exact respected_triples.interpret env forms
  · rw [same]
    exact respected_triples.evaluate env form
  · rw [same]
    unfold triples
    rw [Store.toList_insertAll]
    exact List.prefix_append _ _

/-- **Write-once state.** Whatever operations follow, the triples of a reachable environment stay in
front, and its symbols, prefixes, templates and validators stand for what they stood for. -/
theorem run_write_once {env : Environment} (reachable : env.Reachable) (ops : List Operation) :
    env.triples <+: (ops.foldl Operation.apply env).triples ∧
      env.scope.Extends (ops.foldl Operation.apply env).scope := by
  induction ops generalizing env with
  | nil => exact ⟨List.prefix_refl _, reachable.sound.extends_refl⟩
  | cons op ops ih =>
      obtain ⟨front, grown⟩ := ih (reachable.operated op)
      obtain ⟨_, first⟩ := (op.apply_changes env).extends reachable.sound
      exact ⟨(op.apply_triples env).trans front, first.trans grown⟩

/-- Binding a symbol to a truth value. -/
def bindTruth (symbol : String) (b : Bool) : Operation :=
  .evaluate (.assignment (.ofSymbol symbol) (.literal (.boolean b)) {})

/-- A bound symbol keeps its value when another one is tried, when its own is bound again, and when
other symbols and prefixes are bound in the same store. -/
theorem bound_symbol_survives_rebinding :
    ((bindTruth "x" true).apply { scope := { extensions := .builtin } }).scope.symbol? "x" =
        some (.literal (.boolean true)) ∧
      ([bindTruth "x" false, bindTruth "x" true, bindTruth "y" false, .bindPrefix "x" ⟨"n"⟩].foldl
          Operation.apply
          ((bindTruth "x" true).apply { scope := { extensions := .builtin } })).scope.symbol? "x" =
        some (.literal (.boolean true)) := by
  have fresh : ofConfig {} = .ok { scope := { extensions := .builtin } } := rfl
  have bound : ((bindTruth "x" true).apply { scope := { extensions := .builtin } }).scope.symbol?
      "x" = some (.literal (.boolean true)) := by decide
  have once := run_write_once (.operated (.created fresh) (bindTruth "x" true))
    [bindTruth "x" false, bindTruth "x" true, bindTruth "y" false, .bindPrefix "x" ⟨"n"⟩]
  exact ⟨bound, once.2.symbols "x" _ bound⟩

end Environment

end Stencil
