/- # Proofs.AssignmentLocality -- which names an assignment changes

Binding a symbol key changes what a name stands for only where the key is made of more segments of the
name than its longest key before (`Resolver.Overtaken`). Every other name stands for what it stood for:
a key that is shorter than the one that decides, one that is bound to the same value again, a prefix of
the same spelling and a key of other names are all passed over (`assignment_local`).

Binding is removing and inserting in a store that symbols and prefixes share. What it does to the keys
of one name is `keyOf_putSymbol_iff` and `keyOf_putSymbol_of`, and what it does to the one among them
that decides is `resolveBound_putSymbol`.
-/
import Stencil.Proofs.LongestKey
import Stencil.Proofs.WriteOnce

namespace Stencil
set_option autoImplicit false

/-! ## Keys of targets -/

namespace Name

/-- So many segments at the front of the name are symbols, and joined by dots they are the key. -/
structure StartsWith (n : Name) (j : Nat) (key : String) : Prop where
  inside : j ≤ n.length
  symbols : ∀ s ∈ n.segments.take j, ∃ text, s = .symbol text
  joined : n.key j = key

theorem length_pos (n : Name) : 0 < n.length := by simp [length, segments]

theorem eq_map_symbol {segments : List Segment} {symbols : List String}
    (all : segments.mapM Segment.symbol? = some symbols) : segments = symbols.map .symbol := by
  induction segments generalizing symbols with
  | nil =>
      simp only [List.mapM_nil, Option.pure_def, Option.some.injEq] at all
      subst all
      rfl
  | cons s segments ih =>
      simp only [List.mapM_cons, Option.bind_eq_bind, Option.pure_def, Option.bind_eq_some_iff,
        Option.some.injEq] at all
      obtain ⟨text, isSymbol, rest, others, rfl⟩ := all
      cases s with
      | symbol first =>
          cases isSymbol
          rw [ih others, List.map_cons]
      | uri u => cases isSymbol
      | selfRef => cases isSymbol

/-- The key of a target is the whole of it. -/
theorem startsWith_of_symbolKey {n : Name} {key : String} (keyed : n.symbolKey = .ok key) :
    n.StartsWith n.length key := by
  unfold symbolKey at keyed
  split at keyed
  · rename_i symbols all
    have shape := eq_map_symbol all
    have whole : n.segments.take n.length = symbols.map .symbol := by
      rw [length, List.take_length, shape]
    cases keyed
    refine ⟨Nat.le_refl _, ?_, ?_⟩
    · rw [whole]
      intro s listed
      obtain ⟨text, _, rfl⟩ := List.mem_map.mp listed
      exact ⟨text, rfl⟩
    · rw [Name.key, whole, List.map_map]
      have texts : symbols.map (Segment.text ∘ Segment.symbol) = symbols := List.map_id symbols
      rw [texts]
      rfl
  · cases keyed

/-- A name has its `self` bound, or mentions it where there is none. -/
theorem bound_or_unresolved (n : Name) (me : Option Uri) :
    (∃ m, n.Bound me m) ∨ n.hasSelf = true ∧ me = none := by
  cases mentions : n.hasSelf with
  | false => exact Or.inl ⟨n, .free mentions⟩
  | true =>
      cases me with
      | some u => exact Or.inl ⟨_, .bound rfl⟩
      | none => exact Or.inr ⟨rfl, rfl⟩

theorem StartsWith.hasSelf {n : Name} {key : String} (starts : n.StartsWith n.length key) :
    n.hasSelf = false := by
  rw [Name.hasSelf, List.any_eq_false]
  intro s listed
  obtain ⟨text, rfl⟩ := starts.symbols s (by rwa [length, List.take_length])
  simp [Segment.isSelf]

end Name

namespace Resolver

theorem keyOf_iff_startsWith {r : Resolver} {n : Name} {k : Nat} {v : Value} :
    r.KeyOf n k v ↔
      0 < k ∧ ∃ key, n.StartsWith k key ∧ r.symbols.get? r.bindings key = some v := by
  constructor
  · rintro ⟨pos, inside, symbols, bound⟩
    exact ⟨pos, _, ⟨inside, symbols, rfl⟩, bound⟩
  · rintro ⟨pos, key, ⟨inside, symbols, rfl⟩, bound⟩
    exact ⟨pos, inside, symbols, bound⟩

/-- A name that is bound as a whole stands for what it is bound to. -/
theorem resolve_of_whole {r : Resolver} {n : Name} {key : String} {v : Value}
    (starts : n.StartsWith n.length key) (bound : r.symbols.get? r.bindings key = some v) :
    r.resolve n = .ok (.value v) := by
  have whole : r.LongestKey n n.length v :=
    ⟨keyOf_iff_startsWith.mpr ⟨n.length_pos, key, starts, bound⟩, fun _ _ other => other.inside⟩
  rw [r.resolve_of_bound (.free starts.hasSelf), (Denotes.whole whole).resolveBound]
  rfl

end Resolver

/-! ## Names that a binding leaves alone -/

namespace Resolver

/-- So many segments in front of a name are its longest key, and none where no part of it is bound. -/
inductive Covered (r : Resolver) (n : Name) : Nat → Prop
  | byKey {k : Nat} {v : Value} (key : r.LongestKey n k v) : Covered r n k
  | byNone (unbound : ∀ k v, ¬ r.KeyOf n k v) : Covered r n 0

theorem exists_covered (r : Resolver) (n : Name) : ∃ k, r.Covered n k := by
  cases searched : r.longestKey? (leadingSymbols n.segments)
      (leadingSymbols n.segments).length with
  | some found => exact ⟨found.1, .byKey (longestKey?_eq_some_iff.mp searched)⟩
  | none => exact ⟨0, .byNone (longestKey?_eq_none_iff.mp searched)⟩

/-- The key is made of more segments of a name than its longest key, `self` being bound first. -/
def Overtaken (r : Resolver) (n : Name) (key : String) : Prop :=
  ∃ m k j, n.Bound r.currentSelf m ∧ r.Covered m k ∧ k < j ∧ m.StartsWith j key

theorem withoutKey_congr {r r' : Resolver} (prefixes : ∀ s, r'.expandPrefix s = r.expandPrefix s)
    (default : r'.defaultNamespace = r.defaultNamespace) (n : Name) :
    r'.withoutKey n = r.withoutKey n := by
  unfold withoutKey
  simp only [prefixes, default]

end Resolver

namespace Scope

/-- The scope in which a symbol key is bound to a value. -/
def putSymbol (scope : Scope) (key : String) (v : Value) : Scope :=
  { scope with bindings := symbolTable.put scope.bindings key v }

section Put

variable {scope : Scope} (indexed : scope.bindings.Indexed) {key : String} {v : Value}
  (me : Option Uri) {m : Name}

include indexed

theorem expandPrefix_putSymbol (symbol : String) :
    ((scope.putSymbol key v).resolver me).expandPrefix symbol =
      (scope.resolver me).expandPrefix symbol := by
  have same : prefixTable.get? (scope.putSymbol key v).bindings symbol =
      prefixTable.get? scope.bindings symbol :=
    Context.get?_put_of_ne indexed _ _ _ (Or.inl tables_apart.symm)
  simp only [Resolver.expandPrefix, resolver, same]

/-- A part of a name that is not the key itself is bound as it was. -/
theorem keyOf_putSymbol_iff {j : Nat} {w : Value} (other : m.key j ≠ key) :
    ((scope.putSymbol key v).resolver me).KeyOf m j w ↔ (scope.resolver me).KeyOf m j w := by
  have same : symbolTable.get? (scope.putSymbol key v).bindings (m.key j) =
      symbolTable.get? scope.bindings (m.key j) :=
    Context.get?_put_of_ne indexed _ _ _ (Or.inr other)
  constructor
  · rintro ⟨pos, inside, symbols, bound⟩
    exact ⟨pos, inside, symbols, same.symm.trans bound⟩
  · rintro ⟨pos, inside, symbols, bound⟩
    exact ⟨pos, inside, symbols, same.trans bound⟩

variable (agrees : ∀ existing, scope.symbol? key = some existing → existing = v)

include agrees

/-- No part of a name is unbound again, or bound to something else. -/
theorem keyOf_putSymbol_of {j : Nat} {w : Value} (held : (scope.resolver me).KeyOf m j w) :
    ((scope.putSymbol key v).resolver me).KeyOf m j w := by
  by_cases same : m.key j = key
  · have value : w = v := agrees w (same ▸ held.bound)
    refine ⟨held.pos, held.inside, held.symbols, ?_⟩
    rw [same, value]
    exact Context.get?_put_self indexed _ _ _
  · exact (keyOf_putSymbol_iff indexed me same).mpr held

/-- A key that is no longer than the one that decides decides nothing. -/
theorem resolveBound_putSymbol {k : Nat} (covered : (scope.resolver me).Covered m k)
    (shorter : ∀ j, k < j → ¬ m.StartsWith j key) :
    ((scope.putSymbol key v).resolver me).resolveBound m = (scope.resolver me).resolveBound m := by
  -- what is bound now and was not bound before is the key itself, which is not beyond `k`
  have before : ∀ j w, ((scope.putSymbol key v).resolver me).KeyOf m j w →
      (scope.resolver me).KeyOf m j w ∨ j ≤ k := by
    intro j w now
    by_cases same : m.key j = key
    · right
      by_contra beyond
      exact shorter j (by omega) ⟨now.inside, now.symbols, same⟩
    · exact Or.inl ((keyOf_putSymbol_iff indexed me same).mp now)
  cases covered with
  | @byKey k w longest =>
      have still : ((scope.putSymbol key v).resolver me).LongestKey m k w := by
        refine ⟨keyOf_putSymbol_of indexed me agrees longest.key, fun j w' now => ?_⟩
        rcases before j w' now with held | covered
        · exact longest.longest j w' held
        · exact covered
      rw [Resolver.resolveBound_of_key still, Resolver.resolveBound_of_key longest]
  | byNone unbound =>
      have still : ∀ j w, ¬ ((scope.putSymbol key v).resolver me).KeyOf m j w := by
        intro j w now
        rcases before j w now with held | none
        · exact unbound j w held
        · have := now.pos
          omega
      rw [Resolver.resolveBound_of_unbound still, Resolver.resolveBound_of_unbound unbound]
      exact Resolver.withoutKey_congr (expandPrefix_putSymbol indexed me) rfl m

end Put

end Scope

namespace Environment

/-- An assignment that succeeds has bound its key to its answer. -/
theorem evaluate_assignment_eq_ok {env after : Environment} {target : Name} {e : Expr}
    {location : Location} {answer : Option Value}
    (done : env.evaluate (.assignment target e location) = (.ok answer, after)) :
    ∃ key v, target.symbolKey = .ok key ∧ env.scope.bindSymbol key v = .ok after.scope ∧
      answer = some v := by
  have performed : env.perform (.assignment target e location) = (.ok answer, after) := done
  unfold perform at performed
  split at performed
  · cases performed
  · rename_i step selves worked
    cases performed
    exact Form.assign_eq_ok worked

/-- **Assignments are local.** An assignment that succeeds leaves every name standing for what it stood
for, be it a value, an error or an unbound `self`, unless the key that it binds overtakes the longest key
of the name. The store of an environment is indexed at every moment of its life (`Reachable.sound`). -/
theorem assignment_local {env after : Environment} (indexed : env.scope.bindings.Indexed)
    {target : Name} {e : Expr} {location : Location} {answer : Option Value}
    (done : env.evaluate (.assignment target e location) = (.ok answer, after)) {key : String}
    (keyed : target.symbolKey = .ok key) (me : Option Uri) (n : Name)
    (elsewhere : ¬ (env.scope.resolver me).Overtaken n key) :
    (after.scope.resolver me).resolve n = (env.scope.resolver me).resolve n := by
  obtain ⟨_, v, sameKey, bound, _⟩ := evaluate_assignment_eq_ok done
  cases keyed.symm.trans sameKey
  obtain ⟨agrees, put⟩ := Scope.bindSymbol_eq_ok bound
  have shape : after.scope = env.scope.putSymbol key v := put
  rw [shape]
  rcases n.bound_or_unresolved me with ⟨m, named⟩ | ⟨mentions, rfl⟩
  · obtain ⟨k, covered⟩ := (env.scope.resolver me).exists_covered m
    have shorter : ∀ j, k < j → ¬ m.StartsWith j key :=
      fun j more starts => elsewhere ⟨m, k, j, named, covered, more, starts⟩
    rw [Resolver.resolve_of_bound _ named, Resolver.resolve_of_bound _ named]
    exact Scope.resolveBound_putSymbol indexed me agrees covered shorter
  · simp [Resolver.resolve, mentions, Scope.resolver]

/-- The symbol key `a.b` and the prefix `a` are bound. -/
def homonyms : Environment :=
  [.bindPrefix "a" ⟨"p/"⟩,
    .evaluate (.assignment ⟨.symbol "a", [.symbol "b"]⟩ (.name (.ofUri ⟨"x/"⟩)) {})].foldl
    Operation.apply { scope := { extensions := .builtin } }

theorem homonyms_reachable : homonyms.Reachable := by
  have fresh : ofConfig {} = .ok { scope := { extensions := .builtin } } := rfl
  exact Reachable.foldl (.created fresh) _

/-- Bind the symbol `a` to a constant. -/
def bindShorter : Form := .assignment (.ofSymbol "a") (.literal (.boolean true)) {}

/-- The name `a.b.c`. -/
def abcName : Name := ⟨.symbol "a", [.symbol "b", .symbol "c"]⟩

/-- The name `a.b.c` is resolved by `a.b`, so that `a` may be bound to a constant. -/
theorem shorter_binding_leaves_longer_name :
    (homonyms.evaluate bindShorter).1 = .ok (some (.literal (.boolean true))) ∧
      ¬ (homonyms.scope.resolver none).Overtaken abcName "a" ∧
      (homonyms.scope.resolver none).resolve abcName = .ok (.value (.uri ⟨"x/c"⟩)) ∧
      ((homonyms.evaluate bindShorter).2.scope.resolver none).resolve abcName =
        .ok (.value (.uri ⟨"x/c"⟩)) := by
  have answer : (homonyms.evaluate bindShorter).1 = .ok (some (.literal (.boolean true))) := rfl
  have elsewhere : ¬ (homonyms.scope.resolver none).Overtaken abcName "a" := by
    rintro ⟨m, k, j, named, covered, more, starts⟩
    cases named with
    | bound current => cases current
    | free free =>
        have ab : (homonyms.scope.resolver none).KeyOf abcName 2 (.uri ⟨"x/"⟩) :=
          Resolver.keyOf_iff.mpr ⟨by decide, by decide, by decide +kernel⟩
        have two : 2 ≤ k := by
          cases covered with
          | byKey longest => exact longest.longest _ _ ab
          | byNone unbound => exact absurd ab (unbound _ _)
        have three : j = 3 := Nat.le_antisymm starts.inside (by omega)
        subst three
        exact absurd starts.joined (by decide)
  have before : (homonyms.scope.resolver none).resolve abcName = .ok (.value (.uri ⟨"x/c"⟩)) := by
    decide +kernel
  refine ⟨answer, elsewhere, before, ?_⟩
  rw [← before]
  exact assignment_local homonyms_reachable.sound.bindings (Prod.ext answer rfl) rfl none abcName
    elsewhere

end Environment

end Stencil
