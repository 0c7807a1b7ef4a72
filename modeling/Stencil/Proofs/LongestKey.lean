/- # Proofs.LongestKey -- what a name stands for, said without a search

`Denotes` says what a name without `self` stands for, rule by rule: which part of it is the longest that
is bound as a symbol key (`LongestKey`), and what is made of the rest; or, where no part of it is bound,
how a leading identifier, a namespace prefix or the default namespace decides. The rules speak of the
segments of the name and of the two tables, and of no order in which things are tried.

Resolution tries the keys of a leading run of symbols from the longest to the shortest. That it stops at
the longest bound one is `longestKey?_eq_some_iff`, and that it stops nowhere only if no part is bound is
`longestKey?_eq_none_iff`. `resolve_exact` puts the rules and the search together: every name has exactly
one denotation, and `resolve` answers it.
-/
import Stencil.Resolver

namespace Stencil
set_option autoImplicit false

/-! ## Texts -/

/-- The texts of segments, with nothing between them. -/
def texts (segments : List Segment) : String := String.join (segments.map Segment.text)

theorem Uri.append_eq (base : Uri) (rest : List Segment) :
    base.append rest = ⟨base.id ++ texts rest⟩ := by
  induction rest generalizing base with
  | nil => simp [append, texts]
  | cons segment rest ih =>
      have step : base.append (segment :: rest) = Uri.append ⟨base.id ++ segment.text⟩ rest := rfl
      rw [step, ih]
      simp only [texts, List.map_cons, String.join_cons, String.append_assoc]

/-! ## Leading symbols -/

theorem length_leadingSymbols_le (segments : List Segment) :
    (leadingSymbols segments).length ≤ segments.length := by
  fun_induction leadingSymbols segments with
  | case1 s rest ih => simpa using ih
  | case2 => simp

/-- So many segments at the front are symbols as are counted. -/
theorem le_length_leadingSymbols_iff {segments : List Segment} {k : Nat}
    (inside : k ≤ segments.length) :
    k ≤ (leadingSymbols segments).length ↔ ∀ s ∈ segments.take k, ∃ text, s = .symbol text := by
  fun_induction leadingSymbols segments generalizing k with
  | case1 s rest ih =>
      cases k with
      | zero => simp
      | succ k =>
          have fewer : k ≤ rest.length := by simpa using inside
          simp [ih fewer]
  | case2 segments other =>
      cases k with
      | zero => simp
      | succ k =>
          cases segments with
          | nil => simp at inside
          | cons s rest =>
              constructor
              · intro none
                simp at none
              · intro all
                obtain ⟨text, same⟩ := all s (by simp)
                exact absurd (by rw [same]) (other text rest)

theorem map_text_take {segments : List Segment} {k : Nat}
    (inside : k ≤ (leadingSymbols segments).length) :
    (segments.take k).map Segment.text = (leadingSymbols segments).take k := by
  fun_induction leadingSymbols segments generalizing k with
  | case1 s rest ih =>
      cases k with
      | zero => rfl
      | succ k =>
          have fewer : k ≤ (leadingSymbols rest).length := by simpa using inside
          simp [ih fewer, Segment.text, Segment.text?]
  | case2 segments other =>
      have none : k = 0 := by simpa using inside
      simp [none]

/-! ## Keys of a name -/

/-- The texts of the first segments of a name, joined by dots. -/
def Name.key (n : Name) (k : Nat) : String := String.intercalate "." ((n.segments.take k).map Segment.text)

namespace Resolver

/-- The first `k` segments of the name, one at least, are all symbols, and their texts joined by dots are
a symbol key that is bound to `v`. -/
structure KeyOf (r : Resolver) (n : Name) (k : Nat) (v : Value) : Prop where
  pos : 0 < k
  inside : k ≤ n.length
  symbols : ∀ s ∈ n.segments.take k, ∃ text, s = .symbol text
  bound : r.symbols.get? r.bindings (n.key k) = some v

/-- The key that covers most of the name. -/
structure LongestKey (r : Resolver) (n : Name) (k : Nat) (v : Value) : Prop where
  key : r.KeyOf n k v
  longest : ∀ j w, r.KeyOf n j w → j ≤ k

/-- What a name without `self` stands for. -/
inductive Denotes (r : Resolver) (n : Name) : Except ResolveError Value → Prop
  /-- A key that is the whole name: the value it is bound to, of whatever kind. -/
  | whole {v : Value} (key : r.LongestKey n n.length v) : Denotes r n (.ok v)
  /-- A shorter key that is bound to a resource: the other segments are appended. -/
  | extended {k : Nat} {u : Uri} (key : r.LongestKey n k (.uri u)) (shorter : k < n.length) :
      Denotes r n (.ok (.uri ⟨u.id ++ texts (n.segments.drop k)⟩))
  /-- A shorter key that is bound to a constant, to which nothing can be appended. -/
  | constantKey {k : Nat} {l : Literal} (key : r.LongestKey n k (.literal l)) (shorter : k < n.length) :
      Denotes r n
        (.error (.typeMismatch s!"namespace binding \"{n.key k}\"" "resource" l.kind))
  /-- No key, and an identifier in front. -/
  | identifier {u : Uri} (unbound : ∀ k v, ¬ r.KeyOf n k v) (head : n.head = .uri u) :
      Denotes r n (.ok (.uri ⟨u.id ++ texts n.tail⟩))
  /-- No key, and a symbol in front whose part before its first colon is a prefix. -/
  | prefixed {before after : String} {ns : Uri} (unbound : ∀ k v, ¬ r.KeyOf n k v)
      (head : n.head = .symbol (before ++ ":" ++ after)) (first : ':' ∉ before.toList)
      (bound : r.prefixes.get? r.bindings before = some (.uri ns)) :
      Denotes r n (.ok (.uri ⟨ns.id ++ after ++ texts n.tail⟩))
  | missingPrefix {before after : String} (unbound : ∀ k v, ¬ r.KeyOf n k v)
      (head : n.head = .symbol (before ++ ":" ++ after)) (first : ':' ∉ before.toList)
      (missing : r.prefixes.get? r.bindings before = none) :
      Denotes r n (.error (.unboundPrefix before))
  | constantPrefix {before after : String} {l : Literal} (unbound : ∀ k v, ¬ r.KeyOf n k v)
      (head : n.head = .symbol (before ++ ":" ++ after)) (first : ':' ∉ before.toList)
      (bound : r.prefixes.get? r.bindings before = some (.literal l)) :
      Denotes r n (.error (.typeMismatch s!"prefix \"{before}\"" "resource" l.kind))
  /-- No key, and a symbol without a colon in front: all segments behind the default namespace. -/
  | byDefault {s : String} (unbound : ∀ k v, ¬ r.KeyOf n k v) (head : n.head = .symbol s)
      (plain : ':' ∉ s.toList) :
      Denotes r n (.ok (.uri ⟨(r.defaultNamespace.getD .empty).id ++ texts n.segments⟩))

/-! ## The search -/

/-- A key of a name is one of those that are tried. -/
theorem keyOf_iff {r : Resolver} {n : Name} {k : Nat} {v : Value} :
    r.KeyOf n k v ↔ 0 < k ∧ k ≤ (leadingSymbols n.segments).length ∧
      r.boundKey? (leadingSymbols n.segments) k = some v := by
  have fewer := length_leadingSymbols_le n.segments
  constructor
  · rintro ⟨pos, inside, symbols, bound⟩
    have leading := (le_length_leadingSymbols_iff inside).mpr symbols
    refine ⟨pos, leading, ?_⟩
    rw [Name.key, map_text_take leading] at bound
    exact bound
  · rintro ⟨pos, leading, bound⟩
    have inside : k ≤ n.segments.length := Nat.le_trans leading fewer
    refine ⟨pos, inside, (le_length_leadingSymbols_iff inside).mp leading, ?_⟩
    rw [Name.key, map_text_take leading]
    exact bound

theorem longestKey?_some_iff {r : Resolver} {symbols : List String} {most k : Nat} {v : Value} :
    r.longestKey? symbols most = some (k, v) ↔
      0 < k ∧ k ≤ most ∧ r.boundKey? symbols k = some v ∧
        ∀ j, k < j → j ≤ most → r.boundKey? symbols j = none := by
  induction most with
  | zero =>
      simp only [longestKey?, reduceCtorEq, false_iff]
      omega
  | succ most ih =>
      rw [longestKey?]
      cases tried : r.boundKey? symbols (most + 1) with
      | some w =>
          simp only [Option.some.injEq, Prod.mk.injEq]
          constructor
          · rintro ⟨rfl, rfl⟩
            exact ⟨by omega, Nat.le_refl _, tried, fun j more less => by omega⟩
          · rintro ⟨_, inside, bound, beyond⟩
            rcases Nat.lt_or_eq_of_le inside with shorter | rfl
            · -- the key just tried is bound, so it is not beyond the longest
              have free := beyond (most + 1) shorter (Nat.le_refl _)
              rw [tried] at free
              cases free
            · rw [tried] at bound
              cases bound
              exact ⟨rfl, rfl⟩
      | none =>
          rw [ih]
          constructor
          · rintro ⟨pos, inside, bound, beyond⟩
            refine ⟨pos, by omega, bound, fun j more less => ?_⟩
            by_cases last : j = most + 1
            · rw [last, tried]
            · exact beyond j more (by omega)
          · rintro ⟨pos, inside, bound, beyond⟩
            have notLast : k ≠ most + 1 := by
              rintro rfl
              rw [tried] at bound
              cases bound
            exact ⟨pos, by omega, bound, fun j more less => beyond j more (by omega)⟩

theorem longestKey?_none_iff {r : Resolver} {symbols : List String} {most : Nat} :
    r.longestKey? symbols most = none ↔
      ∀ k, 0 < k → k ≤ most → r.boundKey? symbols k = none := by
  induction most with
  | zero =>
      simp only [longestKey?, true_iff]
      omega
  | succ most ih =>
      rw [longestKey?]
      cases tried : r.boundKey? symbols (most + 1) with
      | some w =>
          simp only [reduceCtorEq, false_iff]
          intro all
          have free := all (most + 1) (by omega) (Nat.le_refl _)
          rw [tried] at free
          cases free
      | none =>
          rw [ih]
          constructor
          · intro all k pos inside
            by_cases last : k = most + 1
            · rw [last, tried]
            · exact all k pos (by omega)
          · exact fun all k pos inside => all k pos (by omega)

/-- The search stops at the longest key. -/
theorem longestKey?_eq_some_iff {r : Resolver} {n : Name} {k : Nat} {v : Value} :
    r.longestKey? (leadingSymbols n.segments) (leadingSymbols n.segments).length = some (k, v) ↔
      r.LongestKey n k v := by
  rw [longestKey?_some_iff]
  constructor
  · rintro ⟨pos, inside, bound, beyond⟩
    refine ⟨keyOf_iff.mpr ⟨pos, inside, bound⟩, fun j w other => ?_⟩
    obtain ⟨_, within, held⟩ := keyOf_iff.mp other
    rcases Nat.lt_or_ge k j with longer | covered
    · have free := beyond j longer within
      rw [held] at free
      cases free
    · exact covered
  · rintro ⟨key, longest⟩
    obtain ⟨pos, inside, bound⟩ := keyOf_iff.mp key
    refine ⟨pos, inside, bound, fun j more within => ?_⟩
    cases held : r.boundKey? (leadingSymbols n.segments) j with
    | none => rfl
    | some w =>
        have least := longest j w (keyOf_iff.mpr ⟨by omega, within, held⟩)
        omega

/-- The search comes to nothing only where no part of the name is bound. -/
theorem longestKey?_eq_none_iff {r : Resolver} {n : Name} :
    r.longestKey? (leadingSymbols n.segments) (leadingSymbols n.segments).length = none ↔
      ∀ k v, ¬ r.KeyOf n k v := by
  rw [longestKey?_none_iff]
  constructor
  · intro free k v key
    obtain ⟨pos, inside, bound⟩ := keyOf_iff.mp key
    rw [free k pos inside] at bound
    cases bound
  · intro unbound k pos inside
    cases held : r.boundKey? (leadingSymbols n.segments) k with
    | none => rfl
    | some v => exact absurd (keyOf_iff.mpr ⟨pos, inside, held⟩) (unbound k v)

/-! ## Resolution follows the rules -/

/-- An identifier alone needs no rule of its own. -/
theorem resolveBound_eq (r : Resolver) (n : Name) :
    r.resolveBound n =
      match r.longestKey? (leadingSymbols n.segments) (leadingSymbols n.segments).length with
      | some (k, v) => (afterKey n.segments k v).map .value
      | none => r.withoutKey n := by
  unfold resolveBound
  split
  · rfl
  · rfl

section Rules

variable {r : Resolver} {n : Name}

theorem resolveBound_of_key {k : Nat} {v : Value} (key : r.LongestKey n k v) :
    r.resolveBound n = (afterKey n.segments k v).map .value := by
  rw [resolveBound_eq, longestKey?_eq_some_iff.mpr key]

theorem resolveBound_of_unbound (unbound : ∀ k v, ¬ r.KeyOf n k v) :
    r.resolveBound n = r.withoutKey n := by
  rw [resolveBound_eq, longestKey?_eq_none_iff.mpr unbound]

theorem afterKey_of_lt {k : Nat} (shorter : k < n.length) (v : Value) :
    afterKey n.segments k v =
      match v with
      | .uri ns => .ok (.uri ⟨ns.id ++ texts (n.segments.drop k)⟩)
      | .literal l =>
        .error (.typeMismatch
          s!"namespace binding \"{Context.pathKey ((leadingSymbols n.segments).take k)}\""
          "resource" l.kind) := by
  have notAll : k ≠ n.segments.length := Nat.ne_of_lt shorter
  unfold afterKey
  rw [if_neg notAll]
  cases v with
  | uri ns => simp only [Uri.append_eq]
  | literal l => rfl

/-- A colon is found where the text before it has none. -/
theorem withoutKey_of_colon {before after : String} (head : n.head = .symbol (before ++ ":" ++ after))
    (first : ':' ∉ before.toList) :
    r.withoutKey n =
      (r.expandPrefix before).map fun ns =>
        .value (.uri ⟨ns.id ++ after ++ texts n.tail⟩) := by
  have split : Text.splitFirst? ':' (before ++ ":" ++ after).toList =
      some (before.toList, after.toList) := by
    rw [Text.splitFirst?_eq_some_iff]
    exact ⟨by simp, first⟩
  simp only [withoutKey, head, split, String.ofList_toList, Uri.append_eq, Uri.extend,
    String.append_empty]
  cases r.expandPrefix before with
  | ok ns => rfl
  | error e => rfl

/-- A denotation is what resolution answers. -/
theorem Denotes.resolveBound {x : Except ResolveError Value} (denotes : r.Denotes n x) :
    r.resolveBound n = x.map .value := by
  cases denotes with
  | whole key =>
      have all : n.length = n.segments.length := rfl
      rw [resolveBound_of_key key]
      unfold afterKey
      rw [if_pos all]
  | extended key shorter =>
      rw [resolveBound_of_key key, afterKey_of_lt shorter]
  | @constantKey k l key shorter =>
      rw [resolveBound_of_key key, afterKey_of_lt shorter, Name.key,
        map_text_take (keyOf_iff.mp key.key).2.1]
      rfl
  | identifier unbound head =>
      rw [resolveBound_of_unbound unbound]
      simp only [withoutKey, head, Uri.append_eq]
      rfl
  | prefixed unbound head first bound =>
      rw [resolveBound_of_unbound unbound, withoutKey_of_colon head first]
      simp only [expandPrefix, bound]
      rfl
  | missingPrefix unbound head first missing =>
      rw [resolveBound_of_unbound unbound, withoutKey_of_colon head first]
      simp only [expandPrefix, missing]
      rfl
  | constantPrefix unbound head first bound =>
      rw [resolveBound_of_unbound unbound, withoutKey_of_colon head first]
      simp only [expandPrefix, bound]
      rfl
  | byDefault unbound head plain =>
      rw [resolveBound_of_unbound unbound]
      simp only [withoutKey, head, Text.splitFirst?_eq_none_iff.mpr plain, Uri.append_eq]
      rfl

/-- Some rule applies to every name without `self`. -/
theorem exists_denotes (r : Resolver) {n : Name} (free : n.hasSelf = false) :
    ∃ x, r.Denotes n x := by
  cases searched : r.longestKey? (leadingSymbols n.segments)
      (leadingSymbols n.segments).length with
  | some found =>
      obtain ⟨k, v⟩ := found
      have key := longestKey?_eq_some_iff.mp searched
      rcases Nat.lt_or_eq_of_le key.key.inside with shorter | rfl
      · cases v with
        | uri u => exact ⟨_, .extended key shorter⟩
        | literal l => exact ⟨_, .constantKey key shorter⟩
      · exact ⟨_, .whole key⟩
  | none =>
      have unbound := longestKey?_eq_none_iff.mp searched
      cases head : n.head with
      | uri u => exact ⟨_, .identifier unbound head⟩
      | selfRef =>
          have isSelf : n.hasSelf = true := by
            simp [Name.hasSelf, Name.segments, head, Segment.isSelf]
          rw [free] at isSelf
          cases isSelf
      | symbol s =>
          cases split : Text.splitFirst? ':' s.toList with
          | none => exact ⟨_, .byDefault unbound head (Text.splitFirst?_eq_none_iff.mp split)⟩
          | some parts =>
              obtain ⟨before, after⟩ := parts
              obtain ⟨shape, first⟩ := Text.splitFirst?_eq_some_iff.mp split
              have cut : s = String.ofList before ++ ":" ++ String.ofList after := by
                rw [← String.toList_inj, shape]
                simp
              have absent : ':' ∉ (String.ofList before).toList := by simpa using first
              rw [cut] at head
              cases bound : r.prefixes.get? r.bindings (String.ofList before) with
              | none => exact ⟨_, .missingPrefix unbound head absent bound⟩
              | some v =>
                  cases v with
                  | uri ns => exact ⟨_, .prefixed unbound head absent bound⟩
                  | literal l => exact ⟨_, .constantPrefix unbound head absent bound⟩

/-- No key begins with an identifier, so all that is behind it is appended. -/
theorem denotes_uri (r : Resolver) (u : Uri) (tail : List Segment) :
    r.Denotes ⟨.uri u, tail⟩ (.ok (.uri ⟨u.id ++ texts tail⟩)) := by
  refine .identifier (fun k v key => ?_) rfl
  have first : Segment.uri u ∈ (Name.mk (.uri u) tail).segments.take k := by
    obtain ⟨j, rfl⟩ := Nat.exists_eq_add_of_lt key.pos
    simp [Name.segments]
  obtain ⟨text, isSymbol⟩ := key.symbols _ first
  cases isSymbol

end Rules

end Resolver

/-- What a name is once `self` is bound to the identity at hand: itself where it mentions no `self`. -/
inductive Name.Bound (me : Option Uri) : Name → Name → Prop
  | free {n : Name} (free : n.hasSelf = false) : Bound me n n
  | bound {n : Name} {u : Uri} (current : me = some u) : Bound me n (n.bindSelf u)

theorem Name.Bound.hasSelf {me : Option Uri} {n m : Name} (bound : n.Bound me m) :
    m.hasSelf = false := by
  cases bound with
  | free free => exact free
  | bound current => exact hasSelf_bindSelf _ _

namespace Resolver

theorem resolve_of_bound (r : Resolver) {n m : Name} (bound : n.Bound r.currentSelf m) :
    r.resolve n = r.resolveBound m := by
  cases bound with
  | free free => simp [resolve, free]
  | @bound u current =>
      cases mentions : n.hasSelf with
      | true => simp [resolve, mentions, current]
      | false => simp [resolve, mentions, Name.bindSelf_of_hasSelf_eq_false mentions]

/-- The segments behind a leading `self` are appended to the identity at hand. -/
theorem resolve_selfRef {r : Resolver} {me : Uri} (current : r.currentSelf = some me)
    (tail : List Segment) :
    r.resolve ⟨.selfRef, tail⟩ =
      .ok (.value (.uri ⟨me.id ++ texts (tail.map (Segment.bindSelf me))⟩)) := by
  rw [r.resolve_of_bound (.bound current)]
  exact (r.denotes_uri me _).resolveBound

/-- **Resolution is exact.** For a name whose `self`, if it has any, is bound, one of the rules for the
longest bound key, a leading identifier, a namespace prefix and the default namespace gives an answer,
a value or an error; and the answers that the rules give are what `resolve` returns. -/
theorem resolve_exact (r : Resolver) {n m : Name} (bound : n.Bound r.currentSelf m) :
    (∃ x, r.Denotes m x) ∧ ∀ x, r.Denotes m x ↔ r.resolve n = x.map .value := by
  obtain ⟨x, denotes⟩ := r.exists_denotes bound.hasSelf
  refine ⟨⟨x, denotes⟩, fun y => ?_⟩
  rw [r.resolve_of_bound bound]
  constructor
  · exact Denotes.resolveBound
  · intro answer
    have same : y.map Resolution.value = x.map Resolution.value :=
      answer.symm.trans denotes.resolveBound
    have equal : y = x := by
      cases x <;> cases y <;> simp_all [Except.map]
    rw [equal]
    exact denotes

/-- The symbol `a` is bound to a resource and `a.b` to a constant. -/
def shadowing : Resolver :=
  let symbols : Context := ⟨⟨"symbols"⟩⟩
  { bindings := symbols.put (symbols.put .empty "a" (.uri ⟨"x/"⟩)) "a.b" (.literal (.boolean true))
    symbols
    prefixes := ⟨⟨"prefixes"⟩⟩
    defaultNamespace := none
    currentSelf := none }

/-- The name `a.b.c`. -/
def abc : Name := ⟨.symbol "a", [.symbol "b", .symbol "c"]⟩

/-- The constant is bound to more of the name, so the resource does not count. -/
theorem longer_constant_shadows_resource :
    abc.Bound shadowing.currentSelf abc ∧
      shadowing.Denotes abc
        (.error (.typeMismatch "namespace binding \"a.b\"" "resource" "boolean")) := by
  have free : abc.Bound shadowing.currentSelf abc := .free rfl
  exact ⟨free, ((resolve_exact shadowing free).2 _).mpr rfl⟩

end Resolver

end Stencil
