/- # Proofs.Registration -- a registry means by its names what it was told

Names and aliases share one table of places in a second list, that of the factories. The two are kept
together by `Registry.Whole`: every place is one that is there, and every factory stands at the place of its
own name. A call that is accepted adds one free name, and a factory if it brings one
(`Registry.apply_eq_ok`); it keeps a registry whole and what its names mean (`Whole.apply`). So over any
calls, accepted or refused, names are listed once and in order, and each name and alias means what it meant
when it was given (`registry_integrity`).

The registry of the bundled validators is itself made by such calls, and is whole like any other.
-/
import Stencil.Validator.Registry

namespace Stencil
set_option autoImplicit false

/-! ## Names that keep their meaning -/

namespace Registry

/-- Every name and every alias stands for a factory that is there. -/
def Sound (r : Registry) : Prop :=
  ∀ name place, r.places.lookup name = some place → place < r.factories.length

/-- Every name and every alias of the first registry stands for the same factory in the second. -/
def Extends (r after : Registry) : Prop :=
  ∀ name, r.contains name = true →
    ∃ factory, r.get? name = some factory ∧ after.get? name = some factory

theorem Sound.exists_get? {r : Registry} (sound : r.Sound) {name : String}
    (known : r.contains name = true) : ∃ factory, r.get? name = some factory := by
  obtain ⟨place, found⟩ := Option.isSome_iff_exists.mp known
  have inside := sound name place found
  refine ⟨(r.factories[place]).2, ?_⟩
  rw [get?, found, Option.bind_some, List.getElem?_eq_getElem inside]
  rfl

theorem contains_of_get? {r : Registry} {name : String} {factory : Factory}
    (found : r.get? name = some factory) : r.contains name = true := by
  unfold get? at found
  obtain ⟨place, listed, _⟩ := Option.bind_eq_some_iff.mp found
  rw [contains, listed]
  rfl

theorem Sound.extends_refl {r : Registry} (sound : r.Sound) : r.Extends r := by
  intro name known
  obtain ⟨factory, found⟩ := sound.exists_get? known
  exact ⟨factory, found, found⟩

theorem Extends.trans {first second third : Registry} (before : first.Extends second)
    (later : second.Extends third) : first.Extends third := by
  intro name known
  obtain ⟨factory, here, there⟩ := before name known
  obtain ⟨other, found, after⟩ := later name (contains_of_get? there)
  rw [there, Option.some.injEq] at found
  subst found
  exact ⟨factory, here, after⟩

/-- A new name behind the present ones, for a factory that is there or comes with it, changes no name
that is known. -/
theorem Sound.append {r : Registry} (sound : r.Sound) (factories : List (String × Factory))
    {name : String} {place : Nat} (inside : place < (r.factories ++ factories).length) :
    Sound ⟨r.factories ++ factories, r.places ++ [(name, place)]⟩ ∧
      r.Extends ⟨r.factories ++ factories, r.places ++ [(name, place)]⟩ := by
  constructor
  · intro known found listed
    rw [List.lookup_append, Option.or_eq_some_iff] at listed
    rcases listed with old | ⟨_, new⟩
    · exact Nat.lt_of_lt_of_le (sound known found old) (by simp)
    · rw [List.lookup_cons, List.lookup_nil] at new
      split at new <;> cases new
      exact inside
  · intro known listed
    obtain ⟨factory, found⟩ := sound.exists_get? listed
    obtain ⟨old, listed⟩ := Option.isSome_iff_exists.mp listed
    refine ⟨factory, found, ?_⟩
    unfold get? at found ⊢
    rw [listed, Option.bind_some] at found
    rw [List.lookup_append, listed, Option.some_or, Option.bind_some,
      List.getElem?_append_left (sound known old listed)]
    exact found

end Registry

/-! ## Calls -/

namespace Registration

theorem apply_register {r : Registry} {name : String} {factory : Factory} :
    (register name factory).apply r = r.register name factory := rfl

theorem apply_registerAlias {r : Registry} {other target : String} :
    (registerAlias other target).apply r = r.registerAlias other target := rfl

/-- The name or the alias that is asked for. -/
def given : Registration → String
  | .register name _ => name
  | .registerAlias other _ => other

/-- The factory that is brought, with its name. -/
def entry? : Registration → Option (String × Factory)
  | .register name factory => some (name, factory)
  | .registerAlias _ _ => none

end Registration

namespace Registry

/-- The calls that are not refused. -/
def accepted (r : Registry) : List Registration → List Registration
  | [] => []
  | call :: calls =>
    match call.apply r with
    | .ok after => call :: after.accepted calls
    | .error _ => r.accepted calls

/-! ## Both tables -/

/-- Every name and alias has a place that is there, and every factory has the place of its own name. -/
structure Whole (r : Registry) : Prop where
  sound : r.Sound
  own : ∀ place entry, r.factories[place]? = some entry → r.places.lookup entry.1 = some place

theorem whole_empty : empty.Whole := ⟨by simp [Sound, empty], by simp [empty]⟩

theorem contains_eq_false_iff {r : Registry} {name : String} :
    r.contains name = false ↔ r.places.lookup name = none := by
  rw [contains, Option.isSome_eq_false_iff, Option.isNone_iff_eq_none]

namespace Whole

variable {r : Registry} (whole : r.Whole)
include whole

theorem get?_of_mem {name : String} {factory : Factory} (mem : (name, factory) ∈ r.factories) :
    r.get? name = some factory := by
  obtain ⟨place, found⟩ := List.mem_iff_getElem?.mp mem
  rw [get?, whole.own place _ found, Option.bind_some, found, Option.map_some]

theorem isSome_get? (name : String) : (r.get? name).isSome = r.contains name := by
  cases known : r.contains name with
  | true =>
      obtain ⟨factory, found⟩ := whole.sound.exists_get? known
      rw [found, Option.isSome_some]
  | false => rw [get?, contains_eq_false_iff.mp known, Option.bind_none, Option.isSome_none]

/-- Two places with one name would be one. -/
theorem nodup_names : r.names.Nodup := by
  rw [names, List.Nodup, List.pairwise_iff_getElem]
  intro i j hi hj before same
  rw [List.length_map] at hi hj
  rw [List.getElem_map, List.getElem_map] at same
  have first := whole.own i _ (List.getElem?_eq_getElem hi)
  have second := whole.own j _ (List.getElem?_eq_getElem hj)
  rw [same, second, Option.some.injEq] at first
  omega

end Whole

/-! ## One call -/

theorem register_eq_error_iff {r : Registry} {name : String} {factory : Factory}
    {e : ExtensionError} :
    r.register name factory = .error e ↔ r.contains name = true ∧ e = .duplicate name := by
  rw [register]
  cases r.contains name with
  | true =>
      rw [if_pos rfl, Except.error.injEq, and_iff_right rfl]
      exact eq_comm
  | false => simp

theorem registerAlias_eq_error_iff {r : Registry} {other target : String} {e : ExtensionError} :
    r.registerAlias other target = .error e ↔
      r.contains other = true ∧ e = .duplicate other ∨
        r.contains other = false ∧ r.contains target = false ∧ e = .unknownValidator target := by
  rw [registerAlias]
  cases r.contains other with
  | true =>
      rw [if_pos rfl, Except.error.injEq, and_iff_right rfl]
      simp only [Bool.true_eq_false, false_and, or_false]
      exact eq_comm
  | false =>
      rw [if_neg Bool.false_ne_true]
      simp only [Bool.false_eq_true, false_and, false_or, true_and]
      rw [contains_eq_false_iff]
      cases r.places.lookup target with
      | none =>
          rw [Except.error.injEq, and_iff_right rfl]
          exact eq_comm
      | some place => simp

/-- Where the name that a call asks for is to stand: at the end, with the factory that is brought, or where
the target of an alias stands. -/
inductive PlacedAt (r : Registry) : Registration → Nat → Prop
  | register (name : String) (factory : Factory) :
      PlacedAt r (.register name factory) r.factories.length
  | registerAlias (other : String) {target : String} {place : Nat}
      (meant : r.places.lookup target = some place) : PlacedAt r (.registerAlias other target) place

/-- An accepted call adds the name it asks for, which was free, and the factory it brings. -/
theorem apply_eq_ok {call : Registration} {r after : Registry} (ok : call.apply r = .ok after) :
    r.places.lookup call.given = none ∧ ∃ place, r.PlacedAt call place ∧
      after = ⟨r.factories ++ call.entry?.toList, r.places ++ [(call.given, place)]⟩ := by
  cases call with
  | register name factory =>
      rw [Registration.apply, Registry.register] at ok
      split at ok
      · cases ok
      · rename_i free
        rw [Bool.not_eq_true, contains_eq_false_iff] at free
        cases ok
        exact ⟨free, _, .register name factory, rfl⟩
  | registerAlias other target =>
      rw [Registration.apply, Registry.registerAlias] at ok
      split at ok
      · cases ok
      · rename_i free
        rw [Bool.not_eq_true, contains_eq_false_iff] at free
        split at ok
        · rename_i place meant
          cases ok
          refine ⟨free, place, .registerAlias other meant, ?_⟩
          rw [Registration.entry?, Option.toList_none, List.append_nil]
          rfl
        · cases ok

theorem PlacedAt.inside {call : Registration} {r : Registry} {place : Nat} (sound : r.Sound)
    (placed : r.PlacedAt call place) :
    place < (r.factories ++ call.entry?.toList).length := by
  cases placed with
  | register name factory => simp [Registration.entry?]
  | registerAlias other meant => simpa [Registration.entry?] using sound _ _ meant

/-- What is accepted leaves every place one that is there, and every name what it means. -/
theorem Sound.apply {call : Registration} {r after : Registry} (sound : r.Sound)
    (ok : call.apply r = .ok after) : after.Sound ∧ r.Extends after := by
  obtain ⟨_, place, placed, rfl⟩ := apply_eq_ok ok
  exact sound.append call.entry?.toList (placed.inside sound)

theorem Whole.apply {call : Registration} {r after : Registry} (whole : r.Whole)
    (ok : call.apply r = .ok after) : after.Whole ∧ r.Extends after := by
  obtain ⟨sound, grown⟩ := whole.sound.apply ok
  refine ⟨⟨sound, ?_⟩, grown⟩
  obtain ⟨free, place, placed, rfl⟩ := apply_eq_ok ok
  intro i entry found
  rw [List.lookup_append]
  rcases Nat.lt_or_ge i r.factories.length with old | new
  · rw [List.getElem?_append_left old] at found
    rw [whole.own i entry found, Option.some_or]
  · -- behind the factories of before there is at most the one that the call brings
    rw [List.getElem?_append_right new] at found
    cases placed with
    | register name factory =>
        rw [Registration.entry?, Option.toList_some, List.getElem?_singleton] at found
        split at found
        · rename_i first
          cases found
          rw [Registration.given] at free
          rw [free, Option.none_or, Registration.given, List.lookup_cons_self, Option.some.injEq]
          omega
        · cases found
    | registerAlias other meant => cases found

theorem contains_of_apply {call : Registration} {r after : Registry} (ok : call.apply r = .ok after)
    (name : String) : after.contains name = true ↔ r.contains name = true ∨ call.given = name := by
  obtain ⟨_, place, _, rfl⟩ := apply_eq_ok ok
  rw [contains, contains, List.lookup_append, Option.isSome_or, Bool.or_eq_true, List.lookup_cons,
    List.lookup_nil]
  refine or_congr_right ?_
  split
  · rename_i same
    simp [eq_of_beq same]
  · rename_i differ
    refine iff_of_false (by simp) fun same => ?_
    rw [same, beq_self_eq_true] at differ
    cases differ

/-- A name that is registered means the factory registered with it. -/
theorem Whole.get?_of_register {r after : Registry} (whole : r.Whole) {name : String}
    {factory : Factory} (ok : (Registration.register name factory).apply r = .ok after) :
    after.get? name = some factory := by
  obtain ⟨grown, _⟩ := whole.apply ok
  obtain ⟨_, _, _, rfl⟩ := apply_eq_ok ok
  exact grown.get?_of_mem (by simp [Registration.entry?])

/-- A new alias means what its target means, and the target means something. -/
theorem Whole.get?_of_registerAlias {r after : Registry} (whole : r.Whole) {other target : String}
    (ok : (Registration.registerAlias other target).apply r = .ok after) :
    ∃ factory, r.get? target = some factory ∧ after.get? other = some factory := by
  obtain ⟨free, place, placed, rfl⟩ := apply_eq_ok ok
  cases placed with
  | registerAlias _ meant =>
      have known : r.contains target = true := by rw [contains, meant, Option.isSome_some]
      obtain ⟨factory, found⟩ := whole.sound.exists_get? known
      refine ⟨factory, found, ?_⟩
      rw [get?, meant] at found
      rw [Registration.given] at free
      rw [get?, List.lookup_append, Registration.given, free, Option.none_or,
        List.lookup_cons_self, Registration.entry?, Option.toList_none, List.append_nil]
      exact found

/-! ## Any number of calls -/

theorem attempt_of_ok {r after : Registry} {call : Registration} (ok : call.apply r = .ok after) :
    r.attempt call = after := by
  rw [attempt, ok]

theorem attempt_of_error {r : Registry} {call : Registration} {e : ExtensionError}
    (refused : call.apply r = .error e) : r.attempt call = r := by
  rw [attempt, refused]

theorem attemptAll_cons (r : Registry) (call : Registration) (calls : List Registration) :
    r.attemptAll (call :: calls) = (r.attempt call).attemptAll calls := rfl

theorem attemptAll_append (r : Registry) (calls more : List Registration) :
    r.attemptAll (calls ++ more) = (r.attemptAll calls).attemptAll more := List.foldl_append

theorem Whole.attempt {r : Registry} (whole : r.Whole) (call : Registration) :
    (r.attempt call).Whole ∧ r.Extends (r.attempt call) := by
  cases answer : call.apply r with
  | ok after =>
      rw [attempt_of_ok answer]
      exact whole.apply answer
  | error e =>
      rw [attempt_of_error answer]
      exact ⟨whole, whole.sound.extends_refl⟩

theorem Whole.attemptAll {r : Registry} (whole : r.Whole) (calls : List Registration) :
    (r.attemptAll calls).Whole ∧ r.Extends (r.attemptAll calls) := by
  induction calls generalizing r with
  | nil => exact ⟨whole, whole.sound.extends_refl⟩
  | cons call calls ih =>
      obtain ⟨next, step⟩ := whole.attempt call
      obtain ⟨last, rest⟩ := ih next
      exact ⟨last, step.trans rest⟩

/-- The factories are those of the start and then the accepted ones, in order. -/
theorem factories_attemptAll (r : Registry) (calls : List Registration) :
    (r.attemptAll calls).factories =
      r.factories ++ (r.accepted calls).filterMap Registration.entry? := by
  induction calls generalizing r with
  | nil => exact (List.append_nil _).symm
  | cons call calls ih =>
      rw [attemptAll_cons, ih, accepted]
      cases answer : call.apply r with
      | ok after =>
          obtain ⟨_, place, _, rfl⟩ := apply_eq_ok answer
          rw [attempt_of_ok answer, List.filterMap_cons]
          cases call.entry? <;> simp
      | error e => rw [attempt_of_error answer]

/-- Names and aliases are those of the start and those of accepted calls. -/
theorem contains_attemptAll (r : Registry) (calls : List Registration) (name : String) :
    (r.attemptAll calls).contains name = true ↔
      r.contains name = true ∨ ∃ call ∈ r.accepted calls, call.given = name := by
  induction calls generalizing r with
  | nil => simp [attemptAll, accepted]
  | cons call calls ih =>
      rw [attemptAll_cons, ih, accepted]
      cases answer : call.apply r with
      | ok after =>
          rw [attempt_of_ok answer, contains_of_apply answer]
          simp only [List.mem_cons, exists_eq_or_imp, or_assoc]
      | error e => rw [attempt_of_error answer]

theorem whole_builtin : builtin.Whole := (whole_empty.attemptAll _).1

/-! ## Integrity -/

/-- What can be relied on in a registry that calls have made from another one. -/
structure MadeBy (start : Registry) (calls : List Registration) (r : Registry) : Prop where
  inRange : ∀ name place, r.places.lookup name = some place → place < r.factories.length
  found : ∀ name, (r.get? name).isSome = r.contains name
  once : r.names.Nodup
  counted : r.names.length = r.size
  inOrder : r.factories = start.factories ++ (start.accepted calls).filterMap Registration.entry?
  own : ∀ name factory, (name, factory) ∈ r.factories → r.get? name = some factory
  known : ∀ name, r.contains name = true ↔
    start.contains name = true ∨ ∃ call ∈ start.accepted calls, call.given = name

theorem Whole.madeBy {start : Registry} (whole : start.Whole) (calls : List Registration) :
    MadeBy start calls (start.attemptAll calls) := by
  obtain ⟨last, _⟩ := whole.attemptAll calls
  exact ⟨last.sound, last.isSome_get?, last.nodup_names, List.length_map _,
    factories_attemptAll start calls, fun _ _ => last.get?_of_mem, contains_attemptAll start calls⟩

/-- What comes of a call on a registry, which becomes `r` in the end. -/
def Settles (was r : Registry) : Registration → Prop
  | .register name factory =>
    (∀ e, was.register name factory = .error e ↔ was.contains name = true ∧ e = .duplicate name) ∧
      ∀ after, was.register name factory = .ok after → r.get? name = some factory
  | .registerAlias other target =>
    (∀ e, was.registerAlias other target = .error e ↔
      was.contains other = true ∧ e = .duplicate other ∨
        was.contains other = false ∧ was.contains target = false ∧ e = .unknownValidator target) ∧
      ∀ after, was.registerAlias other target = .ok after →
        ∃ factory, was.get? target = some factory ∧ r.get? other = some factory

theorem Whole.settles {was : Registry} (whole : was.Whole) (call : Registration)
    (later : List Registration) : was.Settles ((was.attempt call).attemptAll later) call := by
  obtain ⟨next, _⟩ := whole.attempt call
  obtain ⟨_, kept⟩ := next.attemptAll later
  have stays {name : String} {factory : Factory} (now : (was.attempt call).get? name = some factory) :
      ((was.attempt call).attemptAll later).get? name = some factory := by
    obtain ⟨same, here, there⟩ := kept name (contains_of_get? now)
    rw [now] at here
    rw [there, here]
  cases call with
  | register name factory =>
      refine ⟨fun e => register_eq_error_iff, fun after ok => stays ?_⟩
      have accepted : (Registration.register name factory).apply was = .ok after := ok
      rw [attempt_of_ok accepted]
      exact whole.get?_of_register accepted
  | registerAlias other target =>
      refine ⟨fun e => registerAlias_eq_error_iff, fun after ok => ?_⟩
      have accepted : (Registration.registerAlias other target).apply was = .ok after := ok
      obtain ⟨factory, meant, now⟩ := whole.get?_of_registerAlias accepted
      refine ⟨factory, meant, stays ?_⟩
      rw [attempt_of_ok accepted]
      exact now

/-- **A registry means by its names what it was told.** Take any calls, from no validators or from the bundled
ones. Every place in the registry they make is there, the names are listed once and in the order of the
accepted calls, each has its own factory, and a name or alias is known just if it was given. A call is refused
for a name that is taken, and an alias also for a target that is not known; then nothing changes. What a call
has given keeps the meaning it had then, whatever is called later. -/
theorem registry_integrity {start : Registry} (given : start = .empty ∨ start = .builtin)
    (calls : List Registration) :
    MadeBy start calls (start.attemptAll calls) ∧
      ∀ before call after, calls = before ++ call :: after →
        (∀ e, call.apply (start.attemptAll before) = .error e →
          start.attemptAll (before ++ [call]) = start.attemptAll before) ∧
        (start.attemptAll before).Settles (start.attemptAll calls) call := by
  have whole : start.Whole := by
    rcases given with rfl | rfl
    · exact whole_empty
    · exact whole_builtin
  refine ⟨whole.madeBy calls, ?_⟩
  rintro before call after rfl
  obtain ⟨was, _⟩ := whole.attemptAll before
  constructor
  · intro e refused
    rw [attemptAll_append]
    exact attempt_of_error refused
  · rw [attemptAll_append, attemptAll_cons]
    exact was.settles call after

/-- An alias of an alias, and three calls that are refused. -/
def quarrel : List Registration :=
  [.register "Own" Factory.exclude, .registerAlias "Mine" "Own", .registerAlias "Ours" "Mine",
    .register "Mine" Factory.or, .registerAlias "All" "Own", .registerAlias "Yours" "Theirs"]

theorem refused_calls_keep_alias_of_alias :
    (builtin.attemptAll quarrel).names =
        ["AtLeastOne", "AtMostOne", "ExactlyOne", "ExactlyN", "Exclude", "And", "Or", "Own"] ∧
      (builtin.attemptAll quarrel).get? "Ours" = some Factory.exclude ∧
      (builtin.attemptAll (quarrel.take 5)).registerAlias "Yours" "Theirs" =
        .error (.unknownValidator "Theirs") ∧
      builtin.attemptAll quarrel = builtin.attemptAll (quarrel.take 5) := by
  obtain ⟨made, each⟩ := registry_integrity (.inr rfl) quarrel
  obtain ⟨_, _, ours⟩ := each (quarrel.take 2) (.registerAlias "Ours" "Mine") (quarrel.drop 3) rfl
  obtain ⟨unchanged, refused, _⟩ := each (quarrel.take 5) (.registerAlias "Yours" "Theirs") [] rfl
  have unknown : (builtin.attemptAll (quarrel.take 5)).registerAlias "Yours" "Theirs" =
      .error (.unknownValidator "Theirs") := (refused _).mpr (.inr ⟨rfl, rfl, rfl⟩)
  refine ⟨?_, ?_, unknown, unchanged _ unknown⟩
  · rw [names, made.inOrder]
    rfl
  · obtain ⟨factory, meant, later⟩ := ours _ rfl
    rw [later, ← meant]
    rfl

end Registry

end Stencil
