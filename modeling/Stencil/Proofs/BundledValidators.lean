/- # Proofs.BundledValidators -- what the bundled validators can see

A validator of a host is any function of a pack, so it may ask the tables behind it. The bundled ones
look at the focus and the triples only: to run one on a pack with another view is to run it on the pack
and then put the view in place (`Bundled.blind`). A registry with no other factories builds no other
validators, however its calls are nested (`instantiate_bundled`). So under such a registry the judgement of
what an expansion gave does not depend on any table (`judge_of_onlyBundled`).
-/
import Stencil.Expansion.Basic

namespace Stencil
set_option autoImplicit false

/-- What holds of everything that a function may answer holds of all its answers over a list. -/
theorem forall_of_mapM {ε α β : Type} {f : α → Except ε β} {P : β → Prop} {as : List α}
    {bs : List β} (each : ∀ a ∈ as, ∀ b, f a = .ok b → P b) (done : as.mapM f = .ok bs) :
    ∀ b ∈ bs, P b := by
  induction as generalizing bs with
  | nil =>
      cases done
      exact List.forall_mem_nil P
  | cons a as ih =>
      rw [List.mapM_cons] at done
      obtain ⟨b, first, done⟩ := bind_eq_ok done
      obtain ⟨rest, others, done⟩ := bind_eq_ok done
      cases done
      rw [List.forall_mem_cons] at each ⊢
      exact ⟨each.1 b first, ih each.2 others⟩

/-- The pack with another view of the tables. -/
def Pack.seenBy (p : Pack) (view : View) : Pack := { p with view }

@[simp] theorem Pack.subjects_seenBy (p : Pack) (view : View) :
    (p.seenBy view).subjects = p.subjects := rfl

@[simp] theorem Pack.countFor_seenBy (p : Pack) (view : View) (subject predicate : Uri) :
    (p.seenBy view).countFor subject predicate = p.countFor subject predicate := rfl

namespace Validator

/-! ## Validators that see no table -/

/-- The validator does not look at the view, and hands it on. -/
def Blind (v : Validator) : Prop :=
  ∀ (p : Pack) (view : View), v.run (p.seenBy view) = (v.run p).map (·.seenBy view)

theorem checkSubjects_seenBy (p : Pack) (predicate : Uri) (expected : Expected) (ok : Nat → Bool)
    (view : View) : checkSubjects (p.seenBy view) predicate expected ok =
      (checkSubjects p predicate expected ok).map (·.seenBy view) := by
  unfold checkSubjects
  simp only [Pack.subjects_seenBy, Pack.countFor_seenBy]
  cases p.subjects.find? fun subject => !ok (p.countFor subject predicate) with
  | some subject => rfl
  | none => rfl

theorem runAll_seenBy {vs : List Validator} (each : ∀ v ∈ vs, v.Blind) (p : Pack) (view : View) :
    runAll vs (p.seenBy view) = (runAll vs p).map (·.seenBy view) := by
  induction vs generalizing p with
  | nil => rfl
  | cons v vs ih =>
      rw [List.forall_mem_cons] at each
      rw [runAll, runAll, each.1 p view]
      cases v.run p with
      | ok q => exact ih each.2 q
      | error e => rfl

theorem runAny_seenBy {vs : List Validator} (each : ∀ v ∈ vs, v.Blind) (last : ExtensionError)
    (p : Pack) (view : View) :
    runAny last vs (p.seenBy view) = (runAny last vs p).map (·.seenBy view) := by
  induction vs generalizing last with
  | nil => rfl
  | cons v vs ih =>
      rw [List.forall_mem_cons] at each
      rw [runAny, runAny, each.1 p view]
      cases v.run p with
      | ok q => rfl
      | error e => exact ih each.2 e

/-! ## Validators without a part of a host -/

/-- The validator is bundled, and so are all those that it combines. -/
inductive Bundled : Validator → Prop
  | atLeastOne (predicate : Uri) : Bundled (.atLeastOne predicate)
  | atMostOne (predicate : Uri) : Bundled (.atMostOne predicate)
  | exactlyN (predicate : Uri) (count : Nat) : Bundled (.exactlyN predicate count)
  | exclude (predicate : Uri) : Bundled (.exclude predicate)
  | and {vs : List Validator} (each : ∀ v ∈ vs, Bundled v) : Bundled (.and vs)
  | or {vs : List Validator} (each : ∀ v ∈ vs, Bundled v) : Bundled (.or vs)

theorem bundled_and_iff {vs : List Validator} : (and vs).Bundled ↔ ∀ v ∈ vs, v.Bundled := by
  constructor
  · rintro (_ | _ | _ | _ | each)
    exact each
  · exact .and

theorem bundled_or_iff {vs : List Validator} : (or vs).Bundled ↔ ∀ v ∈ vs, v.Bundled := by
  constructor
  · rintro (_ | _ | _ | _ | _ | each)
    exact each
  · exact .or

theorem Bundled.blind {v : Validator} (bundled : v.Bundled) : v.Blind := by
  intro p view
  induction bundled generalizing p view with
  | atLeastOne predicate =>
      rw [run, run]
      exact checkSubjects_seenBy p predicate _ _ view
  | atMostOne predicate =>
      rw [run, run]
      exact checkSubjects_seenBy p predicate _ _ view
  | exactlyN predicate count =>
      rw [run, run]
      show (if (p.withPredicate predicate).length = count then _ else _) = _
      by_cases same : (p.withPredicate predicate).length = count
      · rw [if_pos same, if_pos same]
        rfl
      · rw [if_neg same, if_neg same]
        rfl
  | exclude predicate => rfl
  | and each ih =>
      rw [run, run]
      exact runAll_seenBy ih p view
  | or each ih =>
      rw [run, run]
      exact runAny_seenBy ih noAlternative p view

end Validator

/-! ## Factories -/

/-- A validator among the arguments is bundled. -/
def ValidatorArg.Bundled : ValidatorArg → Prop
  | .value _ => True
  | .validator v => v.Bundled

namespace Factory

/-- The factory builds bundled validators from bundled ones. -/
def KeepsBundled (f : Factory) : Prop :=
  ∀ args v, (∀ a ∈ args, a.Bundled) → f args = .ok v → v.Bundled

theorem keepsBundled_ofUri (owner : String) {build : Uri → Validator}
    (keeps : ∀ u, (build u).Bundled) : KeepsBundled (ofUri owner build) := by
  intro args v _ built
  unfold ofUri at built
  split at built
  · obtain ⟨u, _, rfl⟩ := map_eq_ok built
    exact keeps u
  · cases built

theorem keepsBundled_exactlyN : KeepsBundled exactlyN := by
  intro args v _ built
  unfold exactlyN at built
  split at built
  · obtain ⟨predicate, _, built⟩ := bind_eq_ok built
    obtain ⟨count, _, built⟩ := bind_eq_ok built
    cases built
    exact .exactlyN predicate count
  · cases built

/-- Factories that combine validators. -/
theorem keepsBundled_combining (owner : String) {build : List Validator → Validator}
    (keeps : ∀ vs, (∀ v ∈ vs, v.Bundled) → (build vs).Bundled) :
    KeepsBundled fun as => (as.mapM (ValidatorArg.inner owner)).map build := by
  intro args v bundled built
  obtain ⟨vs, taken, rfl⟩ := map_eq_ok built
  refine keeps vs (forall_of_mapM (fun a mem v same => ?_) taken)
  have isBundled := bundled a mem
  cases a with
  | value w => cases same
  | validator w =>
      cases same
      exact isBundled

theorem keepsBundled_of_mem {f : Factory} (mem : f ∈ Registry.bundled.map Prod.snd) :
    KeepsBundled f := by
  have one : f = atLeastOne ∨ f = atMostOne ∨ f = exactlyOne ∨ f = exactlyN ∨ f = exclude ∨
      f = Factory.and ∨ f = Factory.or := by
    simpa [Registry.bundled] using mem
  rcases one with rfl | rfl | rfl | rfl | rfl | rfl | rfl
  · exact keepsBundled_ofUri _ .atLeastOne
  · exact keepsBundled_ofUri _ .atMostOne
  · exact keepsBundled_ofUri _ (.exactlyN · 1)
  · exact keepsBundled_exactlyN
  · exact keepsBundled_ofUri _ .exclude
  · exact keepsBundled_combining _ fun vs => .and
  · exact keepsBundled_combining _ fun vs => .or

end Factory

/-! ## Registries -/

namespace Registry

/-- The registry holds no factory of a host, whatever the names are. -/
def OnlyBundled (r : Registry) : Prop := ∀ entry ∈ r.factories, entry.2 ∈ bundled.map Prod.snd

theorem factories_builtin : builtin.factories = bundled := rfl

theorem onlyBundled_builtin : builtin.OnlyBundled := by
  intro entry mem
  rw [factories_builtin] at mem
  exact List.mem_map_of_mem mem

theorem OnlyBundled.get? {r : Registry} (only : r.OnlyBundled) {name : String} {f : Factory}
    (found : r.get? name = some f) : f.KeepsBundled := by
  obtain ⟨place, _, taken⟩ := Option.bind_eq_some_iff.mp found
  obtain ⟨entry, there, rfl⟩ := Option.map_eq_some_iff.mp taken
  exact Factory.keepsBundled_of_mem (only entry (List.mem_of_getElem? there))

mutual

theorem instantiate_bundled {r : Registry} (only : r.OnlyBundled) :
    ∀ (c : Call) (v : Validator), r.instantiate c = .ok v → v.Bundled
  | ⟨name, arguments⟩, v, built => by
      unfold instantiate at built
      split at built
      · cases built
      · rename_i factory found
        split at built
        · rename_i args taken
          exact only.get? found args v (instantiateArgs_bundled only arguments args taken) built
        · cases built

theorem instantiateArgs_bundled {r : Registry} (only : r.OnlyBundled) :
    ∀ (as : List CallArg) (args : List ValidatorArg), r.instantiateArgs as = .ok args →
      ∀ a ∈ args, a.Bundled
  | [], args, built => by
      unfold instantiateArgs at built
      cases built
      exact List.forall_mem_nil _
  | a :: as, args, built => by
      unfold instantiateArgs at built
      split at built
      · cases built
      · rename_i first taken
        split at built
        · cases built
        · rename_i rest others
          cases built
          exact List.forall_mem_cons.mpr ⟨instantiateArg_bundled only a first taken,
            instantiateArgs_bundled only as rest others⟩

theorem instantiateArg_bundled {r : Registry} (only : r.OnlyBundled) :
    ∀ (a : CallArg) (arg : ValidatorArg), r.instantiateArg a = .ok arg → arg.Bundled
  | .value v, arg, built => by
      unfold instantiateArg at built
      cases built
      trivial
  | .call c, arg, built => by
      unfold instantiateArg at built
      split at built
      · rename_i v made
        cases built
        exact instantiate_bundled only c v made
      · cases built

end

end Registry

/-- Where no factory is a host's, two scopes with the same validators judge alike. -/
theorem Expansion.judge_of_onlyBundled {scope after : Scope} (only : scope.extensions.OnlyBundled)
    (same : after.extensions = scope.extensions) (me : Uri) (out : Yield) :
    judge after me out = judge scope me out := by
  unfold judge
  rw [same]
  cases built : out.calls.mapM scope.extensions.instantiate with
  | error e => rfl
  | ok validators =>
      have blind : ∀ v ∈ validators, v.Blind :=
        forall_of_mapM (fun c _ v made => (Registry.instantiate_bundled only c v made).blind) built
      have judged := Validator.runAll_seenBy blind ⟨me, out.triples, scope.view⟩ after.view
      show Validator.runAll validators (Pack.seenBy ⟨me, out.triples, scope.view⟩ after.view) >>= _ =
        Validator.runAll validators ⟨me, out.triples, scope.view⟩ >>= _
      rw [judged]
      cases Validator.runAll validators ⟨me, out.triples, scope.view⟩ with
      | ok pack => rfl
      | error e => rfl

end Stencil
