/- # Proofs.DroppedPredicates -- what the bundled validators drop

The bundled validators change a pack in one way only: they drop all triples of some predicates. Which
ones depends on the run. In a conjunction a validator does not see what an earlier one has dropped, and
what it says may turn on that; in a disjunction all that is undone which an alternative has dropped
before it refused. Still the predicates lie between two bounds that can be read off the validator: those
which it excludes outside of every disjunction are dropped (`alwaysExcluded`), and none but those which
it excludes somewhere (`excluded`).

`Bundled.dropsPredicates` says so, by one induction along the validator. What follows from it for a run is
`run_drops_predicates`: order and number of the other triples, the focus and the view stay, and a
validator that excludes nothing leaves the pack as it is. The judgement of what an expansion gave adds
nothing to it (`judge_sublist`).
-/
import Stencil.Proofs.BundledValidators
import Stencil.Proofs.Combinators

namespace Stencil
set_option autoImplicit false

/-! ## Packs without some predicates -/

namespace Pack

/-- The pack without the triples that have one of these predicates. -/
def without (p : Pack) (predicates : List Uri) : Pack := p.retain (·.predicate ∉ predicates)

@[simp] theorem without_nil (p : Pack) : p.without [] = p := by
  have kept : p.triples.filter (·.predicate ∉ []) = p.triples :=
    List.filter_eq_self.mpr fun t _ => decide_eq_true List.not_mem_nil
  rw [without, retain, kept]

theorem without_without (p : Pack) (xs ys : List Uri) :
    (p.without xs).without ys = p.without (xs ++ ys) := by
  have both (t : Triple) : (decide (t.predicate ∉ ys) && decide (t.predicate ∉ xs)) =
      decide (t.predicate ∉ xs ++ ys) := by
    rw [← Bool.decide_and, decide_eq_decide, List.mem_append, not_or, and_comm]
  simp only [without, retain, List.filter_filter, both]

theorem retain_ne (p : Pack) (predicate : Uri) :
    p.retain (·.predicate ≠ predicate) = p.without [predicate] := by
  simp [without]

end Pack

namespace Validator

/-! ## The predicates that are excluded -/

mutual

/-- The predicates that the validator excludes, itself or in one of those it combines. -/
def excluded : Validator → List Uri
  | .exclude predicate => [predicate]
  | .and validators => excludedIn validators
  | .or validators => excludedIn validators
  | .atLeastOne _ => []
  | .atMostOne _ => []
  | .exactlyN _ _ => []
  | .host _ _ => []

def excludedIn : List Validator → List Uri
  | [] => []
  | v :: vs => v.excluded ++ excludedIn vs

end

theorem excluded_subset_excludedIn {v : Validator} {vs : List Validator} (mem : v ∈ vs) :
    v.excluded ⊆ excludedIn vs := by
  induction mem with
  | head vs => exact List.subset_append_left _ _
  | tail w _ ih => exact List.subset_append_of_subset_right _ ih

mutual

/-- Those among them that it excludes outside of every disjunction. -/
def alwaysExcluded : Validator → List Uri
  | .exclude predicate => [predicate]
  | .and validators => alwaysExcludedIn validators
  | .or _ => []
  | .atLeastOne _ => []
  | .atMostOne _ => []
  | .exactlyN _ _ => []
  | .host _ _ => []

def alwaysExcludedIn : List Validator → List Uri
  | [] => []
  | v :: vs => v.alwaysExcluded ++ alwaysExcludedIn vs

end

/-! ## Validators that drop predicates -/

/-- What the validator hands on is the pack without some predicates, among them all that it always
excludes, and no others than it excludes. -/
def DropsPredicates (v : Validator) : Prop :=
  ∀ p q : Pack, v.run p = .ok q →
    ∃ xs, v.alwaysExcluded ⊆ xs ∧ xs ⊆ v.excluded ∧ q = p.without xs

theorem checkSubjects_eq_ok_iff {p q : Pack} {predicate : Uri} {expected : Expected}
    {ok : Nat → Bool} : checkSubjects p predicate expected ok = .ok q ↔
      q = p ∧ ∀ s ∈ p.subjects, ok (p.countFor s predicate) = true := by
  unfold checkSubjects
  split
  · rename_i s found
    have fails : ok (p.countFor s predicate) = false := by
      simpa using List.find?_some found
    refine iff_of_false (by simp) ?_
    rintro ⟨_, each⟩
    rw [each s (List.mem_of_find?_eq_some found)] at fails
    cases fails
  · rename_i none_fails
    have each : ∀ s ∈ p.subjects, ok (p.countFor s predicate) = true := by
      simpa using none_fails
    rw [and_iff_left each, Except.ok.injEq]
    exact eq_comm

/-- A validator that hands on the pack as it is, and excludes nothing. -/
theorem DropsPredicates.of_unchanged {v : Validator} (always : v.alwaysExcluded = [])
    (unchanged : ∀ p q : Pack, v.run p = .ok q → q = p) : v.DropsPredicates := by
  intro p q accepted
  rw [unchanged p q accepted]
  exact ⟨[], List.subset_nil.mpr always, List.nil_subset _, p.without_nil.symm⟩

theorem runAll_drops {vs : List Validator} (each : ∀ v ∈ vs, v.DropsPredicates) {p q : Pack}
    (accepted : runAll vs p = .ok q) :
    ∃ xs, alwaysExcludedIn vs ⊆ xs ∧ xs ⊆ excludedIn vs ∧ q = p.without xs := by
  induction vs generalizing p with
  | nil =>
      cases accepted
      exact ⟨[], List.Subset.refl _, List.Subset.refl _, q.without_nil.symm⟩
  | cons v vs ih =>
      rw [List.forall_mem_cons] at each
      obtain ⟨next, here, accepted⟩ := runAll_cons_eq_ok_iff.mp accepted
      obtain ⟨xs, least, most, rfl⟩ := each.1 p next here
      obtain ⟨ys, least', most', rfl⟩ := ih each.2 accepted
      refine ⟨xs ++ ys, ?_, ?_, p.without_without xs ys⟩
      · exact List.append_subset.mpr ⟨List.subset_append_of_subset_left ys least,
          List.subset_append_of_subset_right xs least'⟩
      · exact List.append_subset.mpr ⟨List.subset_append_of_subset_left _ most,
          List.subset_append_of_subset_right _ most'⟩

/-- An alternative that refuses leaves no trace, so the predicates are those of one alternative. -/
theorem runAny_drops {vs : List Validator} (each : ∀ v ∈ vs, v.DropsPredicates)
    {last : ExtensionError} {p q : Pack} (accepted : runAny last vs p = .ok q) :
    ∃ xs, xs ⊆ excludedIn vs ∧ q = p.without xs := by
  obtain ⟨before, v, after, rfl, _, here⟩ := runAny_eq_ok_iff.mp accepted
  have mem : v ∈ before ++ v :: after := List.mem_append_right before List.mem_cons_self
  obtain ⟨xs, _, most, same⟩ := each v mem p q here
  exact ⟨xs, List.Subset.trans most (excluded_subset_excludedIn mem), same⟩

theorem Bundled.dropsPredicates {v : Validator} (bundled : v.Bundled) : v.DropsPredicates := by
  induction bundled with
  | atLeastOne predicate =>
      refine .of_unchanged rfl fun p q accepted => ?_
      rw [run] at accepted
      exact (checkSubjects_eq_ok_iff.mp accepted).1
  | atMostOne predicate =>
      refine .of_unchanged rfl fun p q accepted => ?_
      rw [run] at accepted
      exact (checkSubjects_eq_ok_iff.mp accepted).1
  | exactlyN predicate count =>
      refine .of_unchanged rfl fun p q accepted => ?_
      rw [run] at accepted
      split at accepted
      · cases accepted
        rfl
      · cases accepted
  | exclude predicate =>
      intro p q accepted
      cases accepted
      exact ⟨[predicate], List.Subset.refl _, List.Subset.refl _, p.retain_ne predicate⟩
  | and each ih =>
      intro p q accepted
      rw [run] at accepted
      exact runAll_drops ih accepted
  | or each ih =>
      intro p q accepted
      rw [run] at accepted
      -- which alternative it was is not known, so nothing is sure to be dropped
      obtain ⟨xs, most, same⟩ := runAny_drops ih accepted
      exact ⟨xs, List.nil_subset xs, most, same⟩

/-- A bundled validator that excludes nothing hands on the pack as it is. -/
theorem Bundled.unchanged {v : Validator} (bundled : v.Bundled) (free : v.excluded = [])
    {p q : Pack} (accepted : v.run p = .ok q) : q = p := by
  obtain ⟨xs, _, most, rfl⟩ := bundled.dropsPredicates p q accepted
  rw [free, List.subset_nil] at most
  rw [most, Pack.without_nil]

/-- **Bundled validators drop whole predicates.** If a validator of any depth, without a part of a host,
takes a pack, it hands on the same focus and the same view, and the triples in their order less all those
with certain predicates. It excludes each of these predicates; those that it excludes outside of every
disjunction are among them; and a validator that excludes none hands on the pack as it came. -/
theorem run_drops_predicates {v : Validator} (bundled : v.Bundled) {p q : Pack}
    (accepted : v.run p = .ok q) :
    (∃ dropped : List Uri, v.alwaysExcluded ⊆ dropped ∧ dropped ⊆ v.excluded ∧
        q.focus = p.focus ∧ q.view = p.view ∧
        q.triples = p.triples.filter (·.predicate ∉ dropped)) ∧
      (v.excluded = [] → q = p) := by
  constructor
  · obtain ⟨dropped, least, most, rfl⟩ := bundled.dropsPredicates p q accepted
    exact ⟨dropped, least, most, rfl, rfl, rfl⟩
  · intro free
    exact bundled.unchanged free accepted

/-- The first alternative would drop the notes, and then misses them. -/
def sieve : Validator :=
  .and [.exclude ⟨"draft"⟩,
    .or [.and [.exclude ⟨"note"⟩, .atLeastOne ⟨"note"⟩],
      .and [.exclude ⟨"seen"⟩, .exactlyN ⟨"draft"⟩ 0]],
    .atLeastOne ⟨"note"⟩]

def pile : Pack where
  focus := ⟨"f"⟩
  triples :=
    [⟨⟨"f"⟩, ⟨"draft"⟩, .uri ⟨"a"⟩⟩, ⟨⟨"f"⟩, ⟨"note"⟩, .uri ⟨"b"⟩⟩, ⟨⟨"g"⟩, ⟨"seen"⟩, .uri ⟨"c"⟩⟩,
      ⟨⟨"f"⟩, ⟨"note"⟩, .uri ⟨"a"⟩⟩, ⟨⟨"g"⟩, ⟨"draft"⟩, .uri ⟨"a"⟩⟩, ⟨⟨"f"⟩, ⟨"note"⟩, .uri ⟨"b"⟩⟩]

def pileSifted : Pack where
  focus := ⟨"f"⟩
  triples :=
    [⟨⟨"f"⟩, ⟨"note"⟩, .uri ⟨"b"⟩⟩, ⟨⟨"f"⟩, ⟨"note"⟩, .uri ⟨"a"⟩⟩, ⟨⟨"f"⟩, ⟨"note"⟩, .uri ⟨"b"⟩⟩]

theorem refused_alternative_drops_nothing :
    sieve.Bundled ∧ sieve.run pile = .ok pileSifted ∧
      ∃ dropped : List Uri, [⟨"draft"⟩] ⊆ dropped ∧ dropped ⊆ [⟨"draft"⟩, ⟨"note"⟩, ⟨"seen"⟩] ∧
        pileSifted.triples = pile.triples.filter (·.predicate ∉ dropped) := by
  have bundled : sieve.Bundled := by
    simp [sieve, bundled_and_iff, bundled_or_iff, Bundled.atLeastOne, Bundled.exactlyN,
      Bundled.exclude]
  have accepted : sieve.run pile = .ok pileSifted := rfl
  obtain ⟨dropped, least, most, _, _, kept⟩ := (run_drops_predicates bundled accepted).1
  exact ⟨bundled, accepted, dropped, least, most, kept⟩

/-! ## Validators that add no triples -/

/-- What the validator hands on are triples that it was given, in their order. -/
def OnlyDrops (v : Validator) : Prop :=
  ∀ p q : Pack, v.run p = .ok q → q.triples.Sublist p.triples

theorem Bundled.onlyDrops {v : Validator} (bundled : v.Bundled) : v.OnlyDrops := by
  intro p q accepted
  obtain ⟨xs, _, _, rfl⟩ := bundled.dropsPredicates p q accepted
  exact List.filter_sublist

end Validator

/-- Where no factory is a host's, the judgement of what an expansion gave adds nothing to it. -/
theorem Expansion.judge_sublist {scope : Scope} (only : scope.extensions.OnlyBundled) {me : Uri}
    {out : Yield} {triples : List Triple} (accepted : judge scope me out = .ok triples) :
    triples.Sublist out.triples := by
  unfold judge at accepted
  obtain ⟨validators, built, accepted⟩ := bind_eq_ok accepted
  obtain ⟨pack, ran, accepted⟩ := bind_eq_ok accepted
  cases accepted
  have bundled : ∀ v ∈ validators, v.Bundled :=
    forall_of_mapM (fun c _ v made => Registry.instantiate_bundled only c v made) built
  rw [← Validator.run] at ran
  exact (Validator.Bundled.and bundled).onlyDrops _ pack ran

end Stencil
