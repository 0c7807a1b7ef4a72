/- # Proofs.ValidatorFormulas -- validators that exclude nothing are formulas

A bundled validator that excludes nothing takes a pack or refuses it, and changes nothing. So it says
something of the pack, and `Holds` writes down what, without loops, lists of subjects or errors: the
counts are quantified over all resources, a conjunction is a conjunction and a disjunction a disjunction.
`Bundled.accepts_iff_holds` says that to run the validator is to evaluate this formula.

What is true of formulas is then true of runs. The order of the alternatives decides which error is given
but not whether there is one, and likewise for the order and the repetition of whatever is combined, at
any depth (`Reordered`), and for the order of the triples (`Holds.of_perm`).
-/
import Stencil.Proofs.DroppedPredicates

namespace Stencil
set_option autoImplicit false

/-! ## Subjects and counts of a pack -/

namespace Pack

theorem mem_subjects {p : Pack} {s : Uri} :
    s ∈ p.subjects ↔ s = p.focus ∨ ∃ t ∈ p.triples, t.subject = s := by
  rw [subjects, mem_firstSeen, List.mem_cons, List.mem_map]

theorem countFor_eq (p : Pack) (s predicate : Uri) :
    p.countFor s predicate =
      p.triples.countP fun t => t.subject = s ∧ t.predicate = predicate := by
  simp only [countFor, withPredicate, List.filter_filter, Bool.decide_and,
    List.countP_eq_length_filter]

theorem countFor_pos_iff {p : Pack} {s predicate : Uri} :
    0 < p.countFor s predicate ↔ ∃ t ∈ p.triples, t.subject = s ∧ t.predicate = predicate := by
  simp [countFor_eq, List.countP_pos_iff]

/-- What is neither the focus nor a subject has no triples. -/
theorem countFor_eq_zero {p : Pack} {s : Uri} (absent : s ∉ p.subjects) (predicate : Uri) :
    p.countFor s predicate = 0 := by
  rw [mem_subjects, not_or] at absent
  refine Nat.eq_zero_of_not_pos fun positive => ?_
  obtain ⟨t, mem, subject, _⟩ := countFor_pos_iff.mp positive
  exact absent.2 ⟨t, mem, subject⟩

end Pack

namespace Validator

/-! ## Truth -/

/-- The formula of the validator is true of the pack. There is no rule for exclusion and none for the
validators of a host, which have no formula. -/
inductive Holds (p : Pack) : Validator → Prop
  | atLeastOne {predicate : Uri}
      (each : ∀ s, (s = p.focus ∨ ∃ t ∈ p.triples, t.subject = s) →
        ∃ t ∈ p.triples, t.subject = s ∧ t.predicate = predicate) :
      Holds p (.atLeastOne predicate)
  | atMostOne {predicate : Uri}
      (each : ∀ s : Uri,
        (p.triples.countP fun t => t.subject = s ∧ t.predicate = predicate) ≤ 1) :
      Holds p (.atMostOne predicate)
  | exactlyN {predicate : Uri} {count : Nat}
      (all : (p.triples.countP fun t => t.predicate = predicate) = count) :
      Holds p (.exactlyN predicate count)
  | and {vs : List Validator} (each : ∀ v ∈ vs, Holds p v) : Holds p (.and vs)
  | or {vs : List Validator} {v : Validator} (mem : v ∈ vs) (one : Holds p v) : Holds p (.or vs)

theorem holds_and_iff {p : Pack} {vs : List Validator} :
    (and vs).Holds p ↔ ∀ v ∈ vs, v.Holds p := by
  constructor
  · rintro (_ | _ | _ | each)
    exact each
  · exact .and

theorem holds_or_iff {p : Pack} {vs : List Validator} : (or vs).Holds p ↔ ∃ v ∈ vs, v.Holds p := by
  constructor
  · rintro (_ | _ | _ | _ | ⟨mem, one⟩)
    exact ⟨_, mem, one⟩
  · rintro ⟨v, mem, one⟩
    exact .or mem one

/-! ## Running is evaluating -/

theorem accepts_atLeastOne_iff {p : Pack} {predicate : Uri} :
    (atLeastOne predicate).Accepts p ↔ (atLeastOne predicate).Holds p := by
  simp only [Accepts, run, checkSubjects_eq_ok_iff, exists_eq_left, decide_eq_true_eq,
    Pack.countFor_pos_iff, Pack.mem_subjects]
  constructor
  · exact .atLeastOne
  · rintro ⟨each⟩
    exact each

theorem accepts_atMostOne_iff {p : Pack} {predicate : Uri} :
    (atMostOne predicate).Accepts p ↔ (atMostOne predicate).Holds p := by
  simp only [Accepts, run, checkSubjects_eq_ok_iff, exists_eq_left, decide_eq_true_eq]
  constructor
  · intro each
    refine .atMostOne fun s => ?_
    rw [← Pack.countFor_eq]
    -- the run looks at the subjects only, the formula at every resource
    by_cases present : s ∈ p.subjects
    · exact each s present
    · rw [Pack.countFor_eq_zero present]
      exact Nat.zero_le 1
  · rintro (_ | each) s _
    rw [Pack.countFor_eq]
    exact each s

theorem accepts_exactlyN_iff {p : Pack} {predicate : Uri} {count : Nat} :
    (exactlyN predicate count).Accepts p ↔ (exactlyN predicate count).Holds p := by
  have counted : (p.withPredicate predicate).length =
      p.triples.countP fun t => t.predicate = predicate :=
    List.countP_eq_length_filter.symm
  rw [Accepts, run, counted]
  constructor
  · rintro ⟨q, accepted⟩
    split at accepted
    · rename_i all
      exact .exactlyN all
    · cases accepted
  · rintro (_ | _ | all)
    exact ⟨p, if_pos all⟩

/-- Where nothing is changed on the way, each validator sees the pack as it came. -/
theorem runAll_accepts_iff {vs : List Validator}
    (unchanged : ∀ v ∈ vs, ∀ p q : Pack, v.run p = .ok q → q = p) {p : Pack} :
    (∃ q, runAll vs p = .ok q) ↔ ∀ v ∈ vs, v.Accepts p := by
  induction vs with
  | nil => exact iff_of_true ⟨p, rfl⟩ (List.forall_mem_nil _)
  | cons v vs ih =>
      rw [List.forall_mem_cons] at unchanged ⊢
      simp only [runAll_cons_eq_ok_iff]
      constructor
      · rintro ⟨q, r, here, rest⟩
        obtain rfl := unchanged.1 p r here
        exact ⟨⟨r, here⟩, (ih unchanged.2).mp ⟨q, rest⟩⟩
      · rintro ⟨⟨r, here⟩, others⟩
        obtain rfl := unchanged.1 p r here
        obtain ⟨q, rest⟩ := (ih unchanged.2).mpr others
        exact ⟨q, r, here, rest⟩

theorem excludedIn_eq_nil_iff {vs : List Validator} :
    excludedIn vs = [] ↔ ∀ v ∈ vs, v.excluded = [] := by
  induction vs with
  | nil => simp [excludedIn]
  | cons v vs ih => simp [excludedIn, ih]

/-- A validator that excludes nothing takes just the packs of which its formula is true. -/
theorem Bundled.accepts_iff_holds {v : Validator} (bundled : v.Bundled) (free : v.excluded = [])
    (p : Pack) : v.Accepts p ↔ v.Holds p := by
  induction bundled with
  | atLeastOne predicate => exact accepts_atLeastOne_iff
  | atMostOne predicate => exact accepts_atMostOne_iff
  | exactlyN predicate count => exact accepts_exactlyN_iff
  | exclude predicate => cases free
  | and each ih =>
      rw [excluded, excludedIn_eq_nil_iff] at free
      rw [Accepts, run, runAll_accepts_iff fun v mem p q => (each v mem).unchanged (free v mem),
        holds_and_iff]
      exact forall₂_congr fun v mem => ih v mem (free v mem)
  | or each ih =>
      rw [excluded, excludedIn_eq_nil_iff] at free
      rw [Accepts, run, runAny_accepts_iff, holds_or_iff]
      exact exists_congr fun v => and_congr_right fun mem => ih v mem (free v mem)

/-! ## Order and repetition -/

/-- Truth depends on the focus and on how often each triple occurs. -/
theorem Holds.of_perm {v : Validator} {p q : Pack} (focus : q.focus = p.focus)
    (perm : q.triples.Perm p.triples) (holds : v.Holds p) : v.Holds q := by
  induction holds with
  | atLeastOne each =>
      refine .atLeastOne fun s present => ?_
      simp only [perm.mem_iff, focus] at present ⊢
      exact each s present
  | atMostOne each =>
      refine .atMostOne fun s => ?_
      rw [perm.countP_eq]
      exact each s
  | exactlyN all => exact .exactlyN (by rw [perm.countP_eq, all])
  | and each ih => exact .and ih
  | or mem one ih => exact .or mem ih

/-- The second validator combines what the first combines, at any depth, in another order or more or
fewer times. -/
inductive Reordered : Validator → Validator → Prop
  | refl (v : Validator) : Reordered v v
  | symm {v w : Validator} (there : Reordered v w) : Reordered w v
  | trans {u v w : Validator} (first : Reordered u v) (second : Reordered v w) : Reordered u w
  | and {vs ws : List Validator} (same : ∀ v, v ∈ vs ↔ v ∈ ws) : Reordered (.and vs) (.and ws)
  | or {vs ws : List Validator} (same : ∀ v, v ∈ vs ↔ v ∈ ws) : Reordered (.or vs) (.or ws)
  | inAnd (before after : List Validator) {v w : Validator} (inner : Reordered v w) :
      Reordered (.and (before ++ v :: after)) (.and (before ++ w :: after))
  | inOr (before after : List Validator) {v w : Validator} (inner : Reordered v w) :
      Reordered (.or (before ++ v :: after)) (.or (before ++ w :: after))

namespace Reordered

variable {v w : Validator} (reordered : v.Reordered w)
include reordered

/-- A reordered validator has whatever comes from the parts: a property that conjunctions have just if
all they combine has it, and disjunctions just if all has it, or just if something has. -/
theorem iff_of_parts {P : Validator → Prop} (onAnd : ∀ vs, P (.and vs) ↔ ∀ v ∈ vs, P v)
    (onOr : (∀ vs, P (.or vs) ↔ ∀ v ∈ vs, P v) ∨ ∀ vs, P (.or vs) ↔ ∃ v ∈ vs, P v) :
    P v ↔ P w := by
  induction reordered with
  | refl v => rfl
  | symm there ih => exact ih.symm
  | trans first second ih ih' => exact ih.trans ih'
  | and same => simp only [onAnd, same]
  | or same =>
      rcases onOr with all | some
      · simp only [all, same]
      · simp only [some, same]
  | inAnd before after inner ih =>
      simp only [onAnd, List.forall_mem_append, List.forall_mem_cons, ih]
  | inOr before after inner ih =>
      rcases onOr with all | some
      · simp only [all, List.forall_mem_append, List.forall_mem_cons, ih]
      · simp only [some, List.mem_append, List.mem_cons, or_and_right, exists_or, exists_eq_left, ih]

theorem bundled_iff : v.Bundled ↔ w.Bundled :=
  reordered.iff_of_parts (fun _ => bundled_and_iff) (.inl fun _ => bundled_or_iff)

theorem excluded_eq_nil_iff : v.excluded = [] ↔ w.excluded = [] := by
  refine reordered.iff_of_parts (P := fun u => u.excluded = []) (fun vs => ?_) (.inl fun vs => ?_)
  · rw [excluded, excludedIn_eq_nil_iff]
  · rw [excluded, excludedIn_eq_nil_iff]

theorem holds_iff (p : Pack) : v.Holds p ↔ w.Holds p :=
  reordered.iff_of_parts (fun _ => holds_and_iff) (.inr fun _ => holds_or_iff)

end Reordered

/-- **Validators that exclude nothing are formulas.** Made of counts, conjunctions and disjunctions to
any depth, a validator takes a pack just if its formula is true of it. Hence it does not matter in what
order and how often anything is combined in it, nor in what order the triples come. -/
theorem accepts_iff_formula {v : Validator} (bundled : v.Bundled) (free : v.excluded = [])
    (p : Pack) :
    (v.Accepts p ↔ v.Holds p) ∧
      (∀ w : Validator, v.Reordered w → (w.Accepts p ↔ v.Accepts p)) ∧
      ∀ q : Pack, q.focus = p.focus → q.triples.Perm p.triples → (v.Accepts q ↔ v.Accepts p) := by
  have formula (q : Pack) : v.Accepts q ↔ v.Holds q := bundled.accepts_iff_holds free q
  refine ⟨formula p, ?_, ?_⟩
  · intro w reordered
    have bundled' : w.Bundled := reordered.bundled_iff.mp bundled
    have free' : w.excluded = [] := reordered.excluded_eq_nil_iff.mp free
    rw [bundled'.accepts_iff_holds free', formula, reordered.holds_iff]
  · intro q focus perm
    rw [formula, formula]
    exact ⟨.of_perm focus.symm perm.symm, .of_perm focus perm⟩

/-- An alternative beside one that never holds. -/
def debt : Validator := .or [.exactlyN ⟨"owes"⟩ 1, .or []]

/-- Something for everybody, or two of it in all for different subjects. -/
def shares : Validator :=
  .or [.atLeastOne ⟨"has"⟩, .and [.atMostOne ⟨"has"⟩, .exactlyN ⟨"has"⟩ 2, debt]]

/-- It with the alternatives swapped, and a count repeated inside of one of them. -/
def sharesShuffled : Validator :=
  .or [.and [.exactlyN ⟨"has"⟩ 2, debt, .atMostOne ⟨"has"⟩, .exactlyN ⟨"has"⟩ 2],
    .atLeastOne ⟨"has"⟩]

/-- The focus has nothing. -/
def heirs : Pack where
  focus := ⟨"f"⟩
  triples :=
    [⟨⟨"g"⟩, ⟨"has"⟩, .uri ⟨"a"⟩⟩, ⟨⟨"h"⟩, ⟨"has"⟩, .uri ⟨"a"⟩⟩, ⟨⟨"g"⟩, ⟨"owes"⟩, .uri ⟨"h"⟩⟩]

theorem reordered_formula_accepts :
    shares.Bundled ∧ shares.excluded = [] ∧ shares.Holds heirs ∧
      shares.Reordered sharesShuffled ∧ sharesShuffled.Accepts heirs := by
  have bundled : shares.Bundled := by
    simp [shares, debt, bundled_and_iff, bundled_or_iff, Bundled.atLeastOne, Bundled.atMostOne,
      Bundled.exactlyN]
  have free : shares.excluded = [] := rfl
  have accepted : shares.Accepts heirs := ⟨heirs, rfl⟩
  have inner : (Validator.and [.atMostOne ⟨"has"⟩, .exactlyN ⟨"has"⟩ 2, debt]).Reordered
      (.and [.exactlyN ⟨"has"⟩ 2, debt, .atMostOne ⟨"has"⟩, .exactlyN ⟨"has"⟩ 2]) := .and (by grind)
  have reordered : shares.Reordered sharesShuffled := .trans (.inOr [_] [] inner) (.or (by grind))
  obtain ⟨formula, shuffled, _⟩ := accepts_iff_formula bundled free heirs
  exact ⟨bundled, free, formula.mp accepted, reordered, (shuffled _ reordered).mpr accepted⟩

end Validator

end Stencil
