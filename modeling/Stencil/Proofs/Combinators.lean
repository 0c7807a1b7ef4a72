/- # Proofs.Combinators -- conjunctions and disjunctions of validators flatten

A conjunction hands on what each validator has made of the pack and stops at the first error. A
disjunction shows every alternative the pack as it came; it answers what the first one that takes the
pack answers, and the error of the last one if none does. Along a list, then, a conjunction carries a
pack (`runAll_append`) and a disjunction carries an error (`runAny_append`). That a combinator inside
of one of its own kind may be spliced into it is read off these two (`combinators_flatten`).

A disjunction of nothing refuses with an error of its own. In the last place of another one this error
takes the place of that of the alternative before it, so only an inner disjunction which has an
alternative can be spliced.
-/
import Stencil.Validator.Basic

namespace Stencil
set_option autoImplicit false

namespace Validator

/-- The validator hands the pack on, changed or not. -/
def Accepts (v : Validator) (p : Pack) : Prop := ∃ q, v.run p = .ok q

theorem not_accepts_of_error {v : Validator} {p : Pack} {e : ExtensionError}
    (refused : v.run p = .error e) : ¬v.Accepts p := by
  rintro ⟨q, taken⟩
  rw [refused] at taken
  cases taken

/-! ## Two lists in a row -/

theorem runAll_cons_eq_ok_iff {v : Validator} {vs : List Validator} {p q : Pack} :
    runAll (v :: vs) p = .ok q ↔ ∃ r, v.run p = .ok r ∧ runAll vs r = .ok q := by
  rw [runAll]
  cases v.run p with
  | ok r => simp
  | error e => simp

/-- Alternatives in two lists: the second list is tried where the first leaves an error. -/
theorem runAny_append (last : ExtensionError) (vs ws : List Validator) (p : Pack) :
    runAny last (vs ++ ws) p = (runAny last vs p).tryCatch fun e => runAny e ws p := by
  induction vs generalizing last with
  | nil => rfl
  | cons v vs ih =>
      rw [List.cons_append, runAny, runAny]
      cases v.run p with
      | ok q => rfl
      | error e => exact ih e

/-- The error that was carried along is forgotten as soon as there is something to try. -/
theorem runAny_cons_congr (last other : ExtensionError) (v : Validator) (vs : List Validator)
    (p : Pack) : runAny last (v :: vs) p = runAny other (v :: vs) p := by
  rw [runAny, runAny]

theorem runAny_singleton (last : ExtensionError) (v : Validator) (p : Pack) :
    runAny last [v] p = v.run p := by
  rw [runAny]
  cases v.run p with
  | ok q => rfl
  | error e => rfl

theorem runAll_splice (xs ys zs : List Validator) (p : Pack) :
    runAll (xs ++ .and ys :: zs) p = runAll (xs ++ (ys ++ zs)) p := by
  have inner (q : Pack) : runAll (.and ys :: zs) q = runAll (ys ++ zs) q := by
    rw [runAll, run, runAll_append]
    cases runAll ys q with
    | ok r => rfl
    | error e => rfl
  rw [runAll_append, runAll_append xs]
  exact congrArg (runAll xs p).bind (funext inner)

theorem runAny_splice (last : ExtensionError) (xs : List Validator) (y : Validator)
    (ys zs : List Validator) (p : Pack) :
    runAny last (xs ++ .or (y :: ys) :: zs) p = runAny last (xs ++ (y :: ys ++ zs)) p := by
  have inner (e : ExtensionError) :
      runAny e (.or (y :: ys) :: zs) p = runAny e (y :: ys ++ zs) p := by
    -- inside, the list starts over with the error of an empty one; `y` makes this be forgotten
    rw [runAny, run, runAny_append, runAny_cons_congr e noAlternative]
    cases runAny noAlternative (y :: ys) p with
    | ok q => rfl
    | error e => rfl
  rw [runAny_append, runAny_append last xs]
  exact congrArg (runAny last xs p).tryCatch (funext inner)

/-! ## What a disjunction answers -/

/-- Something is handed on just if some alternative takes the pack. -/
theorem runAny_accepts_iff (last : ExtensionError) {vs : List Validator} {p : Pack} :
    (∃ q, runAny last vs p = .ok q) ↔ ∃ v ∈ vs, v.Accepts p := by
  induction vs generalizing last with
  | nil => simp [runAny]
  | cons v vs ih =>
      simp only [runAny, List.mem_cons, exists_eq_or_imp]
      cases answer : v.run p with
      | ok q => exact iff_of_true ⟨q, rfl⟩ (.inl ⟨q, answer⟩)
      | error e => exact (ih e).trans (or_iff_right (not_accepts_of_error answer)).symm

/-- Alternatives that all refuse are as good as none, but for the error they leave. -/
theorem exists_runAny_eq_error (last : ExtensionError) {vs : List Validator} {p : Pack}
    (refused : ∀ v ∈ vs, ¬v.Accepts p) : ∃ e, runAny last vs p = .error e := by
  cases answer : runAny last vs p with
  | ok q =>
      obtain ⟨v, mem, taken⟩ := (runAny_accepts_iff last).mp ⟨q, answer⟩
      exact absurd taken (refused v mem)
  | error e => exact ⟨e, rfl⟩

theorem runAny_of_refused {last : ExtensionError} {vs : List Validator} {p : Pack}
    (refused : ∀ v ∈ vs, ¬v.Accepts p) (w : Validator) (ws : List Validator) :
    runAny last (vs ++ w :: ws) p = runAny last (w :: ws) p := by
  obtain ⟨e, none_left⟩ := exists_runAny_eq_error last refused
  rw [runAny_append, none_left]
  exact runAny_cons_congr e last w ws p

/-- What is handed on is what the first alternative that takes the pack hands on. -/
theorem runAny_eq_ok_iff {last : ExtensionError} {vs : List Validator} {p q : Pack} :
    runAny last vs p = .ok q ↔
      ∃ before v after, vs = before ++ v :: after ∧ (∀ u ∈ before, ¬u.Accepts p) ∧
        v.run p = .ok q := by
  constructor
  · intro taken
    induction vs generalizing last with
    | nil => cases taken
    | cons v vs ih =>
        rw [runAny] at taken
        cases answer : v.run p with
        | ok r =>
            rw [answer] at taken
            cases taken
            exact ⟨[], v, vs, rfl, List.forall_mem_nil _, answer⟩
        | error e =>
            rw [answer] at taken
            obtain ⟨before, w, after, rfl, refused, here⟩ := ih taken
            exact ⟨v :: before, w, after, rfl,
              List.forall_mem_cons.mpr ⟨not_accepts_of_error answer, refused⟩, here⟩
  · rintro ⟨before, v, after, rfl, refused, here⟩
    rw [runAny_of_refused refused, runAny, here]

/-- Where there is a last alternative, the error is its own. -/
theorem runAny_concat_eq_error_iff {last : ExtensionError} {vs : List Validator} {v : Validator}
    {p : Pack} {e : ExtensionError} :
    runAny last (vs ++ [v]) p = .error e ↔ (∀ u ∈ vs, ¬u.Accepts p) ∧ v.run p = .error e := by
  constructor
  · intro failed
    have refused : ∀ u ∈ vs, ¬u.Accepts p := by
      intro u mem taken
      obtain ⟨q, answer⟩ := (runAny_accepts_iff last).mpr
        ⟨u, List.mem_append_left [v] mem, taken⟩
      rw [failed] at answer
      cases answer
    rw [runAny_of_refused refused, runAny_singleton] at failed
    exact ⟨refused, failed⟩
  · rintro ⟨refused, failed⟩
    rw [runAny_of_refused refused, runAny_singleton, failed]

/-- **Combinators flatten.** On every pack, and with validators of a host among the rest, a conjunction
in a conjunction may be spliced into it wherever it stands, and so may a disjunction that has an
alternative in a disjunction. A disjunction hands on what the first alternative that takes the pack
hands on; if none does, it refuses with the error of the last one. -/
theorem combinators_flatten (p : Pack) :
    (∀ xs ys zs : List Validator,
        (and (xs ++ and ys :: zs)).run p = (and (xs ++ (ys ++ zs))).run p) ∧
      (∀ (xs : List Validator) (y : Validator) (ys zs : List Validator),
        (or (xs ++ or (y :: ys) :: zs)).run p = (or (xs ++ (y :: ys ++ zs))).run p) ∧
      (∀ (vs : List Validator) (q : Pack), (or vs).run p = .ok q ↔
        ∃ before v after, vs = before ++ v :: after ∧ (∀ u ∈ before, ¬u.Accepts p) ∧
          v.run p = .ok q) ∧
      ∀ (vs : List Validator) (v : Validator) (e : ExtensionError),
        (or (vs ++ [v])).run p = .error e ↔ (∀ u ∈ vs, ¬u.Accepts p) ∧ v.run p = .error e := by
  simp only [run]
  refine ⟨fun xs ys zs => runAll_splice xs ys zs p, fun xs y ys zs => ?_, fun vs q => ?_,
    fun vs v e => ?_⟩
  · exact runAny_splice noAlternative xs y ys zs p
  · exact runAny_eq_ok_iff
  · exact runAny_concat_eq_error_iff

/-- A disjunction of nothing in the last place is not to be spliced: its error is given for that of the
alternative before it. -/
example : (or [atLeastOne ⟨"e"⟩, or []]).run ⟨⟨"f"⟩, [], .detached⟩ = .error noAlternative ∧
    (or [atLeastOne ⟨"e"⟩]).run ⟨⟨"f"⟩, [], .detached⟩ =
      .error (.cardinality ⟨"e"⟩ ⟨"f"⟩ (.atLeast 1) 0) := ⟨rfl, rfl⟩

end Validator

end Stencil
