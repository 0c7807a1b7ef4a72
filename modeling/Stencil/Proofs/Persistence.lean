/- # Proofs.Persistence -- answers that stay when a scope gets larger

A scope that allows deeper nesting, or that knows more templates, answers an expansion that failed
before, and ought to answer every other one as before. `Persists cut` compares two results in this way:
the second is the first, unless that is one of the errors in `cut`; and `Eval.Persists cut` compares two
computations, from every stack. Nothing is said of the second in the case of such an error, and nothing
has to be: an error ends everything around it, so it would be what the first answers as a whole. For this
reason the relation is kept by sequencing and by entering an expansion.

Two scopes are compared by what an expansion asks of them, which is its items, its identity, the meaning
of names and the judgement of its validators (`Scope.Persists`). By induction on the depth that is left,
whole expansions persist then (`persists_evaluateAt`), however the expansions inside are found.
-/
import Stencil.Proofs.Nesting

namespace Stencil
set_option autoImplicit false

/-- The second result is the first one, unless that is one of certain errors. -/
def Persists {α : Type} (cut : Error → Prop) (x y : Except Error α) : Prop :=
  (∃ e, cut e ∧ x = .error e) ∨ y = x

namespace Persists

variable {α β : Type} {cut : Error → Prop}

theorem refl (x : Except Error α) : Persists cut x x := .inr rfl

theorem ofCut {e : Error} (isCut : cut e) (y : Except Error α) : Persists cut (.error e) y :=
  .inl ⟨e, isCut, rfl⟩

theorem bind {x y : Except Error α} {f g : α → Except Error β} (first : Persists cut x y)
    (rest : ∀ a, x = .ok a → Persists cut (f a) (g a)) : Persists cut (x >>= f) (y >>= g) := by
  rcases first with ⟨e, isCut, rfl⟩ | rfl
  · exact .ofCut isCut _
  · cases y with
    | ok a => exact rest a rfl
    | error e => exact .refl _

end Persists

namespace Eval

variable {α β : Type} {cut : Error → Prop}

/-- The second computation does what the first one does, unless that one ends with one of certain
errors. -/
def Persists (cut : Error → Prop) (x y : Eval α) : Prop :=
  ∀ s : SelfStack, (∃ e, cut e ∧ (x.run s).1 = .error e) ∨ y.run s = x.run s

namespace Persists

theorem refl (x : Eval α) : Persists cut x x := fun _ => .inr rfl

/-- Nothing has to persist where the first computation is cut off. -/
theorem ofCut {e : Error} (isCut : cut e) (y : Eval α) : Persists cut (throw e) y :=
  fun _ => .inl ⟨e, isCut, rfl⟩

theorem ofExcept {x y : Except Error α} (persists : Stencil.Persists cut x y) :
    Persists cut (Eval.ofExcept x) (Eval.ofExcept y) := by
  intro s
  rcases persists with ends | same
  · exact .inl ends
  · exact .inr (congrArg (·, s) same)

theorem bind {x y : Eval α} {f g : α → Eval β} (first : Persists cut x y)
    (rest : ∀ a, Persists cut (f a) (g a)) : Persists cut (x >>= f) (y >>= g) := by
  intro s
  rw [run_bind, run_bind]
  rcases first s with ⟨e, isCut, ended⟩ | same
  · left
    refine ⟨e, isCut, ?_⟩
    split
    · rename_i a next done
      rw [done] at ended
      cases ended
    · rename_i e' next failed
      rw [failed] at ended
      cases ended
      rfl
  · rw [same]
    split
    · rename_i a next done
      exact rest a next
    · exact .inr rfl

theorem within {x y : Eval α} (inside : Persists cut x y) (me : Uri) :
    Persists cut (within me x) (within me y) := by
  intro s
  rcases inside (s.push me) with ends | same
  · exact .inl ends
  · right
    rw [run_within, run_within, same]

end Persists

end Eval

/-- All that an expansion asks of a scope, its depth apart, is answered alike by another one, where the
answer is not one of certain errors. -/
structure Scope.Persists (cut : Error → Prop) (scope after : Scope) : Prop where
  names : ∀ me, after.resolver me = scope.resolver me
  bodies : ∀ r e, Stencil.Persists cut (Expansion.fullBody scope r e) (Expansion.fullBody after r e)
  identities : ∀ e, Expansion.identityOf after e = Expansion.identityOf scope e
  judgements : ∀ me out, Expansion.judge after me out = Expansion.judge scope me out

namespace Expansion

variable {cut : Error → Prop} {scope after : Scope}

theorem persists_prepare (persists : scope.Persists cut after) (e : Expansion) :
    Eval.Persists cut (prepare scope e) (prepare after e) := by
  have looked : Eval.resolver after = Eval.resolver scope := by
    unfold Eval.resolver
    simp only [persists.names]
  unfold prepare
  rw [looked, persists.identities]
  refine (Eval.Persists.refl _).bind fun r => ?_
  exact (Eval.Persists.ofExcept (persists.bodies r e)).bind fun body => .refl _

/-- Where the expansions inside persist, bodies do. -/
theorem persists_judged (persists : scope.Persists cut after)
    {inner inner' : Expansion → Eval Expanded} (inside : ∀ e, Eval.Persists cut (inner e) (inner' e))
    (me : Uri) (is : List Item) :
    Eval.Persists cut (judged scope inner me is) (judged after inner' me is) := by
  have body : BodyRelation (Eval.Persists cut) scope after inner inner' :=
    { pure := fun a => .refl _
      bind := .bind
      inside := inside
      name := by
        intro n
        have looked : value after inner' (.name n) = value scope inner (.name n) := by
          unfold value Eval.resolver
          simp only [persists.names]
        rw [looked]
        exact .refl _
      parameter := fun p => .refl _
      predicate := fun l => .refl _ }
  unfold judged
  refine (body.items me is).bind fun out => ?_
  rw [persists.judgements]
  exact .refl _

/-- Expansions persist where more depth is left, if those are cut off that run out of it; and where as
much is left, if it is reported in the same way. -/
theorem persists_evaluateAt (persists : scope.Persists cut after) {left more : Nat}
    (le : left ≤ more)
    (ends : cut (.template (.depthExceeded scope.limit)) ∨
      left = more ∧ after.limit = scope.limit) (e : Expansion) :
    Eval.Persists cut (evaluateAt scope left e) (evaluateAt after more e) := by
  induction left generalizing more e with
  | zero =>
      rcases ends with isCut | ⟨rfl, same⟩
      · cases more with
        | zero => exact (persists_prepare persists e).bind fun start => .ofCut isCut _
        | succ more => exact (persists_prepare persists e).bind fun start => .ofCut isCut _
      · unfold evaluateAt
        rw [same]
        exact (persists_prepare persists e).bind fun start => .refl _
  | succ left ih =>
      obtain ⟨more, rfl⟩ : ∃ k, more = k + 1 := ⟨more - 1, by omega⟩
      have inside : ∀ e, Eval.Persists cut (evaluateAt scope left e) (evaluateAt after more e) :=
        ih (Nat.le_of_succ_le_succ le) (ends.imp_right fun same => ⟨by omega, same.2⟩)
      refine (persists_prepare persists e).bind fun start => ?_
      exact (persists_judged persists inside start.1 start.2).within start.1

theorem persists_evaluate (persists : scope.Persists cut after) (le : scope.limit ≤ after.limit)
    (ends : cut (.template (.depthExceeded scope.limit)) ∨ after.limit = scope.limit)
    (e : Expansion) : Eval.Persists cut (evaluate scope e) (evaluate after e) := by
  intro s
  refine persists_evaluateAt persists (Nat.sub_le_sub_right le s.depth) ?_ e s
  exact ends.imp_right fun same => ⟨by rw [same], same⟩

end Expansion

/-- An expansion that is not cut off gives the same in the other scope, down to the counts of
identities. -/
theorem Environment.expand_persists {cut : Error → Prop} {env : Environment} {after : Scope}
    (persists : env.scope.Persists cut after) (le : env.scope.limit ≤ after.limit)
    (ends : cut (.template (.depthExceeded env.scope.limit)) ∨ after.limit = env.scope.limit)
    {e : Expansion} (uncut : ∀ why, cut why → (env.expand e).1 ≠ .error why) :
    { env with scope := after }.expand e =
      ((env.expand e).1, { (env.expand e).2 with scope := after }) := by
  rcases Expansion.persists_evaluate persists le ends e env.selves with ⟨why, isCut, ended⟩ | same
  · exact absurd ended (uncut why isCut)
  · exact expand_eq_iff.mpr ⟨same, rfl⟩

end Stencil
