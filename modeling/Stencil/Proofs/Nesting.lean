/- # Proofs.Nesting -- expansions inside expansions

The evaluator counts down the depth that is left. This is a device: the depth that is left is told by
the stack, which comes back from every expansion as deep as it was, so the expansions inside a body are
worked out by `evaluate` itself, one level deeper (`evaluate_eq`). Two evaluations of what is inside that
agree wherever the stack has a certain depth give the same body there (`AgreesAt`).

An expansion that is worked out in an environment, to triples or to an error at any depth, changes one
number: how many anonymous identities the innermost expansion around it has given out, or the top level
where there is none (`expansion_restores`). So the items behind an expansion in a body see the `self`
that the items before it saw.
-/
import Stencil.Environment.Basic
import Stencil.Proofs.Minting

namespace Stencil
set_option autoImplicit false

namespace SelfStack

/-- The second stack is left by what was done on the first. -/
structure Restored (before after : SelfStack) : Prop where
  /-- The same expansions are on it, -/
  depth : after.depth = before.depth
  identities : after.frames.map SelfFrame.identity = before.frames.map SelfFrame.identity
  /-- those around the innermost one with the same counts. -/
  around : after.frames.tail = before.frames.tail
  /-- Inside an expansion, only its own count may have grown, -/
  inside : ∀ frame around, before.frames = frame :: around →
    after.minted = before.minted ∧
      ∃ minted, frame.minted ≤ minted ∧ after.frames = { frame with minted } :: around
  /-- and outside of every one, that of the top level. -/
  outside : before.frames = [] → before.minted ≤ after.minted

theorem Grows.restored {s t : SelfStack} (grown : s.Grows t) : s.Restored t := by
  cases grown with
  | outside le =>
      refine ⟨rfl, rfl, rfl, ?_, fun _ => le⟩
      intro frame around same
      cases same
  | @inside me before after around minted le =>
      refine ⟨rfl, rfl, rfl, ?_, fun idle => nomatch idle⟩
      intro frame others same
      cases same
      exact ⟨rfl, after, le, rfl⟩

theorem Grows.depth {s t : SelfStack} (grown : s.Grows t) : t.depth = s.depth := grown.restored.depth

theorem Grows.current? {s t : SelfStack} (grown : s.Grows t) : t.current? = s.current? := by
  cases grown with
  | outside le => rfl
  | inside le => rfl

end SelfStack

namespace Eval

variable {α β : Type}

/-- From a stack of this depth the two computations do the same, and leave a stack of this depth. -/
def AgreesAt (depth : Nat) (x y : Eval α) : Prop :=
  ∀ s : SelfStack, s.depth = depth → y.run s = x.run s ∧ (x.run s).2.depth = depth

namespace AgreesAt

variable {depth : Nat}

theorem refl {x : Eval α} (mints : OnlyMints x) : AgreesAt depth x x :=
  fun s deep => ⟨rfl, (mints s).depth.trans deep⟩

theorem bind {x y : Eval α} {f g : α → Eval β} (first : AgreesAt depth x y)
    (rest : ∀ a, AgreesAt depth (f a) (g a)) : AgreesAt depth (x >>= f) (y >>= g) := by
  intro s deep
  obtain ⟨same, kept⟩ := first s deep
  rw [run_bind, run_bind, same]
  split
  · rename_i a next done
    rw [done] at kept
    exact rest a next kept
  · rename_i e next failed
    rw [failed] at kept
    exact ⟨rfl, kept⟩

end AgreesAt

end Eval

namespace Expansion

open Eval

/-! ## An expansion inside is an expansion -/

/-- Work out a body, and let its validators judge what it gave. -/
def judged (scope : Scope) (inner : Expansion → Eval Expanded) (me : Uri) (body : List Item) :
    Eval Expanded := do
  let out ← items scope inner me body
  let triples ← Eval.ofExcept ((judge scope me out).mapError .extension)
  return ⟨me, triples⟩

/-- Go into an expansion that has been prepared, unless there are as many around it as may be. -/
def enter (scope : Scope) (inner : Expansion → Eval Expanded) (start : Uri × List Item) :
    Eval Expanded := do
  if (← get).depth < scope.limit then
    Eval.within start.1 (judged scope inner start.1 start.2)
  else throw (.template (.depthExceeded scope.limit))

theorem onlyMints_judged {scope : Scope} {inner : Expansion → Eval Expanded}
    (mints : ∀ e, OnlyMints (inner e)) (me : Uri) (is : List Item) :
    OnlyMints (judged scope inner me is) := by
  refine (onlyMints_items mints me is).bind fun out => ?_
  exact (Moves.ofExcept _).bind fun triples => .pure _

/-- Where the expansions inside agree, bodies agree. -/
theorem agreesAt_judged (scope : Scope) {depth : Nat} {inner inner' : Expansion → Eval Expanded}
    (inside : ∀ e, AgreesAt depth (inner e) (inner' e)) (me : Uri) (is : List Item) :
    AgreesAt depth (judged scope inner me is) (judged scope inner' me is) := by
  have body : BodyRelation (AgreesAt depth) scope scope inner inner' :=
    { pure := fun a => .refl (.pure a)
      bind := .bind
      inside := inside
      name := by
        intro n
        exact .refl (moves_value fun _ isExpansion => nomatch isExpansion)
      parameter := fun p => .refl (.throw _)
      predicate := fun l => .refl (.throw _) }
  refine (body.items me is).bind fun out => .refl ?_
  exact (Moves.ofExcept _).bind fun triples => .pure _

/-- An expansion for which the depth that is left was counted is one for which it is told by the stack.
-/
theorem agreesAt_evaluate (scope : Scope) {depth left : Nat} (counted : scope.limit - depth = left)
    (e : Expansion) : AgreesAt depth (evaluateAt scope left e) (evaluate scope e) := by
  intro s deep
  refine ⟨?_, (onlyMints_evaluateAt scope left e s).depth.trans deep⟩
  show (evaluateAt scope (scope.limit - s.depth) e).run s = _
  rw [deep, counted]

theorem run_enter (scope : Scope) (inner : Expansion → Eval Expanded) (start : Uri × List Item)
    (s : SelfStack) : (enter scope inner start).run s =
      if s.depth < scope.limit then
        (Eval.within start.1 (judged scope inner start.1 start.2)).run s
      else (.error (.template (.depthExceeded scope.limit)), s) := by
  unfold enter
  rw [run_bind]
  show (ite _ _ _ : Eval Expanded).run s = _
  split
  · rfl
  · rfl

/-- An expansion is prepared and then entered, and the expansions in its body are worked out in the same
way: the depth that is left appears nowhere. -/
theorem evaluate_eq (scope : Scope) (e : Expansion) :
    evaluate scope e = prepare scope e >>= enter scope (evaluate scope) := by
  funext s
  show (evaluateAt scope (scope.limit - s.depth) e).run s = (prepare scope e >>= enter scope _).run s
  have kept := (onlyMints_prepare scope e s).depth
  cases remaining : scope.limit - s.depth with
  | zero =>
      unfold evaluateAt
      rw [run_bind, run_bind]
      split
      · rename_i start t prepared
        rw [prepared] at kept
        have full : ¬ t.depth < scope.limit := by
          rw [kept]
          omega
        rw [run_enter, if_neg full]
        rfl
      · rfl
  | succ left =>
      unfold evaluateAt
      rw [run_bind, run_bind]
      split
      · rename_i start t prepared
        rw [prepared] at kept
        have room : t.depth < scope.limit := by
          rw [kept]
          omega
        have counted : scope.limit - (t.push start.1).depth = left := by
          rw [SelfStack.depth_push, kept]
          omega
        have same := (agreesAt_judged scope (agreesAt_evaluate scope counted) start.1 start.2
          (t.push start.1) rfl).1
        rw [run_enter, if_pos room]
        show (Eval.within start.1 (judged scope (evaluateAt scope left) start.1 start.2)).run t = _
        rw [run_within, run_within, same]
      · rfl

theorem run_prepare {scope : Scope} {e : Expansion} {s t : SelfStack} {me : Uri} {body : List Item}
    (found : fullBody scope (scope.resolver s.current?) e = .ok body)
    (settled : (identityOf scope e).run s = (.ok me, t)) :
    (prepare scope e).run s = (.ok (me, body), t) := by
  have looked : (Eval.resolver scope).run s = (.ok (scope.resolver s.current?), s) := rfl
  unfold prepare
  rw [run_bind, looked]
  simp only
  rw [run_bind, run_ofExcept, found]
  simp only
  rw [run_bind, settled]
  rfl

theorem judged_eq_ok_iff {scope : Scope} {inner : Expansion → Eval Expanded} {me : Uri}
    {body : List Item} {s t : SelfStack} {out : Expanded} :
    (judged scope inner me body).run s = (.ok out, t) ↔
      ∃ yield, (items scope inner me body).run s = (.ok yield, t) ∧
        judge scope me yield = .ok out.triples ∧ me = out.identity := by
  constructor
  · intro done
    obtain ⟨yield, next, given, done⟩ := run_bind_eq_ok done
    obtain ⟨triples, last, accepted, done⟩ := run_bind_eq_ok done
    cases done
    rw [run_ofExcept, Prod.mk.injEq] at accepted
    obtain ⟨accepted, rfl⟩ := accepted
    exact ⟨yield, given, eq_ok_of_mapError accepted, rfl⟩
  · rintro ⟨yield, given, accepted, rfl⟩
    unfold judged
    rw [run_bind, given]
    simp only
    rw [accepted]
    rfl

/-- What is done inside an expansion is gone from the stack behind it. -/
theorem pop_judged (scope : Scope) (me : Uri) (body : List Item) (s : SelfStack) :
    ((judged scope (evaluate scope) me body).run (s.push me)).2.pop = s :=
  (onlyMints_judged (onlyMints_evaluate scope) me body (s.push me)).pop_of_push

/-- An expansion succeeds exactly if its items can be had, it has an identity, there is room for it, and
its items give triples that its validators take. It then leaves the stack with which it got its
identity. -/
theorem evaluate_eq_ok_iff {scope : Scope} {e : Expansion} {s t : SelfStack} {out : Expanded} :
    (evaluate scope e).run s = (.ok out, t) ↔
      ∃ body yield inside, fullBody scope (scope.resolver s.current?) e = .ok body ∧
        (identityOf scope e).run s = (.ok out.identity, t) ∧ t.depth < scope.limit ∧
        (items scope (evaluate scope) out.identity body).run (t.push out.identity) =
          (.ok yield, inside) ∧
        judge scope out.identity yield = .ok out.triples := by
  rw [evaluate_eq]
  constructor
  · intro worked
    obtain ⟨⟨me, body⟩, next, prepared, worked⟩ := run_bind_eq_ok worked
    obtain ⟨found, settled⟩ := prepare_eq_ok prepared
    rw [run_enter] at worked
    split at worked
    · rename_i room
      rw [run_within, Prod.mk.injEq] at worked
      have left : next = t := (pop_judged scope me body next).symm.trans worked.2
      subst left
      obtain ⟨yield, given, accepted, rfl⟩ := judged_eq_ok_iff.mp (Prod.ext worked.1 rfl)
      exact ⟨body, yield, _, found, settled, room, given, accepted⟩
    · cases worked
  · rintro ⟨body, yield, inside, found, settled, room, given, accepted⟩
    have done := judged_eq_ok_iff.mpr ⟨yield, given, accepted, rfl⟩
    rw [run_bind, run_prepare found settled]
    simp only
    rw [run_enter, if_pos room, run_within, pop_judged scope out.identity body t]
    simp only
    rw [done]

/-- An expansion has the identity that it was prepared with. -/
theorem identityOf_of_evaluate {scope : Scope} {e : Expansion} {s t : SelfStack} {out : Expanded}
    (worked : (evaluate scope e).run s = (.ok out, t)) :
    ((identityOf scope e).run s).1 = .ok out.identity := by
  obtain ⟨_, _, _, _, settled, _⟩ := evaluate_eq_ok_iff.mp worked
  rw [settled]

end Expansion

/-! ## Environments -/

namespace Environment

theorem expand_eq_iff {env after : Environment} {e : Expansion} {result : Except Error Expanded} :
    env.expand e = (result, after) ↔
      (Expansion.evaluate env.scope e).run env.selves = (result, after.selves) ∧
        after = { env with selves := after.selves } := by
  unfold expand
  cases (Expansion.evaluate env.scope e).run env.selves with
  | mk answer selves =>
      constructor
      · intro same
        cases same
        exact ⟨rfl, rfl⟩
      · rintro ⟨same, unchanged⟩
        cases same
        exact congrArg (Prod.mk result) unchanged.symm

/-- An expansion that is a form is worked out, and then put into effect. -/
theorem evaluate_expansion (env : Environment) (e : Expansion) :
    env.evaluate (.expansion e) = committed (env.expand e) := by
  show env.perform (.expansion e) = _
  unfold perform expand Form.step
  rw [Eval.run_bind]
  cases worked : (Expansion.evaluate env.scope e).run env.selves with
  | mk result selves =>
      cases result with
      | ok out => rfl
      | error cause => rfl

/-- **Expansions change counts only.** To work out an expansion, inside any others and whether it
succeeds or fails, changes nothing in an environment but the stack of expansions; a form that is an
expansion adds its triples to the graph besides. The stack has the same expansions on it, and only the
innermost of them, or the top level where there is none, may have given out more identities. So after
any part of a body, expansions inside it included, `self` is that of the body again. -/
theorem expansion_restores (env : Environment) (e : Expansion) :
    (env.expand e).2 = { env with selves := (env.expand e).2.selves } ∧
      env.evaluate (.expansion e) = committed (env.expand e) ∧
      env.selves.Restored (env.expand e).2.selves ∧
      (env.expand e).2.selves.current? = env.selves.current? ∧
      ∀ me part,
        let inside := Expansion.items env.scope (Expansion.evaluate env.scope) me part
        (inside.run (env.selves.push me)).2.current? = some me ∧
          (inside.run (env.selves.push me)).2.pop = env.selves := by
  have grown : env.selves.Grows (env.expand e).2.selves :=
    Expansion.onlyMints_evaluate env.scope e env.selves
  refine ⟨rfl, env.evaluate_expansion e, grown.restored, grown.current?, ?_⟩
  intro me part
  have body : (env.selves.push me).Grows
      ((Expansion.items env.scope (Expansion.evaluate env.scope) me part).run
        (env.selves.push me)).2 :=
    Expansion.onlyMints_items (Expansion.onlyMints_evaluate env.scope) me part _
  exact ⟨body.current?, body.pop_of_push⟩

end Environment

end Stencil
