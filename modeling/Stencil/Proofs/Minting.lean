/- # Proofs.Minting -- a computation leaves the stack of expansions as it found it

Working out a form enters expansions and leaves them again, and an error may end it at any depth: a
wrong arity, a base chain that turns back, a name that means nothing, a validator that refuses. On
every way out the expansions on the stack are the ones that were there, and only the innermost of
them, or the top level where there is none, may have given out anonymous identities
(`SelfStack.Grows`).

`Eval.Moves` says of a computation that it takes every stack to a related one, for success and failure
alike. For a relation that is reflexive and transitive this is closed under sequencing (`Moves.bind`), and
what holds of the computations that a form is made of holds of the form (`Form.moves_step`). `OnlyMints` is
the case of `Grows`. Entering an expansion hides even what is given out inside it, whatever the relation is
(`Moves.within`). So a body only mints where the expansions inside it do (`onlyMints_body`), and these do by
induction on the depth that is left (`onlyMints_evaluateAt`).
-/
import Mathlib.Order.Defs.Unbundled
import Stencil.Environment.Step
import Stencil.Proofs.BodyRelation

namespace Stencil
set_option autoImplicit false

namespace SelfStack

/-- The second stack is the first, but for identities that its top has given out. -/
inductive Grows : SelfStack → SelfStack → Prop
  | outside {before after : Nat} (le : before ≤ after) : Grows ⟨[], before⟩ ⟨[], after⟩
  | inside {me : Uri} {before after : Nat} {around : List SelfFrame} {minted : Nat}
      (le : before ≤ after) :
      Grows ⟨⟨me, before⟩ :: around, minted⟩ ⟨⟨me, after⟩ :: around, minted⟩

namespace Grows

theorem refl (s : SelfStack) : s.Grows s := by
  obtain ⟨frames, minted⟩ := s
  cases frames with
  | nil => exact .outside (Nat.le_refl minted)
  | cons frame around => exact .inside (Nat.le_refl frame.minted)

theorem trans {s t u : SelfStack} (first : s.Grows t) (second : t.Grows u) : s.Grows u := by
  cases first with
  | outside le =>
      cases second with
      | outside more => exact .outside (Nat.le_trans le more)
  | inside le =>
      cases second with
      | inside more => exact .inside (Nat.le_trans le more)

instance : IsPreorder SelfStack Grows where
  refl := refl
  trans _ _ _ := trans

theorem mint (config : Config) (ns : Option Uri) (s : SelfStack) :
    s.Grows (s.mint config ns).2 := by
  obtain ⟨frames, minted⟩ := s
  cases frames with
  | nil => exact .outside (Nat.le_succ minted)
  | cons frame around => exact .inside (Nat.le_succ frame.minted)

/-- What grew inside an expansion is gone when it is left. -/
theorem pop_of_push {s t : SelfStack} {me : Uri} (grown : (s.push me).Grows t) : t.pop = s := by
  obtain ⟨frames, minted⟩ := s
  cases grown with
  | inside le => rfl

/-- Outside of every expansion, only the count of the top level grows. -/
theorem eq_of_frames_nil {s t : SelfStack} (grown : s.Grows t) (idle : s.frames = []) :
    s.minted ≤ t.minted ∧ t = { s with minted := t.minted } := by
  cases grown with
  | outside le => exact ⟨le, rfl⟩
  | inside le => cases idle

end Grows

end SelfStack

namespace Eval

variable {α β : Type}

/-! ## Running computations -/

@[simp] theorem run_ofExcept (x : Except Error α) (s : SelfStack) : (ofExcept x).run s = (x, s) :=
  rfl

theorem run_within (me : Uri) (x : Eval α) (s : SelfStack) :
    (within me x).run s = ((x.run (s.push me)).1, (x.run (s.push me)).2.pop) := rfl

theorem run_bind (x : Eval α) (f : α → Eval β) (s : SelfStack) :
    (x >>= f).run s =
      match x.run s with
      | (.ok a, next) => (f a).run next
      | (.error e, next) => (.error e, next) := by
  change (ExceptT.bindCont f (x.run s).1).run (x.run s).2 = _
  obtain ⟨result, next⟩ := x.run s
  cases result with
  | ok a => rfl
  | error e => rfl

/-- A sequence that succeeds has come through its first part. -/
theorem run_bind_eq_ok {x : Eval α} {f : α → Eval β} {s t : SelfStack} {b : β}
    (done : (x >>= f).run s = (.ok b, t)) :
    ∃ a next, x.run s = (.ok a, next) ∧ (f a).run next = (.ok b, t) := by
  rw [run_bind] at done
  split at done
  · rename_i a next first
    exact ⟨a, next, first, done⟩
  · cases done

/-! ## Stacks before and after -/

/-- However the computation ends, the stack that it leaves is related to the one that it found. -/
def Moves (R : SelfStack → SelfStack → Prop) (x : Eval α) : Prop := ∀ s : SelfStack, R s (x.run s).2

namespace Moves

variable {R : SelfStack → SelfStack → Prop} [IsPreorder SelfStack R]

theorem pure (a : α) : Moves R (pure a) := refl_of R

theorem throw (e : Error) : Moves R (throw e : Eval α) := refl_of R

theorem ofExcept (x : Except Error α) : Moves R (Eval.ofExcept x) := refl_of R

theorem currentSelf : Moves R Eval.currentSelf := refl_of R

theorem resolver (scope : Scope) : Moves R (Eval.resolver scope) := refl_of R

theorem bind {x : Eval α} {f : α → Eval β} (first : Moves R x) (rest : ∀ a, Moves R (f a)) :
    Moves R (x >>= f) := by
  intro s
  have moved := first s
  rw [run_bind]
  split
  · rename_i a next done
    rw [done] at moved
    exact trans_of R moved (rest a next)
  · rename_i e next failed
    rw [failed] at moved
    exact moved

end Moves

/-- However the computation ends, only the top of the stack has given out identities. -/
abbrev OnlyMints (x : Eval α) : Prop := Moves SelfStack.Grows x

theorem OnlyMints.grows {x : Eval α} (mints : OnlyMints x) {s t : SelfStack}
    {result : Except Error α} (done : x.run s = (result, t)) : s.Grows t := by
  have grown := mints s
  rw [done] at grown
  exact grown

/-- Computing inside an expansion leaves the whole stack as it was. -/
theorem Moves.within {R : SelfStack → SelfStack → Prop} [IsPreorder SelfStack R] {x : Eval α}
    (inside : OnlyMints x) (me : Uri) : Moves R (within me x) := by
  intro s
  rw [run_within, (inside (s.push me)).pop_of_push]
  exact refl_of R s

end Eval

/-- The expansion that an expression is. -/
def Expr.expansion? : Expr → Option Expansion
  | .expansion e => some e
  | _ => none

namespace Expansion

open Eval

/-! ## Expansions -/

section Moves

variable {R : SelfStack → SelfStack → Prop} [IsPreorder SelfStack R] {scope : Scope}

/-- A name is looked up without touching the stack. -/
theorem moves_identityOf_of_name {e : Expansion} (named : e.name.isSome) :
    Moves R (identityOf scope e) := by
  obtain ⟨name, hasName⟩ := Option.isSome_iff_exists.mp named
  unfold identityOf
  rw [hasName]
  exact (Moves.resolver scope).bind fun r => .ofExcept _

theorem moves_prepare {e : Expansion} (identity : Moves R (identityOf scope e)) :
    Moves R (prepare scope e) := by
  unfold prepare
  refine (Moves.resolver scope).bind fun r => ?_
  refine (Moves.ofExcept _).bind fun body => ?_
  exact identity.bind fun me => .pure _

/-- An expression moves the stack as the expansion does that it may be. -/
theorem moves_value {inner : Expansion → Eval Expanded} {e : Expr}
    (inside : ∀ x ∈ e.expansion?, Moves R (inner x)) : Moves R (value scope inner e) := by
  cases e with
  | literal l => exact .pure _
  | name n =>
      unfold value
      refine (Moves.resolver scope).bind fun r => ?_
      exact (Moves.ofExcept _).bind fun v => .pure _
  | param p => exact .throw _
  | expansion x => exact (inside x rfl).bind fun out => .pure _

end Moves

theorem onlyMints_identityOf (scope : Scope) (e : Expansion) : OnlyMints (identityOf scope e) := by
  cases named : e.name with
  | some name => exact moves_identityOf_of_name (by rw [named, Option.isSome_some])
  | none =>
      unfold identityOf
      rw [named]
      exact fun s => .mint scope.config scope.defaultNamespace s

theorem onlyMints_prepare (scope : Scope) (e : Expansion) : OnlyMints (prepare scope e) :=
  moves_prepare (onlyMints_identityOf scope e)

/-- An expansion that is prepared has its items, and its identity from the stack that is there. -/
theorem prepare_eq_ok {scope : Scope} {e : Expansion} {s t : SelfStack} {me : Uri}
    {body : List Item} (prepared : (prepare scope e).run s = (.ok (me, body), t)) :
    fullBody scope (scope.resolver s.current?) e = .ok body ∧
      (identityOf scope e).run s = (.ok me, t) := by
  unfold prepare at prepared
  obtain ⟨r, s₁, resolved, prepared⟩ := run_bind_eq_ok prepared
  obtain ⟨full, s₂, found, prepared⟩ := run_bind_eq_ok prepared
  obtain ⟨identity, s₃, settled, prepared⟩ := run_bind_eq_ok prepared
  cases prepared
  cases resolved
  rw [run_ofExcept, Prod.mk.injEq] at found
  obtain ⟨found, rfl⟩ := found
  exact ⟨found, settled⟩

section Body

variable {scope : Scope} {inner : Expansion → Eval Expanded}

/-- A body is made of computations that only mint. -/
theorem onlyMints_body (mints : ∀ e, OnlyMints (inner e)) :
    BodyRelation (fun x _ => OnlyMints x) scope scope inner inner where
  pure := .pure
  bind first rest := first.bind rest
  inside := mints
  name _ := moves_value fun _ isExpansion => nomatch isExpansion
  parameter _ := .throw _
  predicate _ := .throw _

theorem onlyMints_items (mints : ∀ e, OnlyMints (inner e)) (me : Uri) (is : List Item) :
    OnlyMints (items scope inner me is) := (onlyMints_body mints).items me is

end Body

/-- An expansion moves the stack around it to get its identity, and in no other way: the expansions inside
it, which only mint, are worked out one level deeper. -/
theorem moves_evaluateAt {R : SelfStack → SelfStack → Prop} [IsPreorder SelfStack R] {scope : Scope}
    (depth : Nat) {e : Expansion} (identity : Moves R (identityOf scope e)) :
    Moves R (evaluateAt scope depth e) := by
  -- the relation is general, for what is inside only mints whatever is asked of the outside
  induction depth generalizing R e with
  | zero =>
      unfold evaluateAt
      exact (moves_prepare identity).bind fun prepared => .throw _
  | succ depth ih =>
      have inside : ∀ x, OnlyMints (evaluateAt scope depth x) := fun x => ih (onlyMints_identityOf scope x)
      unfold evaluateAt
      refine (moves_prepare identity).bind fun (me, body) => ?_
      refine Moves.within ?_ me
      refine (onlyMints_items inside me body).bind fun out => ?_
      exact (Moves.ofExcept _).bind fun triples => .pure _

theorem moves_evaluate {R : SelfStack → SelfStack → Prop} [IsPreorder SelfStack R] {scope : Scope}
    {e : Expansion} (identity : Moves R (identityOf scope e)) : Moves R (evaluate scope e) :=
  fun s => moves_evaluateAt (scope.limit - s.depth) identity s

theorem onlyMints_evaluateAt (scope : Scope) (depth : Nat) (e : Expansion) :
    OnlyMints (evaluateAt scope depth e) := moves_evaluateAt depth (onlyMints_identityOf scope e)

theorem onlyMints_evaluate (scope : Scope) (e : Expansion) : OnlyMints (evaluate scope e) :=
  moves_evaluate (onlyMints_identityOf scope e)

end Expansion

namespace Form

open Eval

/-! ## Forms -/

/-- The expansions that a form works out: the form, or what stands in its positions. -/
def evaluated : Form → List Expansion
  | .assignment name e _ => (nameAfter name e).expansion?.toList
  | .expansion e => [e]
  | .triple subject predicate object _ =>
    subject.expansion?.toList ++ (predicate.expansion?.toList ++ object.expansion?.toList)
  | _ => []

section Moves

variable {R : SelfStack → SelfStack → Prop} [IsPreorder SelfStack R] {scope : Scope}

theorem moves_value {e : Expr}
    (inside : ∀ x ∈ e.expansion?.toList, Moves R (Expansion.evaluate scope x)) :
    Moves R (value scope e) :=
  Expansion.moves_value fun x isExpansion => inside x (Option.mem_toList.mpr isExpansion)

/-- A form moves the stack as the expansions do that it works out, also where it fails halfway. -/
theorem moves_step {form : Form}
    (inside : ∀ e ∈ form.evaluated, Moves R (Expansion.evaluate scope e)) :
    Moves R (form.step scope) := by
  cases form with
  | assignment name e location =>
      unfold step assign
      refine (Moves.ofExcept _).bind fun key => ?_
      refine (moves_value inside).bind fun (v, triples) => ?_
      exact (Moves.ofExcept _).bind fun after => .pure _
  | template t =>
      refine Moves.currentSelf.bind fun me => ?_
      exact (Moves.ofExcept _).bind fun (id, after) => .pure _
  | expansion e => exact (inside e List.mem_cons_self).bind fun out => .pure _
  | triple subject predicate object location =>
      simp only [evaluated, List.forall_mem_append] at inside
      unfold step state
      refine (moves_value inside.1).bind fun (s, first) => ?_
      refine (Moves.ofExcept _).bind fun s => ?_
      refine (moves_value inside.2.1).bind fun (p, second) => ?_
      refine (Moves.ofExcept _).bind fun p => ?_
      exact (moves_value inside.2.2).bind fun (o, third) => .pure _
  | bindPrefix symbol ns location => exact (Moves.ofExcept _).bind fun after => .pure _
  | defaultPrefix symbol location => exact (Moves.ofExcept _).bind fun after => .pure _
  | imports path location => exact .pure _

end Moves

theorem onlyMints_step (scope : Scope) (form : Form) : OnlyMints (form.step scope) :=
  moves_step fun e _ => Expansion.onlyMints_evaluate scope e

end Form

end Stencil
