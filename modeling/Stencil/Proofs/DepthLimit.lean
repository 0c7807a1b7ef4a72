/- # Proofs.DepthLimit -- what the greatest depth of expansions does

A template may expand itself, so an expansion ends only because a limit is set to the expansions inside
each other. The limit cuts off and does nothing else (`depth_limit_cuts_off`): an expansion that is not
cut off under a limit gives the same under a greater one, counts of identities included.

That the limit holds cannot be read off the answers, so it is said in two other ways. The level of an
expansion is the number of those around it and itself, and the evaluator with a log notes here the
expansions that are entered at a given level (`enteringAt`); beyond the limit there is none. And an
expansion that is unrolled, with anything at all in the place of what is further inside (`unrolled`), is
the expansion itself once it is unrolled more often than there is depth left: the recursion of the
evaluator is at an end there.
-/
import Stencil.Proofs.Naming
import Stencil.Proofs.Persistence

namespace Stencil
set_option autoImplicit false

/-- The scope with another limit. -/
def Scope.limited (scope : Scope) (depth : UInt64) : Scope :=
  { scope with config := { scope.config with maxExpansionDepth := depth } }

/-- The environment with another limit. -/
def Environment.limited (env : Environment) (depth : UInt64) : Environment :=
  { env with scope := env.scope.limited depth }

/-- Nothing but the depth depends on the limit. -/
theorem Scope.persists_limited (scope : Scope) (low high : UInt64) (cut : Error → Prop) :
    (scope.limited low).Persists cut (scope.limited high) where
  names _ := rfl
  bodies _ _ := .refl _
  identities _ := rfl
  judgements _ _ := rfl

/-! ## Expansions that are entered at a level -/

namespace Logged

variable {α β : Type} {level depth : Nat}

/-- Note an expansion if the stack, with it on top, is as deep as the level. -/
def tellAt (level : Nat) (n : Naming) : Logged Unit :=
  ⟨pure (), fun s => if s.depth = level then [n] else []⟩

/-- From a stack of this depth nothing is noted, and a stack of this depth is left. -/
def QuietAt (depth : Nat) (x : Logged α) : Prop :=
  ∀ s : SelfStack, s.depth = depth → x.names s = [] ∧ (x.compute.run s).2.depth = depth

namespace QuietAt

theorem silent {x : Eval α} (mints : x.OnlyMints) : QuietAt depth (silent x) :=
  fun s deep => ⟨rfl, (mints s).depth.trans deep⟩

theorem tellAt (n : Naming) (other : depth ≠ level) : QuietAt depth (tellAt level n) := by
  intro s deep
  exact ⟨if_neg (deep ▸ other), deep⟩

theorem bind {x : Logged α} {rest : α → Logged β} (first : QuietAt depth x)
    (second : ∀ a, QuietAt depth (rest a)) : QuietAt depth (x >>= rest) := by
  intro s deep
  obtain ⟨nothing, kept⟩ := first s deep
  rw [names_bind, compute_bind, Eval.run_bind, nothing, List.nil_append]
  cases ran : x.compute.run s with
  | mk answer t =>
      rw [ran] at kept
      cases answer with
      | ok a => exact second a t kept
      | error e => exact ⟨rfl, kept⟩

theorem within {x : Logged α} (inside : QuietAt (depth + 1) x) (mints : x.compute.OnlyMints)
    (me : Uri) : QuietAt depth (within me x) := by
  intro s deep
  have nothing := (inside (s.push me) (by rw [SelfStack.depth_push, deep])).1
  have left : ((Eval.within me x.compute).run s).2 = s := (mints (s.push me)).pop_of_push
  exact ⟨nothing, (congrArg SelfStack.depth left).trans deep⟩

end QuietAt

end Logged

namespace Expansion

open Logged

/-- What is done inside an expansion: it is noted, its body is worked out, and its validators judge. -/
def enteredAt (scope : Scope) (level : Nat) (inner : Expansion → Logged Expanded) (e : Expansion)
    (me : Uri) (body : List Item) : Logged Expanded := do
  .tellAt level ⟨e, me⟩
  let out ← itemsLogged scope inner me body
  let triples ← .silent (Eval.ofExcept ((judge scope me out).mapError .extension))
  return ⟨me, triples⟩

/-- The evaluator that notes the expansions that are entered at a level, with so much depth left. -/
def enteringWith (scope : Scope) (level : Nat) : Nat → Expansion → Logged Expanded
  | 0, e => .silent (evaluateAt scope 0 e)
  | left + 1, e => do
    let start ← .silent (prepare scope e)
    .within start.1 (enteredAt scope level (enteringWith scope level left) e start.1 start.2)

/-- Work out an expansion, and note those that are entered at a level. -/
def enteringAt (scope : Scope) (level : Nat) (e : Expansion) : Logged Expanded := do
  let s ← .silent get
  enteringWith scope level (scope.limit - s.depth) e

section

variable (scope : Scope) (level : Nat)

theorem compute_enteredAt (inner : Expansion → Logged Expanded) (e : Expansion) (me : Uri)
    (body : List Item) : (enteredAt scope level inner e me body).compute =
      judged scope (fun e => (inner e).compute) me body := by
  unfold judged
  rw [← compute_itemsLogged]
  rfl

theorem compute_enteringWith (left : Nat) (e : Expansion) :
    (enteringWith scope level left e).compute = evaluateAt scope left e := by
  induction left generalizing e with
  | zero => rfl
  | succ left ih =>
      unfold enteringWith evaluateAt
      refine bind_congr fun start => ?_
      show Eval.within start.1 (enteredAt scope level _ e start.1 start.2).compute = _
      rw [compute_enteredAt, funext ih]
      rfl

theorem compute_enteringAt (e : Expansion) :
    (enteringAt scope level e).compute = evaluate scope e := by
  unfold enteringAt evaluate
  refine bind_congr fun s => ?_
  exact compute_enteringWith scope level (scope.limit - s.depth) e

end

/-- At a level that cannot be come to with the depth that is left, nothing is entered. -/
theorem quietAt_enteringWith (scope : Scope) {level depth left : Nat}
    (beyond : left ≠ 0 → depth + left < level) (e : Expansion) :
    QuietAt depth (enteringWith scope level left e) := by
  induction left generalizing depth e with
  | zero => exact .silent (onlyMints_evaluateAt scope 0 e)
  | succ left ih =>
      have above : depth + (left + 1) < level := beyond (Nat.succ_ne_zero left)
      have body : LoggedBody (QuietAt (depth + 1)) (enteringWith scope level left) :=
        { silent := .silent
          bind := .bind
          inside := ih fun _ => by omega }
      refine (QuietAt.silent (onlyMints_prepare scope e)).bind fun start => ?_
      refine QuietAt.within ?_ ?_ start.1
      · refine (QuietAt.tellAt _ (by omega)).bind fun _ => ?_
        refine (body.items start.1 start.2).bind fun out => ?_
        exact (QuietAt.silent (.ofExcept _)).bind fun triples => body.pure _
      · rw [compute_enteredAt, funext (compute_enteringWith scope level left)]
        exact onlyMints_judged (onlyMints_evaluateAt scope left) start.1 start.2

/-- No expansion is entered beyond the limit. -/
theorem names_enteringAt (scope : Scope) {level : Nat} (beyond : scope.limit < level) (e : Expansion)
    (s : SelfStack) : (enteringAt scope level e).names s = [] := by
  have out : scope.limit - s.depth ≠ 0 → s.depth + (scope.limit - s.depth) < level := by omega
  exact (quietAt_enteringWith scope out e s rfl).1

/-! ## Unrolling -/

/-- An expansion, with those inside it written out to so many levels. Whatever is to be done stands for
those further inside. -/
def unrolled (scope : Scope) (beyond : Expansion → Eval Expanded) : Nat → Expansion → Eval Expanded
  | 0, e => beyond e
  | levels + 1, e => prepare scope e >>= enter scope (unrolled scope beyond levels)

/-- Where it is unrolled more often than there is depth left, it does not matter what stands further
inside. -/
theorem agreesAt_unrolled (scope : Scope) (beyond : Expansion → Eval Expanded) {depth levels : Nat}
    (enough : scope.limit - depth < levels) (e : Expansion) :
    Eval.AgreesAt depth (evaluate scope e) (unrolled scope beyond levels e) := by
  induction levels generalizing depth e with
  | zero => omega
  | succ levels ih =>
      rw [evaluate_eq]
      refine (Eval.AgreesAt.refl (onlyMints_prepare scope e)).bind fun start s deep => ?_
      rw [run_enter, run_enter]
      by_cases room : s.depth < scope.limit
      · rw [if_pos room, if_pos room]
        have inside : ∀ e,
            Eval.AgreesAt (depth + 1) (evaluate scope e) (unrolled scope beyond levels e) :=
          ih (by omega)
        have same := (agreesAt_judged scope inside start.1 start.2 (s.push start.1)
          (by rw [SelfStack.depth_push, deep])).1
        rw [Eval.run_within, Eval.run_within, same, pop_judged]
        exact ⟨rfl, deep⟩
      · rw [if_neg room, if_neg room]
        exact ⟨rfl, deep⟩

end Expansion

namespace Environment

/-- **The limit only cuts off.** An expansion that is not cut off under a limit has the same result under
every greater one, triples or error, and leaves the same counts. It is never inside more expansions than
the limit allows, itself included: nothing is noted by an evaluator that does the same and notes what is
entered at a level beyond. And it comes to an end, since the evaluator can be written out, once for each
level that is left and once more, with anything in the place of what would be further inside. -/
theorem depth_limit_cuts_off (env : Environment) (e : Expansion) {low high : UInt64}
    (le : low ≤ high) :
    ((∀ limit, ((env.limited low).expand e).1 ≠ .error (.template (.depthExceeded limit))) →
        (env.limited high).expand e =
          (((env.limited low).expand e).1, ((env.limited low).expand e).2.limited high)) ∧
      (∀ level, (Expansion.enteringAt env.scope level e).compute = Expansion.evaluate env.scope e ∧
        (env.scope.limit < level → (Expansion.enteringAt env.scope level e).names env.selves = [])) ∧
      ∀ beyond levels, env.scope.limit - env.selves.depth < levels →
        (Expansion.unrolled env.scope beyond levels e).run env.selves =
          (Expansion.evaluate env.scope e).run env.selves := by
  refine ⟨?_, ?_, ?_⟩
  · intro uncut
    have deeper : (env.limited low).scope.limit ≤ (env.limited high).scope.limit :=
      UInt64.le_iff_toNat_le.mp le
    have persists : (env.limited low).scope.Persists
        (fun why => ∃ limit, why = .template (.depthExceeded limit)) (env.limited high).scope :=
      env.scope.persists_limited low high _
    refine expand_persists persists deeper (.inl ⟨_, rfl⟩) ?_
    rintro why ⟨limit, rfl⟩
    exact uncut limit
  · intro level
    exact ⟨Expansion.compute_enteringAt env.scope level e,
      fun beyond => Expansion.names_enteringAt env.scope beyond e env.selves⟩
  · intro beyond levels enough
    exact (Expansion.agreesAt_unrolled env.scope beyond enough e env.selves rfl).1

/-- A template that states `x` of every expansion, of a new expansion of another template. -/
def growing (name inside : String) : Template where
  name := .ofUri ⟨name⟩
  parameters := []
  base := none
  body := [.property ⟨.name (.ofUri ⟨"x"⟩),
    .expansion ⟨none, .name (.ofUri ⟨inside⟩), [], [], {}⟩, {}⟩]
  location := {}

/-- Expansions of `twig` have one inside, those of `vine` have no end. -/
def garden : Environment where
  scope.templates.byId :=
    [(⟨"bud"⟩, ⟨.ofUri ⟨"bud"⟩, [], none, [], {}⟩), (⟨"twig"⟩, growing "twig" "bud"),
      (⟨"vine"⟩, growing "vine" "vine")]
  scope.templates.order := [⟨"bud"⟩, ⟨"twig"⟩, ⟨"vine"⟩]

/-- An expansion of one of the templates. -/
def planted (template : String) : Expansion :=
  ⟨some (.ofUri ⟨"id"⟩), .name (.ofUri ⟨template⟩), [], [], {}⟩

theorem shallow_expansion_kept_endless_cut_off :
    (2 : UInt64) ≤ 5 ∧
      ((garden.limited 2).expand (planted "twig")).1 =
        .ok ⟨⟨"id"⟩, [⟨⟨"id"⟩, ⟨"x"⟩, .uri ⟨"id/_0"⟩⟩]⟩ ∧
      ((garden.limited 5).expand (planted "twig")).1 =
        .ok ⟨⟨"id"⟩, [⟨⟨"id"⟩, ⟨"x"⟩, .uri ⟨"id/_0"⟩⟩]⟩ ∧
      ((garden.limited 2).expand (planted "vine")).1 = .error (.template (.depthExceeded 2)) ∧
      ((Expansion.enteringAt (garden.limited 2).scope 2 (planted "vine")).names {}).map
        Naming.identity = [⟨"id/_0"⟩] ∧
      (Expansion.enteringAt (garden.limited 2).scope 3 (planted "vine")).names {} = [] := by
  have le : (2 : UInt64) ≤ 5 := by decide
  have worked : ((garden.limited 2).expand (planted "twig")).1 =
      .ok ⟨⟨"id"⟩, [⟨⟨"id"⟩, ⟨"x"⟩, .uri ⟨"id/_0"⟩⟩]⟩ := rfl
  have deeper := (depth_limit_cuts_off garden (planted "twig") le).1 (by simp [worked])
  have quiet := (depth_limit_cuts_off (garden.limited 2) (planted "vine") le).2.1 3
  refine ⟨le, worked, ?_, rfl, by decide +kernel, quiet.2 (by decide)⟩
  rw [deeper]
  exact worked

end Environment

end Stencil
