/- # Proofs.Isolation -- a program without the forms that failed does the same

A form that fails is recorded and the next one runs. Deleting it from the program changes nothing else,
provided that it took no anonymous identity with it: the numbers of those are used up for good, and the
forms behind would be numbered differently. The top level gives one out for an expansion without a name
that is the form itself or stands in a triple (`Form.asksIdentity`); a failing form of any other kind
leaves the environment exactly as it was (`evaluate_error_eq`), at any depth of expansions and whatever
is on their stack, because an expansion with a name hides what is given out inside it (`Eval.Keeps`).

The two runs, with the failing forms and without them, are compared form by form (`interpret_concat`).
They differ in the failures they have recorded and in nothing that a form looks at (`Quieter`), so they
go on in lockstep (`interpret_withoutFailing`).
-/
import Stencil.Proofs.Atomicity
import Stencil.Proofs.Lockstep
import Stencil.Proofs.Moments

namespace Stencil
set_option autoImplicit false

/-! ## Computations that give out no identity -/

namespace Eval

/-- However the computation ends, the stack of expansions is what it was, with all its counts. -/
def Keeps {α : Type} (x : Eval α) : Prop := Moves (· = ·) x

end Eval

open Eval

/-- An expansion with a name gives out nothing around it. -/
theorem Expansion.keeps_evaluate (scope : Scope) {e : Expansion} (named : e.name.isSome) :
    Keeps (evaluate scope e) := moves_evaluate (moves_identityOf_of_name named)

/-! ## Forms that ask for no identity -/

/-- An expansion without a name. -/
def Expr.unnamed : Expr → Bool
  | .expansion e => e.name.isNone
  | _ => false

namespace Form

/-- Whether the top level is to give out an identity: the form is an expansion without a name, or a
triple with one in a position. An expansion that is assigned has the name of the target. -/
def asksIdentity : Form → Bool
  | .expansion e => e.name.isNone
  | .triple subject predicate object _ =>
    subject.unnamed || predicate.unnamed || object.unnamed
  | _ => false

theorem unnamed_nameAfter (target : Name) (e : Expr) : (nameAfter target e).unnamed = false := by
  cases e with
  | expansion e =>
      obtain ⟨name, template, arguments, body, location⟩ := e
      cases name <;> rfl
  | _ => rfl

theorem isSome_name_of_unnamed {e : Expr} (named : e.unnamed = false) {x : Expansion}
    (isExpansion : x ∈ e.expansion?.toList) : x.name.isSome := by
  cases e with
  | expansion y =>
      have same : x = y := List.mem_singleton.mp isExpansion
      simpa [Expr.unnamed, same, Option.isSome_iff_ne_none] using named
  | _ => cases isExpansion

/-- If no identity is asked for, the expansions that the form works out have names. -/
theorem isSome_name_of_evaluated {form : Form} (silent : form.asksIdentity = false) :
    ∀ e ∈ form.evaluated, e.name.isSome := by
  cases form with
  | assignment name e location => exact fun x => isSome_name_of_unnamed (unnamed_nameAfter name e)
  | expansion e => simpa [evaluated, asksIdentity, Option.isSome_iff_ne_none] using silent
  | triple subject predicate object location =>
      simp only [asksIdentity, Bool.or_eq_false_iff] at silent
      obtain ⟨⟨first, second⟩, third⟩ := silent
      simp only [evaluated, List.forall_mem_append]
      exact ⟨fun x => isSome_name_of_unnamed first, fun x => isSome_name_of_unnamed second,
        fun x => isSome_name_of_unnamed third⟩
  | _ => exact List.forall_mem_nil _

/-- A form that asks for no identity leaves the stack with its counts, also where it fails halfway. -/
theorem keeps_step (scope : Scope) {form : Form} (silent : form.asksIdentity = false) :
    Keeps (form.step scope) :=
  moves_step fun e listed => Expansion.keeps_evaluate scope (isSome_name_of_evaluated silent e listed)

end Form

namespace Environment

/-- A failing form that asks for no identity leaves the environment exactly as it was. -/
theorem evaluate_error_eq {env after : Environment} {form : Form} {e : Error}
    (silent : form.asksIdentity = false) (failed : env.evaluate form = (.error e, after)) :
    after = env := by
  unfold evaluate evaluateWith at failed
  split at failed
  · exact importWith_error failed
  · have kept := Form.keeps_step env.scope silent env.selves
    unfold perform at failed
    split at failed
    · rename_i cause selves worked
      rw [worked] at kept
      cases failed
      cases kept
      rfl
    · cases failed

/-! ## One more form -/

/-- What a program comes to when a form behind it, at an index, came to something. -/
def followed (index : Nat) (form : Form) (last : Option Value) :
    Except Error (Option Value) × Environment → Option Value × Environment
  | (.ok v, after) => (v.or last, after)
  | (.error e, after) => (last, after.record index form e)

theorem runForms_concat (run : Environment → List Form → Option Value × Environment) (index : Nat)
    (last : Option Value) (env : Environment) (forms : List Form) (form : Form) :
    runForms run index last env (forms ++ [form]) =
      followed (index + forms.length) form (runForms run index last env forms).1
        ((runForms run index last env forms).2.evaluateWith run form) := by
  induction forms generalizing index last env with
  | nil =>
      simp only [List.nil_append, runForms, List.length_nil, Nat.add_zero]
      split <;> rename_i evaluated <;> rw [evaluated] <;> rfl
  | cons first forms ih =>
      have later : index + (first :: forms).length = index + 1 + forms.length := by
        simp only [List.length_cons]
        omega
      rw [later, List.cons_append, runForms, runForms]
      split <;> exact ih _ _ _

/-- A program is run by running all its forms but the last, and then the last. -/
theorem interpret_concat (env : Environment) (forms : List Form) (form : Form) :
    env.interpret (forms ++ [form]) =
      followed forms.length form (env.interpret forms).1
        ((env.interpret forms).2.evaluate form) := by
  have sameDepth : (env.interpret forms).2.importDepth = env.importDepth := by
    rw [importDepth, (respected_imports.interpret env forms).1, importDepth]
  have one := runForms_concat (interpretAt env.importDepth) 0 none env forms form
  rw [Nat.zero_add] at one
  rw [evaluate, sameDepth]
  exact one

/-! ## Deleting what fails -/

/-- Whether a form fails when a run has come to it through earlier ones. -/
def failsAfter (env : Environment) (earlier : List Form) (form : Form) : Bool :=
  !((env.interpret earlier).2.evaluate form).1.isOk

/-- Forms that follow earlier ones in a program, without those that fail when the run reaches them. -/
def withoutFailing (env : Environment) (earlier : List Form) : List Form → List Form
  | [] => []
  | form :: later =>
    if env.failsAfter earlier form then env.withoutFailing (earlier ++ [form]) later
    else form :: env.withoutFailing (earlier ++ [form]) later

/-- The second environment is the first, less some of the failures that were recorded. -/
def Quieter (a b : Environment) : Prop :=
  ∃ failures, b = { a with failures } ∧ failures.Sublist a.failures

theorem Quieter.refl (env : Environment) : env.Quieter env :=
  ⟨env.failures, rfl, List.Sublist.refl _⟩

theorem Quieter.record {a b : Environment} (quieter : a.Quieter b) (index : Nat) (form : Form)
    (e : Error) : (a.record index form e).Quieter b := by
  obtain ⟨failures, rfl, fewer⟩ := quieter
  exact ⟨failures, rfl, fewer.trans (List.sublist_append_left _ _)⟩

theorem lockstep_quieter : Lockstep Quieter where
  modules := by
    rintro a b ⟨failures, rfl, -⟩
    rfl
  importing := by
    rintro a b ⟨failures, rfl, -⟩
    rfl
  perform := by
    rintro a b ⟨failures, rfl, fewer⟩ form
    simp only [perform]
    split
    · exact ⟨rfl, failures, rfl, fewer⟩
    · exact ⟨rfl, failures, rfl, fewer⟩
  record := by
    rintro a b ⟨failures, rfl, fewer⟩ index form e
    exact ⟨_, rfl, fewer.append (List.Sublist.refl _)⟩
  stacked := by
    rintro a b ⟨failures, rfl, fewer⟩ paths
    exact ⟨failures, rfl, fewer⟩

section Deleting

variable {env : Environment} {earlier kept : List Form} {form : Form}

/-- A form that fails may be left out of the second run. -/
theorem alike_skip (alike : Alike Quieter (env.interpret earlier) (env.interpret kept))
    (fails : env.failsAfter earlier form = true) (silent : form.asksIdentity = false) :
    Alike Quieter (env.interpret (earlier ++ [form])) (env.interpret kept) := by
  rw [interpret_concat]
  unfold failsAfter at fails
  cases evaluated : (env.interpret earlier).2.evaluate form with
  | mk answer after =>
      cases answer with
      | ok v => simp [evaluated, Except.isOk, Except.toBool] at fails
      | error e =>
          rw [evaluate_error_eq silent evaluated]
          exact ⟨alike.1, alike.2.record _ form e⟩

/-- A form that does not fail does the same in both runs. -/
theorem alike_keep (alike : Alike Quieter (env.interpret earlier) (env.interpret kept))
    (works : ¬ env.failsAfter earlier form = true) :
    Alike Quieter (env.interpret (earlier ++ [form])) (env.interpret (kept ++ [form])) := by
  obtain ⟨sameAnswer, quieter⟩ := lockstep_quieter.evaluate alike.2 form
  rw [interpret_concat, interpret_concat]
  unfold failsAfter at works
  cases first : (env.interpret earlier).2.evaluate form with
  | mk answer after =>
      cases second : (env.interpret kept).2.evaluate form with
      | mk answer' after' =>
          rw [first, second] at sameAnswer quieter
          subst sameAnswer
          cases answer' with
          | ok v => exact ⟨congrArg v.or alike.1, quieter⟩
          | error e => simp [first, Except.isOk, Except.toBool] at works

/-- The run of a program and the run without its failing forms stay alike up to the end. -/
theorem interpret_withoutFailing (later : List Form)
    (alike : Alike Quieter (env.interpret earlier) (env.interpret kept))
    (silent : ∀ before form behind, later = before ++ form :: behind →
      env.failsAfter (earlier ++ before) form = true → form.asksIdentity = false) :
    Alike Quieter (env.interpret (earlier ++ later))
      (env.interpret (kept ++ env.withoutFailing earlier later)) := by
  induction later generalizing earlier kept with
  | nil => simpa [withoutFailing] using alike
  | cons form later ih =>
      have rest : ∀ before form' behind, later = before ++ form' :: behind →
          env.failsAfter (earlier ++ [form] ++ before) form' = true →
          form'.asksIdentity = false := by
        intro before form' behind split fails
        refine silent (form :: before) form' behind (by rw [split]; rfl) ?_
        rwa [List.append_assoc] at fails
      rw [withoutFailing, List.append_cons earlier form later]
      split
      · rename_i fails
        refine ih (alike_skip alike fails ?_) rest
        exact silent [] form later rfl (by rwa [List.append_nil])
      · rename_i works
        rw [List.append_cons kept]
        exact ih (alike_keep alike works) rest

end Deleting

/-- **Forms are isolated from each other.** Delete from a program every form that fails when the run
reaches it. If none of these is an expansion without a name or a triple with one in a position, then
the rest of the program has the same value and ends in the same environment but for the failures; and
what it records are failures that the whole program records as well. -/
theorem failing_forms_deletable (env : Environment) (forms : List Form)
    (silent : ∀ earlier form later, forms = earlier ++ form :: later →
      env.failsAfter earlier form = true → form.asksIdentity = false) :
    (env.interpret (env.withoutFailing [] forms)).1 = (env.interpret forms).1 ∧
      (env.interpret (env.withoutFailing [] forms)).2 =
        { (env.interpret forms).2 with
          failures := (env.interpret (env.withoutFailing [] forms)).2.failures } ∧
      (env.interpret (env.withoutFailing [] forms)).2.failures.Sublist
        (env.interpret forms).2.failures := by
  have start : Alike Quieter (env.interpret []) (env.interpret []) := ⟨rfl, .refl _⟩
  obtain ⟨answer, failures, same, fewer⟩ := interpret_withoutFailing forms start silent
  simp only [List.nil_append] at answer same fewer
  refine ⟨answer, ?_, ?_⟩
  · rw [same]
  · rw [same]
    exact fewer

/-- Bind the symbol `a` to a truth value. -/
def bindA (b : Bool) : Form := .assignment (.ofSymbol "a") (.literal (.boolean b)) {}

/-- Define a template without parameters, base and body. -/
def defineT : Form := .template ⟨.ofUri ⟨"t"⟩, [], none, [], {}⟩

/-- Expand it without a name. -/
def expandT : Form := .expansion ⟨none, .name (.ofUri ⟨"t"⟩), [], [], {}⟩

/-- The third form is refused, and it is the only one. An anonymous expansion follows it, which has the
same number whether the third form is there or not. -/
theorem refused_rebinding_deletable :
    (∀ earlier form later, [defineT, bindA true, bindA false, expandT] = earlier ++ form :: later →
        failsAfter {} earlier form = true → form.asksIdentity = false) ∧
      withoutFailing {} [] [defineT, bindA true, bindA false, expandT] =
        [defineT, bindA true, expandT] ∧
      (interpret {} [defineT, bindA true, expandT]).1 =
        (interpret {} [defineT, bindA true, bindA false, expandT]).1 ∧
      (interpret {} [defineT, bindA true, bindA false, expandT]).2 =
        { (interpret {} [defineT, bindA true, expandT]).2 with
          failures := (interpret {} [defineT, bindA true, bindA false, expandT]).2.failures } := by
  have silent : ∀ earlier form later,
      [defineT, bindA true, bindA false, expandT] = earlier ++ form :: later →
      failsAfter {} earlier form = true → form.asksIdentity = false := by
    intro earlier form later split fails
    -- only the last form asks for an identity, and it does not fail
    match earlier with
    | [] =>
        cases split
        rfl
    | [_] =>
        cases split
        rfl
    | [_, _] =>
        cases split
        rfl
    | [_, _, _] =>
        cases split
        exact absurd fails (by decide +kernel)
    | _ :: _ :: _ :: _ :: _ => simp at split
  have deleted : withoutFailing {} [] [defineT, bindA true, bindA false, expandT] =
      [defineT, bindA true, expandT] := rfl
  obtain ⟨answer, same, -⟩ := failing_forms_deletable {} _ silent
  rw [deleted] at answer same
  refine ⟨silent, deleted, answer, ?_⟩
  rw [same]

end Environment

end Stencil
