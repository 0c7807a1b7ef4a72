/- # Proofs.Moments -- a run as a sequence of moments

Running forms is a recursion: an import runs another program before the next form gets its turn. Here
the same run is written out as a machine that goes from one moment to the next (`Moment.next?`). A
moment holds the environment, the program at hand and the programs around it that wait for an import
to end, so that "at every moment of a run" and "a run comes to its end" can be said at all.

`interpret_steps` ties the two together: the machine, started on a program, stops with exactly what
`interpret` answers. The bound that `interpret` puts on the depth of imports is therefore never what
ends a run: an import opens a path that is not open yet, so the paths that can still be opened
(`unopened`) become fewer with each level.
-/
import Mathlib.Logic.Relation
import Stencil.Proofs.Run

namespace Stencil
set_option autoImplicit false

namespace Environment

/-! ## Opening a module -/

/-- The module that a form starts: the path it imports, when that is supplied and not being imported
already, with the forms of that path. -/
def opens? (env : Environment) : Form → Option (String × List Form)
  | .imports path _ =>
    if path ∈ env.importing then none
    else (env.modules.bind fun modules => modules.programs.lookup path).map fun forms => (path, forms)
  | _ => none

/-- The environment in which the forms of a path run. -/
def opening (env : Environment) (path : String) : Environment :=
  { env with importing := env.importing ++ [path] }

/-- The environment when the forms of the last path have been run. -/
def closing (env : Environment) : Environment :=
  { env with importing := env.importing.dropLast }

theorem opens?_eq_some {env : Environment} {form : Form} {path : String} {forms : List Form}
    (opens : env.opens? form = some (path, forms)) :
    (∃ location, form = .imports path location) ∧ path ∉ env.importing ∧
      ∃ modules, env.modules = some modules ∧ modules.programs.lookup path = some forms := by
  cases form with
  | imports other location =>
      simp only [opens?] at opens
      split at opens
      · cases opens
      · rename_i closed
        obtain ⟨found, supplied, same⟩ := Option.map_eq_some_iff.mp opens
        cases same
        obtain ⟨modules, offered, listed⟩ := Option.bind_eq_some_iff.mp supplied
        exact ⟨⟨location, rfl⟩, closed, modules, offered, listed⟩
  | _ => cases opens

/-- A form that opens a module comes to what running the module comes to. -/
theorem evaluateWith_of_opens (run : Environment → List Form → Option Value × Environment)
    {env : Environment} {form : Form} {path : String} {forms : List Form}
    (opens : env.opens? form = some (path, forms)) :
    env.evaluateWith run form =
      (.ok (run (env.opening path) forms).1, (run (env.opening path) forms).2.closing) := by
  obtain ⟨⟨location, rfl⟩, closed, modules, offered, listed⟩ := opens?_eq_some opens
  simp only [evaluateWith, importWith]
  split
  · rename_i absent
    rw [offered] at absent
    cases absent
  · rename_i found
    rw [offered] at found
    cases found
    rw [if_neg closed, listed]
    rfl

/-- A form that opens no module, however programs run, is an import that is skipped or refused and
changes nothing, or it is performed. -/
theorem evaluateWith_of_not_opens {env : Environment} {form : Form}
    (opens : env.opens? form = none) :
    (∃ path location, form = .imports path location ∧
        ((∀ run, env.evaluateWith run form = (.ok none, env)) ∨
          ∃ problem, ∀ run, env.evaluateWith run form =
            (.error (.environment (.importFailed path problem)), env))) ∨
      ∀ run, env.evaluateWith run form = env.perform form := by
  cases form with
  | imports path location =>
      refine Or.inl ⟨path, location, rfl, ?_⟩
      cases offered : env.modules with
      | none => exact Or.inl fun run => by simp only [evaluateWith, importWith, offered]
      | some modules =>
          refine Or.inr ?_
          by_cases held : path ∈ env.importing
          · refine ⟨.cycle env.importing, fun run => ?_⟩
            simp only [evaluateWith, importWith, offered, if_pos held]
          · have missing : modules.programs.lookup path = none := by
              simpa [opens?, held, offered] using opens
            refine ⟨.refused (modules.refusal path), fun run => ?_⟩
            simp only [evaluateWith, importWith, offered, if_neg held, missing]
  | _ => exact Or.inr fun run => rfl

/-- A run neither takes the modules away nor leaves a path open or closed. -/
theorem respected_imports :
    Respected fun env after => after.modules = env.modules ∧ after.importing = env.importing where
  refl _ := ⟨rfl, rfl⟩
  trans first second := ⟨second.1.trans first.1, second.2.trans first.2⟩
  perform env form := by
    unfold perform
    split <;> exact ⟨rfl, rfl⟩
  record _ _ _ _ := ⟨rfl, rfl⟩
  through env path after inside := by
    obtain ⟨modules, importing⟩ := inside
    refine ⟨modules, ?_⟩
    rw [importing, List.dropLast_concat]

/-! ## Paths that can be opened -/

/-- The paths that the host supplies, each once. -/
def supplied (env : Environment) : List String :=
  firstSeen ((env.modules.getD {}).programs.map Prod.fst)

/-- How many of the programs of the host have a path that is not being imported. -/
def unopened (env : Environment) : Nat :=
  (env.modules.getD {}).programs.countP fun program => program.1 ∉ env.importing

theorem unopened_le_importDepth (env : Environment) : env.unopened ≤ env.importDepth :=
  List.countP_le_length

theorem unopened_congr {env after : Environment} (modules : after.modules = env.modules)
    (importing : after.importing = env.importing) : after.unopened = env.unopened := by
  rw [unopened, unopened, modules, importing]

theorem mem_supplied_of_opens {env : Environment} {form : Form} {path : String} {forms : List Form}
    (opens : env.opens? form = some (path, forms)) : path ∈ env.supplied := by
  obtain ⟨_, _, modules, offered, listed⟩ := opens?_eq_some opens
  obtain ⟨before, after, split, _⟩ := List.lookup_eq_some_iff.mp listed
  rw [supplied, mem_firstSeen, offered, Option.getD_some, split]
  simp

/-- Opening a path leaves fewer paths to open. -/
theorem unopened_opening_lt {env : Environment} {form : Form} {path : String} {forms : List Form}
    (opens : env.opens? form = some (path, forms)) : (env.opening path).unopened < env.unopened := by
  obtain ⟨_, closed, modules, offered, listed⟩ := opens?_eq_some opens
  obtain ⟨before, after, split, _⟩ := List.lookup_eq_some_iff.mp listed
  have fewer : ∀ programs : List (String × List Form),
      programs.countP (fun program => decide (program.1 ∉ env.importing ++ [path])) ≤
        programs.countP fun program => decide (program.1 ∉ env.importing) := by
    intro programs
    apply List.countP_mono_left
    intro program _ free
    simp only [List.mem_append, not_or, decide_eq_true_eq] at free ⊢
    exact free.1
  have first := fewer before
  have second := fewer after
  simp only [unopened, opening, offered, Option.getD_some, split, List.countP_append,
    List.countP_cons, closed, List.mem_append, List.mem_singleton] at first second ⊢
  simp only [not_false_eq_true, decide_true, or_true, not_true_eq_false, decide_false, if_true,
    Bool.false_eq_true, if_false]
  omega

end Environment

/-! ## Moments -/

open Environment

/-- A program under way: the index of its next form, its last value so far, and the forms to come.
-/
structure Underway where
  index : Nat := 0
  last : Option Value := none
  forms : List Form

/-- A moment of a run: the environment, the program at hand, and the programs around it, the nearest
first, each of them behind the import that it waits for. -/
structure Moment where
  env : Environment
  program : Underway
  around : List Underway := []

namespace Moment

/-- The moment at which a program starts. -/
def start (env : Environment) (forms : List Form) : Moment := ⟨env, { forms }, []⟩

/-- The moment after a form, the first of a program, came to something: a value becomes the last one,
an error is recorded. -/
def settled (form : Form) (rest : Underway) (around : List Underway) :
    Except Error (Option Value) × Environment → Moment
  | (.ok v, after) => ⟨after, ⟨rest.index + 1, v.or rest.last, rest.forms⟩, around⟩
  | (.error e, after) =>
    ⟨after.record rest.index form e, ⟨rest.index + 1, rest.last, rest.forms⟩, around⟩

/-- The next moment, if the run is not at its end. A program that has come to its end hands its last
value to the one around it; a form that opens a module makes the program wait; any other form is
evaluated in one step, in which no program runs. -/
def next? : Moment → Option Moment
  | ⟨_, ⟨_, _, []⟩, []⟩ => none
  | ⟨env, ⟨_, last, []⟩, outer :: around⟩ =>
    some ⟨env.closing, { outer with last := last.or outer.last }, around⟩
  | ⟨env, ⟨index, last, form :: forms⟩, around⟩ =>
    match env.opens? form with
    | some (path, inner) =>
      some ⟨env.opening path, { forms := inner }, ⟨index + 1, last, forms⟩ :: around⟩
    | none =>
      some (settled form ⟨index, last, forms⟩ around
        (env.evaluateWith (fun env _ => (none, env)) form))

/-- All that can happen from one moment to the next. -/
inductive Next : Moment → Moment → Prop
  | returned {env : Environment} {index : Nat} {last : Option Value} {outer : Underway}
      {around : List Underway} :
      Next ⟨env, ⟨index, last, []⟩, outer :: around⟩
        ⟨env.closing, { outer with last := last.or outer.last }, around⟩
  | opened {env : Environment} {index : Nat} {last : Option Value} {form : Form}
      {forms inner : List Form} {path : String} {around : List Underway}
      (opens : env.opens? form = some (path, inner)) :
      Next ⟨env, ⟨index, last, form :: forms⟩, around⟩
        ⟨env.opening path, { forms := inner }, ⟨index + 1, last, forms⟩ :: around⟩
  | skipped {env : Environment} {index : Nat} {last : Option Value} {path : String}
      {location : Location} {forms : List Form} {around : List Underway} :
      Next ⟨env, ⟨index, last, .imports path location :: forms⟩, around⟩
        ⟨env, ⟨index + 1, last, forms⟩, around⟩
  | refused {env : Environment} {index : Nat} {last : Option Value} {path : String}
      {location : Location} {problem : ImportProblem} {forms : List Form} {around : List Underway} :
      Next ⟨env, ⟨index, last, .imports path location :: forms⟩, around⟩
        ⟨env.record index (.imports path location) (.environment (.importFailed path problem)),
          ⟨index + 1, last, forms⟩, around⟩
  | performed {env after : Environment} {index : Nat} {last v : Option Value} {form : Form}
      {forms : List Form} {around : List Underway} (done : env.perform form = (.ok v, after)) :
      Next ⟨env, ⟨index, last, form :: forms⟩, around⟩
        ⟨after, ⟨index + 1, v.or last, forms⟩, around⟩
  | failed {env after : Environment} {index : Nat} {last : Option Value} {form : Form} {e : Error}
      {forms : List Form} {around : List Underway} (failed : env.perform form = (.error e, after)) :
      Next ⟨env, ⟨index, last, form :: forms⟩, around⟩
        ⟨after.record index form e, ⟨index + 1, last, forms⟩, around⟩

theorem next_of_next? {m n : Moment} (stepped : m.next? = some n) : m.Next n := by
  obtain ⟨env, ⟨index, last, forms⟩, around⟩ := m
  cases forms with
  | nil =>
      cases around with
      | nil => cases stepped
      | cons outer around =>
          cases stepped
          exact .returned
  | cons form forms =>
      rw [next?] at stepped
      split at stepped
      · rename_i path inner opens
        cases stepped
        exact .opened opens
      · rename_i opens
        cases stepped
        rcases evaluateWith_of_not_opens opens with
          ⟨path, location, rfl, same | ⟨problem, same⟩⟩ | same
        · rw [same]
          exact .skipped
        · rw [same]
          exact .refused
        · rw [same]
          cases result : env.perform form with
          | mk answer after =>
              cases answer with
              | ok v => exact .performed result
              | error e => exact .failed result

/-- From one moment to a later one of the same run. -/
abbrev Steps : Moment → Moment → Prop := Relation.ReflTransGen fun m n => m.next? = some n

/-- What is respected by runs, and by opening and closing a module, holds from each moment to the
next. -/
theorem Next.respects {R : Environment → Environment → Prop} (respected : Respected R)
    (opening : ∀ env path, R env (env.opening path)) (closing : ∀ env, R env env.closing)
    {m n : Moment} (next : m.Next n) : R m.env n.env := by
  cases next with
  | returned => exact closing _
  | opened opens => exact opening _ _
  | skipped => exact respected.refl _
  | refused => exact respected.record _ _ _ _
  | @performed env after _ _ _ form _ _ done =>
      have one := respected.perform env form
      rw [done] at one
      exact one
  | @failed env after _ _ form _ _ _ failed =>
      have one := respected.perform env form
      rw [failed] at one
      exact respected.trans one (respected.record _ _ _ _)

theorem Steps.respects {R : Environment → Environment → Prop} (respected : Respected R)
    (opening : ∀ env path, R env (env.opening path)) (closing : ∀ env, R env env.closing)
    {m n : Moment} (steps : m.Steps n) : R m.env n.env := by
  induction steps with
  | refl => exact respected.refl _
  | tail _ stepped ih =>
      exact respected.trans ih ((next_of_next? stepped).respects respected opening closing)

/-- The first moments of a run, so many at most. -/
def trace : Nat → Moment → List Moment
  | 0, _ => []
  | count + 1, m => m :: (m.next?.map (trace count)).getD []

/-! ## The machine runs programs -/

section Running

variable {run : Environment → List Form → Option Value × Environment}

theorem runForms_cons (index : Nat) (last : Option Value) (env : Environment) (form : Form)
    (forms : List Form) (around : List Underway) {m : Moment}
    (next : settled form ⟨index, last, forms⟩ around (env.evaluateWith run form) = m) :
    runForms run index last env (form :: forms) =
      runForms run m.program.index m.program.last m.env m.program.forms := by
  subst next
  rw [runForms]
  split <;> rename_i evaluated <;> rw [evaluated] <;> rfl

/-- A form is evaluated in one step or, when it opens a module, in the steps of that module with one
step before and one behind. -/
theorem steps_settled {env : Environment} {form : Form}
    (nested : ∀ path forms around, env.opens? form = some (path, forms) → ∃ index,
      Steps ⟨env.opening path, { forms }, around⟩
        ⟨(run (env.opening path) forms).2, ⟨index, (run (env.opening path) forms).1, []⟩, around⟩)
    (index : Nat) (last : Option Value) (forms : List Form) (around : List Underway) :
    Steps ⟨env, ⟨index, last, form :: forms⟩, around⟩
      (settled form ⟨index, last, forms⟩ around (env.evaluateWith run form)) := by
  cases opens : env.opens? form with
  | none =>
      refine .single ?_
      rw [next?, opens]
      rcases evaluateWith_of_not_opens opens with ⟨_, _, _, same | ⟨_, same⟩⟩ | same
      all_goals simp only [same]
  | some module =>
      obtain ⟨path, inner⟩ := module
      obtain ⟨final, inside⟩ := nested path inner (⟨index + 1, last, forms⟩ :: around) opens
      refine .head ?_ (inside.tail ?_)
      · rw [next?, opens]
      · rw [next?, evaluateWith_of_opens run opens]
        rfl

theorem steps_runForms {depth : Nat}
    (runs : ∀ (env : Environment) forms, (run env forms).2.modules = env.modules ∧
      (run env forms).2.importing = env.importing)
    (nested : ∀ (env : Environment) form path forms around, env.unopened ≤ depth →
      env.opens? form = some (path, forms) → ∃ index,
        Steps ⟨env.opening path, { forms }, around⟩
          ⟨(run (env.opening path) forms).2, ⟨index, (run (env.opening path) forms).1, []⟩, around⟩)
    {env : Environment} (enough : env.unopened ≤ depth) (program : Underway)
    (around : List Underway) :
    ∃ index, Steps ⟨env, program, around⟩
      ⟨(runForms run program.index program.last env program.forms).2,
        ⟨index, (runForms run program.index program.last env program.forms).1, []⟩, around⟩ := by
  obtain ⟨index, last, forms⟩ := program
  induction forms generalizing index last env with
  | nil => exact ⟨index, .refl⟩
  | cons form forms ih =>
      have first := steps_settled (fun path inner around => nested env form path inner around enough)
        index last forms around
      have same := respected_imports.evaluateWith runs env form
      rw [runForms_cons index last env form forms around rfl]
      cases evaluated : env.evaluateWith run form with
      | mk answer after =>
          rw [evaluated] at first same
          have still : after.unopened ≤ depth := by
            rw [unopened_congr same.1 same.2]
            exact enough
          cases answer with
          | ok v =>
              obtain ⟨final, rest⟩ := ih still (index + 1) (v.or last)
              exact ⟨final, first.trans rest⟩
          | error e =>
              have recorded : (after.record index form e).unopened ≤ depth := still
              obtain ⟨final, rest⟩ := ih recorded (index + 1) last
              exact ⟨final, first.trans rest⟩

end Running

/-- A program whose imports are nested no deeper than there are paths to open runs to its end. -/
theorem steps_interpretAt {depth : Nat} {env : Environment} (enough : env.unopened ≤ depth)
    (program : Underway) (around : List Underway) :
    ∃ index, Steps ⟨env, program, around⟩
      ⟨(runForms (interpretAt depth) program.index program.last env program.forms).2,
        ⟨index, (runForms (interpretAt depth) program.index program.last env program.forms).1, []⟩,
        around⟩ := by
  induction depth generalizing env program around with
  | zero =>
      refine steps_runForms (respected_imports.interpretAt 0) ?_ enough program around
      intro env form path forms around none opens
      have fewer := unopened_opening_lt opens
      omega
  | succ depth ih =>
      refine steps_runForms (respected_imports.interpretAt (depth + 1)) ?_ enough program around
      intro env form path forms around some opens
      have fewer := unopened_opening_lt opens
      exact ih (by omega) { forms } around

/-- The machine gets past a form with what `evaluate` answers, also where the form is in a module. -/
theorem evaluate_steps (env : Environment) (form : Form) (index : Nat) (last : Option Value)
    (forms : List Form) (around : List Underway) :
    Steps ⟨env, ⟨index, last, form :: forms⟩, around⟩
      (settled form ⟨index, last, forms⟩ around (env.evaluate form)) := by
  refine steps_settled ?_ index last forms around
  intro path inner around opens
  have fewer := unopened_opening_lt opens
  have most := env.unopened_le_importDepth
  obtain ⟨depth, deep⟩ : ∃ depth, env.importDepth = depth + 1 := ⟨env.importDepth - 1, by omega⟩
  rw [deep]
  exact steps_interpretAt (by omega) { forms := inner } around

/-- The machine stops with what `interpret` answers. -/
theorem interpret_steps (env : Environment) (forms : List Form) :
    ∃ index, Steps (start env forms)
      ⟨(env.interpret forms).2, ⟨index, (env.interpret forms).1, []⟩, []⟩ :=
  steps_interpretAt env.unopened_le_importDepth { forms } []

end Moment

end Stencil
