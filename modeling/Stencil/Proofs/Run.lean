/- # Proofs.Run -- operations on environments, and what a run of forms respects

A host changes an environment through a few operations (`Operation`), and the environments it can
have are those that operations make of a fresh one (`Reachable`).

Running forms comes back to itself: an imported module is a list of forms that runs in the same
environment, and it may import others. A relation between an environment and a later one is
`Respected` when it holds across each single thing that a run does, that is performing a form,
recording a failure, and going through a module whose path is put on the import stack and taken off
again. By `Respected.interpretAt` it then holds across whole runs, however deep their imports; the
induction over forms and modules is done here and nowhere else.
-/
import Stencil.Environment.Basic

namespace Stencil
set_option autoImplicit false

namespace Environment

/-! ## Operations -/

/-- The ways in which a host can change an environment. -/
inductive Operation where
  | interpret (forms : List Form)
  | evaluate (form : Form)
  | bindPrefix (symbol : String) (ns : Uri)
  | setDefaultPrefix (symbol : String)
  | addTriples (ts : List Triple)
  | registerExtension (name : String) (factory : Factory)
  | registerAlias (other target : String)
  | setModules (modules : Modules)
  | takeFailures

/-- What a change comes to; one that is refused leaves the environment as it was. -/
def unlessRefused (env : Environment) : Except Error Environment → Environment
  | .ok after => after
  | .error _ => env

/-- The environment after an operation. -/
def Operation.apply (env : Environment) : Operation → Environment
  | .interpret forms => (env.interpret forms).2
  | .evaluate form => (env.evaluate form).2
  | .bindPrefix symbol ns => env.unlessRefused (env.bindPrefix symbol ns)
  | .setDefaultPrefix symbol => env.unlessRefused (env.setDefaultPrefix symbol)
  | .addTriples ts => (env.addTriples ts).2
  | .registerExtension name factory => env.unlessRefused (env.registerExtension name factory)
  | .registerAlias other target => env.unlessRefused (env.registerAlias other target)
  | .setModules modules => env.setModules modules
  | .takeFailures => env.takeFailures.2

/-- The environments that operations make of a fresh one. -/
inductive Reachable : Environment → Prop
  | created {config : Config} {env : Environment} (fresh : ofConfig config = .ok env) :
      Reachable env
  | operated {env : Environment} (before : Reachable env) (op : Operation) :
      Reachable (op.apply env)

theorem Reachable.foldl {env : Environment} (reachable : env.Reachable) (ops : List Operation) :
    (ops.foldl Operation.apply env).Reachable := by
  induction ops generalizing env with
  | nil => exact reachable
  | cons op ops ih => exact ih (reachable.operated op)

/-! ## Runs of forms -/

/-- The relation holds across everything that a run of forms does. -/
structure Respected (R : Environment → Environment → Prop) : Prop where
  refl : ∀ env, R env env
  trans : ∀ {first second third}, R first second → R second third → R first third
  perform : ∀ env form, R env (env.perform form).2
  record : ∀ env index form e, R env (env.record index form e)
  through : ∀ (env : Environment) (path : String) (after : Environment),
    R { env with importing := env.importing ++ [path] } after →
      R env { after with importing := after.importing.dropLast }

namespace Respected

variable {R : Environment → Environment → Prop}
  {run : Environment → List Form → Option Value × Environment}

theorem importWith (respected : Respected R) (runs : ∀ env forms, R env (run env forms).2)
    (env : Environment) (path : String) : R env (env.importWith run path).2 := by
  unfold Environment.importWith
  split
  · exact respected.refl env
  · split
    · exact respected.refl env
    · split
      · exact respected.refl env
      · exact respected.through env path _ (runs _ _)

theorem evaluateWith (respected : Respected R) (runs : ∀ env forms, R env (run env forms).2)
    (env : Environment) (form : Form) : R env (env.evaluateWith run form).2 := by
  unfold Environment.evaluateWith
  split
  · exact respected.importWith runs env _
  · exact respected.perform env _

theorem runForms (respected : Respected R) (runs : ∀ env forms, R env (run env forms).2)
    (index : Nat) (last : Option Value) (env : Environment) (forms : List Form) :
    R env (Environment.runForms run index last env forms).2 := by
  induction forms generalizing index last env with
  | nil => exact respected.refl env
  | cons form forms ih =>
      have one := respected.evaluateWith runs env form
      unfold Environment.runForms
      split
      · rename_i v after evaluated
        rw [evaluated] at one
        exact respected.trans one (ih _ _ after)
      · rename_i after evaluated
        rw [evaluated] at one
        exact respected.trans one (ih _ _ after)
      · rename_i e after evaluated
        rw [evaluated] at one
        exact respected.trans one
          (respected.trans (respected.record after index form e) (ih _ _ _))

theorem interpretAt (respected : Respected R) (depth : Nat) (env : Environment)
    (forms : List Form) : R env (Environment.interpretAt depth env forms).2 := by
  induction depth generalizing env forms with
  | zero => exact respected.refl env
  | succ depth ih => exact respected.runForms ih 0 none env forms

theorem interpret (respected : Respected R) (env : Environment) (forms : List Form) :
    R env (env.interpret forms).2 := respected.interpretAt _ env forms

theorem evaluate (respected : Respected R) (env : Environment) (form : Form) :
    R env (env.evaluate form).2 := respected.evaluateWith (respected.interpretAt _) env form

end Respected

end Environment

end Stencil
