/- # Proofs.Atomicity -- a form that fails leaves nothing behind

A form is worked out before anything of it is put into effect, and it can fail at any point of
being worked out: in the second position of a triple whose first position was expanded already, or
when an assignment is refused after its value is there. What remains of such a form is the number
of anonymous identities that the top level has given out; graph, scope, import stack and failures
are as they were, and no expansion stays on the stack (`failed_form_leaves_environment`).

Between operations no expansion is on the stack at all (`Reachable.idle`), since every operation
leaves the stack as it found it but for counts (`perform_grows`).
-/
import Stencil.Proofs.ScopeChange

namespace Stencil
set_option autoImplicit false

namespace Environment

/-- Performing a form, also one that fails, only mints. -/
theorem perform_grows (env : Environment) (form : Form) :
    env.selves.Grows (env.perform form).2.selves := by
  have grown := Form.onlyMints_step env.scope form env.selves
  unfold perform
  split
  · rename_i e selves failed
    rw [failed] at grown
    exact grown
  · rename_i step selves done
    rw [done] at grown
    exact grown

theorem respected_idle :
    Respected fun env after => env.selves.frames = [] → after.selves.frames = [] where
  refl _ idle := idle
  trans first second idle := second (first idle)
  perform env form idle := by
    obtain ⟨_, same⟩ := (env.perform_grows form).eq_of_frames_nil idle
    rw [same]
    exact idle
  record _ _ _ _ idle := idle
  through _ _ _ inside idle := inside idle

theorem Operation.apply_idle {env : Environment} (idle : env.selves.frames = []) (op : Operation) :
    (op.apply env).selves.frames = [] := by
  rcases op.apply_cases env with ⟨forms, same⟩ | ⟨form, same⟩ | ⟨_, _, _, _, _, same⟩
  · rw [same]
    exact respected_idle.interpret env forms idle
  · rw [same]
    exact respected_idle.evaluate env form idle
  · rw [same]
    exact idle

/-- Between operations no expansion is being worked out. -/
theorem Reachable.idle {env : Environment} (reachable : env.Reachable) :
    env.selves.frames = [] := by
  induction reachable with
  | created fresh =>
      rw [(ofConfig_changes fresh).1]
  | operated before op ih => exact Operation.apply_idle ih op

/-- A form that cannot be performed changes the stack of expansions only. -/
theorem perform_error {env after : Environment} {form : Form} {e : Error}
    (failed : env.perform form = (.error e, after)) :
    after = { env with selves := after.selves } := by
  unfold perform at failed
  split at failed
  · cases failed
    rfl
  · cases failed

/-- An import that fails changes nothing: it fails before a form of the module runs. -/
theorem importWith_error {run : Environment → List Form → Option Value × Environment}
    {env after : Environment} {path : String} {e : Error}
    (failed : env.importWith run path = (.error e, after)) : after = env := by
  unfold importWith at failed
  split at failed
  · cases failed
  · split at failed
    · cases failed
      rfl
    · split at failed <;> cases failed
      rfl

/-- A form that fails outside of every expansion, be it within an import, leaves the environment as
it was but for identities given out. -/
theorem evaluateWith_error {run : Environment → List Form → Option Value × Environment}
    {env after : Environment} {form : Form} {e : Error} (idle : env.selves.frames = [])
    (failed : env.evaluateWith run form = (.error e, after)) :
    ∃ minted, env.selves.minted ≤ minted ∧
      after = { env with selves := { env.selves with minted } } := by
  unfold evaluateWith at failed
  split at failed
  · exact ⟨env.selves.minted, Nat.le_refl _, importWith_error failed⟩
  · have grown := env.perform_grows form
    rw [failed] at grown
    obtain ⟨le, selves⟩ := grown.eq_of_frames_nil idle
    refine ⟨after.selves.minted, le, ?_⟩
    rw [← selves]
    exact perform_error failed

/-- **Failure atomicity.** When a form fails in an environment that operations can make, no
expansion was on the stack, and the environment is left as it was; only the count of anonymous
identities of the top level may differ, and it is no smaller. -/
theorem failed_form_leaves_environment {env : Environment} (reachable : env.Reachable) (form : Form)
    {e : Error} {after : Environment} (failed : env.evaluate form = (.error e, after)) :
    env.selves.frames = [] ∧
      ∃ minted, env.selves.minted ≤ minted ∧
        after = { env with selves := { env.selves with minted } } :=
  ⟨reachable.idle, evaluateWith_error reachable.idle failed⟩

/-- A fresh environment after a template without parameters, base and body was defined. -/
def withEmptyTemplate : Environment :=
  Operation.apply { scope := { extensions := .builtin } }
    (.evaluate (.template ⟨.ofUri ⟨"t"⟩, [], none, [], {}⟩))

/-- A triple whose subject is a new anonymous expansion and whose predicate is no resource. -/
def halfway : Form :=
  .triple (.expansion ⟨none, .name (.ofUri ⟨"t"⟩), [], [], {}⟩) (.literal (.boolean true))
    (.literal (.boolean true)) {}

/-- The subject is worked out, an identity is given out, then the predicate fails. -/
theorem failed_predicate_changes_only_minted :
    withEmptyTemplate.evaluate halfway =
        (.error (.resolve (.notResource "predicate" "boolean")),
          { withEmptyTemplate with selves := ⟨[], 1⟩ }) ∧
      withEmptyTemplate.selves.frames = [] ∧
      ∃ minted, withEmptyTemplate.selves.minted ≤ minted ∧
        { withEmptyTemplate with selves := ⟨[], 1⟩ } =
          { withEmptyTemplate with selves := { withEmptyTemplate.selves with minted } } := by
  have fresh : ofConfig {} = .ok { scope := { extensions := .builtin } } := rfl
  have failed : withEmptyTemplate.evaluate halfway =
      (.error (.resolve (.notResource "predicate" "boolean")),
        { withEmptyTemplate with selves := ⟨[], 1⟩ }) := rfl
  exact ⟨failed, failed_form_leaves_environment (.operated (.created fresh) _) halfway failed⟩

end Environment

end Stencil
