/- # Proofs.ImportStack -- imports end, and never come back to a path

A module may import others, among them one that imports it. What keeps this from going round is the
stack of paths being imported: a path on it is refused. Hence along every run the stack has no path
twice, and it is no longer than the list of paths that the host supplies (`Moment.Bounded`, kept by
each step). Every run ends, because a module is only ever opened on a path that was not open
(`interpret_steps`), and a call that has returned leaves the stack as it found it, whatever failed
inside (`respected_imports`). All this is put together in `import_recursion_bounded`.
-/
import Mathlib.Data.List.Perm.Subperm
import Stencil.Proofs.Moments
import Stencil.Proofs.ScopeChange

namespace Stencil
set_option autoImplicit false

open Environment

/-! ## Between operations -/

namespace Environment

theorem Operation.apply_importing (env : Environment) (op : Operation) :
    (op.apply env).importing = env.importing := by
  rcases op.apply_cases env with ⟨forms, same⟩ | ⟨form, same⟩ | ⟨_, _, _, _, _, same⟩
  · rw [same]
    exact (respected_imports.interpret env forms).2
  · rw [same]
    exact (respected_imports.evaluate env form).2
  · rw [same]

/-- Between operations no path is being imported. -/
theorem Reachable.importing {env : Environment} (reachable : env.Reachable) :
    env.importing = [] := by
  induction reachable with
  | created fresh => rw [(ofConfig_changes fresh).1]
  | operated before op ih => rw [op.apply_importing, ih]

end Environment

/-! ## Along a run -/

namespace Moment

/-- The modules are those given, and the paths being imported are different paths of theirs. -/
structure Bounded (modules : Option Modules) (m : Moment) : Prop where
  modules : m.env.modules = modules
  nodup : m.env.importing.Nodup
  supplied : ∀ path ∈ m.env.importing, path ∈ m.env.supplied

/-- What leaves modules and stack alone keeps the bound. -/
theorem Bounded.congr {modules : Option Modules} {m n : Moment} (bounded : m.Bounded modules)
    (same : n.env.modules = m.env.modules ∧ n.env.importing = m.env.importing) :
    n.Bounded modules where
  modules := same.1.trans bounded.modules
  nodup := by
    rw [same.2]
    exact bounded.nodup
  supplied := by
    rw [same.2, Environment.supplied, same.1]
    exact bounded.supplied

theorem Next.bounded {modules : Option Modules} {m n : Moment} (next : m.Next n)
    (bounded : m.Bounded modules) : n.Bounded modules := by
  cases next with
  | @returned env index last outer around =>
      have fewer : env.closing.importing.Sublist env.importing := List.dropLast_sublist _
      exact ⟨bounded.modules, bounded.nodup.sublist fewer,
        fun path held => bounded.supplied path (fewer.subset held)⟩
  | @opened env index last form forms inner path around opens =>
      have fresh : path ∉ env.importing := (opens?_eq_some opens).2.1
      have known : path ∈ env.supplied := mem_supplied_of_opens opens
      refine ⟨bounded.modules, ?_, ?_⟩
      · refine List.nodup_append.mpr ⟨bounded.nodup, List.nodup_singleton path, ?_⟩
        intro held inStack other isPath same
        rw [List.mem_singleton] at isPath
        exact fresh (isPath ▸ same ▸ inStack)
      · intro held inStack
        rcases List.mem_append.mp inStack with old | new
        · exact bounded.supplied held old
        · rw [List.mem_singleton] at new
          exact new ▸ known
  | skipped => exact bounded.congr ⟨rfl, rfl⟩
  | refused => exact bounded.congr ⟨rfl, rfl⟩
  | @performed env after index last v form forms around done =>
      have same := respected_imports.perform env form
      rw [done] at same
      exact bounded.congr same
  | @failed env after index last form e forms around failed =>
      have same := respected_imports.perform env form
      rw [failed] at same
      exact bounded.congr same

theorem Steps.bounded {modules : Option Modules} {m n : Moment} (steps : m.Steps n)
    (bounded : m.Bounded modules) : n.Bounded modules := by
  induction steps with
  | refl => exact bounded
  | tail _ stepped ih => exact (next_of_next? stepped).bounded ih

/-- The stack is no deeper than there are paths. -/
theorem Bounded.depth {modules : Option Modules} {m : Moment} (bounded : m.Bounded modules) :
    m.env.importing.length ≤ m.env.supplied.length :=
  (List.subperm_of_subset bounded.nodup bounded.supplied).length_le

end Moment

/-! ## Imports are bounded -/

namespace Environment

/-- An import of a path that is being imported fails, and nothing is run. -/
theorem evaluate_imports_of_mem {env : Environment} {path : String} (held : path ∈ env.importing)
    (supplied : path ∈ env.supplied) (location : Location) :
    env.evaluate (.imports path location) =
      (.error (.environment (.importFailed path (.cycle env.importing))), env) := by
  cases offered : env.modules with
  | none =>
      rw [Environment.supplied, mem_firstSeen, offered] at supplied
      cases supplied
  | some modules => simp only [evaluate, evaluateWith, importWith, offered, if_pos held]

/-- **Import recursion is bounded.** A run of forms ends, with what `interpret` answers. At every
moment of it the paths being imported are all different and no more than the host supplies; the form
that is next, be it in a module, is evaluated to its end; no evaluation and no further run changes
the stack; and an import of a path on the stack fails and leaves the environment as it was. -/
theorem import_recursion_bounded {env : Environment} (reachable : env.Reachable)
    (forms : List Form) :
    (∃ final : Moment, (Moment.start env forms).Steps final ∧ final.next? = none ∧
        env.interpret forms = (final.program.last, final.env)) ∧
      ∀ m, (Moment.start env forms).Steps m →
        m.env.importing.Nodup ∧ m.env.importing.length ≤ env.supplied.length ∧
        (∀ form rest, m.program.forms = form :: rest →
          m.Steps (.settled form { m.program with forms := rest } m.around (m.env.evaluate form))) ∧
        (∀ form, (m.env.evaluate form).2.importing = m.env.importing) ∧
        (∀ inner, (m.env.interpret inner).2.importing = m.env.importing) ∧
        ∀ path location, path ∈ m.env.importing →
          m.env.evaluate (.imports path location) =
            (.error (.environment (.importFailed path (.cycle m.env.importing))), m.env) := by
  constructor
  · obtain ⟨index, run⟩ := Moment.interpret_steps env forms
    exact ⟨_, run, rfl, rfl⟩
  · intro m run
    have outside : (Moment.start env forms).Bounded env.modules :=
      ⟨rfl, by simp [Moment.start, reachable.importing], by simp [Moment.start, reachable.importing]⟩
    have bounded := run.bounded outside
    have same : m.env.supplied = env.supplied := by
      rw [supplied, supplied, bounded.modules]
    refine ⟨bounded.nodup, same ▸ bounded.depth, ?_, ?_, ?_, ?_⟩
    · obtain ⟨inside, ⟨index, last, _⟩, around⟩ := m
      rintro form rest rfl
      exact Moment.evaluate_steps inside form index last rest around
    · exact fun form => (respected_imports.evaluate m.env form).2
    · exact fun inner => (respected_imports.interpret m.env inner).2
    · exact fun path location held =>
        evaluate_imports_of_mem held (bounded.supplied path held) location

/-- Two modules that import each other, and a path that neither of them is. -/
def ring : Environment :=
  Operation.apply { scope := { extensions := .builtin } }
    (.setModules { programs := [("a", [.imports "b" {}]), ("b", [.imports "a" {}, .imports "c" {}])] })

/-- The moment at which the second of them, imported by the first, is about to import the first. -/
def insideRing : Moment where
  env := (ring.opening "a").opening "b"
  program := { forms := [.imports "a" {}, .imports "c" {}] }
  around := [⟨1, none, []⟩, ⟨1, none, []⟩]

theorem mutual_imports_stop_at_cycle :
    (Moment.start ring [.imports "a" {}]).Steps insideRing ∧
      insideRing.env.importing = ["a", "b"] ∧ insideRing.env.importing.Nodup ∧
      insideRing.env.importing.length ≤ ring.supplied.length ∧
      insideRing.env.evaluate (.imports "a" {}) =
        (.error (.environment (.importFailed "a" (.cycle ["a", "b"]))), insideRing.env) := by
  have fresh : ofConfig {} = .ok { scope := { extensions := .builtin } } := rfl
  have run : (Moment.start ring [.imports "a" {}]).Steps insideRing := .head rfl (.single rfl)
  have bounded := (import_recursion_bounded (.operated (.created fresh) _)
    [.imports "a" {}]).2 insideRing run
  exact ⟨run, rfl, bounded.1, bounded.2.1, bounded.2.2.2.2.2 "a" {} (by decide)⟩

end Environment

end Stencil
