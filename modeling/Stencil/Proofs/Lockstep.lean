/- # Proofs.Lockstep -- two runs side by side

What a form does depends on some parts of an environment and not on others. To say so, the same forms
are run in two environments that differ, and the two runs are compared. A relation between environments
goes in `Lockstep` when every single thing that a run does, done on both sides, gives the same answer
and leaves the two related; by `Lockstep.interpret` whole runs then do so as well, imports included. The
induction over forms and modules is done here once for all pairs of runs, as `Respected` does it for one.

The graph and the failures are what a run puts out. No form reads either of them: the symbols and
prefixes are triples of a store too, but of another one, so that a triple of the graph whose subject is
the root of a table binds nothing. Two environments that differ in their output only therefore stay so,
and one list of triples and one list of failures come behind what was there in each (`output_unread`).
-/
import Stencil.Proofs.Run

namespace Stencil
set_option autoImplicit false

namespace Environment

/-! ## Runs in lockstep -/

/-- Two computations gave the same answer and left related environments. -/
def Alike {α : Type} (R : Environment → Environment → Prop) (x y : α × Environment) : Prop :=
  y.1 = x.1 ∧ R x.2 y.2

/-- The relation holds on after anything that a run of forms does on both sides alike. -/
structure Lockstep (R : Environment → Environment → Prop) : Prop where
  modules : ∀ {a b}, R a b → b.modules = a.modules
  importing : ∀ {a b}, R a b → b.importing = a.importing
  perform : ∀ {a b}, R a b → ∀ form, Alike R (a.perform form) (b.perform form)
  record : ∀ {a b}, R a b → ∀ index form e, R (a.record index form e) (b.record index form e)
  stacked : ∀ {a b}, R a b → ∀ paths,
    R { a with importing := paths } { b with importing := paths }

namespace Lockstep

variable {R : Environment → Environment → Prop}
  {run : Environment → List Form → Option Value × Environment} {a b : Environment}

theorem importWith (lockstep : Lockstep R)
    (runs : ∀ {a b}, R a b → ∀ forms, Alike R (run a forms) (run b forms)) (related : R a b)
    (path : String) : Alike R (a.importWith run path) (b.importWith run path) := by
  have offered := lockstep.modules related
  have underway := lockstep.importing related
  cases supplied : a.modules with
  | none =>
      rw [supplied] at offered
      simp only [Environment.importWith, supplied, offered]
      exact ⟨rfl, related⟩
  | some modules =>
      rw [supplied] at offered
      simp only [Environment.importWith, supplied, offered, underway]
      split
      · exact ⟨rfl, related⟩
      · split
        · exact ⟨rfl, related⟩
        · rename_i forms _
          obtain ⟨answer, after⟩ := runs (lockstep.stacked related (a.importing ++ [path])) forms
          simp only [supplied, offered] at answer after
          refine ⟨congrArg Except.ok answer, ?_⟩
          -- both sides take the last path off the same stack
          simp only [lockstep.importing after]
          exact lockstep.stacked after _

theorem evaluateWith (lockstep : Lockstep R)
    (runs : ∀ {a b}, R a b → ∀ forms, Alike R (run a forms) (run b forms)) (related : R a b)
    (form : Form) : Alike R (a.evaluateWith run form) (b.evaluateWith run form) := by
  cases form with
  | imports path location => exact lockstep.importWith runs related path
  | _ => exact lockstep.perform related _

theorem runForms (lockstep : Lockstep R)
    (runs : ∀ {a b}, R a b → ∀ forms, Alike R (run a forms) (run b forms)) (related : R a b)
    (index : Nat) (last : Option Value) (forms : List Form) :
    Alike R (Environment.runForms run index last a forms)
      (Environment.runForms run index last b forms) := by
  induction forms generalizing index last a b with
  | nil => exact ⟨rfl, related⟩
  | cons form forms ih =>
      obtain ⟨answer, after⟩ := lockstep.evaluateWith runs related form
      unfold Environment.runForms
      cases first : a.evaluateWith run form with
      | mk x mine =>
          cases second : b.evaluateWith run form with
          | mk y yours =>
              rw [first, second] at answer after
              subst answer
              cases y with
              | error e => exact ih (lockstep.record after index form e) (index + 1) last
              | ok v =>
                  cases v with
                  | none => exact ih after (index + 1) last
                  | some v => exact ih after (index + 1) (some v)

theorem interpretAt (lockstep : Lockstep R) (depth : Nat) (related : R a b) (forms : List Form) :
    Alike R (Environment.interpretAt depth a forms) (Environment.interpretAt depth b forms) := by
  induction depth generalizing a b forms with
  | zero => exact ⟨rfl, related⟩
  | succ depth ih => exact lockstep.runForms (fun pair forms => ih pair forms) related 0 none forms

theorem importDepth (lockstep : Lockstep R) (related : R a b) : b.importDepth = a.importDepth := by
  rw [Environment.importDepth, Environment.importDepth, lockstep.modules related]

theorem interpret (lockstep : Lockstep R) (related : R a b) (forms : List Form) :
    Alike R (a.interpret forms) (b.interpret forms) := by
  rw [Environment.interpret, Environment.interpret, lockstep.importDepth related]
  exact lockstep.interpretAt _ related forms

theorem evaluate (lockstep : Lockstep R) (related : R a b) (form : Form) :
    Alike R (a.evaluate form) (b.evaluate form) := by
  rw [Environment.evaluate, Environment.evaluate, lockstep.importDepth related]
  exact lockstep.evaluateWith (fun pair forms => lockstep.interpretAt _ pair forms) related form

end Lockstep

/-! ## What a run puts out -/

/-- The environments agree on everything but the graph and the failures. -/
def SameButOutput (a b : Environment) : Prop :=
  ∃ graph failures, b = { a with graph, failures }

/-- Performing a form looks at the scope and at the stack of expansions only. It adds triples to the
graph, and it leaves the failures to the run. -/
theorem perform_sameButOutput {a b : Environment} (same : a.SameButOutput b) (form : Form) :
    Alike SameButOutput (a.perform form) (b.perform form) ∧
      ∃ ts, (a.perform form).2.graph = a.graph.insertAll ts ∧
        (b.perform form).2.graph = b.graph.insertAll ts ∧
        (a.perform form).2.failures = a.failures ∧ (b.perform form).2.failures = b.failures := by
  obtain ⟨graph, failures, rfl⟩ := same
  simp only [perform]
  split
  · exact ⟨⟨rfl, graph, failures, rfl⟩, [], rfl, rfl, rfl, rfl⟩
  · rename_i step after done
    exact ⟨⟨rfl, graph.insertAll step.triples, failures, rfl⟩, step.triples, rfl, rfl, rfl, rfl⟩

/-- Two environments that agree but for their output, where the outputs are those of two others with
the same triples and the same failures behind. -/
structure OutputBehind (a₀ b₀ a b : Environment) : Prop where
  same : a.SameButOutput b
  graph : ∃ ts, a.graph = a₀.graph.insertAll ts ∧ b.graph = b₀.graph.insertAll ts
  failures : ∃ fs, a.failures = a₀.failures ++ fs ∧ b.failures = b₀.failures ++ fs

theorem OutputBehind.refl {a b : Environment} (same : a.SameButOutput b) :
    OutputBehind a b a b where
  same := same
  graph := ⟨[], rfl, rfl⟩
  failures := ⟨[], by simp, by simp⟩

theorem lockstep_outputBehind (a₀ b₀ : Environment) : Lockstep (OutputBehind a₀ b₀) where
  modules := by
    rintro a b ⟨⟨graph, failures, rfl⟩, -, -⟩
    rfl
  importing := by
    rintro a b ⟨⟨graph, failures, rfl⟩, -, -⟩
    rfl
  perform := by
    intro a b related form
    obtain ⟨us, mine, yours⟩ := related.graph
    obtain ⟨⟨answer, same⟩, ts, first, second, kept, keptToo⟩ :=
      perform_sameButOutput related.same form
    refine ⟨answer, same, ⟨us ++ ts, ?_, ?_⟩, ?_⟩
    · rw [first, mine, Store.insertAll_append]
    · rw [second, yours, Store.insertAll_append]
    · rw [kept, keptToo]
      exact related.failures
  record := by
    rintro a b ⟨⟨graph, failures, rfl⟩, triples, fs, mine, yours⟩ index form e
    -- the failure is the same on both sides, since the module at hand is
    let failure : Failure := ⟨index, a.importing.getLast?, form.location, e⟩
    refine ⟨⟨graph, failures ++ [failure], rfl⟩, triples, fs ++ [failure], ?_, ?_⟩
    · rw [← List.append_assoc, ← mine]
      rfl
    · rw [← List.append_assoc, ← yours]
      rfl
  stacked := by
    rintro a b ⟨⟨graph, failures, rfl⟩, triples, recorded⟩ paths
    exact ⟨⟨graph, failures, rfl⟩, triples, recorded⟩

/-- **The graph is write-only.** Take two environments that agree on everything but the graph and the
failures, and run the same forms in both. The runs have the same value; the same triples come behind
those of each graph, in the graph as it is kept and in its list; the same failures come behind those of
each; and all other parts of the two environments agree again. -/
theorem output_unread {a b : Environment} (agree : a.SameButOutput b) (forms : List Form) :
    (b.interpret forms).1 = (a.interpret forms).1 ∧
      (∃ ts, (a.interpret forms).2.graph = a.graph.insertAll ts ∧
        (b.interpret forms).2.graph = b.graph.insertAll ts ∧
        (a.interpret forms).2.triples = a.triples ++ ts ∧
        (b.interpret forms).2.triples = b.triples ++ ts) ∧
      (∃ fs, (a.interpret forms).2.failures = a.failures ++ fs ∧
        (b.interpret forms).2.failures = b.failures ++ fs) ∧
      (a.interpret forms).2.SameButOutput (b.interpret forms).2 := by
  obtain ⟨answer, behind⟩ := (lockstep_outputBehind a b).interpret (.refl agree) forms
  obtain ⟨ts, mine, yours⟩ := behind.graph
  refine ⟨answer, ⟨ts, mine, yours, ?_, ?_⟩, behind.failures, behind.same⟩
  · rw [triples, mine, Store.toList_insertAll, triples]
  · rw [triples, yours, Store.toList_insertAll, triples]

/-- Triples that would bind the symbol `a` and the prefix `p` if they were in the tables. -/
def decoys : List Triple :=
  [⟨symbolTable.root, ⟨"a"⟩, .uri ⟨"x"⟩⟩, ⟨prefixTable.root, ⟨"p"⟩, .uri ⟨"n"⟩⟩]

/-- A triple about `a`, and one about a name with the prefix `p`. -/
def probes : List Form :=
  [.triple (.name (.ofSymbol "a")) (.name (.ofSymbol "q")) (.literal (.boolean true)) {},
    .triple (.name (.ofSymbol "p:b")) (.name (.ofSymbol "q")) (.literal (.boolean true)) {}]

/-- With the decoys in the graph `a` stands for itself and the prefix is missing, as without them. -/
theorem bindings_in_graph_unread :
    SameButOutput {} (addTriples {} decoys).2 ∧
      ((addTriples {} decoys).2.interpret probes).1 = some (.uri ⟨"a"⟩) ∧
      ((addTriples {} decoys).2.interpret probes).2.triples =
        decoys ++ [⟨⟨"a"⟩, ⟨"q"⟩, .literal (.boolean true)⟩] ∧
      ((addTriples {} decoys).2.interpret probes).2.failures =
        [⟨1, none, {}, .resolve (.unboundPrefix "p")⟩] := by
  have same : SameButOutput {} (addTriples {} decoys).2 := ⟨_, _, rfl⟩
  have value : (interpret {} probes).1 = some (.uri ⟨"a"⟩) := by decide +kernel
  have written : (interpret {} probes).2.triples =
      [⟨⟨"a"⟩, ⟨"q"⟩, .literal (.boolean true)⟩] := by decide +kernel
  have recorded : (interpret {} probes).2.failures =
      [⟨1, none, {}, .resolve (.unboundPrefix "p")⟩] := by decide +kernel
  obtain ⟨answer, ⟨ts, -, -, mine, yours⟩, ⟨fs, failed, failedToo⟩, -⟩ := output_unread same probes
  refine ⟨same, answer.trans value, ?_, ?_⟩
  · rw [yours, ← written, mine]
    rfl
  · rw [failedToo, ← recorded, failed]
    rfl

end Environment

end Stencil
