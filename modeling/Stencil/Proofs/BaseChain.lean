/- # Proofs.BaseChain -- the walk up a chain of bases is exact and ends

A template, its base, the base of that one and so on are a chain (`Ancestry`): at every link the name
of the base resolves to the identifier of a registered template that takes as many arguments as are
forwarded to it (`Link`). Nothing in this keeps a chain from turning back. The walk does, by refusing an
identifier that it has met; it goes through a chain of different identifiers, and there are no more of
these than there are templates (`Ancestry.length_le`).

So the walk ends whatever the table holds, and the number of steps that it is given in advance is never
what ends it. It has come to the top of a chain (`Tops`): to a template without a base, and then the
merged body is that of the chain; or to a base that cannot be had, for the first reason of four in their
order (`Stops`). Every chain can be followed to such an end (`exists_tops`), and the end is what the walk
answers (`lineageAt_of_tops`).
-/
import Mathlib.Data.List.Nodup
import Stencil.Proofs.Inheritance

namespace Stencil
set_option autoImplicit false

/-- The arguments that a layer forwards to its base. -/
def Layer.forwarded (l : Layer) (base : Base) : List Argument :=
  graftArguments (substituting l.arguments) base.arguments

/-- The second layer is the base of the first: its identifier is what the name of the base resolves to,
its template is registered there, and it is forwarded an argument for each parameter. -/
inductive Link (r : Resolver) (table : TemplateTable) (l : Layer) : Uri → Layer → Prop
  | base {base : Base} {id : Uri} {parent : Layer} (refers : l.template.base = some base)
      (resolves : r.uriOf base.template "base template" = .ok id)
      (registered : table.get? id = some parent.template)
      (forwarded : parent.arguments = l.forwarded base)
      (fits : parent.template.parameters.length = parent.arguments.length) :
      Link r table l id parent

/-- The layers from a given one up, the topmost first, each with its identifier. -/
inductive Ancestry (r : Resolver) (table : TemplateTable) (id : Uri) (start : Layer) :
    List (Uri × Layer) → Prop
  | alone : Ancestry r table id start [(id, start)]
  | up {own above : Uri} {l parent : Layer} {rest : List (Uri × Layer)}
      (chain : Ancestry r table id start ((own, l) :: rest)) (link : Link r table l above parent) :
      Ancestry r table id start ((above, parent) :: (own, l) :: rest)

/-- Why there is nothing above a layer, which has a base, when certain identifiers have been met. -/
inductive Stops (r : Resolver) (table : TemplateTable) (met : List Uri) (l : Layer) : Error → Prop
  | unresolved {base : Base} {why : ResolveError} (refers : l.template.base = some base)
      (fails : r.uriOf base.template "base template" = .error why) : Stops r table met l (.resolve why)
  | revisited {base : Base} {id : Uri} (refers : l.template.base = some base)
      (resolves : r.uriOf base.template "base template" = .ok id) (again : id ∈ met) :
      Stops r table met l (.template (.inheritanceCycle id))
  | unregistered {base : Base} {id : Uri} (refers : l.template.base = some base)
      (resolves : r.uriOf base.template "base template" = .ok id) (fresh : id ∉ met)
      (unknown : table.get? id = none) : Stops r table met l (.template (.notFound base.template))
  | misfit {base : Base} {id : Uri} {t : Template} (refers : l.template.base = some base)
      (resolves : r.uriOf base.template "base template" = .ok id) (fresh : id ∉ met)
      (registered : table.get? id = some t)
      (differ : t.parameters.length ≠ (l.forwarded base).length) :
      Stops r table met l
        (.template (.wrongArity id t.parameters.length (l.forwarded base).length))

/-- What the walk answers at the top of a chain that goes no further. -/
inductive Tops (r : Resolver) (table : TemplateTable) :
    List (Uri × Layer) → Except Error (List Layer) → Prop
  | root {top : Uri × Layer} {rest : List (Uri × Layer)} (alone : top.2.template.base = none) :
      Tops r table (top :: rest) (.ok ((top :: rest).map Prod.snd))
  | stopped {top : Uri × Layer} {rest : List (Uri × Layer)} {why : Error}
      (stops : Stops r table ((top :: rest).map Prod.fst) top.2 why) :
      Tops r table (top :: rest) (.error why)

section Chain

variable {r : Resolver} {table : TemplateTable} {met : List Uri} {l : Layer}

/-! ## One link -/

theorem next_of_link {id : Uri} {parent : Layer} (link : Link r table l id parent)
    (fresh : id ∉ met) :
    ∃ base, l.template.base = some base ∧ l.next r table met base = .ok (id, parent) := by
  obtain ⟨t, args⟩ := parent
  cases link with
  | @base base _ _ refers resolves registered forwarded fits =>
      cases forwarded
      refine ⟨base, refers, ?_⟩
      have checked : t.checkArity id (l.forwarded base) = .ok () := Template.checkArity_eq_ok_iff.mpr fits
      rw [Layer.next, resolves]
      show (if id ∈ met then _ else _) = _
      rw [if_neg fresh, registered]
      show (t.checkArity id (l.forwarded base)).mapError Error.template >>= _ = _
      rw [checked]
      rfl

theorem link_of_next {base : Base} {id : Uri} {parent : Layer} (refers : l.template.base = some base)
    (stepped : l.next r table met base = .ok (id, parent)) : Link r table l id parent ∧ id ∉ met := by
  obtain ⟨resolves, fresh, registered, forwarded, fits⟩ := Layer.next_eq_ok stepped
  exact ⟨.base refers resolves registered forwarded fits, fresh⟩

theorem next_of_stops {why : Error} (stops : Stops r table met l why) :
    ∃ base, l.template.base = some base ∧ l.next r table met base = .error why := by
  cases stops with
  | @unresolved base why refers fails =>
      refine ⟨base, refers, ?_⟩
      rw [Layer.next, fails]
      rfl
  | @revisited base id refers resolves again =>
      refine ⟨base, refers, ?_⟩
      rw [Layer.next, resolves]
      exact if_pos again
  | @unregistered base id refers resolves fresh unknown =>
      refine ⟨base, refers, ?_⟩
      rw [Layer.next, resolves]
      show (if id ∈ met then _ else _) = _
      rw [if_neg fresh, unknown]
  | @misfit base id t refers resolves fresh registered differ =>
      refine ⟨base, refers, ?_⟩
      have refused : t.checkArity id (l.forwarded base) =
          .error (.wrongArity id t.parameters.length (l.forwarded base).length) := if_neg differ
      rw [Layer.next, resolves]
      show (if id ∈ met then _ else _) = _
      rw [if_neg fresh, registered]
      show (t.checkArity id (l.forwarded base)).mapError Error.template >>= _ = _
      rw [refused]
      rfl

/-- Above a layer with a base there is another one that was not met, or there is a reason why not. -/
theorem link_or_stops {base : Base} (refers : l.template.base = some base) (met : List Uri) :
    (∃ id parent, Link r table l id parent ∧ id ∉ met) ∨ ∃ why, Stops r table met l why := by
  cases named : r.uriOf base.template "base template" with
  | error why => exact .inr ⟨_, .unresolved refers named⟩
  | ok id =>
      by_cases again : id ∈ met
      · exact .inr ⟨_, .revisited refers named again⟩
      cases registered : table.get? id with
      | none => exact .inr ⟨_, .unregistered refers named again registered⟩
      | some t =>
          by_cases fits : t.parameters.length = (l.forwarded base).length
          · exact .inl ⟨id, ⟨t, l.forwarded base⟩, .base refers named registered rfl fits, again⟩
          · exact .inr ⟨_, .misfit refers named again registered fits⟩

/-! ## The walk at a layer -/

theorem lineageAt_of_root (steps : Nat) (met : List Uri) (alone : l.template.base = none) :
    lineageAt r table steps met l = .ok [l] := by
  unfold lineageAt
  rw [alone]

theorem lineageAt_of_stops {why : Error} (steps : Nat) (stops : Stops r table met l why) :
    lineageAt r table steps met l = .error why := by
  obtain ⟨base, refers, refused⟩ := next_of_stops stops
  unfold lineageAt
  rw [refers]
  show l.next r table met base >>= _ = _
  rw [refused]
  rfl

theorem lineageAt_of_link {id : Uri} {parent : Layer} (steps : Nat)
    (link : Link r table l id parent) (fresh : id ∉ met) :
    lineageAt r table (steps + 1) met l =
      (lineageAt r table steps (id :: met) parent).map (· ++ [l]) := by
  obtain ⟨base, refers, stepped⟩ := next_of_link link fresh
  rw [lineageAt, refers]
  show l.next r table met base >>= _ = _
  rw [stepped]
  show lineageAt r table steps (id :: met) parent >>= _ = _
  cases lineageAt r table steps (id :: met) parent with
  | ok above => rfl
  | error why => rfl

end Chain

/-! ## The walk along a chain -/

namespace Ancestry

variable {r : Resolver} {table : TemplateTable} {id : Uri} {start : Layer}

/-- All the templates of a chain are registered, if the first one is. -/
theorem registered {chain : List (Uri × Layer)} (ancestry : Ancestry r table id start chain)
    (known : table.get? id = some start.template) :
    ∀ x ∈ chain, table.get? x.1 = some x.2.template := by
  induction ancestry with
  | alone => simpa using known
  | up chain link ih =>
      refine List.forall_mem_cons.mpr ⟨?_, ih⟩
      cases link with
      | base refers resolves registered forwarded fits => exact registered

/-- A chain of different identifiers has no more layers than there are templates. -/
theorem length_le {chain : List (Uri × Layer)} (ancestry : Ancestry r table id start chain)
    (known : table.get? id = some start.template) (distinct : (chain.map Prod.fst).Nodup) :
    chain.length ≤ table.size := by
  have held : chain.map Prod.fst ⊆ table.byId.map Prod.fst := by
    intro own mem
    obtain ⟨x, inChain, rfl⟩ := List.mem_map.mp mem
    exact List.mem_map_of_mem (TemplateTable.mem_byId_of_get? (ancestry.registered known x inChain))
  have fewer := distinct.length_le_of_subset held
  simpa [TemplateTable.size] using fewer

/-- The walk comes through every chain of different identifiers, if it is given the steps, and goes on
from its top. -/
theorem lineageAt_eq {own : Uri} {l : Layer} {rest : List (Uri × Layer)}
    (ancestry : Ancestry r table id start ((own, l) :: rest))
    (distinct : ((own, l) :: rest).map Prod.fst |>.Nodup) {steps : Nat} (enough : rest.length ≤ steps) :
    lineageAt r table steps [id] start =
      (lineageAt r table (steps - rest.length) (own :: rest.map Prod.fst) l).map
        (· ++ rest.map Prod.snd) := by
  generalize same : (own, l) :: rest = chain at ancestry
  induction ancestry generalizing own l rest with
  | alone =>
      cases same
      show _ = (lineageAt r table steps [id] start).map (· ++ [])
      cases lineageAt r table steps [id] start with
      | ok layers => simp [Except.map]
      | error why => rfl
  | @up below above under parent rest chain link ih =>
      cases same
      have parts : above ∉ below :: rest.map Prod.fst ∧ (below :: rest.map Prod.fst).Nodup :=
        List.nodup_cons.mp distinct
      have more : rest.length + 1 ≤ steps := enough
      have left : steps - rest.length = (steps - (rest.length + 1)) + 1 := by omega
      rw [ih parts.2 (by omega) rfl, left, lineageAt_of_link _ link parts.1]
      show _ = (lineageAt r table (steps - (rest.length + 1)) (above :: below :: rest.map Prod.fst)
        parent).map (· ++ under :: rest.map Prod.snd)
      cases lineageAt r table (steps - (rest.length + 1)) (above :: below :: rest.map Prod.fst)
          parent with
      | ok layers => simp [Except.map]
      | error why => rfl

/-- The walk answers what it finds at the top. -/
theorem lineageAt_of_tops {chain : List (Uri × Layer)} {answer : Except Error (List Layer)}
    (ancestry : Ancestry r table id start chain) (distinct : (chain.map Prod.fst).Nodup)
    (tops : Tops r table chain answer) {steps : Nat} (enough : chain.length ≤ steps + 1) :
    lineageAt r table steps [id] start = answer := by
  cases tops with
  | @root top rest alone =>
      rw [ancestry.lineageAt_eq distinct (Nat.le_of_succ_le_succ enough), lineageAt_of_root _ _ alone]
      rfl
  | @stopped top rest why stops =>
      have here := lineageAt_of_stops (steps - rest.length) stops
      rw [List.map_cons] at here
      rw [ancestry.lineageAt_eq distinct (Nat.le_of_succ_le_succ enough), here]
      rfl

/-- Every chain of different identifiers goes on to a top: it cannot go on for ever. -/
theorem exists_tops {chain : List (Uri × Layer)} (ancestry : Ancestry r table id start chain)
    (known : table.get? id = some start.template) (distinct : (chain.map Prod.fst).Nodup) :
    ∃ longer answer, Ancestry r table id start longer ∧ (longer.map Prod.fst).Nodup ∧
      Tops r table longer answer := by
  -- the number of layers that may still come
  generalize room : table.size - chain.length = left
  induction left using Nat.strongRecOn generalizing chain with
  | ind left ih =>
      have bounded := ancestry.length_le known distinct
      obtain ⟨own, l, rest, rfl⟩ : ∃ own l rest, chain = (own, l) :: rest := by
        cases ancestry with
        | alone => exact ⟨_, _, _, rfl⟩
        | up below link => exact ⟨_, _, _, rfl⟩
      cases refers : l.template.base with
      | none => exact ⟨_, _, ancestry, distinct, .root refers⟩
      | some base =>
          rcases link_or_stops refers (own :: rest.map Prod.fst) with
            ⟨above, parent, link, fresh⟩ | ⟨why, stops⟩
          · have longer := ancestry.up link
            have apart : (((above, parent) :: (own, l) :: rest).map Prod.fst).Nodup :=
              List.nodup_cons.mpr ⟨fresh, distinct⟩
            have further := longer.length_le known apart
            simp only [List.length_cons] at further room
            exact ih _ (by simp only [List.length_cons]; omega) longer apart rfl
          · exact ⟨_, _, ancestry, distinct, .stopped stops⟩

/-- And the merged body is made of what the walk answers. -/
theorem mergedBody_of_tops {t : Template} {args : List Argument} {chain : List (Uri × Layer)}
    {answer : Except Error (List Layer)} (ancestry : Ancestry r table id ⟨t, args⟩ chain)
    (known : table.get? id = some t) (distinct : (chain.map Prod.fst).Nodup)
    (tops : Tops r table chain answer) :
    mergedBody r table id t args = answer.map fun layers => layers.flatMap Layer.body := by
  have enough : chain.length ≤ table.size + 1 :=
    Nat.le_succ_of_le (ancestry.length_le known distinct)
  unfold mergedBody lineage
  rw [ancestry.lineageAt_of_tops distinct tops enough]

end Ancestry

/-- **The walk up the bases is exact and ends.** Let a registered template be given any arguments. A
chain from it that meets no identifier twice has at most as many layers as there are templates, and to
allow the walk more layers than that changes nothing. There is a merged body exactly if such a chain
reaches a template without a base, and it is then the bodies of the layers, the topmost first. There is
an error exactly if such a chain reaches a base that cannot be had, and it is the first that applies
there. So a chain that comes to an identifier again is reported with that identifier. -/
theorem mergedBody_exact {r : Resolver} {table : TemplateTable} {id : Uri} {t : Template}
    (known : table.get? id = some t) (args : List Argument) :
    (∀ chain, Ancestry r table id ⟨t, args⟩ chain → (chain.map Prod.fst).Nodup →
        chain.length ≤ table.size) ∧
      (∀ steps, table.size ≤ steps + 1 →
        lineageAt r table steps [id] ⟨t, args⟩ = lineage r table id t args) ∧
      (∀ body, mergedBody r table id t args = .ok body ↔
        ∃ top rest, Ancestry r table id ⟨t, args⟩ (top :: rest) ∧
          ((top :: rest).map Prod.fst).Nodup ∧ top.2.template.base = none ∧
          body = (top :: rest).flatMap fun layer => layer.2.body) ∧
      (∀ why, mergedBody r table id t args = .error why ↔
        ∃ top rest, Ancestry r table id ⟨t, args⟩ (top :: rest) ∧
          ((top :: rest).map Prod.fst).Nodup ∧
          Stops r table ((top :: rest).map Prod.fst) top.2 why) ∧
      ∀ top rest base again, Ancestry r table id ⟨t, args⟩ (top :: rest) →
        ((top :: rest).map Prod.fst).Nodup → top.2.template.base = some base →
        r.uriOf base.template "base template" = .ok again → again ∈ (top :: rest).map Prod.fst →
        mergedBody r table id t args = .error (.template (.inheritanceCycle again)) := by
  have first : Ancestry r table id ⟨t, args⟩ [(id, ⟨t, args⟩)] := .alone
  obtain ⟨chain, answer, ancestry, distinct, tops⟩ := first.exists_tops known (by simp)
  have bounded := ancestry.length_le known distinct
  have merged := ancestry.mergedBody_of_tops known distinct tops
  have refused : ∀ top rest why, Ancestry r table id ⟨t, args⟩ (top :: rest) →
      ((top :: rest).map Prod.fst).Nodup → Stops r table ((top :: rest).map Prod.fst) top.2 why →
      mergedBody r table id t args = .error why := fun top rest why climbed apart stops =>
    climbed.mergedBody_of_tops known apart (.stopped stops)
  refine ⟨fun chain climbed apart => climbed.length_le known apart, ?_, ?_, ?_, ?_⟩
  · intro steps enough
    rw [lineage, ancestry.lineageAt_of_tops distinct tops (Nat.le_trans bounded enough),
      ancestry.lineageAt_of_tops distinct tops (Nat.le_succ_of_le bounded)]
  · intro body
    constructor
    · intro done
      rw [merged] at done
      cases tops with
      | @root top rest alone =>
          cases done
          exact ⟨top, rest, ancestry, distinct, alone, List.flatMap_map _ _ _⟩
      | stopped stops => cases done
    · rintro ⟨top, rest, climbed, apart, alone, rfl⟩
      rw [climbed.mergedBody_of_tops known apart (.root alone), Except.map, List.flatMap_map]
  · intro why
    constructor
    · intro failed
      rw [merged] at failed
      cases tops with
      | root alone => cases failed
      | @stopped top rest reason stops =>
          cases failed
          exact ⟨top, rest, ancestry, distinct, stops⟩
    · rintro ⟨top, rest, climbed, apart, stops⟩
      exact refused top rest why climbed apart stops
  · intro top rest base again climbed apart refers resolves revisits
    exact refused top rest _ climbed apart (.revisited refers resolves revisits)

/-! ## A chain that turns back -/

/-- A template without parameters that does nothing but name a base. -/
def pointing (name base : String) : Template :=
  ⟨.ofUri ⟨name⟩, [], some ⟨.ofUri ⟨base⟩, []⟩, [], {}⟩

/-- The chain from `c` runs into a circle of two that `c` is not in. -/
def circling : TemplateTable where
  byId := [(⟨"a"⟩, pointing "a" "b"), (⟨"b"⟩, pointing "b" "a"), (⟨"c"⟩, pointing "c" "b")]
  order := [⟨"a"⟩, ⟨"b"⟩, ⟨"c"⟩]

theorem circling_ancestry :
    Ancestry unboundResolver circling ⟨"c"⟩ ⟨pointing "c" "b", []⟩
      [(⟨"a"⟩, ⟨pointing "a" "b", []⟩), (⟨"b"⟩, ⟨pointing "b" "a", []⟩),
        (⟨"c"⟩, ⟨pointing "c" "b", []⟩)] := by
  have first : Link unboundResolver circling ⟨pointing "c" "b", []⟩ ⟨"b"⟩ ⟨pointing "b" "a", []⟩ :=
    .base rfl rfl rfl rfl rfl
  have second : Link unboundResolver circling ⟨pointing "b" "a", []⟩ ⟨"a"⟩ ⟨pointing "a" "b", []⟩ :=
    .base rfl rfl rfl rfl rfl
  exact .up (.up .alone first) second

/-- The walk goes through all three templates, and reports the first identifier that it meets again. -/
theorem mergedBody_reports_first_repeat :
    circling.get? ⟨"c"⟩ = some (pointing "c" "b") ∧ circling.size = 3 ∧
      mergedBody unboundResolver circling ⟨"c"⟩ (pointing "c" "b") [] =
        .error (.template (.inheritanceCycle ⟨"b"⟩)) := by
  have known : circling.get? ⟨"c"⟩ = some (pointing "c" "b") := rfl
  obtain ⟨_, _, _, _, turnsBack⟩ := mergedBody_exact (r := unboundResolver) known []
  exact ⟨known, rfl, turnsBack _ _ _ _ circling_ancestry (by decide) rfl rfl (by decide)⟩

end Stencil
