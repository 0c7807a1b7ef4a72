/- # Proofs.StoreRefinement -- an indexed store is a plain list

Whatever is asked of a store is answered as the list of its triples would answer it. A query takes
its candidates from the shorter of two index lists, from one of them, or from all slots; by
`Indexed.matching_eq` these candidates, once tested, are in every case the matching slots in
increasing order, so that an index only ever saves tests. From there

* `Indexed.find_eq`, `Indexed.contains_iff`: a query is a scan of the list;
* `Indexed.toList_removeMatching`, `Indexed.fst_removeMatching`: a removal takes the matching
  triples out of the list, and counts them;
* `Indexed.length_index`: an index has as many keys as different ones are held.

`Edit.run_represents` carries this through every sequence of insertions and removals.
-/
import Mathlib.Data.Finset.Card
import Stencil.Proofs.StoreIndex

namespace Stencil
set_option autoImplicit false

/-- The elements as they are first seen are the list with later repetitions erased. -/
theorem firstSeen_eq_eraseDups {α : Type} [DecidableEq α] (xs : List α) :
    firstSeen xs = xs.eraseDups := by
  induction xs using List.reverseRecOn with
  | nil => rfl
  | append_singleton xs x ih =>
      rw [List.eraseDups_append, ← ih, firstSeen, List.foldl_append, ← firstSeen, List.foldl_cons,
        List.foldl_nil]
      split
      · rename_i seen
        rw [mem_firstSeen] at seen
        simp [List.removeAll, seen]
      · rename_i unseen
        rw [mem_firstSeen] at unseen
        simp [List.removeAll, unseen, List.eraseDups_cons]

/-- A triple that meets a pattern has the subject that the pattern asks for. -/
theorem Pattern.subject_of_holds {p : Pattern} {t : Triple} {subject : Uri}
    (bound : p.subject = some subject) (met : p.holds t = true) : t.subject = subject := by
  simp only [holds, Bool.and_eq_true, agrees_iff] at met
  exact (met.1.1 subject bound).symm

theorem Pattern.predicate_of_holds {p : Pattern} {t : Triple} {predicate : Uri}
    (bound : p.predicate = some predicate) (met : p.holds t = true) : t.predicate = predicate := by
  simp only [holds, Bool.and_eq_true, agrees_iff] at met
  exact (met.1.2 predicate bound).symm

namespace Store

theorem extend_concat (s : Store) (ts : List Triple) (t : Triple) :
    s.extend (ts ++ [t]) = ((s.extend ts).1 + 1, (s.extend ts).2.insert t) := by
  rw [extend, List.foldl_append]
  rfl

theorem extend_eq (s : Store) (ts : List Triple) : s.extend ts = (ts.length, s.insertAll ts) := by
  induction ts using List.reverseRecOn with
  | nil => rfl
  | append_singleton ts t ih =>
      rw [extend_concat, ih, List.length_append, insertAll_append]
      rfl

theorem at?_foldl_vacate (hits : List Nat) (s : Store) (i : Nat) :
    (hits.foldl vacate s).at? i = if i ∈ hits then none else s.at? i := by
  induction hits generalizing s with
  | nil => rfl
  | cons hit hits ih =>
      rw [List.foldl_cons, ih, at?_vacate]
      by_cases later : i ∈ hits
      · simp [later]
      · by_cases now : i = hit <;> simp [later, now]

theorem size_slots_foldl_vacate (hits : List Nat) (s : Store) :
    (hits.foldl vacate s).slots.size = s.slots.size := by
  induction hits generalizing s with
  | nil => rfl
  | cons hit hits ih => rw [List.foldl_cons, ih, size_slots_vacate]

/-- How many different keys a list of triples has. -/
def distinct (key : Triple → Uri) (held : List Triple) : Nat := (held.map key).toFinset.card

namespace Indexed

variable {s : Store}

/-- Narrowing the candidates to the slots of a key loses no match, if all matches have the key. -/
theorem filter_slots {index : SlotIndex} {key : Triple → Uri} {p : Pattern} {k : Uri}
    (exact : index.Exact s.slots.size fun slot => (s.at? slot).map key)
    (asked : ∀ t, p.holds t = true → key t = k) :
    ((index.slots k).filter fun slot => (s.at? slot).any p.holds) =
      (List.range s.slots.size).filter fun slot => (s.at? slot).any p.holds := by
  rw [exact.slots_eq, List.filter_filter]
  apply List.filter_congr
  intro slot _
  cases s.at? slot with
  | none => simp
  | some t =>
      by_cases met : p.holds t = true
      · simp [met, asked t met]
      · simp [met]

/-- Whichever way the candidates are taken, the matching slots are those of a full scan. -/
theorem matching_eq (indexed : s.Indexed) (p : Pattern) :
    s.matching p = (List.range s.slots.size).filter fun slot => (s.at? slot).any p.holds := by
  have bySubject : ∀ subject, p.subject = some subject →
      ((s.bySubject.slots subject).filter fun slot => (s.at? slot).any p.holds) =
        (List.range s.slots.size).filter fun slot => (s.at? slot).any p.holds := by
    intro subject bound
    exact filter_slots indexed.subjects fun _ => Pattern.subject_of_holds bound
  have byPredicate : ∀ predicate, p.predicate = some predicate →
      ((s.byPredicate.slots predicate).filter fun slot => (s.at? slot).any p.holds) =
        (List.range s.slots.size).filter fun slot => (s.at? slot).any p.holds := by
    intro predicate bound
    exact filter_slots indexed.predicates fun _ => Pattern.predicate_of_holds bound
  unfold matching candidates
  cases subject : p.subject with
  | none =>
      cases predicate : p.predicate with
      | none => rfl
      | some k => exact byPredicate k predicate
  | some k =>
      cases predicate : p.predicate with
      | none => exact bySubject k subject
      | some l =>
          dsimp only
          split
          · exact bySubject k subject
          · exact byPredicate l predicate

/-- A query finds what a scan of the list finds, in order and as often. -/
theorem find_eq (indexed : s.Indexed) (p : Pattern) : s.find p = s.toList.filter p.holds := by
  rw [find, indexed.matching_eq, toList_eq_filterMap, List.filterMap_filter, List.filter_filterMap]
  apply List.filterMap_congr
  intro slot _
  cases s.at? slot with
  | none => rfl
  | some t => by_cases met : p.holds t = true <;> simp [met, Option.filter_some]

/-- There are as many matching slots as matching triples. -/
theorem length_matching (indexed : s.Indexed) (p : Pattern) :
    (s.matching p).length = (s.toList.filter p.holds).length := by
  have live : ∀ slot ∈ s.matching p, (s.at? slot).isSome = true := by
    intro slot hit
    rw [matching, List.mem_filter] at hit
    exact Option.isSome_of_any hit.2
  rw [← indexed.find_eq, find, List.length_filterMap_eq_countP, List.countP_eq_length.mpr live]

theorem contains_iff (indexed : s.Indexed) (p : Pattern) :
    s.contains p = true ↔ s.toList.filter p.holds ≠ [] := by
  have same := indexed.length_matching p
  rw [contains, Bool.not_eq_true', List.isEmpty_eq_false_iff, ← List.length_pos_iff, same,
    List.length_pos_iff]

theorem fst_removeMatching (indexed : s.Indexed) (p : Pattern) :
    (s.removeMatching p).1 = (s.toList.filter p.holds).length := indexed.length_matching p

/-- A removal leaves what does not match. -/
theorem toList_removeMatching (indexed : s.Indexed) (p : Pattern) :
    (s.removeMatching p).2.toList = s.toList.filter fun t => !p.holds t := by
  have after : (s.removeMatching p).2 = (s.matching p).foldl Store.vacate s := rfl
  rw [after, toList_eq_filterMap, toList_eq_filterMap, size_slots_foldl_vacate,
    List.filter_filterMap]
  apply List.filterMap_congr
  intro slot inside
  have hit : slot ∈ s.matching p ↔ (s.at? slot).any p.holds = true := by
    rw [indexed.matching_eq, List.mem_filter, and_iff_right inside]
  rw [at?_foldl_vacate]
  cases held : s.at? slot with
  | none => simp
  | some t =>
      rw [held, Option.any_some] at hit
      by_cases met : p.holds t = true
      · rw [if_pos (hit.mpr met)]
        simp [met, Option.filter_some]
      · rw [if_neg (mt hit.mp met)]
        simp [met, Option.filter_some]

theorem size_eq (indexed : s.Indexed) : s.size = s.toList.length := by
  rw [indexed.counted, toList_eq_filterMap, List.length_filterMap_eq_countP,
    List.countP_eq_length_filter, live]

theorem mem_map_toList_iff {key : Triple → Uri} {k : Uri} :
    k ∈ s.toList.map key ↔ ∃ slot < s.slots.size, (s.at? slot).map key = some k := by
  rw [toList_eq_filterMap]
  simp only [List.mem_map, List.mem_filterMap, List.mem_range, Option.map_eq_some_iff]
  grind

/-- An exact index has as many keys as different ones are held. -/
theorem length_index {index : SlotIndex} {key : Triple → Uri}
    (exact : index.Exact s.slots.size fun slot => (s.at? slot).map key) :
    index.length = distinct key s.toList := by
  have same : index.keys.toFinset = (s.toList.map key).toFinset := by
    ext k
    rw [List.mem_toFinset, List.mem_toFinset, exact.mem_keys_iff, mem_map_toList_iff]
  rw [distinct, ← same, List.toFinset_card_of_nodup exact.distinct, SlotIndex.keys,
    List.length_map]

theorem summary_eq (indexed : s.Indexed) {held : List Triple} (view : s.toList = held) :
    s.summary =
      s!"RelationStore \x7b triples: {held.length}, subjects: {distinct Triple.subject held}, " ++
        s!"predicates: {distinct Triple.predicate held} \x7d" := by
  rw [← view, ← length_index indexed.subjects, ← length_index indexed.predicates,
    ← indexed.size_eq]
  unfold summary
  rfl

end Indexed

/-! ## Sequences of edits -/

/-- The ways to change a store. -/
inductive Edit where
  | insert (t : Triple)
  | extend (ts : List Triple)
  | remove (p : Pattern)

/-- A store after an edit. -/
def Edit.apply (s : Store) : Edit → Store
  | .insert t => s.insert t
  | .extend ts => (s.extend ts).2
  | .remove p => (s.removeMatching p).2

/-- A plain list after an edit: insertions go to the end, a removal takes out what matches. -/
def Edit.onList (held : List Triple) : Edit → List Triple
  | .insert t => held ++ [t]
  | .extend ts => held ++ ts
  | .remove p => held.filter fun t => !p.holds t

/-- All that a store can be asked has the answer that is read off a plain list. -/
structure Represents (s : Store) (held : List Triple) : Prop where
  iter : s.toList = held
  find : ∀ p, s.find p = held.filter p.holds
  contains : ∀ p, s.contains p = true ↔ held.filter p.holds ≠ []
  removed : ∀ p, (s.removeMatching p).1 = (held.filter p.holds).length
  extended : ∀ ts, (s.extend ts).1 = ts.length
  size : s.size = held.length
  isEmpty : s.isEmpty = true ↔ held = []
  subjects : s.subjects = (held.map Triple.subject).eraseDups
  summary :
    s.summary =
      s!"RelationStore \x7b triples: {held.length}, subjects: {distinct Triple.subject held}, " ++
        s!"predicates: {distinct Triple.predicate held} \x7d"

/-- An indexed store stands for the list of its triples. -/
theorem Indexed.represents {s : Store} (indexed : s.Indexed) : s.Represents s.toList where
  iter := rfl
  find := indexed.find_eq
  contains := indexed.contains_iff
  removed := indexed.fst_removeMatching
  extended ts := by rw [extend_eq]
  size := indexed.size_eq
  isEmpty := by rw [isEmpty, beq_iff_eq, indexed.size_eq, List.length_eq_zero_iff]
  subjects := firstSeen_eq_eraseDups _
  summary := indexed.summary_eq rfl

/-- One edit keeps the indexes exact and does to the list held what it does to a plain list. -/
theorem Edit.apply_spec {s : Store} (indexed : s.Indexed) (edit : Edit) :
    (edit.apply s).Indexed ∧ (edit.apply s).toList = edit.onList s.toList := by
  cases edit with
  | insert t => exact ⟨indexed.insert t, toList_insert s t⟩
  | extend ts =>
      rw [apply, extend_eq]
      exact ⟨indexed.insertAll ts, toList_insertAll s ts⟩
  | remove p => exact ⟨indexed.removeMatching p, indexed.toList_removeMatching p⟩

theorem Edit.run_spec {s : Store} (indexed : s.Indexed) (edits : List Edit) :
    (edits.foldl Edit.apply s).Indexed ∧
      (edits.foldl Edit.apply s).toList = edits.foldl Edit.onList s.toList := by
  induction edits generalizing s with
  | nil => exact ⟨indexed, rfl⟩
  | cons edit edits ih =>
      obtain ⟨kept, view⟩ := Edit.apply_spec indexed edit
      rw [List.foldl_cons, List.foldl_cons, ← view]
      exact ih kept

/-- After any edits of the empty store, everything it answers is what the plain list answers that
the same edits made of the empty list. -/
theorem Edit.run_represents (edits : List Edit) :
    (edits.foldl Edit.apply .empty).Represents (edits.foldl Edit.onList []) := by
  obtain ⟨indexed, view⟩ := Edit.run_spec indexed_empty edits
  rw [toList_empty] at view
  rw [← view]
  exact indexed.represents

end Store

end Stencil
