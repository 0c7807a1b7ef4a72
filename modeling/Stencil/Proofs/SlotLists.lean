/- # Proofs.SlotLists -- what the indexes of a store list, slot by slot

`Proofs.StoreIndex` keeps the invariant that both indexes are exact. Here it is read off slot by slot, for
every store that edits make of the empty one (`Edit.build_slot_lists`):

* `ListsBy`: under a key stand, in increasing order, just the slots that now hold a triple with this key, and
  no key stands there without slots;
* the counter is the number of slots that hold a triple;
* `RemovesInBounds`: a query and a removal look only at slots that are there. A removal empties its slots one
  after another, and whenever it comes to the next one this slot still holds its triple, so that the counter
  is not zero when one is taken off. The slots of a removal are all different, which is what carries this
  from the first of them to the last.
-/
import Stencil.Proofs.StoreRefinement

namespace Stencil.Store
set_option autoImplicit false

/-- The lists of an index of a store, by what the slots hold now. -/
structure ListsBy (s : Store) (index : SlotIndex) (key : Triple → Uri) : Prop where
  increasing : ∀ k, (index.slots k).Pairwise (· < ·)
  inBounds : ∀ k, ∀ slot ∈ index.slots k, slot < s.slots.size
  mem_iff : ∀ k slot, slot ∈ index.slots k ↔ ∃ t, s.slots[slot]? = some (some t) ∧ key t = k
  oneList : index.keys.Nodup
  noneEmpty : ∀ entry ∈ index, entry.2 ≠ []

/-- What a removal touches is there: the slots it tests, and each slot it empties at the time it is emptied,
when the counter still counts its triple. -/
structure RemovesInBounds (s : Store) (p : Pattern) : Prop where
  tested : ∀ slot ∈ s.candidates p, slot < s.slots.size
  emptied : ∀ done hit rest, s.matching p = done ++ hit :: rest →
    (∃ t, (done.foldl vacate s).slots[hit]? = some (some t)) ∧ 0 < (done.foldl vacate s).size
  counted : (s.removeMatching p).2.size + (s.removeMatching p).1 = s.size

theorem at?_eq_some_iff {s : Store} {slot : Nat} {t : Triple} :
    s.at? slot = some t ↔ s.slots[slot]? = some (some t) := by
  rw [at?, Option.join_eq_some_iff]

namespace Indexed

variable {s : Store}

theorem mem_slots_iff {index : SlotIndex} {key : Triple → Uri}
    (exact : index.Exact s.slots.size fun slot => (s.at? slot).map key) {k : Uri} {slot : Nat} :
    slot ∈ index.slots k ↔ slot < s.slots.size ∧ ∃ t, s.at? slot = some t ∧ key t = k := by
  rw [exact.slots_eq, List.mem_filter, List.mem_range, decide_eq_true_eq, Option.map_eq_some_iff]

/-- An exact index lists, slot by slot, what its slots hold. -/
theorem listsBy {index : SlotIndex} {key : Triple → Uri}
    (exact : index.Exact s.slots.size fun slot => (s.at? slot).map key) : s.ListsBy index key where
  increasing k := by
    rw [exact.slots_eq]
    exact List.pairwise_lt_range.filter _
  inBounds k slot listed := ((mem_slots_iff exact).mp listed).1
  mem_iff k slot := by
    rw [mem_slots_iff exact]
    constructor
    · rintro ⟨-, t, held, keyed⟩
      exact ⟨t, at?_eq_some_iff.mp held, keyed⟩
    · rintro ⟨t, held, keyed⟩
      obtain ⟨inside, -⟩ := Array.getElem?_eq_some_iff.mp held
      exact ⟨inside, t, at?_eq_some_iff.mpr held, keyed⟩
  oneList := exact.distinct
  noneEmpty := exact.listed

theorem size_eq_countP (indexed : s.Indexed) : s.size = s.slots.countP Option.isSome := by
  rw [indexed.size_eq, toList, List.length_filterMap_eq_countP, ← Array.countP_toList]
  rfl

/-- Wherever its candidates come from, a query tests slots that are there. -/
theorem candidates_inBounds (indexed : s.Indexed) (p : Pattern) :
    ∀ slot ∈ s.candidates p, slot < s.slots.size := by
  have bySubject := (listsBy indexed.subjects).inBounds
  have byPredicate := (listsBy indexed.predicates).inBounds
  unfold candidates
  split
  · dsimp only
    split
    · exact bySubject _
    · exact byPredicate _
  · exact bySubject _
  · exact byPredicate _
  · intro slot listed
    exact List.mem_range.mp listed

/-- A slot that holds a triple is counted. -/
theorem size_pos {slot : Nat} {t : Triple} (indexed : s.Indexed) (held : s.at? slot = some t) :
    0 < s.size := by
  rw [indexed.counted]
  exact List.length_pos_of_mem (mem_live_of_at? held)

/-- When a removal comes to a slot, the slots emptied before are other ones. -/
theorem occupied_when_emptied (indexed : s.Indexed) {p : Pattern} {done rest : List Nat} {hit : Nat}
    (order : s.matching p = done ++ hit :: rest) :
    ∃ t, (done.foldl Store.vacate s).at? hit = some t := by
  have distinct : (s.matching p).Nodup := by
    rw [indexed.matching_eq]
    exact List.nodup_range.filter _
  have later : hit ∉ done := by
    rw [order, List.nodup_append] at distinct
    intro earlier
    exact distinct.2.2 hit earlier hit List.mem_cons_self rfl
  have matched : hit ∈ s.matching p := by
    rw [order]
    simp
  rw [matching, List.mem_filter] at matched
  obtain ⟨t, held, -⟩ := Option.any_eq_true _ _ |>.mp matched.2
  exact ⟨t, by rw [at?_foldl_vacate, if_neg later, held]⟩

theorem removesInBounds (indexed : s.Indexed) (p : Pattern) : s.RemovesInBounds p where
  tested := indexed.candidates_inBounds p
  emptied done hit rest order := by
    obtain ⟨t, held⟩ := indexed.occupied_when_emptied order
    exact ⟨⟨t, at?_eq_some_iff.mp held⟩, (indexed.foldl_vacate done).size_pos held⟩
  counted := by
    have parted := List.length_eq_length_filter_add (l := s.toList) p.holds
    rw [(indexed.removeMatching p).size_eq, indexed.toList_removeMatching, indexed.fst_removeMatching,
      indexed.size_eq]
    omega

end Indexed

/-- The store that edits make of the empty one. -/
def Edit.build (edits : List Edit) : Store := edits.foldl Edit.apply empty

/-- **The indexes of a store are exact.** After any edits of the empty store, each index lists under a key just
the slots that hold a triple with this key, in increasing order, and keeps no key without slots; the counter is
the number of slots that hold a triple; and no removal touches a slot that is not there or takes one off a
counter that is zero. -/
theorem Edit.build_slot_lists (edits : List Edit) :
    (build edits).ListsBy (build edits).bySubject Triple.subject ∧
      (build edits).ListsBy (build edits).byPredicate Triple.predicate ∧
      (build edits).size = (build edits).slots.countP Option.isSome ∧
      ∀ p, (build edits).RemovesInBounds p := by
  have indexed : (build edits).Indexed := (Edit.run_spec indexed_empty edits).1
  exact ⟨Indexed.listsBy indexed.subjects, Indexed.listsBy indexed.predicates, indexed.size_eq_countP,
    indexed.removesInBounds⟩

-- the slots of a removal are emptied one by one, and the key that loses its last slot goes on the way
example :
    (Edit.build [.extend [⟨⟨"a"⟩, ⟨"x"⟩, .uri ⟨"b"⟩⟩, ⟨⟨"a"⟩, ⟨"y"⟩, .uri ⟨"b"⟩⟩,
      ⟨⟨"b"⟩, ⟨"x"⟩, .uri ⟨"a"⟩⟩], .remove { predicate := some ⟨"x"⟩ }]).bySubject = [(⟨"a"⟩, [1])] := by
  decide

end Stencil.Store
