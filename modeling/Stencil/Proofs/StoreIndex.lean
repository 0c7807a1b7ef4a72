/- # Proofs.StoreIndex -- the two indexes of a store are exact

A query trusts an index: slots that an index does not list under a key are never looked at. The
invariant behind this is `SlotIndex.Exact`: under every key an index lists, in increasing order, the
slots that hold the key now, and it keeps no key without slots. `Store.Indexed` asks it of both
indexes and asks that the counter counts the triples held. Each way to change a store keeps it:

* `Store.Indexed.insert`: the new slot is greater than all others, so it goes to the end of its
  lists;
* `Store.Indexed.vacate`: the emptied slot leaves both lists, and a key that has lost its last slot
  leaves the index;
* `Store.Indexed.removeMatching`: a removal empties one slot after another.

What a store answers is read off the invariant in `Proofs.StoreRefinement`.
-/
import Mathlib.Data.List.Induction
import Mathlib.Data.List.Nodup
import Stencil.Triple.Store

namespace Stencil
set_option autoImplicit false

namespace SlotIndex

/-! ## One index -/

/-- The keys that have slots. -/
def keys (index : SlotIndex) : List Uri := index.map Prod.fst

@[simp] theorem keys_cons (k : Uri) (held : List Nat) (rest : SlotIndex) :
    keys ((k, held) :: rest) = k :: keys rest := rfl

theorem slots_cons (k : Uri) (held : List Nat) (rest : SlotIndex) (key : Uri) :
    slots ((k, held) :: rest) key = if key = k then held else slots rest key := by
  unfold slots
  rw [List.lookup_cons]
  by_cases same : key = k
  · rw [if_pos same, same, beq_self_eq_true]
    rfl
  · rw [if_neg same, beq_false_of_ne same]

/-- A key that is not there has no slots. -/
theorem slots_eq_nil_of_not_mem {index : SlotIndex} {key : Uri} (absent : key ∉ index.keys) :
    index.slots key = [] := by
  induction index with
  | nil => rfl
  | cons entry rest ih =>
      obtain ⟨k, held⟩ := entry
      rw [keys_cons, List.mem_cons, not_or] at absent
      rw [slots_cons, if_neg absent.1, ih absent.2]

/-- A slot that is added goes to the end of the list of its key. -/
theorem slots_add (index : SlotIndex) (key : Uri) (slot : Nat) (k : Uri) :
    (index.add key slot).slots k = if k = key then index.slots k ++ [slot] else index.slots k := by
  induction index with
  | nil =>
      rw [add, slots_cons]
      rfl
  | cons entry rest ih =>
      obtain ⟨first, held⟩ := entry
      rw [add]
      by_cases here : first = key
      · subst here
        rw [if_pos rfl, slots_cons, slots_cons]
        by_cases same : k = first <;> simp [same]
      · rw [if_neg here, slots_cons, slots_cons, ih]
        by_cases same : k = first
        · subst same
          simp [here]
        · simp [same]

/-- A slot under a new key brings the key in at the end. -/
theorem keys_add (index : SlotIndex) (key : Uri) (slot : Nat) :
    (index.add key slot).keys = if key ∈ index.keys then index.keys else index.keys ++ [key] := by
  induction index with
  | nil => rfl
  | cons entry rest ih =>
      obtain ⟨first, held⟩ := entry
      rw [add]
      by_cases here : first = key
      · subst here
        simp
      · have other : key ≠ first := Ne.symm here
        rw [if_neg here, keys_cons, ih, keys_cons]
        by_cases there : key ∈ keys rest <;> simp [other, there]

theorem keys_drop_sublist (index : SlotIndex) (key : Uri) (slot : Nat) :
    (index.drop key slot).keys.Sublist index.keys := by
  induction index with
  | nil => exact List.Sublist.refl _
  | cons entry rest ih =>
      obtain ⟨first, held⟩ := entry
      rw [drop]
      by_cases here : first = key
      · rw [if_pos here]
        dsimp only
        split
        · exact List.sublist_cons_self _ _
        · exact List.Sublist.refl _
      · rw [if_neg here]
        exact ih.cons_cons first

/-- A slot that is dropped leaves the list of its key and no other. The keys have to be different:
an emptied list goes away with its key, and a second list of the same key would come to light. -/
theorem slots_drop {index : SlotIndex} (distinct : index.keys.Nodup) (key : Uri) (slot : Nat)
    (k : Uri) :
    (index.drop key slot).slots k =
      if k = key then (index.slots k).filter (· ≠ slot) else index.slots k := by
  induction index with
  | nil => by_cases same : k = key <;> simp [drop, slots]
  | cons entry rest ih =>
      obtain ⟨first, held⟩ := entry
      rw [keys_cons, List.nodup_cons] at distinct
      rw [drop]
      by_cases here : first = key
      · subst here
        rw [if_pos rfl, slots_cons]
        dsimp only
        have gone : slots rest first = [] := slots_eq_nil_of_not_mem distinct.1
        split
        · rename_i emptied
          rw [List.isEmpty_iff] at emptied
          by_cases same : k = first
          · subst same
            rw [if_pos rfl, if_pos rfl, emptied, gone]
          · rw [if_neg same, if_neg same]
        · rw [slots_cons]
          by_cases same : k = first <;> simp [same]
      · rw [if_neg here, slots_cons, slots_cons, ih distinct.2]
        by_cases same : k = first
        · subst same
          simp [here]
        · simp [same]

theorem add_ne_nil {index : SlotIndex} {key : Uri} {slot : Nat}
    (listed : ∀ entry ∈ index, entry.2 ≠ []) :
    ∀ entry ∈ index.add key slot, entry.2 ≠ [] := by
  induction index with
  | nil => simp [add]
  | cons first rest ih =>
      obtain ⟨k, held⟩ := first
      rw [List.forall_mem_cons] at listed
      rw [add]
      split
      · rw [List.forall_mem_cons]
        exact ⟨by simp, listed.2⟩
      · rw [List.forall_mem_cons]
        exact ⟨listed.1, ih listed.2⟩

theorem drop_ne_nil {index : SlotIndex} {key : Uri} {slot : Nat}
    (listed : ∀ entry ∈ index, entry.2 ≠ []) :
    ∀ entry ∈ index.drop key slot, entry.2 ≠ [] := by
  induction index with
  | nil => simp [drop]
  | cons first rest ih =>
      obtain ⟨k, held⟩ := first
      rw [List.forall_mem_cons] at listed
      rw [drop]
      split
      · dsimp only
        split
        · exact listed.2
        · rename_i kept
          rw [List.forall_mem_cons]
          exact ⟨by simpa using kept, listed.2⟩
      · rw [List.forall_mem_cons]
        exact ⟨listed.1, ih listed.2⟩

/-- The index lists under every key, in increasing order, those of the first `n` slots that hold it,
where `key?` tells what a slot holds; and it keeps no key without slots. -/
structure Exact (index : SlotIndex) (n : Nat) (key? : Nat → Option Uri) : Prop where
  distinct : index.keys.Nodup
  listed : ∀ entry ∈ index, entry.2 ≠ []
  slots_eq : ∀ key, index.slots key = (List.range n).filter (key? · = some key)

namespace Exact

variable {index : SlotIndex} {n : Nat} {key? : Nat → Option Uri}

theorem nil (key? : Nat → Option Uri) : Exact [] 0 key? :=
  ⟨List.nodup_nil, by simp, fun _ => rfl⟩

/-- The keys are the ones that some slot holds. -/
theorem mem_keys_iff (exact : Exact index n key?) {key : Uri} :
    key ∈ index.keys ↔ ∃ slot < n, key? slot = some key := by
  have held : key ∈ index.keys ↔ index.slots key ≠ [] := by
    constructor
    · intro present
      have listed := exact.listed
      clear exact
      induction index with
      | nil => simp [keys] at present
      | cons entry rest ih =>
          obtain ⟨first, slots⟩ := entry
          rw [List.forall_mem_cons] at listed
          rw [slots_cons]
          by_cases same : key = first
          · rw [if_pos same]
            exact listed.1
          · rw [keys_cons, List.mem_cons] at present
            rw [if_neg same]
            exact ih (present.resolve_left same) listed.2
    · intro some_slot
      by_contra absent
      exact some_slot (slots_eq_nil_of_not_mem absent)
  rw [held, exact.slots_eq, Ne, List.filter_eq_nil_iff]
  simp

/-- One more slot, holding a key: the slot is added under that key. -/
theorem add (exact : Exact index n key?) {next? : Nat → Option Uri} {key : Uri}
    (before : ∀ slot < n, next? slot = key? slot) (last : next? n = some key) :
    Exact (index.add key n) (n + 1) next? where
  distinct := by
    rw [keys_add]
    split
    · exact exact.distinct
    · rename_i absent
      exact List.nodup_append_comm.mp (List.nodup_cons.mpr ⟨absent, exact.distinct⟩)
  listed := add_ne_nil exact.listed
  slots_eq k := by
    have kept : (List.range n).filter (next? · = some k) = index.slots k := by
      rw [exact.slots_eq]
      apply List.filter_congr
      intro slot below
      rw [before slot (List.mem_range.mp below)]
    rw [slots_add, List.range_succ, List.filter_append, kept]
    by_cases same : k = key
    · subst same
      simp [last]
    · have other : key ≠ k := Ne.symm same
      simp [last, same, other]

/-- A slot is emptied: it is dropped from under its key. -/
theorem drop (exact : Exact index n key?) {next? : Nat → Option Uri} {key : Uri} {slot : Nat}
    (held : key? slot = some key) (gone : ∀ i, next? i = if i = slot then none else key? i) :
    Exact (index.drop key slot) n next? where
  distinct := (keys_drop_sublist index key slot).nodup exact.distinct
  listed := drop_ne_nil exact.listed
  slots_eq k := by
    rw [slots_drop exact.distinct, exact.slots_eq]
    by_cases same : k = key
    · rw [if_pos same, List.filter_filter]
      apply List.filter_congr
      intro i _
      rw [gone]
      by_cases here : i = slot <;> simp [here]
    · rw [if_neg same]
      apply List.filter_congr
      intro i _
      rw [gone]
      by_cases here : i = slot
      · have other : key ≠ k := Ne.symm same
        simp [here, held, other]
      · simp [here]

end Exact

end SlotIndex

namespace Store

/-! ## Slots -/

theorem at?_of_size_le {s : Store} {slot : Nat} (outside : s.slots.size ≤ slot) :
    s.at? slot = none := by
  simp [at?, outside]

/-- The triples held are those found going through the slots. -/
theorem toList_eq_filterMap (s : Store) :
    s.toList = (List.range s.slots.size).filterMap s.at? := by
  have through : ∀ slots : List (Option Triple),
      slots.filterMap id = (List.range slots.length).filterMap fun slot => slots[slot]?.join := by
    intro slots
    induction slots using List.reverseRecOn with
    | nil => rfl
    | append_singleton slots last ih =>
        rw [List.filterMap_append, List.length_append, List.length_singleton, List.range_succ,
          List.filterMap_append, ih]
        congr 1
        · apply List.filterMap_congr
          intro slot below
          rw [List.getElem?_append_left (List.mem_range.mp below)]
        · cases last <;> simp
  rw [toList, through]
  apply List.filterMap_congr
  intro slot _
  rw [at?, Array.getElem?_toList]

theorem at?_insert (s : Store) (t : Triple) (slot : Nat) :
    (s.insert t).at? slot = if slot = s.slots.size then some t else s.at? slot := by
  simp only [at?, insert, Array.getElem?_push]
  split <;> rfl

@[simp] theorem size_slots_insert (s : Store) (t : Triple) :
    (s.insert t).slots.size = s.slots.size + 1 := by
  simp [insert]

@[simp] theorem size_slots_vacate (s : Store) (slot : Nat) :
    (s.vacate slot).slots.size = s.slots.size := by
  unfold vacate
  split
  · rfl
  · simp

@[simp] theorem at?_vacate (s : Store) (slot i : Nat) :
    (s.vacate slot).at? i = if i = slot then none else s.at? i := by
  unfold vacate
  split
  · rename_i vacant
    split
    · rename_i same
      rw [same, vacant]
    · rfl
  · simp only [at?, Array.getElem?_setIfInBounds]
    by_cases same : i = slot
    · subst same
      by_cases inside : i < s.slots.size <;> simp [inside]
    · have other : slot ≠ i := Ne.symm same
      simp [same, other]

/-- The new slot goes into an exact index under the key of the new triple. -/
theorem exact_insert {s : Store} {index : SlotIndex} {key : Triple → Uri}
    (exact : index.Exact s.slots.size fun slot => (s.at? slot).map key) (t : Triple) :
    (index.add (key t) s.slots.size).Exact (s.insert t).slots.size
      fun slot => ((s.insert t).at? slot).map key := by
  rw [size_slots_insert]
  refine exact.add ?_ ?_
  · intro slot below
    rw [at?_insert, if_neg (Nat.ne_of_lt below)]
  · rw [at?_insert, if_pos rfl]
    rfl

/-- An emptied slot goes out of an exact index, from under the key of the triple it held. -/
theorem exact_vacate {s : Store} {index : SlotIndex} {key : Triple → Uri} {slot : Nat} {t : Triple}
    (exact : index.Exact s.slots.size fun slot => (s.at? slot).map key)
    (occupied : s.at? slot = some t) :
    (index.drop (key t) slot).Exact (s.vacate slot).slots.size
      fun i => ((s.vacate slot).at? i).map key := by
  rw [size_slots_vacate]
  refine exact.drop ?_ ?_
  · rw [occupied]
    rfl
  · intro i
    rw [at?_vacate]
    split <;> rfl

/-- The slots that hold a triple. -/
def live (s : Store) : List Nat := (List.range s.slots.size).filter fun slot => (s.at? slot).isSome

theorem live_insert (s : Store) (t : Triple) : (s.insert t).live = s.live ++ [s.slots.size] := by
  have below : (List.range s.slots.size).filter (fun slot => ((s.insert t).at? slot).isSome) =
      s.live := by
    apply List.filter_congr
    intro slot inside
    rw [at?_insert, if_neg (Nat.ne_of_lt (List.mem_range.mp inside))]
  have last : [s.slots.size].filter (fun slot => ((s.insert t).at? slot).isSome) =
      [s.slots.size] := by
    simp [at?_insert]
  rw [live, size_slots_insert, List.range_succ, List.filter_append, below, last]

theorem live_vacate (s : Store) (slot : Nat) : (s.vacate slot).live = s.live.erase slot := by
  rw [live, live, (List.nodup_range.filter _).erase_eq_filter, List.filter_filter,
    size_slots_vacate]
  apply List.filter_congr
  intro i _
  rw [at?_vacate]
  by_cases here : i = slot <;> simp [here]

theorem mem_live_of_at? {s : Store} {slot : Nat} {t : Triple} (occupied : s.at? slot = some t) :
    slot ∈ s.live := by
  rw [live, List.mem_filter, List.mem_range, occupied]
  refine ⟨?_, rfl⟩
  by_contra outside
  rw [at?_of_size_le (Nat.le_of_not_lt outside)] at occupied
  cases occupied

/-! ## The invariant -/

/-- Both indexes are exact, and the counter counts the slots that hold a triple. -/
structure Indexed (s : Store) : Prop where
  subjects : s.bySubject.Exact s.slots.size fun slot => (s.at? slot).map Triple.subject
  predicates : s.byPredicate.Exact s.slots.size fun slot => (s.at? slot).map Triple.predicate
  counted : s.size = s.live.length

theorem indexed_empty : empty.Indexed := ⟨.nil _, .nil _, rfl⟩

namespace Indexed

variable {s : Store}

theorem insert (indexed : s.Indexed) (t : Triple) : (s.insert t).Indexed where
  subjects := exact_insert indexed.subjects t
  predicates := exact_insert indexed.predicates t
  counted := by
    rw [live_insert, List.length_append, ← indexed.counted]
    rfl

theorem insertAll (indexed : s.Indexed) (ts : List Triple) : (s.insertAll ts).Indexed := by
  induction ts generalizing s with
  | nil => exact indexed
  | cons t ts ih => exact ih (indexed.insert t)

theorem vacate (indexed : s.Indexed) (slot : Nat) : (s.vacate slot).Indexed := by
  cases occupied : s.at? slot with
  | none =>
      have same : s.vacate slot = s := by
        simp [Store.vacate, occupied]
      rw [same]
      exact indexed
  | some t =>
      have subjects := exact_vacate indexed.subjects occupied
      have predicates := exact_vacate indexed.predicates occupied
      have counted : s.size - 1 = (s.vacate slot).live.length := by
        rw [live_vacate, List.length_erase_of_mem (mem_live_of_at? occupied), indexed.counted]
      rw [Store.vacate, occupied] at subjects predicates counted ⊢
      exact ⟨subjects, predicates, counted⟩

theorem foldl_vacate (indexed : s.Indexed) (hits : List Nat) :
    (hits.foldl Store.vacate s).Indexed := by
  induction hits generalizing s with
  | nil => exact indexed
  | cons hit hits ih => exact ih (indexed.vacate hit)

theorem removeMatching (indexed : s.Indexed) (p : Pattern) : (s.removeMatching p).2.Indexed :=
  indexed.foldl_vacate (s.matching p)

end Indexed

end Store

end Stencil
