/- # Proofs.ContextTable -- putting a key replaces its value and nothing else

A context keeps the binding of a key as a triple of a shared store, and putting a key is removing
what is there and then inserting. Read through the list that the store represents, the removal
takes out the triples of exactly this root and key, so the last triple found under any other root
or key is the one found before.
-/
import Stencil.Proofs.StoreRefinement
import Stencil.Triple.Context

namespace Stencil
set_option autoImplicit false

/-- The root and the key that a triple binds. -/
def Triple.place (t : Triple) : Uri × String := (t.subject, t.predicate.id)

namespace Context

variable {s : Store}

/-- The triples that bind a key are those of the root and the key. -/
theorem holds_pattern_iff {c : Context} {key : String} {t : Triple} :
    (c.pattern key).holds t = true ↔ t.subject = c.root ∧ t.predicate = ⟨key⟩ := by
  simp only [pattern, Pattern.holds, Bool.and_eq_true, Pattern.agrees_iff]
  constructor
  · rintro ⟨⟨root, named⟩, -⟩
    exact ⟨(root _ rfl).symm, (named _ rfl).symm⟩
  · rintro ⟨root, named⟩
    exact ⟨⟨by simp [root], by simp [named]⟩, by simp⟩

theorem holds_pattern_eq (c : Context) (key : String) (t : Triple) :
    (c.pattern key).holds t = decide ((c.root, key) = t.place) := by
  have binds : (c.pattern key).holds t = true ↔ (c.root, key) = t.place := by
    rw [holds_pattern_iff]
    constructor
    · rintro ⟨root, named⟩
      rw [Triple.place, root, named]
    · intro same
      obtain ⟨root, named⟩ := Prod.mk.inj same
      exact ⟨root.symm, by rw [named]⟩
  rw [Bool.eq_iff_iff, decide_eq_true_eq, binds]

/-! ## What is asked -/

theorem get?_eq (indexed : s.Indexed) (c : Context) (key : String) :
    c.get? s key = ((s.toList.filter (c.pattern key).holds).getLast?).map Triple.object := by
  rw [get?, indexed.find_eq]

/-- A key is there just if it has a value. -/
theorem contains_eq (indexed : s.Indexed) (c : Context) (key : String) :
    c.contains s key = (c.get? s key).isSome := by
  rw [Bool.eq_iff_iff, contains, indexed.contains_iff, get?_eq indexed, Option.isSome_map,
    List.getLast?_isSome]

/-- Every triple of the root is an entry. -/
theorem entries_eq (indexed : s.Indexed) (c : Context) :
    c.entries s =
      (s.toList.filter fun t => t.subject = c.root).map fun t => (t.predicate.id, t.object) := by
  rw [entries, indexed.find_eq]
  congr 1
  apply List.filter_congr
  intro t _
  simp [Pattern.holds, Pattern.agrees, eq_comm]

/-! ## What is changed -/

theorem get?_insert (indexed : s.Indexed) (t : Triple) (c : Context) (key : String) :
    c.get? (s.insert t) key = if (c.root, key) = t.place then some t.object else c.get? s key := by
  rw [get?_eq (indexed.insert t), get?_eq indexed, Store.toList_insert, List.filter_append]
  split
  · rename_i same
    have bound : (c.pattern key).holds t = true := by rw [holds_pattern_eq, decide_eq_true same]
    rw [List.filter_cons_of_pos bound, List.filter_nil, List.getLast?_concat, Option.map_some]
  · rename_i differ
    have unbound : ¬(c.pattern key).holds t = true := by
      rw [holds_pattern_eq, decide_eq_true_eq]
      exact differ
    rw [List.filter_cons_of_neg unbound, List.filter_nil, List.append_nil]

theorem indexed_remove (indexed : s.Indexed) (c : Context) (key : String) :
    (c.remove s key).2.Indexed := indexed.removeMatching _

theorem toList_remove (indexed : s.Indexed) (c : Context) (key : String) :
    (c.remove s key).2.toList = s.toList.filter fun t => !(c.pattern key).holds t :=
  indexed.toList_removeMatching _

/-- The answer of a removal is whether the key was there. -/
theorem fst_remove (c : Context) (s : Store) (key : String) :
    (c.remove s key).1 = c.contains s key := by
  rw [Bool.eq_iff_iff, remove, Store.removeMatching, contains, Store.contains, decide_eq_true_eq,
    List.length_pos_iff, Bool.not_eq_true', List.isEmpty_eq_false_iff]

theorem get?_remove (indexed : s.Indexed) (d : Context) (k : String) (c : Context) (key : String) :
    c.get? (d.remove s k).2 key = if (c.root, key) = (d.root, k) then none else c.get? s key := by
  rw [get?_eq (indexed_remove indexed d k), get?_eq indexed, toList_remove indexed,
    List.filter_filter]
  split
  · rename_i same
    simp [holds_pattern_eq, same]
  · rename_i differ
    congr 2
    apply List.filter_congr
    intro t _
    rw [holds_pattern_eq, holds_pattern_eq]
    by_cases bound : (c.root, key) = t.place
    · rw [bound] at differ
      simp [bound, Ne.symm differ]
    · simp [bound]

theorem toList_put (indexed : s.Indexed) (c : Context) (key : String) (v : Value) :
    (c.put s key v).toList =
      (s.toList.filter fun t => !(c.pattern key).holds t) ++ [⟨c.root, ⟨key⟩, v⟩] := by
  rw [put, Store.toList_insert, indexed.toList_removeMatching]

theorem indexed_put (indexed : s.Indexed) (c : Context) (key : String) (v : Value) :
    (c.put s key v).Indexed := (indexed.removeMatching _).insert _

/-- However many triples bound the key before, one does after it is put. -/
theorem find_put (indexed : s.Indexed) (c : Context) (key : String) (v : Value) :
    (c.put s key v).find (c.pattern key) = [⟨c.root, ⟨key⟩, v⟩] := by
  have bound : (c.pattern key).holds ⟨c.root, ⟨key⟩, v⟩ = true := holds_pattern_iff.mpr ⟨rfl, rfl⟩
  rw [(indexed_put indexed c key v).find_eq, toList_put indexed, List.filter_append,
    List.filter_filter, List.filter_cons_of_pos bound, List.filter_nil]
  simp

/-- Putting is removing and then inserting. -/
theorem get?_put (indexed : s.Indexed) (d : Context) (k : String) (v : Value) (c : Context)
    (key : String) :
    c.get? (d.put s k v) key = if (c.root, key) = (d.root, k) then some v else c.get? s key := by
  calc c.get? (d.put s k v) key
      = if (c.root, key) = (d.root, k) then some v else c.get? (d.remove s k).2 key :=
        get?_insert (indexed_remove indexed d k) ⟨d.root, ⟨k⟩, v⟩ c key
    _ = if (c.root, key) = (d.root, k) then some v else c.get? s key := by
        rw [get?_remove indexed]
        split <;> rfl

theorem get?_put_self (indexed : s.Indexed) (c : Context) (key : String) (v : Value) :
    c.get? (c.put s key v) key = some v := by
  rw [get?_put indexed, if_pos rfl]

/-- Putting a key changes no other key, and no key of another context. -/
theorem get?_put_of_ne (indexed : s.Indexed) (c : Context) (key : String) (v : Value)
    {other : Context} {k : String} (ne : other.root ≠ c.root ∨ k ≠ key) :
    other.get? (c.put s key v) k = other.get? s k := by
  rw [get?_put indexed, if_neg]
  rw [Prod.mk.injEq, not_and_or]
  exact ne

end Context

end Stencil
