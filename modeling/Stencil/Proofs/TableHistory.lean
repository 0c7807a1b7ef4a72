/- # Proofs.TableHistory -- tables in a store are finite maps

Any number of contexts, children among them, keep their tables in one store. What such a store answers is
read off the history of what was done to it, without triples and indexes: a key has the value that was
written to it last, unless it was removed afterwards (`LastWrote`), and the entries of a table are the puts
that no later put or removal of the same key has undone, in the order in which they were made (`standing`).

One update changes one place, that is, one key of one root (`get?_apply`), and the triples held after it are
those of other places and the one it writes (`toList_apply`); over a whole history this gives `get?_run` and
`toList_run`. Triples may also be inserted behind the back of the contexts. Then a key can have several
triples, of which the last one counts, until the next put leaves one only (`find_put`). Where nothing was
inserted in this way, each key that is bound has just one (`nodup_standing`), so that the entries list it
once and the size of the store is the number of keys bound.
-/
import Mathlib.Data.Set.Card
import Stencil.Proofs.ContextTable

namespace Stencil
set_option autoImplicit false

namespace Context

/-! ## Histories -/

/-- Ways to change the tables in a store; the last one goes past the contexts. -/
inductive Update where
  | put (c : Context) (key : String) (v : Value)
  | putPath (c : Context) (path : List String) (v : Value)
  | remove (c : Context) (key : String)
  | insert (t : Triple)

namespace Update

def apply (s : Store) : Update → Store
  | .put c key v => c.put s key v
  | .putPath c path v => c.putPath s path v
  | .remove c key => (c.remove s key).2
  | .insert t => s.insert t

/-- The store after a history that began with the empty one. -/
def run (updates : List Update) : Store := updates.foldl apply .empty

/-- The root and the key that are written or removed. -/
def place : Update → Uri × String
  | .put c key _ => (c.root, key)
  | .putPath c path _ => (c.root, pathKey path)
  | .remove c key => (c.root, key)
  | .insert t => t.place

/-- The value that is written. -/
def value? : Update → Option Value
  | .put _ _ v => some v
  | .putPath _ _ v => some v
  | .remove _ _ => none
  | .insert t => some t.object

def isRaw : Update → Bool
  | .insert _ => true
  | _ => false

/-- Whether what was at the place is taken away. -/
def clears (u : Update) (place : Uri × String) : Bool := !u.isRaw && u.place = place

/-- The triple that is written. -/
def triple? (u : Update) : Option Triple := u.value?.map fun v => ⟨u.place.1, ⟨u.place.2⟩, v⟩

/-- The last update of the place wrote the value. -/
def LastWrote (updates : List Update) (place : Uri × String) (v : Value) : Prop :=
  ∃ before u after, updates = before ++ u :: after ∧ u.place = place ∧ u.value? = some v ∧
    ∀ later ∈ after, later.place ≠ place

/-- What was written and has not been cleared later, in the order in which it was written. -/
def standing : List Update → List Triple
  | [] => []
  | u :: later =>
    (if later.any (·.clears u.place) then [] else u.triple?.toList) ++ standing later

/-! ## One update -/

variable {s : Store}

theorem place_of_triple? {u : Update} {t : Triple} (written : u.triple? = some t) :
    t.place = u.place := by
  rw [triple?, Option.map_eq_some_iff] at written
  obtain ⟨v, _, rfl⟩ := written
  rfl

theorem indexed_apply (indexed : s.Indexed) (u : Update) : (u.apply s).Indexed := by
  cases u with
  | put c key v => exact indexed_put indexed c key v
  | putPath c path v => exact indexed_put indexed c (pathKey path) v
  | remove c key => exact indexed_remove indexed c key
  | insert t => exact indexed.insert t

/-- An update takes away what it clears and adds what it writes. -/
theorem toList_apply (indexed : s.Indexed) (u : Update) :
    (u.apply s).toList = (s.toList.filter fun t => !u.clears t.place) ++ u.triple?.toList := by
  have cleared (c : Context) (key : String) :
      (s.toList.filter fun t => !(c.pattern key).holds t) =
        s.toList.filter fun t => !decide ((c.root, key) = t.place) := by
    simp only [holds_pattern_eq]
  cases u with
  | put c key v => rw [apply, toList_put indexed, cleared]; rfl
  | putPath c path v => rw [apply, Context.putPath, toList_put indexed, cleared]; rfl
  | remove c key => rw [apply, toList_remove indexed, cleared]; exact (List.append_nil _).symm
  | insert t =>
      have kept : (s.toList.filter fun r => !(Update.insert t).clears r.place) = s.toList :=
        List.filter_eq_self.mpr fun _ _ => rfl
      rw [apply, Store.toList_insert, kept]
      rfl

/-- An update decides the key of its place and no other. -/
theorem get?_apply (indexed : s.Indexed) (u : Update) (c : Context) (key : String) :
    c.get? (u.apply s) key = if (c.root, key) = u.place then u.value? else c.get? s key := by
  cases u with
  | put d k v => exact get?_put indexed d k v c key
  | putPath d path v => exact get?_put indexed d (pathKey path) v c key
  | remove d k => exact get?_remove indexed d k c key
  | insert t => exact get?_insert indexed t c key

/-! ## Histories of updates -/

theorem run_concat (updates : List Update) (u : Update) :
    run (updates ++ [u]) = u.apply (run updates) := by
  rw [run, List.foldl_append]
  rfl

theorem indexed_run (updates : List Update) : (run updates).Indexed := by
  induction updates using List.reverseRecOn with
  | nil => exact Store.indexed_empty
  | append_singleton updates u ih =>
      rw [run_concat]
      exact indexed_apply ih u

theorem lastWrote_concat {updates : List Update} {u : Update} {place : Uri × String} {v : Value} :
    LastWrote (updates ++ [u]) place v ↔
      if place = u.place then u.value? = some v else LastWrote updates place v := by
  constructor
  · rintro ⟨before, w, after, split, here, written, last⟩
    -- the update that decides is the new one, or it was there already
    rcases List.eq_nil_or_concat after with rfl | ⟨front, newest, rfl⟩
    · obtain ⟨rfl, same⟩ := List.append_inj' split rfl
      cases same
      rw [if_pos here.symm]
      exact written
    · rw [List.concat_eq_append, ← List.cons_append, ← List.append_assoc] at split
      obtain ⟨rfl, same⟩ := List.append_inj' split rfl
      cases same
      rw [if_neg (last u (by simp)).symm]
      exact ⟨before, w, front, rfl, here, written, fun later mem => last later (by simp [mem])⟩
  · split
    · rename_i here
      intro written
      exact ⟨updates, u, [], rfl, here.symm, written, by simp⟩
    · rename_i elsewhere
      rintro ⟨before, w, after, rfl, here, written, last⟩
      refine ⟨before, w, after ++ [u], by simp, here, written, ?_⟩
      intro later mem
      rcases List.mem_append.mp mem with old | new
      · exact last later old
      · rw [List.mem_singleton.mp new]
        exact Ne.symm elsewhere

/-- A key has the value that its last update wrote. -/
theorem get?_run (updates : List Update) (c : Context) (key : String) (v : Value) :
    c.get? (run updates) key = some v ↔ LastWrote updates (c.root, key) v := by
  induction updates using List.reverseRecOn with
  | nil =>
      refine iff_of_false (by simp [run, get?_eq Store.indexed_empty]) ?_
      rintro ⟨before, u, after, split, _⟩
      simp at split
  | append_singleton updates u ih =>
      rw [run_concat, get?_apply (indexed_run updates), lastWrote_concat, ← ih]
      split <;> rfl

theorem standing_concat (updates : List Update) (u : Update) :
    standing (updates ++ [u]) =
      (standing updates).filter (fun t => !u.clears t.place) ++ u.triple?.toList := by
  induction updates with
  | nil => simp [standing]
  | cons w updates ih =>
      rw [List.cons_append, standing, ih, standing, List.filter_append, List.append_assoc,
        List.any_append]
      congr 1
      by_cases undone : updates.any (·.clears w.place) = true
      · simp [undone]
      · cases written : w.triple? with
        | none => simp
        | some t =>
            rw [← place_of_triple? written] at undone ⊢
            by_cases now : u.clears t.place = true <;> simp [undone, now]

/-- What a store holds is what stands. -/
theorem toList_run (updates : List Update) : (run updates).toList = standing updates := by
  induction updates using List.reverseRecOn with
  | nil => rfl
  | append_singleton updates u ih =>
      rw [run_concat, toList_apply (indexed_run updates), ih, standing_concat]

/-! ## One triple for each key -/

theorem exists_of_mem_standing {updates : List Update} {t : Triple} (stands : t ∈ standing updates) :
    ∃ u ∈ updates, u.place = t.place := by
  induction updates with
  | nil => cases stands
  | cons u later ih =>
      rw [standing, List.mem_append] at stands
      rcases stands with here | there
      · split at here
        · cases here
        · exact ⟨u, List.mem_cons_self, (place_of_triple? (Option.mem_toList.mp here)).symm⟩
      · obtain ⟨w, mem, same⟩ := ih there
        exact ⟨w, List.mem_cons_of_mem _ mem, same⟩

/-- Where all goes through the contexts, what stands at a place stands alone. -/
theorem nodup_standing {updates : List Update} (tabled : ∀ u ∈ updates, u.isRaw = false) :
    ((standing updates).map Triple.place).Nodup := by
  induction updates with
  | nil => exact List.nodup_nil
  | cons u later ih =>
      rw [List.forall_mem_cons] at tabled
      have rest := ih tabled.2
      rw [standing]
      split
      · exact rest
      · rename_i uncleared
        cases written : u.triple? with
        | none => exact rest
        | some t =>
            rw [Option.toList_some, List.singleton_append, List.map_cons, List.nodup_cons]
            refine ⟨?_, rest⟩
            intro again
            -- a later update of the same place would have cleared it
            obtain ⟨r, stands, same⟩ := List.mem_map.mp again
            obtain ⟨w, mem, there⟩ := exists_of_mem_standing stands
            refine uncleared (List.any_eq_true.mpr ⟨w, mem, ?_⟩)
            rw [clears, tabled.2 w mem, there, same, place_of_triple? written]
            simp

section Single

variable (indexed : s.Indexed) (single : (s.toList.map Triple.place).Nodup)
include indexed

theorem isSome_get?_iff (c : Context) (key : String) :
    (c.get? s key).isSome = true ↔ (c.root, key) ∈ s.toList.map Triple.place := by
  rw [get?_eq indexed, Option.isSome_map, List.getLast?_isSome, Ne, List.filter_eq_nil_iff]
  simp only [holds_pattern_eq, decide_eq_true_eq, List.mem_map, eq_comm (a := (c.root, key))]
  push Not
  rfl

include single

theorem get?_eq_some_iff (c : Context) (key : String) (v : Value) :
    c.get? s key = some v ↔ ⟨c.root, ⟨key⟩, v⟩ ∈ s.toList := by
  constructor
  · intro bound
    rw [get?_eq indexed, Option.map_eq_some_iff] at bound
    obtain ⟨⟨subject, predicate, object⟩, last, rfl⟩ := bound
    obtain ⟨held, binds⟩ := List.mem_filter.mp (List.mem_of_getLast? last)
    obtain ⟨root, named⟩ := holds_pattern_iff.mp binds
    cases root
    cases named
    exact held
  · intro held
    have bound := (isSome_get?_iff indexed c key).mpr (List.mem_map.mpr ⟨_, held, rfl⟩)
    obtain ⟨w, found⟩ := Option.isSome_iff_exists.mp bound
    rw [get?_eq indexed, Option.map_eq_some_iff] at found
    obtain ⟨t, last, rfl⟩ := found
    obtain ⟨other, binds⟩ := List.mem_filter.mp (List.mem_of_getLast? last)
    rw [holds_pattern_eq, decide_eq_true_eq] at binds
    have same : t = ⟨c.root, ⟨key⟩, v⟩ :=
      List.inj_on_of_nodup_map single other held binds.symm
    rw [get?_eq indexed, last, same, Option.map_some]

theorem mem_entries_iff (c : Context) (key : String) (v : Value) :
    (key, v) ∈ c.entries s ↔ c.get? s key = some v := by
  rw [get?_eq_some_iff indexed single, entries_eq indexed]
  simp only [List.mem_map, List.mem_filter, decide_eq_true_eq, Prod.mk.injEq]
  constructor
  · rintro ⟨⟨subject, ⟨k⟩, object⟩, ⟨held, root⟩, rfl, rfl⟩
    cases root
    exact held
  · intro held
    exact ⟨_, ⟨held, rfl⟩, rfl, rfl⟩

theorem nodup_entries (c : Context) : ((c.entries s).map Prod.fst).Nodup := by
  -- with the root before them, the keys of a table are the places of its triples
  have placed : ((c.entries s).map Prod.fst).map (fun key => (c.root, key)) =
      (s.toList.filter fun t => t.subject = c.root).map Triple.place := by
    rw [entries_eq indexed, List.map_map, List.map_map]
    apply List.map_congr_left
    intro t mem
    obtain ⟨_, root⟩ := List.mem_filter.mp mem
    rw [decide_eq_true_eq] at root
    rw [Triple.place, root]
    rfl
  apply List.Nodup.of_map (fun key => (c.root, key))
  rw [placed]
  exact single.sublist (List.filter_sublist.map Triple.place)

theorem encard_bound :
    {place : Uri × String | (get? ⟨place.1⟩ s place.2).isSome = true}.encard = s.size := by
  have bound : {place : Uri × String | (get? ⟨place.1⟩ s place.2).isSome = true} =
      ((s.toList.map Triple.place).toFinset : Set (Uri × String)) := by
    ext place
    rw [Set.mem_ofPred_eq, isSome_get?_iff indexed, List.coe_toFinset, Set.mem_ofPred_eq]
  rw [bound, Set.encard_coe_eq_coe_finsetCard, List.toFinset_card_of_nodup single, List.length_map,
    indexed.size_eq]

end Single

/-! ## What the tables answer -/

/-- What is asked of one key of one table, in a store with this history. -/
structure Answers (s : Store) (updates : List Update) : Prop where
  get : ∀ c key v, Context.get? c s key = some v ↔ LastWrote updates (c.root, key) v
  contains : ∀ c key, Context.contains c s key = (c.get? s key).isSome
  removed : ∀ c key, (Context.remove c s key).1 = (c.get? s key).isSome
  putAside : ∀ (c d : Context) key k v, (d.root, k) ≠ (c.root, key) →
    d.get? (c.put s key v) k = d.get? s k
  removeAside : ∀ (c d : Context) key k, (d.root, k) ≠ (c.root, key) →
    d.get? (c.remove s key).2 k = d.get? s k
  putAlone : ∀ (c : Context) key v, (c.put s key v).find (c.pattern key) = [⟨c.root, ⟨key⟩, v⟩]

/-- What is asked of whole tables, in a store with this history. -/
structure Lists (s : Store) (updates : List Update) : Prop where
  entries : ∀ c, Context.entries c s =
    ((standing updates).filter fun t => t.subject = c.root).map fun t => (t.predicate.id, t.object)
  once : ∀ c, ((Context.entries c s).map Prod.fst).Nodup
  current : ∀ c key v, (key, v) ∈ Context.entries c s ↔ c.get? s key = some v
  size : {place : Uri × String | (Context.get? ⟨place.1⟩ s place.2).isSome = true}.encard = s.size

theorem answers_run (updates : List Update) : Answers (run updates) updates := by
  have indexed := indexed_run updates
  refine ⟨get?_run updates, contains_eq indexed, ?_, ?_, ?_, find_put indexed⟩
  · intro c key
    rw [fst_remove, contains_eq indexed]
  · intro c d key k v differ
    rw [get?_put indexed, if_neg differ]
  · intro c d key k differ
    rw [get?_remove indexed, if_neg differ]

theorem lists_run {updates : List Update} (tabled : ∀ u ∈ updates, u.isRaw = false) :
    Lists (run updates) updates := by
  have indexed := indexed_run updates
  have single : ((run updates).toList.map Triple.place).Nodup := by
    rw [toList_run]
    exact nodup_standing tabled
  refine ⟨?_, nodup_entries indexed single, mem_entries_iff indexed single,
    encard_bound indexed single⟩
  intro c
  rw [entries_eq indexed, toList_run]

/-- **Tables in a store are finite maps.** Whatever contexts put and remove in one store, and whatever is
inserted past them: a key has the value written last and not removed since, to be there is to have a value,
a removal tells whether there was one, putting and removing touch no other key and no other root, and a put
leaves one triple of its key. If nothing was inserted past the contexts, the entries of a table are its
bound keys, each once, with their values and in the order of their last puts, and the store is as large as
there are bound keys in all tables. -/
theorem tables_are_finite_maps (updates : List Update) :
    Answers (run updates) updates ∧
      ((∀ u ∈ updates, u.isRaw = false) → Lists (run updates) updates) :=
  ⟨answers_run updates, lists_run⟩

/-- A table. -/
def shop : Context := ⟨⟨"shop"⟩⟩

/-- Two tables share a key; one key is put again, and one is removed. -/
def stocktaking : List Update :=
  [.put shop "tea" (.literal (.integer 1)), .put (shop.child "attic") "tea" (.literal (.integer 2)),
    .put shop "ink" (.literal (.integer 3)), .putPath shop ["tea", "green"] (.literal (.integer 4)),
    .put shop "tea" (.literal (.integer 5)), .remove shop "ink"]

theorem shared_keys_of_two_tables_apart :
    (∀ u ∈ stocktaking, u.isRaw = false) ∧
      shop.entries (run stocktaking) =
        [("tea.green", .literal (.integer 4)), ("tea", .literal (.integer 5))] ∧
      (shop.child "attic").get? (run stocktaking) "tea" = some (.literal (.integer 2)) ∧
      (run stocktaking).size = 3 := by
  have tabled : ∀ u ∈ stocktaking, u.isRaw = false := by decide
  obtain ⟨answers, lists⟩ := tables_are_finite_maps stocktaking
  refine ⟨tabled, ?_, ?_, by decide +kernel⟩
  · rw [(lists tabled).entries]
    decide +kernel
  · rw [answers.get]
    exact ⟨stocktaking.take 1, _, stocktaking.drop 2, rfl, rfl, rfl, by decide +kernel⟩

end Update

end Context

end Stencil
