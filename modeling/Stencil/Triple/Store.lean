/- # Triple.Store -- a multiset of triples with two indexes

Triples are kept in slots, in the order they came in. Removing a triple leaves its slot empty, so
that the slot numbers in the two indexes stay good. A query takes its candidates from the shorter of
the index lists that apply and then tests each against the whole pattern; `toList` is the plain list
that the store stands for.
-/
import Stencil.Triple

namespace Stencil
set_option autoImplicit false

/-- For each key the slots that hold it, in increasing order. -/
abbrev SlotIndex := List (Uri × List Nat)

namespace SlotIndex

/-- The slots under a key, none for a key that is not there. -/
def slots (index : SlotIndex) (key : Uri) : List Nat := (index.lookup key).getD []

/-- Add a slot at the end of the list of a key. -/
def add (key : Uri) (slot : Nat) : SlotIndex → SlotIndex
  | [] => [(key, [slot])]
  | (k, held) :: rest =>
    if k = key then (k, held ++ [slot]) :: rest else (k, held) :: add key slot rest

/-- Take a slot out of the list of a key, and the key with it when nothing is left under it. -/
def drop (key : Uri) (slot : Nat) : SlotIndex → SlotIndex
  | [] => []
  | (k, held) :: rest =>
    if k = key then
      let kept := held.filter (· ≠ slot)
      if kept.isEmpty then rest else (k, kept) :: rest
    else (k, held) :: drop key slot rest

end SlotIndex

/-- Triples in slots, with the slots of each subject and of each predicate. -/
structure Store where
  slots : Array (Option Triple) := #[]
  bySubject : SlotIndex := []
  byPredicate : SlotIndex := []
  size : Nat := 0

namespace Store

/-- The store without triples. -/
def empty : Store := {}

/-- The triples held, in the order they came in. -/
def toList (s : Store) : List Triple := s.slots.toList.filterMap id

def isEmpty (s : Store) : Bool := s.size == 0

/-- Add one triple at the end. -/
def insert (s : Store) (t : Triple) : Store where
  slots := s.slots.push (some t)
  bySubject := s.bySubject.add t.subject s.slots.size
  byPredicate := s.byPredicate.add t.predicate s.slots.size
  size := s.size + 1

/-- Add triples one after another. -/
def insertAll (s : Store) (ts : List Triple) : Store := ts.foldl insert s

/-- Add triples one after another, counting them. -/
def extend (s : Store) (ts : List Triple) : Nat × Store :=
  ts.foldl (fun (count, s) t => (count + 1, s.insert t)) (0, s)

@[simp] theorem toList_empty : empty.toList = [] := rfl

@[simp] theorem toList_insert (s : Store) (t : Triple) :
    (s.insert t).toList = s.toList ++ [t] := by
  simp [insert, toList]

@[simp] theorem toList_insertAll (s : Store) (ts : List Triple) :
    (s.insertAll ts).toList = s.toList ++ ts := by
  induction ts generalizing s with
  | nil => simp [insertAll]
  | cons t ts ih =>
    have rest := ih (s.insert t)
    simp only [insertAll] at rest
    simp [insertAll, rest]

theorem insertAll_append (s : Store) (ts us : List Triple) :
    s.insertAll (ts ++ us) = (s.insertAll ts).insertAll us := by
  simp [insertAll]

/-- Slots among which all matches of a pattern are found. -/
def candidates (s : Store) (p : Pattern) : List Nat :=
  match p.subject, p.predicate with
  | some subject, some predicate =>
    let here := s.bySubject.slots subject
    let there := s.byPredicate.slots predicate
    if here.length ≤ there.length then here else there
  | some subject, none => s.bySubject.slots subject
  | none, some predicate => s.byPredicate.slots predicate
  | none, none => List.range s.slots.size

/-- The triple in a slot. -/
def at? (s : Store) (slot : Nat) : Option Triple := (s.slots[slot]?).join

/-- The slots whose triple matches a pattern. -/
def matching (s : Store) (p : Pattern) : List Nat :=
  (s.candidates p).filter fun slot => (s.at? slot).any p.holds

/-- All triples that match a pattern, in the order they came in. -/
def find (s : Store) (p : Pattern) : List Triple := (s.matching p).filterMap s.at?

/-- Whether some triple matches a pattern. -/
def contains (s : Store) (p : Pattern) : Bool := !(s.matching p).isEmpty

/-- Empty one slot. -/
def vacate (s : Store) (slot : Nat) : Store :=
  match s.at? slot with
  | none => s
  | some t =>
    { slots := s.slots.setIfInBounds slot none
      bySubject := s.bySubject.drop t.subject slot
      byPredicate := s.byPredicate.drop t.predicate slot
      size := s.size - 1 }

/-- Remove every triple that matches a pattern, and tell how many there were. -/
def removeMatching (s : Store) (p : Pattern) : Nat × Store :=
  let hits := s.matching p
  (hits.length, hits.foldl vacate s)

/-- The subjects, each where it is first seen. -/
def subjects (s : Store) : List Uri := firstSeen (s.toList.map Triple.subject)

/-- A summary: how many triples, different subjects and different predicates are held. -/
def summary (s : Store) : String :=
  s!"RelationStore \x7b triples: {s.size}, subjects: {s.bySubject.length}, " ++
    s!"predicates: {s.byPredicate.length} \x7d"

end Store

end Stencil
