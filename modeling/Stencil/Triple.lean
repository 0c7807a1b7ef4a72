/- # Triple -- facts and patterns over them

A triple states that a subject is related by a predicate to an object. A pattern leaves any of the
three positions open.
-/
import Stencil.Term

namespace Stencil
set_option autoImplicit false

/-- A fact. -/
structure Triple where
  subject : Uri
  predicate : Uri
  object : Value
deriving DecidableEq

def Triple.display (t : Triple) : String :=
  s!"({t.subject.display}, {t.predicate.display}, {t.object.display})"

/-- A triple with open positions; an open position is met by anything. -/
structure Pattern where
  subject : Option Uri := none
  predicate : Option Uri := none
  object : Option Value := none
deriving DecidableEq

namespace Pattern

/-- Whether a bound position agrees with what stands there. -/
def agrees {α : Type} [DecidableEq α] (bound : Option α) (actual : α) : Bool :=
  match bound with
  | none => true
  | some wanted => wanted = actual

/-- Whether a triple meets every bound position. -/
def holds (p : Pattern) (t : Triple) : Bool :=
  agrees p.subject t.subject && agrees p.predicate t.predicate && agrees p.object t.object

@[simp] theorem agrees_iff {α : Type} [DecidableEq α] {bound : Option α} {actual : α} :
    agrees bound actual = true ↔ ∀ wanted, bound = some wanted → wanted = actual := by
  cases bound with
  | none => simp [agrees]
  | some wanted => simp [agrees]

end Pattern

/-- The elements without repetition, each where it is first seen. -/
def firstSeen {α : Type} [DecidableEq α] (xs : List α) : List α :=
  xs.foldl (fun seen x => if x ∈ seen then seen else seen ++ [x]) []

/-- What has been seen and what is still to come make up the answer. -/
theorem mem_foldl_firstSeen {α : Type} [DecidableEq α] (a : α) (xs seen : List α) :
    a ∈ xs.foldl (fun seen x => if x ∈ seen then seen else seen ++ [x]) seen ↔
      a ∈ seen ∨ a ∈ xs := by
  induction xs generalizing seen with
  | nil => simp
  | cons x xs ih =>
    rw [List.foldl_cons, ih]
    split
    · rename_i held
      constructor
      · rintro (h | h)
        · exact Or.inl h
        · exact Or.inr (List.mem_cons_of_mem _ h)
      · rintro (h | h)
        · exact Or.inl h
        · rcases List.mem_cons.mp h with rfl | h
          · exact Or.inl held
          · exact Or.inr h
    · simp [or_assoc]

@[simp] theorem mem_firstSeen {α : Type} [DecidableEq α] {a : α} {xs : List α} :
    a ∈ firstSeen xs ↔ a ∈ xs := by
  simp [firstSeen, mem_foldl_firstSeen]

theorem nodup_foldl_firstSeen {α : Type} [DecidableEq α] (xs seen : List α) (h : seen.Nodup) :
    (xs.foldl (fun seen x => if x ∈ seen then seen else seen ++ [x]) seen).Nodup := by
  induction xs generalizing seen with
  | nil => exact h
  | cons x xs ih =>
    rw [List.foldl_cons]
    split
    · exact ih seen h
    · rename_i unseen
      apply ih
      rw [List.nodup_append]
      refine ⟨h, by simp, ?_⟩
      intro a ha b hb hab
      have hb' : b = x := by simpa using hb
      exact unseen (hb' ▸ hab ▸ ha)

theorem nodup_firstSeen {α : Type} [DecidableEq α] (xs : List α) : (firstSeen xs).Nodup :=
  nodup_foldl_firstSeen xs [] List.nodup_nil

end Stencil
