/- # Template.Table -- registered templates

Templates are kept under their identifiers, and beside them the identifiers in the order they were
registered. An identifier is given out once.
-/
import Stencil.Error

namespace Stencil
set_option autoImplicit false

/-- Templates by identifier, and the identifiers in the order they were registered. -/
structure TemplateTable where
  byId : List (Uri × Template) := []
  order : List Uri := []

namespace TemplateTable

def empty : TemplateTable := {}

def get? (table : TemplateTable) (id : Uri) : Option Template := table.byId.lookup id

def contains (table : TemplateTable) (id : Uri) : Bool := (table.get? id).isSome

/-- The identifiers in the order they were registered. -/
def ids (table : TemplateTable) : List Uri := table.order

def size (table : TemplateTable) : Nat := table.byId.length

/-- Register a template under an identifier that is free. -/
def register (table : TemplateTable) (id : Uri) (t : Template) :
    Except TemplateError TemplateTable :=
  if table.contains id then .error (.duplicate id)
  else .ok { byId := (id, t) :: table.byId, order := table.order ++ [id] }

theorem contains_eq_false_iff {table : TemplateTable} {id : Uri} :
    table.contains id = false ↔ table.get? id = none := by
  rw [contains, Option.isSome_eq_false_iff, Option.isNone_iff_eq_none]

theorem mem_byId_of_get? {table : TemplateTable} {id : Uri} {t : Template}
    (found : table.get? id = some t) : (id, t) ∈ table.byId := by
  obtain ⟨before, after, split, _⟩ := List.lookup_eq_some_iff.mp found
  rw [split]
  simp

/-- Registering succeeds with a free identifier, and adds to both parts of a table. -/
theorem register_eq_ok_iff {table after : TemplateTable} {id : Uri} {t : Template} :
    table.register id t = .ok after ↔
      table.contains id = false ∧
        after = { byId := (id, t) :: table.byId, order := table.order ++ [id] } := by
  rw [register]
  cases table.contains id with
  | true => simp
  | false => simp [eq_comm]

section Register

variable {table after : TemplateTable} {id : Uri} {t : Template}
  (registered : table.register id t = .ok after)
include registered

theorem contains_of_register : table.contains id = false := (register_eq_ok_iff.mp registered).1

theorem ids_register : after.ids = table.ids ++ [id] := by
  obtain ⟨_, rfl⟩ := register_eq_ok_iff.mp registered
  rfl

theorem get?_register (other : Uri) :
    after.get? other = if other = id then some t else table.get? other := by
  obtain ⟨_, rfl⟩ := register_eq_ok_iff.mp registered
  rw [get?, List.lookup_cons]
  by_cases same : other = id
  · rw [if_pos same, beq_iff_eq.mpr same]
  · rw [if_neg same, beq_false_of_ne same, get?]

theorem contains_register (other : Uri) :
    after.contains other = true ↔ table.contains other = true ∨ other = id := by
  rw [contains, get?_register registered, contains]
  by_cases same : other = id
  · simp [same]
  · simp [same]

end Register

end TemplateTable

end Stencil
