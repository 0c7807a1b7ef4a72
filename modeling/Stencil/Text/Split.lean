/- # Split -- cutting a text at the first separator -/

namespace Stencil.Text
set_option autoImplicit false

/-- The part before the first occurrence of a character and the part after it, if it occurs. -/
def splitFirst? (sep : Char) : List Char → Option (List Char × List Char)
  | [] => none
  | c :: cs =>
    if c = sep then some ([], cs)
    else (splitFirst? sep cs).map fun (before, after) => (c :: before, after)

/-- A text is cut where the separator is first met. -/
theorem splitFirst?_eq_some_iff {sep : Char} {cs before after : List Char} :
    splitFirst? sep cs = some (before, after) ↔ cs = before ++ sep :: after ∧ sep ∉ before := by
  induction cs generalizing before with
  | nil => simp [splitFirst?]
  | cons c cs ih =>
      rw [splitFirst?]
      by_cases met : c = sep
      · subst met
        rw [if_pos rfl]
        cases before with
        | nil => simp [eq_comm]
        | cons d before =>
            simp only [Option.some.injEq, Prod.mk.injEq, List.nil_eq, reduceCtorEq, false_and,
              List.cons_append, List.cons.injEq, List.mem_cons, not_or, false_iff, not_and]
            intro same notHead
            exact absurd same.1 notHead
      · rw [if_neg met]
        constructor
        · intro split
          obtain ⟨⟨front, rest⟩, found, same⟩ := Option.map_eq_some_iff.mp split
          cases same
          obtain ⟨shape, absent⟩ := ih.mp found
          refine ⟨by rw [shape, List.cons_append], ?_⟩
          simp only [List.mem_cons, not_or]
          exact ⟨fun same => met same.symm, absent⟩
        · rintro ⟨shape, absent⟩
          cases before with
          | nil =>
              cases shape
              exact absurd rfl met
          | cons d before =>
              cases shape
              simp only [List.mem_cons, not_or] at absent
              rw [ih.mpr ⟨rfl, absent.2⟩, Option.map_some]

theorem splitFirst?_eq_none_iff {sep : Char} {cs : List Char} :
    splitFirst? sep cs = none ↔ sep ∉ cs := by
  induction cs with
  | nil => simp [splitFirst?]
  | cons c cs ih =>
      rw [splitFirst?]
      by_cases met : c = sep
      · simp [met]
      · rw [if_neg met, Option.map_eq_none_iff, ih, List.mem_cons, not_or]
        exact ⟨fun absent => ⟨fun same => met same.symm, absent⟩, fun absent => absent.2⟩

end Stencil.Text
