/- # Proofs.LexicalForms -- kind and raw text tell values apart

An export writes a value as its kind and its raw text. Integers and truth values are told apart by their
texts, a string and a resource are their texts, and a double is known up to its text, so that kind and text
fix a value up to doubles with the same text (`Value.alike_iff`).

The texts of numbers and truth values are made of letters, digits, points and signs (`isTextual_lexical`),
whatever digits the search for the shortest decimal finds. What needs an escape, or could be taken for a mark
of an export format, stands in strings and identifiers only.
-/
import Stencil.Triple

namespace Stencil
set_option autoImplicit false

theorem toDigits_injective : Function.Injective (Nat.toDigits 10) := by
  intro a b same
  calc
    a = Nat.ofDigitChars 10 (Nat.toDigits 10 a) 0 := Nat.ofDigitChars_ten_toDigits.symm
    _ = Nat.ofDigitChars 10 (Nat.toDigits 10 b) 0 := by rw [same]
    _ = b := Nat.ofDigitChars_ten_toDigits

/-! ## The characters of numbers -/

/-- A letter or a digit of the plain alphabet, a point or a sign. -/
def Text.isTextual (c : Char) : Bool := c.isAlphanum || c == '.' || c == '-'

namespace Binary64

theorem isTextual_toDigits (n : Nat) : ∀ c ∈ Nat.toDigits 10 n, Text.isTextual c = true := by
  intro c digit
  have isDigit : c.isDigit = true := Nat.isDigit_of_mem_toDigits (by decide) (by decide) digit
  simp [Text.isTextual, Char.isAlphanum, isDigit]

theorem isTextual_integerChars (n : Int) : ∀ c ∈ integerChars n, Text.isTextual c = true := by
  rw [integerChars]
  split
  · rw [List.forall_mem_cons]
    exact ⟨by decide, isTextual_toDigits _⟩
  · exact isTextual_toDigits _

section Layout

variable {ds : List Char} (digits : ∀ c ∈ ds, Text.isTextual c = true)

include digits

theorem isTextual_positional (point : Int) : ∀ c ∈ positional ds point, Text.isTextual c = true := by
  have zero : Text.isTextual '0' = true := by decide
  have mark : Text.isTextual '.' = true := by decide
  intro c held
  rw [positional] at held
  split at held
  · simp only [List.mem_cons, List.mem_append, List.mem_replicate] at held
    rcases held with rfl | rfl | ⟨-, rfl⟩ | held
    · exact zero
    · exact mark
    · exact zero
    · exact digits c held
  · split at held
    · simp only [List.mem_append, List.mem_replicate, List.mem_cons, List.not_mem_nil, or_false] at held
      rcases held with (held | ⟨-, rfl⟩) | rfl | rfl
      · exact digits c held
      · exact zero
      · exact mark
      · exact zero
    · simp only [List.mem_append, List.mem_cons] at held
      rcases held with held | rfl | held
      · exact digits c (List.mem_of_mem_take held)
      · exact mark
      · exact digits c (List.mem_of_mem_drop held)

theorem isTextual_scientific (exponent : Int) :
    ∀ c ∈ scientific ds exponent, Text.isTextual c = true := by
  intro c held
  simp only [scientific, List.mem_append, List.mem_cons] at held
  rcases held with (held | held) | rfl | held
  · exact digits c (List.mem_of_mem_take held)
  · split at held
    · cases held
    · rcases List.mem_cons.mp held with rfl | held
      · decide
      · exact digits c (List.mem_of_mem_drop held)
  · decide
  · exact isTextual_integerChars exponent c held

end Layout

theorem isTextual_magnitudeChars (x : Binary64) :
    ∀ c ∈ x.magnitudeChars, Text.isTextual c = true := by
  rw [magnitudeChars]
  split
  · exact List.all_eq_true.mp (by decide)
  · dsimp only
    split
    · exact isTextual_positional (isTextual_toDigits _) _
    · exact isTextual_scientific (isTextual_toDigits _) _

/-- The text of a double, of one that is not finite too. -/
theorem isTextual_chars (x : Binary64) : ∀ c ∈ x.chars, Text.isTextual c = true := by
  rw [chars]
  split
  · exact List.all_eq_true.mp (by decide)
  · intro c held
    rcases List.mem_append.mp held with sign | magnitude
    · split at sign
      · rw [List.mem_singleton.mp sign]
        decide
      · cases sign
    · split at magnitude
      · exact List.all_eq_true.mp (by decide : ['i', 'n', 'f'].all Text.isTextual = true) c magnitude
      · exact isTextual_magnitudeChars x c magnitude

theorem integerChars_injective : Function.Injective integerChars := by
  -- the digits never begin with the sign, so that numbers of different signs have different texts
  have unsigned : ∀ (n : Nat) (cs : List Char), Nat.toDigits 10 n ≠ '-' :: cs := by
    intro n cs same
    have digit : ('-').isDigit = true :=
      Nat.isDigit_of_mem_toDigits (b := 10) (n := n) (by decide) (by decide) (by rw [same]; simp)
    exact absurd digit (by decide)
  intro m n same
  unfold integerChars at same
  split at same <;> split at same
  · have digits := toDigits_injective (List.cons.inj same).2
    omega
  · exact absurd same.symm (unsigned _ _)
  · exact absurd same (unsigned _ _)
  · have digits := toDigits_injective same
    omega

end Binary64

/-! ## Constants -/

namespace Literal

/-- The text of a constant other than a string needs no escape. -/
theorem isTextual_lexical {l : Literal} (other : ∀ s, l ≠ .string s) :
    ∀ c ∈ l.lexical.toList, Text.isTextual c = true := by
  cases l with
  | integer n =>
      rw [lexical, integerText, String.toList_ofList]
      exact Binary64.isTextual_integerChars _
  | float x =>
      rw [lexical, Binary64.text, String.toList_ofList]
      exact Binary64.isTextual_chars x
  | string s => exact absurd rfl (other s)
  | boolean b => exact List.all_eq_true.mp (by cases b <;> decide)

theorem integerText_injective : Function.Injective integerText := by
  intro m n same
  have values := Binary64.integerChars_injective (String.ofList_injective same)
  exact Int64.toInt_inj.mp values

theorem booleanText_injective : Function.Injective booleanText := by
  intro a b same
  cases a <;> cases b
  · rfl
  · exact absurd same (by decide)
  · exact absurd same (by decide)
  · rfl

/-- Constants of one kind with one text are equal, or are doubles. -/
theorem eq_or_doubles {l m : Literal} (kinds : l.kind = m.kind) (texts : l.lexical = m.lexical) :
    l = m ∨ ∃ x y : Binary64, l = .float x ∧ m = .float y ∧ x.text = y.text := by
  cases l with
  | integer n =>
      cases m with
      | integer n' => exact Or.inl (congrArg _ (integerText_injective texts))
      | _ => simp [kind] at kinds
  | float x =>
      cases m with
      | float y => exact Or.inr ⟨x, y, rfl, rfl, texts⟩
      | _ => simp [kind] at kinds
  | string s =>
      cases m with
      | string s' => exact Or.inl (congrArg _ texts)
      | _ => simp [kind] at kinds
  | boolean b =>
      cases m with
      | boolean b' => exact Or.inl (congrArg _ (booleanText_injective texts))
      | _ => simp [kind] at kinds

theorem kind_ne_resource (l : Literal) : l.kind ≠ "resource" := by
  cases l <;> simp [kind]

end Literal

/-! ## Values -/

namespace Value

/-- The same value, or two doubles with the same text. -/
inductive Alike : Value → Value → Prop
  | refl (v : Value) : Alike v v
  | doubles {x y : Binary64} (same : x.text = y.text) :
      Alike (.literal (.float x)) (.literal (.float y))

/-- Kind and raw text fix a value, up to doubles with the same text. -/
theorem alike_iff {v w : Value} : v.Alike w ↔ v.kind = w.kind ∧ v.lexical = w.lexical := by
  constructor
  · rintro (_ | same)
    · exact ⟨rfl, rfl⟩
    · exact ⟨rfl, same⟩
  · rintro ⟨kinds, texts⟩
    cases v with
    | uri u =>
        cases w with
        | uri u' =>
            have same : u = u' := congrArg Uri.mk texts
            rw [same]
            exact .refl _
        | literal m => exact absurd kinds.symm m.kind_ne_resource
    | literal l =>
        cases w with
        | uri u => exact absurd kinds l.kind_ne_resource
        | literal m =>
            rcases Literal.eq_or_doubles kinds texts with rfl | ⟨x, y, rfl, rfl, same⟩
            · exact .refl _
            · exact .doubles same

end Value

end Stencil
