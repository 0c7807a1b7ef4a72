/- # Proofs.JsonText -- JSON text that was written is read back

Written with a line for every item, a value is read as itself, whatever stands behind its text
(`ReadsBack`). A string is read back character by character (`stringBody_stringChar`): of the escapes that a
reader knows, writing uses the short ones and, for the other characters below the blank, the code. An array
is read back when its items are (`readsBack_arr`), and an object when its fields are and no key comes twice
(`readsBack_obj`); line breaks and blanks between them are skipped.

A reader takes a bound on the nesting and one on the number of parts; `parse?_pretty` says that the length of
the text, which it takes for the second, is enough where the value is read back under it.
-/
import Stencil.Json.Reader
import Stencil.Json.Writer

namespace Stencil.Json
set_option autoImplicit false

/-! ## Strings -/

theorem codeUnit?_hexDigits :
    ∀ n : Fin 32, Text.codeUnit? '0' '0' (hexDigit (n.val / 16)) (hexDigit (n.val % 16)) = some n.val := by
  decide

/-- One character is read back, whatever follows. -/
theorem stringBody_stringChar (c : Char) (rest : List Char) :
    stringBody (stringChar c ++ rest) = (stringBody rest).map (Prod.map (c :: ·) id) := by
  by_cases quote : c = '"'
  · subst quote
    rfl
  by_cases backslash : c = '\\'
  · subst backslash
    rfl
  by_cases backspace : c = '\x08'
  · subst backspace
    rfl
  by_cases formFeed : c = '\x0c'
  · subst formFeed
    rfl
  by_cases feed : c = '\n'
  · subst feed
    rfl
  by_cases carriage : c = '\r'
  · subst carriage
    rfl
  by_cases tab : c = '\t'
  · subst tab
    rfl
  by_cases control : c.toNat < 0x20
  · have written : stringChar c =
        ['\\', 'u', '0', '0', hexDigit (c.toNat / 16), hexDigit (c.toNat % 16)] := by
      simp [stringChar, quote, backslash, backspace, formFeed, feed, carriage, tab, control]
    have read := codeUnit?_hexDigits ⟨c.toNat, control⟩
    have plain : c.toNat < 0xD800 ∨ 0xDFFF < c.toNat := by omega
    rw [written]
    simp only [List.cons_append, List.nil_append, stringBody]
    rw [read]
    simp only [plain, if_true, Char.ofNat_toNat]
    rfl
  · have written : stringChar c = [c] := by
      simp [stringChar, quote, backslash, backspace, formFeed, feed, carriage, tab, control]
    rw [written]
    simp only [List.cons_append, List.nil_append]
    rw [stringBody]
    · rw [if_neg (by simp [control, backslash])]
      rfl
    · exact quote
    · exact fun _ _ _ _ _ same _ => backslash same
    · exact fun _ _ same _ => backslash same

theorem stringBody_flatMap (cs rest : List Char) :
    stringBody (cs.flatMap stringChar ++ '"' :: rest) = some (cs, rest) := by
  induction cs with
  | nil => rfl
  | cons c cs ih =>
      rw [List.flatMap_cons, List.append_assoc, stringBody_stringChar, ih]
      rfl

/-- A string token is its quote and what a reader of strings takes. -/
theorem stringChars_append (s : String) (rest : List Char) :
    ∃ body, stringChars s ++ rest = '"' :: body ∧ stringBody body = some (s.toList, rest) := by
  refine ⟨s.toList.flatMap stringChar ++ '"' :: rest, ?_, stringBody_flatMap s.toList rest⟩
  simp [stringChars]

/-! ## Between tokens -/

theorem skipSpace_cons_of_space {c : Char} (space : isSpace c = true) (cs : List Char) :
    skipSpace (c :: cs) = skipSpace cs := by
  rw [skipSpace, List.dropWhile_cons, if_pos space]
  rfl

theorem skipSpace_cons {c : Char} (token : isSpace c = false) (cs : List Char) :
    skipSpace (c :: cs) = c :: cs := by
  rw [skipSpace, List.dropWhile_cons, token]
  rfl

@[simp] theorem skipSpace_skipSpace (cs : List Char) : skipSpace (skipSpace cs) = skipSpace cs := by
  induction cs with
  | nil => rfl
  | cons c cs ih =>
      cases space : isSpace c with
      | true => rw [skipSpace_cons_of_space space, ih]
      | false => rw [skipSpace_cons space, skipSpace_cons space]

@[simp] theorem skipSpace_newline (level : Nat) (cs : List Char) :
    skipSpace (newline level ++ cs) = skipSpace cs := by
  rw [newline, List.cons_append, skipSpace_cons_of_space (by decide)]
  induction 2 * level with
  | zero => rfl
  | succ n ih => rw [List.replicate_succ, List.cons_append, skipSpace_cons_of_space (by decide), ih]

/-! ## Values -/

/-- The text of a value at a level of indentation is read as the value, whatever stands behind it. -/
def ReadsBack (bound levels level : Nat) (j : Json) : Prop :=
  ∀ rest, valueAt bound levels (prettyChars level j ++ rest) = some (j, rest)

/-- A value begins neither with a blank nor with a closing bracket. -/
theorem valueAt_eq_none (bound levels : Nat) {c : Char} (other : isSpace c = true ∨ c = ']')
    (cs : List Char) : valueAt bound levels (c :: cs) = none := by
  have begins : c = ' ' ∨ c = '\n' ∨ c = '\t' ∨ c = '\r' ∨ c = ']' := by
    simpa [isSpace, or_assoc] using other
  rcases begins with rfl | rfl | rfl | rfl | rfl <;> cases levels <;> rfl

section Parts

variable {bound levels level : Nat} {j : Json}

/-- Nothing is skipped before a value that is read back. -/
theorem ReadsBack.skipSpace_eq (back : ReadsBack bound levels level j) (rest : List Char) :
    skipSpace (prettyChars level j ++ rest) = prettyChars level j ++ rest := by
  have read := back rest
  cases text : prettyChars level j ++ rest with
  | nil => rfl
  | cons c cs =>
      rw [text] at read
      apply skipSpace_cons
      rw [Bool.eq_false_iff]
      intro space
      rw [valueAt_eq_none bound levels (Or.inl space)] at read
      cases read

theorem readsBack_str (s : String) : ReadsBack bound levels level (.str s) := by
  intro rest
  obtain ⟨body, token, read⟩ := stringChars_append s rest
  have written : prettyChars level (.str s) = stringChars s := by
    simp [prettyChars, scalarChars]
  rw [written, token]
  simp [valueAt, read]

/-! ## Arrays -/

/-- Items are read back one after another, up to the closing bracket. -/
theorem items_prettyItems (close : Nat) {n : Nat} {vs : List Json} (filled : vs ≠ [])
    (few : vs.length ≤ n) (each : ∀ v ∈ vs, ReadsBack bound levels level v) (rest : List Char) :
    items (valueAt bound levels) n (prettyItems level vs ++ newline close ++ ']' :: rest) =
      some (vs, rest) := by
  induction vs generalizing n with
  | nil => exact absurd rfl filled
  | cons v vs ih =>
      rw [List.forall_mem_cons] at each
      cases n with
      | zero => simp at few
      | succ n =>
          cases vs with
          | nil =>
              have first := each.1 (newline close ++ ']' :: rest)
              have front : skipSpace (prettyItems level [v] ++ newline close ++ ']' :: rest) =
                  prettyChars level v ++ (newline close ++ ']' :: rest) := by
                simp [prettyItems, each.1.skipSpace_eq]
              have closing : skipSpace (newline close ++ ']' :: rest) = ']' :: rest := by
                rw [skipSpace_newline, skipSpace_cons (by decide)]
              rw [items, front, first]
              simp only [Option.bind_eq_bind, Option.bind_some, closing]
          | cons w vs =>
              have later := ih (by simp) (Nat.le_of_succ_le_succ few) each.2
              have first := each.1 (',' :: (prettyItems level (w :: vs) ++ newline close ++ ']' :: rest))
              have front : skipSpace (prettyItems level (v :: w :: vs) ++ newline close ++ ']' :: rest) =
                  prettyChars level v ++
                    ',' :: (prettyItems level (w :: vs) ++ newline close ++ ']' :: rest) := by
                simp [prettyItems, each.1.skipSpace_eq]
              have comma := skipSpace_cons (c := ',') (by decide)
                (prettyItems level (w :: vs) ++ newline close ++ ']' :: rest)
              rw [items, front, first]
              simp only [Option.bind_eq_bind, Option.bind_some, comma, later]

theorem items_skipSpace (value : List Char → Option (Json × List Char)) (n : Nat) (cs : List Char) :
    items value n (skipSpace cs) = items value n cs := by
  cases n with
  | zero => rfl
  | succ n => rw [items, items, skipSpace_skipSpace]

theorem items_eq_none {n : Nat} {cs rest : List Char} (closed : skipSpace cs = ']' :: rest) :
    items (valueAt bound levels) n cs = none := by
  cases n with
  | zero => rfl
  | succ n =>
      rw [items, closed, valueAt_eq_none bound levels (Or.inr rfl)]
      rfl

/-- An array is read back when its items are. -/
theorem readsBack_arr {vs : List Json} (few : vs.length ≤ bound)
    (each : ∀ v ∈ vs, ReadsBack bound levels (level + 1) v) :
    ReadsBack bound (levels + 1) level (.arr vs) := by
  intro rest
  cases vs with
  | nil => rfl
  | cons v vs =>
      have read := items_prettyItems level (List.cons_ne_nil v vs) few each rest
      have written : prettyChars level (.arr (v :: vs)) ++ rest =
          '[' :: (prettyItems (level + 1) (v :: vs) ++ newline level ++ ']' :: rest) := by
        simp [prettyChars]
      rw [written]
      simp only [valueAt]
      split
      · rename_i closed
        rw [items_eq_none closed] at read
        cases read
      · rw [items_skipSpace, read]
        rfl

/-! ## Objects -/

theorem addField_of_not_mem {key : String} {value : Json} {fs : List (String × Json)}
    (fresh : key ∉ fs.map Prod.fst) : addField key value fs = (key, value) :: fs := by
  have absent : fs.lookup key = none := by
    rw [List.lookup_eq_none_iff]
    intro field listed
    rw [bne_iff_ne]
    rintro rfl
    exact fresh (List.mem_map_of_mem listed)
  rw [addField, absent]
  rfl

/-- One field is read up to what stands behind its value. -/
theorem field_read (key : String) {value : Json} (back : ReadsBack bound levels level value)
    (behind : List Char) :
    ∃ body more, skipSpace (newline level ++ stringChars key ++ ':' :: ' ' ::
          (prettyChars level value ++ behind)) = '"' :: body ∧
      stringBody body = some (key.toList, ':' :: more) ∧
      valueAt bound levels (skipSpace more) = some (value, behind) := by
  obtain ⟨body, token, read⟩ :=
    stringChars_append key (':' :: ' ' :: (prettyChars level value ++ behind))
  refine ⟨body, _, ?_, read, ?_⟩
  · rw [List.append_assoc, skipSpace_newline, token, skipSpace_cons (by decide)]
  · rw [skipSpace_cons_of_space (by decide), back.skipSpace_eq, back behind]

/-- Fields are read back one after another, up to the closing brace. -/
theorem fields_prettyFields (close : Nat) {n : Nat} {fs : List (String × Json)} (filled : fs ≠ [])
    (few : fs.length ≤ n) (distinct : (fs.map Prod.fst).Nodup)
    (each : ∀ f ∈ fs, ReadsBack bound levels level f.2) (rest : List Char) :
    fields (valueAt bound levels) n (prettyFields level fs ++ newline close ++ '\x7d' :: rest) =
      some (fs, rest) := by
  induction fs generalizing n with
  | nil => exact absurd rfl filled
  | cons field fs ih =>
      obtain ⟨key, value⟩ := field
      rw [List.forall_mem_cons] at each
      rw [List.map_cons, List.nodup_cons] at distinct
      cases n with
      | zero => simp at few
      | succ n =>
          cases fs with
          | nil =>
              obtain ⟨body, more, front, named, valued⟩ :=
                field_read key each.1 (newline close ++ '\x7d' :: rest)
              have closing : skipSpace (newline close ++ '\x7d' :: rest) = '\x7d' :: rest := by
                rw [skipSpace_newline, skipSpace_cons (by decide)]
              have colon := skipSpace_cons (c := ':') (by decide) more
              have written : prettyFields level [(key, value)] ++ newline close ++ '\x7d' :: rest =
                  newline level ++ stringChars key ++ ':' :: ' ' ::
                    (prettyChars level value ++ (newline close ++ '\x7d' :: rest)) := by
                simp [prettyFields]
              rw [written, fields, front]
              simp only [named, Option.bind_eq_bind, Option.bind_some, colon, valued, closing,
                String.ofList_toList]
          | cons next fs =>
              have later := ih (List.cons_ne_nil next fs) (Nat.le_of_succ_le_succ few) distinct.2 each.2
              obtain ⟨body, more, front, named, valued⟩ := field_read key each.1
                (',' :: (prettyFields level (next :: fs) ++ newline close ++ '\x7d' :: rest))
              have comma := skipSpace_cons (c := ',') (by decide)
                (prettyFields level (next :: fs) ++ newline close ++ '\x7d' :: rest)
              have colon := skipSpace_cons (c := ':') (by decide) more
              have written : prettyFields level ((key, value) :: next :: fs) ++ newline close ++
                    '\x7d' :: rest =
                  newline level ++ stringChars key ++ ':' :: ' ' :: (prettyChars level value ++
                    ',' :: (prettyFields level (next :: fs) ++ newline close ++ '\x7d' :: rest)) := by
                simp [prettyFields]
              rw [written, fields, front]
              simp only [named, Option.bind_eq_bind, Option.bind_some, colon, valued, comma, later,
                String.ofList_toList, addField_of_not_mem distinct.1]

theorem fields_skipSpace (value : List Char → Option (Json × List Char)) (n : Nat) (cs : List Char) :
    fields value n (skipSpace cs) = fields value n cs := by
  cases n with
  | zero => rfl
  | succ n => rw [fields, fields, skipSpace_skipSpace]

theorem fields_eq_none {value : List Char → Option (Json × List Char)} {n : Nat} {cs rest : List Char}
    (closed : skipSpace cs = '\x7d' :: rest) : fields value n cs = none := by
  cases n with
  | zero => rfl
  | succ n =>
      rw [fields, closed]
      rfl

/-- An object is read back when its fields are and no key comes twice. -/
theorem readsBack_obj {fs : List (String × Json)} (few : fs.length ≤ bound)
    (distinct : (fs.map Prod.fst).Nodup) (each : ∀ f ∈ fs, ReadsBack bound levels (level + 1) f.2) :
    ReadsBack bound (levels + 1) level (.obj fs) := by
  intro rest
  cases fs with
  | nil => rfl
  | cons field fs =>
      have read := fields_prettyFields level (List.cons_ne_nil field fs) few distinct each rest
      have written : prettyChars level (.obj (field :: fs)) ++ rest =
          '\x7b' :: (prettyFields (level + 1) (field :: fs) ++ newline level ++ '\x7d' :: rest) := by
        simp [prettyChars]
      rw [written]
      simp only [valueAt]
      split
      · rename_i closed
        rw [fields_eq_none closed] at read
        cases read
      · rw [fields_skipSpace, read]
        rfl

end Parts

/-! ## Whole texts -/

/-- A text is the value that it was written for. -/
theorem parse?_pretty {j : Json}
    (back : ReadsBack ((prettyChars 0 j).length + 1) nestingLimit 0 j) : parse? j.pretty = some j := by
  have read := back []
  have front := back.skipSpace_eq []
  rw [List.append_nil] at read front
  have done : skipSpace [] = [] := rfl
  simp [parse?, pretty, front, read, done]

theorem length_prettyItems (level : Nat) (vs : List Json) :
    vs.length ≤ (prettyItems level vs).length ∧
      ∀ v ∈ vs, (prettyChars level v).length ≤ (prettyItems level vs).length := by
  induction vs with
  | nil => exact ⟨Nat.le_refl _, fun _ listed => nomatch listed⟩
  | cons v vs ih =>
      have longer : (prettyChars level v).length + (prettyItems level vs).length + 1 ≤
          (prettyItems level (v :: vs)).length := by
        cases vs with
        | nil =>
            simp only [prettyItems, newline, List.length_append, List.length_cons, List.length_nil]
            omega
        | cons w vs =>
            have shape : prettyItems level (v :: w :: vs) =
                newline level ++ prettyChars level v ++ ',' :: prettyItems level (w :: vs) := rfl
            simp only [shape, List.length_append, List.length_cons]
            omega
      constructor
      · rw [List.length_cons]
        omega
      · intro w listed
        rcases List.mem_cons.mp listed with rfl | later
        · omega
        · have := ih.2 w later
          omega

/-- The text of an array is as long as that of each item, and has a character at least for each. -/
theorem length_prettyChars_arr (level : Nat) (vs : List Json) :
    vs.length ≤ (prettyChars level (.arr vs)).length ∧
      ∀ v ∈ vs, (prettyChars (level + 1) v).length ≤ (prettyChars level (.arr vs)).length := by
  have inside : (prettyItems (level + 1) vs).length ≤ (prettyChars level (.arr vs)).length := by
    cases vs with
    | nil => simp [prettyItems]
    | cons v vs =>
        simp only [prettyChars, List.length_cons, List.length_append]
        omega
  obtain ⟨count, each⟩ := length_prettyItems (level + 1) vs
  exact ⟨by omega, fun v listed => Nat.le_trans (each v listed) inside⟩

end Stencil.Json
