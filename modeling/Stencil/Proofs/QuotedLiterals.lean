/- # Proofs.QuotedLiterals -- a constant stays in its place in a line

A constant is written between quotes, a string with its special characters escaped and every other constant
with its datatype behind it. A reader of such texts (`readLiteral`) cuts at the first quote that no backslash
escapes, reads the escapes back, and looks at what stands behind the quote: a blank after a string, a datatype
after any other constant.

* `escapeChar_cases` says all there is to say of one character: it is written as a pair that is read back, or
  it is written as it is and is no special one.
* `Escaped` is the form of a text between quotes. The escapes of a string have it, and so has the text of a
  number (`escaped_of_textual`), which is not escaped at all.
* `readLiteral_literal`: the reader finds kind and text of a constant, whatever stands behind it.

`literals_stay_in_line` puts this together with the absence of line breaks.
-/
import Stencil.Export.NTriples
import Stencil.Proofs.LexicalForms
import Stencil.Text.Split

namespace Stencil.NTriples
set_option autoImplicit false

/-! ## One character -/

/-- The character that is meant by one behind a backslash. -/
def meant? (c : Char) : Option Char :=
  if c = '\\' then some '\\'
  else if c = '"' then some '"'
  else if c = 'n' then some '\n'
  else if c = 'r' then some '\r'
  else if c = 't' then some '\t'
  else none

/-- A character is written as a pair that means it, or as it is. -/
theorem escapeChar_cases (c : Char) :
    (∃ d, escapeChar c = ['\\', d] ∧ meant? d = some c) ∨
      escapeChar c = [c] ∧ c ≠ '\\' ∧ c ≠ '"' ∧ c ≠ '\n' ∧ c ≠ '\r' := by
  by_cases backslash : c = '\\'
  · subst backslash
    exact Or.inl ⟨'\\', rfl, rfl⟩
  by_cases quote : c = '"'
  · subst quote
    exact Or.inl ⟨'"', rfl, rfl⟩
  by_cases feed : c = '\n'
  · subst feed
    exact Or.inl ⟨'n', rfl, rfl⟩
  by_cases carriage : c = '\r'
  · subst carriage
    exact Or.inl ⟨'r', rfl, rfl⟩
  by_cases tab : c = '\t'
  · subst tab
    exact Or.inl ⟨'t', rfl, rfl⟩
  · have raw : escapeChar c = [c] := by
      simp [escapeChar, backslash, quote, feed, carriage, tab]
    exact Or.inr ⟨raw, backslash, quote, feed, carriage⟩

/-! ## Texts between quotes -/

/-- A text whose quotes are all escaped: pairs behind a backslash, and characters that are neither backslash
nor quote. -/
inductive Escaped : List Char → Prop
  | nil : Escaped []
  | plain {c : Char} {cs : List Char} (unmarked : c ≠ '\\') (unquoted : c ≠ '"') (rest : Escaped cs) :
      Escaped (c :: cs)
  | pair {c : Char} {cs : List Char} (rest : Escaped cs) : Escaped ('\\' :: c :: cs)

theorem escaped_escape (s : String) : Escaped (escape s).toList := by
  rw [escape, String.toList_ofList]
  induction s.toList with
  | nil => exact .nil
  | cons c cs ih =>
      rw [List.flatMap_cons]
      obtain ⟨d, written, -⟩ | ⟨written, unmarked, unquoted, -⟩ := escapeChar_cases c
      · rw [written]
        exact .pair ih
      · rw [written]
        exact .plain unmarked unquoted ih

theorem escaped_of_textual {cs : List Char} (textual : ∀ c ∈ cs, Text.isTextual c = true) :
    Escaped cs := by
  induction cs with
  | nil => exact .nil
  | cons c cs ih =>
      rw [List.forall_mem_cons] at textual
      refine .plain ?_ ?_ (ih textual.2)
      · rintro rfl
        exact absurd textual.1 (by decide)
      · rintro rfl
        exact absurd textual.1 (by decide)

/-- The number of backslashes at the end of a text. -/
def backslashesBehind (cs : List Char) : Nat := (cs.reverse.takeWhile (· = '\\')).length

theorem backslashesBehind_cons (c : Char) (cs : List Char) :
    backslashesBehind (c :: cs) =
      if backslashesBehind cs = cs.length ∧ c = '\\' then cs.length + 1 else backslashesBehind cs := by
  unfold backslashesBehind
  rw [List.reverse_cons, List.takeWhile_append, List.length_reverse]
  by_cases all : (cs.reverse.takeWhile (· = '\\')).length = cs.length
  · by_cases here : c = '\\'
    · simp [all, here]
    · simp [all, here]
  · simp [all]

theorem backslashesBehind_le (cs : List Char) : backslashesBehind cs ≤ cs.length := by
  have shorter := (List.takeWhile_sublist (l := cs.reverse) (· = '\\')).length_le
  rwa [List.length_reverse] at shorter

/-- A backslash and the character that it escapes do not change which backslashes behind them escape. -/
theorem backslashesBehind_pair (c : Char) (cs : List Char) :
    backslashesBehind ('\\' :: c :: cs) % 2 = backslashesBehind cs % 2 := by
  have short := backslashesBehind_le cs
  have inner := backslashesBehind_cons c cs
  rw [backslashesBehind_cons, List.length_cons]
  split at inner
  · rw [if_pos ⟨inner, rfl⟩]
    omega
  · rw [if_neg (by omega), inner]

/-- Every quote stands behind an odd number of backslashes, the last of which escapes it. -/
theorem Escaped.odd_backslashes {cs before after : List Char} (escaped : Escaped cs)
    (shape : cs = before ++ '"' :: after) : backslashesBehind before % 2 = 1 := by
  induction escaped generalizing before with
  | nil => simp at shape
  | @plain c cs unmarked unquoted rest ih =>
      cases before with
      | nil =>
          cases shape
          exact absurd rfl unquoted
      | cons b before =>
          obtain ⟨rfl, tail⟩ := List.cons.inj shape
          rw [backslashesBehind_cons, if_neg fun here => unmarked here.2]
          exact ih tail
  | @pair c cs rest ih =>
      cases before with
      | nil => simp at shape
      | cons b before =>
          obtain ⟨rfl, tail⟩ := List.cons.inj shape
          cases before with
          | nil => decide
          | cons d before =>
              obtain ⟨rfl, behind⟩ := List.cons.inj tail
              rw [backslashesBehind_pair]
              exact ih behind

/-! ## Reading -/

/-- The text before the first quote that is not escaped, and what is behind the quote. -/
def cutAtQuote : List Char → Option (List Char × List Char)
  | [] => none
  | '"' :: rest => some ([], rest)
  | '\\' :: c :: rest => (cutAtQuote rest).map (Prod.map ('\\' :: c :: ·) id)
  | c :: rest => (cutAtQuote rest).map (Prod.map (c :: ·) id)

/-- A text with its escapes read back. -/
def unescape : List Char → Option (List Char)
  | [] => some []
  | '\\' :: c :: rest => (meant? c).bind fun m => (unescape rest).map (m :: ·)
  | ['\\'] => none
  | c :: rest => (unescape rest).map (c :: ·)

theorem Escaped.cutAtQuote_eq {cs : List Char} (escaped : Escaped cs) (rest : List Char) :
    cutAtQuote (cs ++ '"' :: rest) = some (cs, rest) := by
  induction escaped with
  | nil => rfl
  | plain unmarked unquoted _ ih => simp [cutAtQuote, unmarked, ih]
  | pair _ ih => simp [cutAtQuote, ih]

theorem unescape_escape (s : String) : unescape (escape s).toList = some s.toList := by
  rw [escape, String.toList_ofList]
  induction s.toList with
  | nil => rfl
  | cons c cs ih =>
      rw [List.flatMap_cons]
      obtain ⟨d, written, means⟩ | ⟨written, unmarked, -⟩ := escapeChar_cases c
      · rw [written]
        simp [unescape, means, ih]
      · rw [written]
        simp [unescape, unmarked, ih]

theorem unescape_of_textual {cs : List Char} (textual : ∀ c ∈ cs, Text.isTextual c = true) :
    unescape cs = some cs := by
  induction cs with
  | nil => rfl
  | cons c cs ih =>
      rw [List.forall_mem_cons] at textual
      have unmarked : c ≠ '\\' := by
        rintro rfl
        exact absurd textual.1 (by decide)
      simp [unescape, unmarked, ih textual.2]

theorem escape_injective : Function.Injective escape := by
  intro s t same
  have read := unescape_escape s
  rw [same, unescape_escape, Option.some.injEq] at read
  exact (String.toList_injective read).symm

/-- The kind that each datatype stands for. -/
def datatypes : List (String × String) :=
  [(datatypeNamespace ++ "integer", "integer"), (datatypeNamespace ++ "double", "float"),
    (datatypeNamespace ++ "boolean", "boolean")]

/-- The kind of a constant by what is behind its closing quote, and what comes after that. -/
def readKind : List Char → Option (String × List Char)
  | ' ' :: rest => some ("string", ' ' :: rest)
  | '^' :: '^' :: '<' :: cs =>
    (Text.splitFirst? '>' cs).bind fun (datatype, rest) =>
      (datatypes.lookup (String.ofList datatype)).map (·, rest)
  | _ => none

/-- Kind and raw text of the constant at the front of a text, and what comes after it. -/
def readLiteral : List Char → Option (String × String × List Char)
  | '"' :: cs =>
    (cutAtQuote cs).bind fun (body, behind) =>
      (unescape body).bind fun text =>
        (readKind behind).map fun (kind, rest) => (kind, String.ofList text, rest)
  | _ => none

/-- The characters that neither a datatype nor the text of a number holds. -/
def isMark (c : Char) : Bool := c == '"' || c == '\\' || c == '<' || c == '>' || c == '\n' || c == '\r'

theorem isMark_of_datatype :
    ∀ entry ∈ datatypes, ∀ c ∈ entry.1.toList, isMark c = false := by
  have all : (datatypes.all fun entry => entry.1.toList.all fun c => !isMark c) = true := by decide
  simpa only [List.all_eq_true, Bool.not_eq_true'] using all

theorem isMark_of_textual {c : Char} (textual : Text.isTextual c = true) : isMark c = false := by
  rw [Bool.eq_false_iff]
  intro mark
  simp only [isMark, Bool.or_eq_true, beq_iff_eq] at mark
  rcases mark with ((((rfl | rfl) | rfl) | rfl) | rfl) | rfl <;> exact absurd textual (by decide)

theorem lookup_datatypes : ∀ entry ∈ datatypes, datatypes.lookup entry.1 = some entry.2 := by
  decide

theorem toList_typed (text datatype : String) :
    (typed text datatype).toList =
      '"' :: (text.toList ++
        '"' :: '^' :: '^' :: '<' :: ((datatypeNamespace ++ datatype).toList ++ ['>'])) := by
  change ("\"" ++ text ++ "\"^^<" ++ datatypeNamespace ++ datatype ++ ">").toList = _
  simp

theorem toList_literal_string (s : String) :
    (literal (.string s)).toList = '"' :: ((escape s).toList ++ ['"']) := by
  change ("\"" ++ escape s ++ "\"").toList = _
  simp

/-- A string is written with its escapes; every other constant as it is, with its datatype behind it. -/
theorem literal_cases (l : Literal) :
    (∃ s, l = .string s ∧ (literal l).toList = '"' :: ((escape s).toList ++ ['"'])) ∨
      (∀ c ∈ l.lexical.toList, Text.isTextual c = true) ∧
        ∃ datatype, (datatype, l.kind) ∈ datatypes ∧
          (literal l).toList =
            '"' :: (l.lexical.toList ++ '"' :: '^' :: '^' :: '<' :: (datatype.toList ++ ['>'])) := by
  cases l with
  | string s => exact Or.inl ⟨s, rfl, toList_literal_string s⟩
  | integer n =>
      exact Or.inr ⟨Literal.isTextual_lexical (by simp), _, by simp [datatypes, Literal.kind], toList_typed _ _⟩
  | float x =>
      exact Or.inr ⟨Literal.isTextual_lexical (by simp), _, by simp [datatypes, Literal.kind], toList_typed _ _⟩
  | boolean b =>
      exact Or.inr ⟨Literal.isTextual_lexical (by simp), _, by simp [datatypes, Literal.kind], toList_typed _ _⟩

theorem readKind_datatype {datatype kind : String} (known : (datatype, kind) ∈ datatypes)
    (rest : List Char) :
    readKind ('^' :: '^' :: '<' :: (datatype.toList ++ '>' :: rest)) = some (kind, rest) := by
  have closed : '>' ∉ datatype.toList := by
    intro held
    exact absurd (isMark_of_datatype _ known _ held) (by decide)
  have cut : Text.splitFirst? '>' (datatype.toList ++ '>' :: rest) = some (datatype.toList, rest) :=
    Text.splitFirst?_eq_some_iff.mpr ⟨rfl, closed⟩
  simp [readKind, cut, lookup_datatypes _ known]

/-- What is read of a constant: text and kind, whatever stands behind the blank after it. -/
theorem readLiteral_literal (l : Literal) (rest : List Char) :
    readLiteral ((literal l).toList ++ ' ' :: rest) = some (l.kind, l.lexical, ' ' :: rest) := by
  obtain ⟨s, rfl, written⟩ | ⟨textual, datatype, known, written⟩ := literal_cases l
  · have cut := (escaped_escape s).cutAtQuote_eq (' ' :: rest)
    simp [written, readLiteral, cut, unescape_escape, readKind, Literal.kind, Literal.lexical]
  · have cut := (escaped_of_textual textual).cutAtQuote_eq
      ('^' :: '^' :: '<' :: (datatype.toList ++ '>' :: ' ' :: rest))
    simp [written, readLiteral, cut, unescape_of_textual textual, readKind_datatype known]

/-! ## Line breaks -/

theorem escapeChar_no_break {c d : Char} (held : d ∈ escapeChar c) : d ≠ '\n' ∧ d ≠ '\r' := by
  obtain ⟨e, written, means⟩ | ⟨written, -, -, feed, carriage⟩ := escapeChar_cases c
  · rw [written, List.mem_cons, List.mem_singleton] at held
    rcases held with rfl | rfl
    · decide
    · constructor
      · rintro rfl
        exact absurd means (by simp [meant?])
      · rintro rfl
        exact absurd means (by simp [meant?])
  · rw [written, List.mem_singleton] at held
    rw [held]
    exact ⟨feed, carriage⟩

theorem ne_break_of_isMark {c : Char} (unmarked : isMark c = false) : c ≠ '\n' ∧ c ≠ '\r' := by
  constructor
  · rintro rfl
    exact absurd unmarked (by decide)
  · rintro rfl
    exact absurd unmarked (by decide)

theorem literal_no_break (l : Literal) : ∀ c ∈ (literal l).toList, c ≠ '\n' ∧ c ≠ '\r' := by
  intro c held
  obtain ⟨s, rfl, written⟩ | ⟨textual, datatype, known, written⟩ := literal_cases l
  · rw [written] at held
    simp only [List.mem_cons, List.mem_append, List.not_mem_nil, or_false] at held
    rcases held with rfl | held | rfl
    · decide
    · rw [escape, String.toList_ofList, List.mem_flatMap] at held
      obtain ⟨d, -, held⟩ := held
      exact escapeChar_no_break held
    · decide
  · rw [written] at held
    simp only [List.mem_cons, List.mem_append, List.not_mem_nil, or_false] at held
    rcases held with rfl | held | rfl | rfl | rfl | rfl | held | rfl
    · decide
    · exact ne_break_of_isMark (isMark_of_textual (textual c held))
    · decide
    · decide
    · decide
    · decide
    · exact ne_break_of_isMark (isMark_of_datatype _ known c held)
    · decide

/-- **A constant stays in its place in a line.** Its text has no line break, and from this text, with anything
behind it that begins with a blank, its kind, its raw text and what is behind it can be read. Different strings
have different escapes; reading the escapes back gives the string; and every quote in them is escaped, by the
last of an odd number of backslashes. -/
theorem literals_stay_in_line :
    (∀ l : Literal,
      (∀ c ∈ (object (.literal l)).toList, c ≠ '\n' ∧ c ≠ '\r') ∧
        ∀ rest, readLiteral ((object (.literal l)).toList ++ ' ' :: rest) =
          some (l.kind, l.lexical, ' ' :: rest)) ∧
      Function.Injective escape ∧
      ∀ s : String,
        unescape (escape s).toList = some s.toList ∧
          ∀ before after, (escape s).toList = before ++ '"' :: after →
            backslashesBehind before % 2 = 1 := by
  refine ⟨?_, escape_injective, ?_⟩
  · intro l
    exact ⟨literal_no_break l, readLiteral_literal l⟩
  · intro s
    refine ⟨unescape_escape s, ?_⟩
    intro before after shape
    exact (escaped_escape s).odd_backslashes shape

-- a string that imitates an escape, its own end and a datatype
example :
    readLiteral ((literal (.string "\\\"^^<x> .\n")).toList ++ [' ', '.']) =
      some ("string", "\\\"^^<x> .\n", [' ', '.']) := by
  decide +kernel

end Stencil.NTriples
