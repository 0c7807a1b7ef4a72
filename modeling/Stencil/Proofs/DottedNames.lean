/- # Proofs.DottedNames -- dotted texts and names are inverse

Reading a dotted text cuts it at the dots and drops what is empty; writing a name joins the texts of its
segments by dots; and a target is bound under its symbols joined by dots. All three go through the same list,
the components of the text: `dotted?_eq` reads a name off them, `toList_display` writes them back, and
`components_intercalate` says that joining and cutting gives them again.

The names that can be read are those whose segments are components (`Plain`): `self`, or a symbol that is
neither empty nor the word for `self` and holds no dot. For these writing and reading are inverse
(`dotted?_display`), so their texts, and with them their keys, tell them apart (`dotted_names_inverse`).
-/
import Stencil.Proofs.AssignmentLocality

namespace Stencil
set_option autoImplicit false

/-! ## Texts -/

namespace Text

/-- The parts between the dots of a text that are not empty. -/
def components (text : String) : List (List Char) := (text.toList.splitOn '.').filter (· ≠ [])

/-- No part between separators holds one. -/
theorem not_mem_of_mem_splitOn {sep : Char} {cs part : List Char} (mem : part ∈ cs.splitOn sep) :
    sep ∉ part := by
  induction cs generalizing part with
  | nil =>
      rw [List.splitOn_nil, List.mem_singleton] at mem
      rw [mem]
      exact List.not_mem_nil
  | cons c cs ih =>
      obtain ⟨first, parts, shape⟩ := List.exists_cons_of_ne_nil (List.splitOn_ne_nil sep cs)
      rw [List.splitOn_cons_eq_if_modifyHead, shape] at mem
      rw [shape] at ih
      split at mem
      · rcases List.mem_cons.mp mem with rfl | mem
        · exact List.not_mem_nil
        · exact ih mem
      · rename_i other
        rcases List.mem_cons.mp mem with rfl | mem
        · rw [beq_iff_eq] at other
          exact List.not_mem_cons_of_ne_of_not_mem (Ne.symm other) (ih List.mem_cons_self)
        · exact ih (List.mem_cons_of_mem first mem)

theorem mem_components {text : String} {part : List Char} (mem : part ∈ components text) :
    part ≠ [] ∧ '.' ∉ part := by
  rw [components, List.mem_filter, decide_eq_true_eq] at mem
  exact ⟨mem.2, not_mem_of_mem_splitOn mem.1⟩

/-- Nothing is between separators just where there is nothing else. -/
theorem splitOn_all_empty_iff {sep : Char} {cs : List Char} :
    (∀ part ∈ cs.splitOn sep, part = []) ↔ ∀ c ∈ cs, c = sep := by
  induction cs with
  | nil => simp
  | cons c cs ih =>
      rw [List.splitOn_cons_eq_if_modifyHead]
      by_cases met : c = sep
      · rw [if_pos (beq_iff_eq.mpr met), List.forall_mem_cons, List.forall_mem_cons, ih]
        exact and_congr_left fun _ => iff_of_true rfl met
      · obtain ⟨part, parts, shape⟩ := List.exists_cons_of_ne_nil (List.splitOn_ne_nil sep cs)
        simp [met, shape]

theorem components_eq_nil_iff {text : String} :
    components text = [] ↔ ∀ c ∈ text.toList, c = '.' := by
  rw [components, List.filter_eq_nil_iff, ← splitOn_all_empty_iff]
  simp

/-- Joined by dots, parts that are not empty and hold no dot are the components of what they make. -/
theorem components_intercalate {parts : List (List Char)}
    (clean : ∀ part ∈ parts, part ≠ [] ∧ '.' ∉ part) :
    components (String.ofList (['.'].intercalate parts)) = parts := by
  cases parts with
  | nil => rfl
  | cons part parts =>
      rw [components, String.toList_ofList,
        List.splitOn_intercalate '.' (fun p mem => (clean p mem).2) (List.cons_ne_nil _ _),
        List.filter_eq_self]
      intro p mem
      simpa using (clean p mem).1

end Text

/-! ## Segments that are components -/

namespace Segment

/-- `self`, or a symbol that can stand between dots and is not read as `self`. -/
def Plain : Segment → Prop
  | .symbol s => s ≠ "" ∧ '.' ∉ s.toList ∧ s ≠ "self"
  | .uri _ => False
  | .selfRef => True

instance (s : Segment) : Decidable s.Plain :=
  match s with
  | .symbol s => inferInstanceAs (Decidable (s ≠ "" ∧ '.' ∉ s.toList ∧ s ≠ "self"))
  | .uri _ => instDecidableFalse
  | .selfRef => instDecidableTrue

/-- A component is written as it is read, `self` too. -/
theorem toList_display_ofComponent (cs : List Char) : (ofComponent cs).display.toList = cs := by
  rw [ofComponent]
  split
  · rename_i word
    rw [word]
    rfl
  · exact String.toList_ofList

theorem plain_ofComponent {cs : List Char} (clean : cs ≠ [] ∧ '.' ∉ cs) : (ofComponent cs).Plain := by
  rw [ofComponent]
  split
  · trivial
  · rename_i other
    refine ⟨?_, ?_, ?_⟩
    · rw [Ne, String.ofList_eq_empty_iff]
      exact clean.1
    · rw [String.toList_ofList]
      exact clean.2
    · intro word
      exact other (String.ofList_injective word)

/-- The text of a plain segment is a component, and it is read as the segment. -/
theorem Plain.display {s : Segment} (plain : s.Plain) :
    (s.display.toList ≠ [] ∧ '.' ∉ s.display.toList) ∧ ofComponent s.display.toList = s := by
  cases s with
  | symbol text =>
      obtain ⟨some, dotless, other⟩ := plain
      refine ⟨⟨?_, dotless⟩, ?_⟩
      · rw [Segment.display, Ne, String.toList_eq_nil_iff]
        exact some
      · rw [ofComponent, Segment.display, if_neg, String.ofList_toList]
        intro word
        exact other (String.toList_injective word)
  | uri u => cases plain
  | selfRef => exact ⟨by decide, rfl⟩

end Segment

/-! ## Names that can be read -/

namespace Name

def Plain (n : Name) : Prop := ∀ s ∈ n.segments, s.Plain

instance (n : Name) : Decidable n.Plain := inferInstanceAs (Decidable (∀ s ∈ n.segments, s.Plain))

theorem ofSegments?_segments (n : Name) : ofSegments? n.segments = some n := rfl

/-- A name is read off the components of a text. -/
theorem dotted?_eq (text : String) :
    dotted? text = ofSegments? ((Text.components text).map Segment.ofComponent) := by
  rw [dotted?, Text.components]
  congr 2
  apply List.filter_congr
  intro part _
  cases part <;> rfl

theorem dotted?_eq_none_iff {text : String} :
    dotted? text = none ↔ ∀ c ∈ text.toList, c = '.' := by
  rw [dotted?_eq, ← Text.components_eq_nil_iff]
  cases Text.components text <;> simp [ofSegments?]

/-- What can be read is plain. -/
theorem plain_of_dotted? {text : String} {n : Name} (read : dotted? text = some n) : n.Plain := by
  rw [dotted?_eq] at read
  intro s mem
  rw [segments_ofSegments? read] at mem
  obtain ⟨part, listed, rfl⟩ := List.mem_map.mp mem
  exact Segment.plain_ofComponent (Text.mem_components listed)

theorem toList_display (n : Name) :
    n.display.toList = ['.'].intercalate (n.segments.map fun s => s.display.toList) := by
  rw [display, String.toList_intercalate, List.map_map]
  rfl

/-- The text of a name that was read is made of the components of the text it was read from. -/
theorem toList_display_of_dotted? {text : String} {n : Name} (read : dotted? text = some n) :
    n.display.toList = ['.'].intercalate (Text.components text) := by
  rw [dotted?_eq] at read
  have written : ∀ part ∈ Text.components text,
      ((fun s => s.display.toList) ∘ Segment.ofComponent) part = part :=
    fun part _ => Segment.toList_display_ofComponent part
  rw [toList_display, segments_ofSegments? read, List.map_map, List.map_congr_left written,
    List.map_id']

/-- A plain name is read back from its text. -/
theorem dotted?_display {n : Name} (plain : n.Plain) : dotted? n.display = some n := by
  have parts : Text.components n.display = n.segments.map fun s => s.display.toList := by
    rw [← String.ofList_toList (s := n.display), toList_display]
    apply Text.components_intercalate
    intro part mem
    obtain ⟨s, listed, rfl⟩ := List.mem_map.mp mem
    exact (plain s listed).display.1
  have read : ∀ s ∈ n.segments, (Segment.ofComponent ∘ fun s => s.display.toList) s = s :=
    fun s listed => (plain s listed).display.2
  rw [dotted?_eq, parts, List.map_map, List.map_congr_left read, List.map_id',
    ofSegments?_segments]

/-! ## Keys -/

theorem symbolKey_of_symbols {n : Name} {symbols : List String}
    (all : n.segments.mapM Segment.symbol? = some symbols) : n.symbolKey = .ok n.display := by
  have texts : n.segments.map Segment.display = symbols := by
    rw [eq_map_symbol all, List.map_map]
    exact List.map_id symbols
  rw [symbolKey, all, display, texts]
  rfl

/-- The key of a target is its text. -/
theorem eq_display_of_symbolKey {n : Name} {key : String} (keyed : n.symbolKey = .ok key) :
    key = n.display := by
  cases all : n.segments.mapM Segment.symbol? with
  | none =>
      rw [symbolKey, all] at keyed
      cases keyed
  | some symbols =>
      rw [symbolKey_of_symbols all] at keyed
      cases keyed
      rfl

theorem mapM_symbol?_map (symbols : List String) :
    (symbols.map Segment.symbol).mapM Segment.symbol? = some symbols := by
  induction symbols with
  | nil => rfl
  | cons s symbols ih =>
      rw [List.map_cons, List.mapM_cons, ih]
      rfl

/-- A plain name without `self` is made of symbols. -/
theorem symbolKey_of_plain {n : Name} (plain : n.Plain) (free : n.hasSelf = false) :
    n.symbolKey = .ok n.display := by
  have symbols : ∀ s ∈ n.segments, (Segment.symbol ∘ Segment.text) s = s := by
    intro s listed
    have isPlain := plain s listed
    have bound := List.any_eq_false.mp free s listed
    cases s with
    | symbol text => rfl
    | uri u => cases isPlain
    | selfRef => cases bound rfl
  have shape : (n.segments.map Segment.text).map Segment.symbol = n.segments := by
    rw [List.map_map, List.map_congr_left symbols, List.map_id']
  apply symbolKey_of_symbols
  rw [← shape]
  exact mapM_symbol?_map _

/-- **Dotted texts and names are inverse.** A text is no name just if it has nothing but dots; otherwise the
name read from it is written as the text without its empty components, and read again from there. A name of
`self` and of symbols that are components is read from its own text. Without `self`, this text is its key as a
target, so that targets with the same key are the same name. -/
theorem dotted_names_inverse :
    (∀ text : String,
      (dotted? text = none ↔ ∀ c ∈ text.toList, c = '.') ∧
        ∀ n, dotted? text = some n →
          n.display.toList = ['.'].intercalate ((text.toList.splitOn '.').filter (· ≠ [])) ∧
            dotted? n.display = some n) ∧
      (∀ n : Name, n.Plain →
        dotted? n.display = some n ∧ (n.hasSelf = false → n.symbolKey = .ok n.display)) ∧
      ∀ m n : Name, m.Plain → n.Plain →
        ∀ key, m.symbolKey = .ok key → n.symbolKey = .ok key → m = n := by
  refine ⟨?_, ?_, ?_⟩
  · intro text
    refine ⟨dotted?_eq_none_iff, ?_⟩
    intro n read
    exact ⟨toList_display_of_dotted? read, dotted?_display (plain_of_dotted? read)⟩
  · intro n plain
    exact ⟨dotted?_display plain, symbolKey_of_plain plain⟩
  · intro m n first second key here there
    have same : m.display = n.display :=
      (eq_display_of_symbolKey here).symm.trans (eq_display_of_symbolKey there)
    have read := dotted?_display first
    rw [same, dotted?_display second, Option.some.injEq] at read
    exact read.symm

-- a symbol that holds a dot has the key of another name
example : (ofSymbol "a.b").symbolKey = symbolKey ⟨.symbol "a", [.symbol "b"]⟩ := rfl

/-- Empty components, `self`, and a symbol that begins like it. -/
def untidy : String := "..lamp...selfish.self..post."

/-- The name it stands for. -/
def tidied : Name := ⟨.symbol "lamp", [.symbol "selfish", .selfRef, .symbol "post"]⟩

/-- A target. -/
def street : Name := ⟨.symbol "lamp", [.symbol "post"]⟩

theorem untidy_text_reads_as_plain_name :
    dotted? untidy = some tidied ∧ tidied.display = "lamp.selfish.self.post" ∧
      dotted? tidied.display = some tidied ∧ tidied.Plain ∧ street.Plain ∧
      street.symbolKey = .ok "lamp.post" ∧
      ∀ n : Name, n.Plain → n.symbolKey = .ok "lamp.post" → n = street := by
  obtain ⟨texts, names, keys⟩ := dotted_names_inverse
  have read : dotted? untidy = some tidied := by decide +kernel
  have plain : street.Plain := by decide
  have keyed : street.symbolKey = .ok "lamp.post" := (names street plain).2 rfl
  refine ⟨read, by decide +kernel, ((texts untidy).2 tidied read).2, by decide, plain, keyed, ?_⟩
  intro n other same
  exact keys n street other plain _ same keyed

end Name

end Stencil
