/- # Proofs.ExportLines -- which identifiers a document of lines tells apart

Constants stay in their place in a line (`Proofs.QuotedLiterals`). Identifiers are written between angle
brackets as they are, so that one with brackets and blanks in it can imitate the marks between the fields of a
line, or the end of a line and the beginning of the next: `document_one_triple_as_two` shows one triple that
is written as two.

What an identifier needs for this are the three characters `<`, `>` and the blank. `document_lossless_iff` says
that an alphabet for identifiers which lacks any one of them makes every document readable, and that an
alphabet with all three does not. There are two ways to read a document.

* No identifier has a closing bracket before a blank (`Text.Apart`), which holds if the alphabet lacks one of
  these two. Then an identifier ends at the first such pair, and a line is read from left to right
  (`columns_of_apart`).
* No identifier has an opening bracket. Then a line ends at the first line break that stands before an opening
  bracket or at the end of the document, and inside a line the predicate ends where the object begins: at the
  first opening bracket, or at the quote after a blank that no constant can hold (`columns_of_unopened`).
-/
import Mathlib.Data.List.Chain
import Stencil.Proofs.QuotedLiterals

namespace Stencil
set_option autoImplicit false

/-! ## Cutting texts -/

namespace Text

/-- A text is cut in one way at a character that does not occur before the cut. -/
theorem cut_unique {sep : Char} {u v rest rest' : List Char} (first : sep ∉ u) (second : sep ∉ v)
    (same : u ++ sep :: rest = v ++ sep :: rest') : u = v ∧ rest = rest' := by
  have here := splitFirst?_eq_some_iff.mpr ⟨same, second⟩
  rw [splitFirst?_eq_some_iff.mpr ⟨rfl, first⟩, Option.some.injEq, Prod.mk.injEq] at here
  exact here

/-- Nowhere in the text does `a` stand right before `b`. -/
def Apart (a b : Char) (cs : List Char) : Prop := cs.IsChain fun x y => ¬(x = a ∧ y = b)

theorem apart_of_not_mem {a b : Char} {cs : List Char} (absent : a ∉ cs ∨ b ∉ cs) :
    Apart a b cs := by
  refine (List.pairwise_of_forall_mem_list ?_).isChain
  rintro x first y second ⟨rfl, rfl⟩
  rcases absent with absent | absent
  · exact absent first
  · exact absent second

theorem Apart.cons {a b c : Char} {cs : List Char} (other : c ≠ a) (apart : Apart a b cs) :
    Apart a b (c :: cs) := by
  refine List.isChain_append.mpr ⟨List.isChain_singleton c, apart, ?_⟩
  intro x first y _ pair
  rw [List.getLast?_singleton, Option.mem_some_iff] at first
  exact other (first.trans pair.1)

/-- Two texts with a character between them that is none of the pair. -/
theorem Apart.around {a b c : Char} {xs ys : List Char} (first : Apart a b xs) (notA : c ≠ a)
    (notB : c ≠ b) (second : Apart a b ys) : Apart a b (xs ++ c :: ys) := by
  refine List.isChain_append.mpr ⟨first, second.cons notA, ?_⟩
  intro x _ y next pair
  rw [List.head?_cons, Option.mem_some_iff] at next
  exact notB (next.trans pair.2)

/-- Two ways to cut a text are the same if neither first part can be longer than the other. -/
theorem append_unique {p q rest rest' : List Char} (same : p ++ rest = q ++ rest')
    (left : ∀ z, q = p ++ z → rest = z ++ rest' → z = [])
    (right : ∀ z, p = q ++ z → rest' = z ++ rest → z = []) : p = q ∧ rest = rest' := by
  rcases List.append_eq_append_iff.mp same with ⟨z, longer, shape⟩ | ⟨z, longer, shape⟩
  · obtain rfl := left z longer shape
    exact ⟨by simpa using longer.symm, shape⟩
  · obtain rfl := right z longer shape
    exact ⟨by simpa using longer, shape.symm⟩

/-- A text is cut in one way at the first pair of neighbours `a` and `b`. -/
theorem Apart.cut_unique {a b : Char} (different : a ≠ b) {u v rest rest' : List Char}
    (first : Apart a b u) (second : Apart a b v)
    (same : u ++ a :: b :: rest = v ++ a :: b :: rest') : u = v ∧ rest = rest' := by
  -- a longer part would hold the pair, or the pair would overlap itself
  have nothing : ∀ {u z rest rest' : List Char}, Apart a b (u ++ z) →
      a :: b :: rest = z ++ a :: b :: rest' → z = [] := by
    intro u z rest rest' apart shape
    rcases z with _ | ⟨x, _ | ⟨y, z⟩⟩
    · rfl
    · simp only [List.cons_append, List.nil_append, List.cons.injEq] at shape
      exact absurd shape.2.1.symm different
    · simp only [List.cons_append, List.cons.injEq] at shape
      obtain ⟨rfl, rfl, -⟩ := shape
      have inside := (List.isChain_append.mp apart).2.1
      exact absurd ⟨rfl, rfl⟩ (List.isChain_cons_cons.mp inside).1
  obtain ⟨parts, rests⟩ := append_unique same
    (fun z longer shape => nothing (longer ▸ second) shape)
    (fun z longer shape => nothing (longer ▸ first) shape)
  simp only [List.cons.injEq, true_and] at rests
  exact ⟨parts, rests⟩

end Text

/-! ## Triples and their columns -/

namespace Triple

/-- What a document shows of a triple. -/
def columns (t : Triple) : Uri × Uri × String × String :=
  (t.subject, t.predicate, t.object.kind, t.object.lexical)

/-- The identifiers of a triple, that of its object if it has one. -/
def identifiers (t : Triple) : List Uri := t.subject :: t.predicate :: t.object.uri?.toList

/-- All identifiers are written in an alphabet. -/
def SpelledIn (alphabet : Char → Prop) (t : Triple) : Prop :=
  ∀ u ∈ t.identifiers, ∀ c ∈ u.id.toList, alphabet c

theorem columns_eq {t u : Triple} (subjects : t.subject.id.toList = u.subject.id.toList)
    (predicates : t.predicate.id.toList = u.predicate.id.toList)
    (objects : t.object.kind = u.object.kind ∧ t.object.lexical = u.object.lexical) :
    t.columns = u.columns := by
  have subject : t.subject = u.subject := congrArg Uri.mk (String.toList_injective subjects)
  have predicate : t.predicate = u.predicate := congrArg Uri.mk (String.toList_injective predicates)
  rw [columns, columns, subject, predicate, objects.1, objects.2]

end Triple

namespace NTriples

/-! ## Lines -/

theorem toList_object_uri (u : Uri) : (object (.uri u)).toList = '<' :: (u.id.toList ++ ['>']) := by
  change ("<" ++ u.id ++ ">").toList = _
  simp

/-- A line without its break. -/
def lineBody (t : Triple) : List Char :=
  '<' :: (t.subject.id.toList ++ '>' :: ' ' :: '<' :: (t.predicate.id.toList ++ '>' :: ' ' ::
    ((object t.object).toList ++ [' ', '.'])))

theorem toList_line (t : Triple) : (line t).toList = lineBody t ++ ['\n'] := by
  change ("<" ++ t.subject.id ++ "> <" ++ t.predicate.id ++ "> " ++ object t.object ++ " .\n").toList =
    _
  simp [lineBody]

theorem toList_document_cons (t : Triple) (ts : List Triple) :
    (document (t :: ts)).toList = lineBody t ++ '\n' :: (document ts).toList := by
  rw [document, String.toList_append, toList_line, List.append_assoc, List.singleton_append]

/-- How the object of a triple is written. -/
theorem object_cases (v : Value) :
    (∃ u, v = .uri u ∧ (object v).toList = '<' :: (u.id.toList ++ ['>'])) ∨
      (∃ s, v = .literal (.string s) ∧ (object v).toList = '"' :: ((escape s).toList ++ ['"'])) ∨
      (∀ c ∈ v.lexical.toList, Text.isTextual c = true) ∧
        ∃ datatype, (datatype, v.kind) ∈ datatypes ∧
          (object v).toList =
            '"' :: (v.lexical.toList ++ '"' :: '^' :: '^' :: '<' :: (datatype.toList ++ ['>'])) := by
  cases v with
  | uri u => exact Or.inl ⟨u, rfl, toList_object_uri u⟩
  | literal l =>
      obtain ⟨s, rfl, written⟩ | typed := literal_cases l
      · exact Or.inr (Or.inl ⟨s, rfl, written⟩)
      · exact Or.inr (Or.inr typed)

/-- Two lists of triples are told apart by their documents, if this is so for the first lines. -/
theorem columns_of_document (Allowed : Triple → Prop)
    (first : ∀ t u ts us, Allowed t → Allowed u → document (t :: ts) = document (u :: us) →
      t.columns = u.columns ∧ document ts = document us)
    {ts us : List Triple} (left : ∀ t ∈ ts, Allowed t) (right : ∀ u ∈ us, Allowed u)
    (same : document ts = document us) : ts.map Triple.columns = us.map Triple.columns := by
  have notEmpty : ∀ t ts, document (t :: ts) ≠ document [] := by
    intro t ts empty
    have texts := congrArg String.toList empty
    rw [toList_document_cons] at texts
    simp [lineBody, document] at texts
  induction ts generalizing us with
  | nil =>
      cases us with
      | nil => rfl
      | cons u us => exact absurd same.symm (notEmpty u us)
  | cons t ts ih =>
      cases us with
      | nil => exact absurd same (notEmpty t ts)
      | cons u us =>
          rw [List.forall_mem_cons] at left right
          obtain ⟨here, rest⟩ := first t u ts us left.1 right.1 same
          rw [List.map_cons, List.map_cons, here, ih left.2 right.2 rest]

/-! ## Identifiers without a closing bracket before a blank -/

/-- An object is read from left to right up to the blank behind it. -/
theorem object_unique {v w : Value} (left : ∀ u ∈ v.uri?, Text.Apart '>' ' ' u.id.toList)
    (right : ∀ u ∈ w.uri?, Text.Apart '>' ' ' u.id.toList) {rest rest' : List Char}
    (same : (object v).toList ++ ' ' :: rest = (object w).toList ++ ' ' :: rest') :
    (v.kind = w.kind ∧ v.lexical = w.lexical) ∧ rest = rest' := by
  have quoted : ∀ (l : Literal) (u : Uri) (cs cs' : List Char),
      (object (.literal l)).toList ++ cs ≠ (object (.uri u)).toList ++ cs' := by
    intro l u cs cs' shape
    rw [toList_object_uri] at shape
    obtain ⟨s, -, written⟩ | ⟨-, datatype, -, written⟩ := literal_cases l
    · simp [object, written] at shape
    · simp [object, written] at shape
  cases v with
  | uri u =>
      cases w with
      | uri u' =>
          rw [toList_object_uri, toList_object_uri] at same
          simp only [List.cons_append, List.append_assoc, List.nil_append, List.cons.injEq,
            true_and] at same
          obtain ⟨ids, rests⟩ := (left u rfl).cut_unique (by decide) (right u' rfl) same
          exact ⟨⟨rfl, String.toList_injective ids⟩, rests⟩
      | literal m => exact absurd same.symm (quoted m u _ _)
  | literal l =>
      cases w with
      | uri u' => exact absurd same (quoted l u' _ _)
      | literal m =>
          have read := readLiteral_literal l rest
          rw [show (literal l).toList ++ ' ' :: rest = (literal m).toList ++ ' ' :: rest' from same,
            readLiteral_literal m] at read
          simp only [Option.some.injEq, Prod.mk.injEq, List.cons.injEq, true_and] at read
          exact ⟨⟨read.1.symm, read.2.1.symm⟩, read.2.2.symm⟩

/-- A line is read from left to right. -/
theorem columns_of_apart {t u : Triple} {ts us : List Triple}
    (left : ∀ i ∈ t.identifiers, Text.Apart '>' ' ' i.id.toList)
    (right : ∀ i ∈ u.identifiers, Text.Apart '>' ' ' i.id.toList)
    (same : document (t :: ts) = document (u :: us)) :
    t.columns = u.columns ∧ document ts = document us := by
  have texts := congrArg String.toList same
  simp only [toList_document_cons, lineBody, List.cons_append, List.append_assoc, List.nil_append,
    List.cons.injEq, true_and] at texts
  simp only [Triple.identifiers, List.forall_mem_cons, Option.mem_toList] at left right
  obtain ⟨subjects, texts⟩ := left.1.cut_unique (by decide) right.1 texts
  obtain ⟨predicates, texts⟩ :=
    left.2.1.cut_unique (by decide) right.2.1 (List.cons.inj texts).2
  obtain ⟨objects, texts⟩ := object_unique left.2.2 right.2.2 texts
  simp only [List.cons.injEq, true_and] at texts
  exact ⟨Triple.columns_eq subjects predicates objects, String.toList_injective texts⟩

/-! ## Identifiers without an opening bracket -/

theorem apart_object {v : Value} (unopened : ∀ u ∈ v.uri?, '<' ∉ u.id.toList) :
    Text.Apart '\n' '<' (object v).toList := by
  cases v with
  | uri u =>
      rw [toList_object_uri]
      refine .cons (by decide) (Text.apart_of_not_mem (Or.inr ?_))
      simpa using unopened u rfl
  | literal l =>
      refine Text.apart_of_not_mem (Or.inl ?_)
      intro held
      exact (literal_no_break l _ held).1 rfl

/-- Inside a line no opening bracket stands at the beginning of a line. -/
theorem apart_lineBody {t : Triple} (unopened : ∀ i ∈ t.identifiers, '<' ∉ i.id.toList) :
    Text.Apart '\n' '<' (lineBody t) := by
  simp only [Triple.identifiers, List.forall_mem_cons, Option.mem_toList] at unopened
  obtain ⟨subject, predicate, object⟩ := unopened
  refine .cons (by decide) ?_
  refine .around (Text.apart_of_not_mem (Or.inr subject)) (by decide) (by decide) ?_
  refine .cons (by decide) (.cons (by decide) ?_)
  refine .around (Text.apart_of_not_mem (Or.inr predicate)) (by decide) (by decide) ?_
  refine .cons (by decide) ?_
  exact .around (apart_object object) (by decide) (by decide) (Text.apart_of_not_mem (Or.inl (by decide)))

/-- The bodies of the first lines are the same, since the end of a line is seen by what follows it. -/
theorem lineBody_unique {t u : Triple} {ts us : List Triple}
    (left : ∀ i ∈ t.identifiers, '<' ∉ i.id.toList) (right : ∀ i ∈ u.identifiers, '<' ∉ i.id.toList)
    (same : document (t :: ts) = document (u :: us)) :
    lineBody t = lineBody u ∧ document ts = document us := by
  -- an opening bracket behind the document stands for the line that does not follow
  have opens : ∀ ts : List Triple, ∃ cs, (document ts).toList ++ ['<'] = '<' :: cs := by
    intro ts
    cases ts with
    | nil => exact ⟨[], rfl⟩
    | cons t ts =>
        rw [toList_document_cons]
        exact ⟨_, rfl⟩
  obtain ⟨cs, behind⟩ := opens ts
  obtain ⟨cs', behind'⟩ := opens us
  have texts := congrArg (fun text => text.toList ++ ['<']) same
  simp only [toList_document_cons, List.append_assoc, List.cons_append, behind, behind'] at texts
  obtain ⟨bodies, rests⟩ :=
    (apart_lineBody left).cut_unique (by decide) (apart_lineBody right) texts
  rw [← rests, ← behind, List.append_left_inj] at behind'
  exact ⟨bodies, String.toList_injective behind'.symm⟩

/-- What stands between quotes has no quote behind a blank, so that the last such quote begins it. -/
theorem cut_escaped {p q body body' : List Char} (left : Escaped body) (right : Escaped body')
    (same : p ++ '>' :: ' ' :: '"' :: body = q ++ '>' :: ' ' :: '"' :: body') :
    p = q ∧ body = body' := by
  have nothing : ∀ {z body body' : List Char}, Escaped body →
      '>' :: ' ' :: '"' :: body = z ++ '>' :: ' ' :: '"' :: body' → z = [] := by
    intro z body body' escaped shape
    rcases z with _ | ⟨a, _ | ⟨b, _ | ⟨c, z⟩⟩⟩
    · rfl
    · simp at shape
    · simp at shape
    · have inside : body = (z ++ ['>', ' ']) ++ '"' :: body' := by
        simp only [List.cons_append, List.cons.injEq] at shape
        simpa using shape.2.2.2
      have odd := escaped.odd_backslashes inside
      simp [backslashesBehind] at odd
  obtain ⟨parts, rests⟩ := Text.append_unique same (fun z _ shape => nothing left shape)
    (fun z _ shape => nothing right shape)
  simp only [List.cons.injEq, true_and] at rests
  exact ⟨parts, rests⟩

/-- A resource as object: the first opening bracket is its own. -/
theorem resource_unique {p q rest rest' : List Char} (left : '<' ∉ p) (right : '<' ∉ q)
    (same : p ++ '>' :: ' ' :: '<' :: rest = q ++ '>' :: ' ' :: '<' :: rest') :
    p = q ∧ rest = rest' := by
  have grouped : (p ++ ['>', ' ']) ++ '<' :: rest = (q ++ ['>', ' ']) ++ '<' :: rest' := by
    simpa using same
  obtain ⟨fronts, rests⟩ := Text.cut_unique (by simp [left]) (by simp [right]) grouped
  exact ⟨(List.append_inj' fronts rfl).1, rests⟩

/-- A string as object. -/
theorem string_unique {p q : List Char} {s s' : String}
    (same : p ++ '>' :: ' ' :: '"' :: ((escape s).toList ++ ['"']) =
      q ++ '>' :: ' ' :: '"' :: ((escape s').toList ++ ['"'])) : p = q ∧ s = s' := by
  have grouped : (p ++ '>' :: ' ' :: '"' :: (escape s).toList) ++ ['"'] =
      (q ++ '>' :: ' ' :: '"' :: (escape s').toList) ++ ['"'] := by
    simpa using same
  obtain ⟨fronts, bodies⟩ :=
    cut_escaped (escaped_escape s) (escaped_escape s') (List.append_inj' grouped rfl).1
  exact ⟨fronts, escape_injective (String.toList_injective bodies)⟩

section Typed

variable {p q text text' rest rest' : List Char} (left : '<' ∉ p) (right : '<' ∉ q)
  (textual' : ∀ c ∈ text', Text.isTextual c = true)

/-- Before a datatype there is no opening bracket. -/
theorem unopened_before_datatype (unopened : '<' ∉ p) (textual : ∀ c ∈ text, Text.isTextual c = true) :
    '<' ∉ (p ++ '>' :: ' ' :: '"' :: text) ++ ['"', '^', '^'] := by
  have plain : '<' ∉ text := by
    intro held
    exact absurd (textual _ held) (by decide)
  simp [unopened, plain]

include left right textual'

/-- Another constant as object: the first opening bracket is that of its datatype. -/
theorem typed_unique (textual : ∀ c ∈ text, Text.isTextual c = true)
    (same : p ++ '>' :: ' ' :: '"' :: (text ++ '"' :: '^' :: '^' :: '<' :: rest) =
      q ++ '>' :: ' ' :: '"' :: (text' ++ '"' :: '^' :: '^' :: '<' :: rest')) :
    p = q ∧ text = text' ∧ rest = rest' := by
  have grouped : ((p ++ '>' :: ' ' :: '"' :: text) ++ ['"', '^', '^']) ++ '<' :: rest =
      ((q ++ '>' :: ' ' :: '"' :: text') ++ ['"', '^', '^']) ++ '<' :: rest' := by
    simpa using same
  obtain ⟨fronts, rests⟩ := Text.cut_unique (unopened_before_datatype left textual)
    (unopened_before_datatype right textual') grouped
  obtain ⟨predicates, texts⟩ := cut_escaped (escaped_of_textual textual)
    (escaped_of_textual textual') (List.append_inj' fronts rfl).1
  exact ⟨predicates, texts, rests⟩

/-- The first opening bracket stands behind a blank, or behind the sign of a datatype. -/
theorem resource_ne_typed :
    p ++ '>' :: ' ' :: '<' :: rest ≠
      q ++ '>' :: ' ' :: '"' :: (text' ++ '"' :: '^' :: '^' :: '<' :: rest') := by
  intro same
  have grouped : (p ++ ['>', ' ']) ++ '<' :: rest =
      ((q ++ '>' :: ' ' :: '"' :: text') ++ ['"', '^', '^']) ++ '<' :: rest' := by
    simpa using same
  have fronts := (Text.cut_unique (by simp [left]) (unopened_before_datatype right textual') grouped).1
  have lasts := congrArg List.getLast? fronts
  rw [List.getLast?_append, List.getLast?_append] at lasts
  simp at lasts

end Typed

/-- A string ends with a quote, every other object with a bracket. -/
theorem bracket_ne_quote (p q xs ys : List Char) :
    p ++ '>' :: ' ' :: (xs ++ ['>']) ≠ q ++ '>' :: ' ' :: '"' :: (ys ++ ['"']) := by
  intro same
  have grouped : (p ++ '>' :: ' ' :: xs) ++ ['>'] = (q ++ '>' :: ' ' :: '"' :: ys) ++ ['"'] := by
    simpa using same
  exact absurd (List.append_inj' grouped rfl).2 (by decide)

/-- In a line the predicate ends where the object begins. -/
theorem predicate_unique {p q : List Char} (left : '<' ∉ p) (right : '<' ∉ q) {v w : Value}
    (same : p ++ '>' :: ' ' :: (object v).toList = q ++ '>' :: ' ' :: (object w).toList) :
    p = q ∧ v.kind = w.kind ∧ v.lexical = w.lexical := by
  -- a resource, a string and another constant in either place: unlike objects differ in their last character,
  -- or in what stands before the first opening bracket
  obtain ⟨u, rfl, here⟩ | ⟨s, rfl, here⟩ | ⟨textual, datatype, known, here⟩ := object_cases v <;>
    obtain ⟨u', rfl, there⟩ | ⟨s', rfl, there⟩ | ⟨textual', datatype', known', there⟩ :=
      object_cases w <;>
    rw [here, there] at same
  · obtain ⟨predicates, ids⟩ := resource_unique left right same
    exact ⟨predicates, rfl, String.toList_injective (List.append_inj' ids rfl).1⟩
  · exact absurd same (bracket_ne_quote p q ('<' :: u.id.toList) _)
  · exact absurd same (resource_ne_typed left right textual')
  · exact absurd same.symm (bracket_ne_quote q p ('<' :: u'.id.toList) _)
  · obtain ⟨predicates, strings⟩ := string_unique same
    exact ⟨predicates, rfl, strings⟩
  · exact absurd (by simpa using same.symm) (bracket_ne_quote q p
      ('"' :: (w.lexical.toList ++ '"' :: '^' :: '^' :: '<' :: datatype'.toList)) (escape s).toList)
  · exact absurd same.symm (resource_ne_typed right left textual)
  · exact absurd (by simpa using same) (bracket_ne_quote p q
      ('"' :: (v.lexical.toList ++ '"' :: '^' :: '^' :: '<' :: datatype.toList)) (escape s').toList)
  · obtain ⟨predicates, texts, behind⟩ := typed_unique left right textual' textual same
    have names : datatype = datatype' := String.toList_injective (List.append_inj' behind rfl).1
    have kinds := lookup_datatypes _ known
    rw [names, lookup_datatypes _ known', Option.some.injEq] at kinds
    exact ⟨predicates, kinds.symm, String.toList_injective texts⟩

/-- A line is found by its end, and then cut at its opening brackets. -/
theorem columns_of_unopened {t u : Triple} {ts us : List Triple}
    (left : ∀ i ∈ t.identifiers, '<' ∉ i.id.toList) (right : ∀ i ∈ u.identifiers, '<' ∉ i.id.toList)
    (same : document (t :: ts) = document (u :: us)) :
    t.columns = u.columns ∧ document ts = document us := by
  obtain ⟨bodies, rests⟩ := lineBody_unique left right same
  simp only [Triple.identifiers, List.forall_mem_cons, Option.mem_toList] at left right
  simp only [lineBody, List.cons.injEq, true_and] at bodies
  obtain ⟨subjects, bodies⟩ := resource_unique left.1 right.1 bodies
  have parts : (t.predicate.id.toList ++ '>' :: ' ' :: (object t.object).toList) ++ [' ', '.'] =
      (u.predicate.id.toList ++ '>' :: ' ' :: (object u.object).toList) ++ [' ', '.'] := by
    simpa using bodies
  obtain ⟨predicates, objects⟩ :=
    predicate_unique left.2.1 right.2.1 (List.append_inj' parts rfl).1
  exact ⟨Triple.columns_eq subjects predicates objects, rests⟩

/-! ## Documents -/

/-- What stands between the first two fields may as well stand inside one of them. -/
theorem document_shift (x y z : String) (o : Value) (ts : List Triple) :
    document (⟨⟨x ++ "> <" ++ y⟩, ⟨z⟩, o⟩ :: ts) = document (⟨⟨x⟩, ⟨y ++ "> <" ++ z⟩, o⟩ :: ts) := by
  apply String.toList_injective
  simp [toList_document_cons, lineBody]

/-- **A document of lines is lossless just where identifiers cannot spell its marks.** Whatever the strings,
numbers and truth values, and for lists of any lengths: with identifiers in an alphabet that lacks an opening
bracket, a closing bracket or a blank, lists with the same document have the same subjects, predicates, kinds
and texts of objects at every position. With all three in the alphabet this fails. -/
theorem document_lossless_iff (alphabet : Char → Prop) :
    (∀ ts us : List Triple, (∀ t ∈ ts, t.SpelledIn alphabet) → (∀ u ∈ us, u.SpelledIn alphabet) →
      document ts = document us → ts.map Triple.columns = us.map Triple.columns) ↔
      ¬(alphabet '<' ∧ alphabet '>' ∧ alphabet ' ') := by
  constructor
  · rintro lossless ⟨opening, closing, blank⟩
    have columns := lossless [⟨⟨"" ++ "> <" ++ ""⟩, ⟨""⟩, .uri ⟨""⟩⟩] [⟨⟨""⟩, ⟨"" ++ "> <" ++ ""⟩, .uri ⟨""⟩⟩]
      (by simp [Triple.SpelledIn, Triple.identifiers, Value.uri?, opening, closing, blank])
      (by simp [Triple.SpelledIn, Triple.identifiers, Value.uri?, opening, closing, blank])
      (document_shift "" "" "" _ [])
    exact absurd columns (by decide)
  · intro lacking ts us left right same
    by_cases opening : alphabet '<'
    · have apart : ∀ t : Triple, t.SpelledIn alphabet →
          ∀ i ∈ t.identifiers, Text.Apart '>' ' ' i.id.toList := by
        intro t spelled i listed
        apply Text.apart_of_not_mem
        by_cases closing : alphabet '>'
        · exact Or.inr fun blank => lacking ⟨opening, closing, spelled i listed _ blank⟩
        · exact Or.inl fun held => closing (spelled i listed _ held)
      refine columns_of_document (Triple.SpelledIn alphabet) ?_ left right same
      intro t u ts us first second
      exact columns_of_apart (apart t first) (apart u second)
    · refine columns_of_document (Triple.SpelledIn alphabet) ?_ left right same
      intro t u ts us first second
      exact columns_of_unopened (fun i listed held => opening (first i listed _ held))
        fun i listed held => opening (second i listed _ held)

/-- A triple whose object imitates the end of its line and the line of another triple. -/
def merged : Triple := ⟨⟨"a"⟩, ⟨"b"⟩, .uri ⟨"c> .\n<d> <e> <f"⟩⟩

theorem document_one_triple_as_two :
    document [merged] = document [⟨⟨"a"⟩, ⟨"b"⟩, .uri ⟨"c"⟩⟩, ⟨⟨"d"⟩, ⟨"e"⟩, .uri ⟨"f"⟩⟩] ∧
      ¬∀ ts us : List Triple, document ts = document us →
        ts.map Triple.columns = us.map Triple.columns := by
  have same : document [merged] =
      document [⟨⟨"a"⟩, ⟨"b"⟩, .uri ⟨"c"⟩⟩, ⟨⟨"d"⟩, ⟨"e"⟩, .uri ⟨"f"⟩⟩] := by
    decide +kernel
  refine ⟨same, ?_⟩
  intro lossless
  have lengths := congrArg List.length (lossless _ _ same)
  simp at lengths

end NTriples

end Stencil
