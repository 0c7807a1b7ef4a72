/- # Name -- dotted symbolic names

A name is a sequence of segments with at least one: bare symbols, identifiers that are concrete
already, and `self`, which stands for the identity of the expansion at hand. `dotted?` reads a name
from a text and `display` writes one.
-/
import Stencil.Term

namespace Stencil
set_option autoImplicit false

/-- One component of a name. -/
inductive Segment where
  | symbol (s : String)
  | uri (u : Uri)
  | selfRef
deriving DecidableEq

namespace Segment

/-- The text a segment adds to a key or an identifier; `self` has none until it is bound. -/
def text? : Segment → Option String
  | .symbol s => some s
  | .uri u => some u.id
  | .selfRef => none

/-- The text a segment adds, `self` adding nothing. -/
def text (s : Segment) : String := s.text?.getD ""

def symbol? : Segment → Option String
  | .symbol s => some s
  | _ => none

def isSelf : Segment → Bool
  | .selfRef => true
  | _ => false

def display : Segment → String
  | .symbol s => s
  | .uri u => u.display
  | .selfRef => "self"

/-- Put an identity in place of `self`. -/
def bindSelf (me : Uri) : Segment → Segment
  | .selfRef => .uri me
  | s => s

/-- The segment that one component of a dotted text stands for. -/
def ofComponent (cs : List Char) : Segment :=
  if cs = ['s', 'e', 'l', 'f'] then .selfRef else .symbol (String.ofList cs)

end Segment

/-- A name: a first segment and the ones after it. -/
structure Name where
  head : Segment
  tail : List Segment
deriving DecidableEq

namespace Name

def segments (n : Name) : List Segment := n.head :: n.tail

/-- A name of these segments, if there is one at least. -/
def ofSegments? : List Segment → Option Name
  | [] => none
  | head :: tail => some ⟨head, tail⟩

def ofSymbol (s : String) : Name := ⟨.symbol s, []⟩

def ofUri (u : Uri) : Name := ⟨.uri u, []⟩

def selfName : Name := ⟨.selfRef, []⟩

/-- Read a dotted text. Empty components are dropped; none is left of a text of dots only. -/
def dotted? (text : String) : Option Name :=
  ofSegments? (((text.toList.splitOn '.').filter (!·.isEmpty)).map Segment.ofComponent)

/-- Read a dotted text; a text without components is one symbol as a whole. -/
def dotted (text : String) : Name := (dotted? text).getD (ofSymbol text)

def length (n : Name) : Nat := n.segments.length

def hasSelf (n : Name) : Bool := n.segments.any Segment.isSelf

/-- The symbol of a name that is one symbol and nothing else. -/
def symbol? : Name → Option String
  | ⟨.symbol s, []⟩ => some s
  | _ => none

/-- Put an identity in place of every `self`. -/
def bindSelf (me : Uri) (n : Name) : Name := ⟨n.head.bindSelf me, n.tail.map (Segment.bindSelf me)⟩

def display (n : Name) : String := String.intercalate "." (n.segments.map Segment.display)

@[simp] theorem segments_ofSegments? {ss : List Segment} {n : Name} (h : ofSegments? ss = some n) :
    n.segments = ss := by
  cases ss with
  | nil => simp [ofSegments?] at h
  | cons s ss =>
    simp only [ofSegments?, Option.some.injEq] at h
    subst h
    rfl

@[simp] theorem segments_bindSelf (me : Uri) (n : Name) :
    (n.bindSelf me).segments = n.segments.map (Segment.bindSelf me) := rfl

/-- No `self` is left once it is bound. -/
@[simp] theorem hasSelf_bindSelf (me : Uri) (n : Name) : (n.bindSelf me).hasSelf = false := by
  rw [hasSelf, segments_bindSelf, List.any_map, List.any_eq_false]
  intro segment _
  cases segment <;> simp [Segment.bindSelf, Segment.isSelf]

theorem bindSelf_of_hasSelf_eq_false {me : Uri} {n : Name} (h : n.hasSelf = false) :
    n.bindSelf me = n := by
  have kept : ∀ segment ∈ n.segments, segment.bindSelf me = segment := by
    intro segment hs
    have other := List.any_eq_false.mp h segment hs
    cases segment <;> simp_all [Segment.bindSelf, Segment.isSelf]
  obtain ⟨head, tail⟩ := n
  simp only [segments, List.mem_cons, forall_eq_or_imp] at kept
  have same : tail.map (Segment.bindSelf me) = tail := by
    rw [List.map_congr_left kept.2, List.map_id']
  simp [bindSelf, kept.1, same]

end Name

end Stencil
