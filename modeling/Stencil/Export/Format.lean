/- # Export.Format -- the formats of an export

Triples are exported either as lines or as a JSON list of records with four texts each. A format is
asked for by name, in letters of either case.
-/
import Stencil.Error
import Stencil.Export.NTriples
import Stencil.Json.Writer

namespace Stencil
set_option autoImplicit false

/-- The record of a triple. -/
def Triple.record (t : Triple) : Json :=
  .obj [("subject", .str t.subject.id), ("predicate", .str t.predicate.id),
    ("object", .str t.object.lexical), ("object_kind", .str t.object.kind)]

/-- Triples as a list of records. -/
def jsonDocument (ts : List Triple) : String := (Json.arr (ts.map Triple.record)).pretty

/-- How triples are exported. -/
inductive Format where
  | nTriples
  | json
deriving DecidableEq

namespace Format

/-- A letter of the plain alphabet in lower case; any other character as it is. -/
def lowerChar (c : Char) : Char := if 'A' ≤ c ∧ c ≤ 'Z' then Char.ofNat (c.toNat + 32) else c

/-- The format of a name. -/
def parse (name : String) : Except ExportError Format :=
  let lower := String.ofList (name.toList.map lowerChar)
  if lower = "ntriples" ∨ lower = "nt" then .ok .nTriples
  else if lower = "json" then .ok .json
  else .error (.unknownFormat name)

def name : Format → String
  | .nTriples => "ntriples"
  | .json => "json"

/-- The text of triples in a format. -/
def render : Format → List Triple → String
  | .nTriples, ts => NTriples.document ts
  | .json, ts => jsonDocument ts

end Format

end Stencil
