/- # Term.Json -- terms as JSON

A resource is a JSON string. A constant is an object that names its type and holds its value, or a list
of the two; an integer stands for a double where a double is wanted, but not the other way round. In an
object the type is a tag (`Json.tag?`), under which an empty object means nothing only inside a form. In
a list it is a word, or, for a value and inside a form, its place among the types.
-/
import Stencil.Json.Basic
import Stencil.Number.Nearest
import Stencil.Term

namespace Stencil
set_option autoImplicit false

namespace Json

/-- An integer token in the range of a signed sixty-four bit word. -/
def int64? (j : Json) : Option Int64 := do
  let n ← j.int?
  if Int64.minValue.toInt ≤ n ∧ n ≤ Int64.maxValue.toInt then some (Int64.ofInt n) else none

/-- Any number token, an integer as the nearest double. -/
def binary64? : Json → Option Binary64
  | .num (.float x) => some x
  | .num (.int n) => Binary64.ofInt? n
  | _ => none

/-- A double as a number token, null where it is not finite. -/
def ofBinary64 (x : Binary64) : Json := if x.isFinite then .num (.float x) else .null

end Json

namespace Uri

def toJson (u : Uri) : Json := .str u.id

def ofJson? (j : Json) : Option Uri := j.str?.map Uri.mk

end Uri

namespace Literal

/-- The value under the key `value`. -/
def payload : Literal → Json
  | .integer n => .int n.toInt
  | .float x => .ofBinary64 x
  | .string s => .str s
  | .boolean b => .bool b

def toJson (l : Literal) : Json := .obj [("type", .str l.kind), ("value", l.payload)]

/-- A constant of the named type. -/
def ofPayload? (type : String) (value : Json) : Option Literal :=
  if type = "integer" then value.int64?.map .integer
  else if type = "float" then value.binary64?.map .float
  else if type = "string" then value.str?.map .string
  else if type = "boolean" then value.bool?.map .boolean
  else none

/-- The names of the types, in their order. -/
def kinds : List String := ["integer", "float", "string", "boolean"]

/-- The type at the front of a list: its name, or its place where `byPlace` allows it. -/
def kindInList? (byPlace : Bool) (j : Json) : Option String :=
  if byPlace then j.str?.or ((j.nat? kinds.length).bind fun i => kinds[i]?) else j.str?

def ofJson? (inForm byPlace : Bool) : Json → Option Literal
  | .arr [type, value] => do
    let type ← kindInList? byPlace type
    ofPayload? type value
  | j => do
    let type ← j.required "type" (Json.tag? inForm)
    let value ← j.field? "value"
    ofPayload? type value

end Literal

namespace Value

def toJson : Value → Json
  | .uri u => u.toJson
  | .literal l => l.toJson

def ofJson? : Json → Option Value
  | .str s => some (.uri ⟨s⟩)
  | j => (Literal.ofJson? false true j).map .literal

end Value

end Stencil
