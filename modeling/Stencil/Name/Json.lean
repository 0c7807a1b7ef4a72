/- # Name.Json -- names as JSON

A name is the list of its segments. `self` is a tag (`Json.tag?`), under which an empty object means
nothing only inside a form; the other segments are objects with one key. An empty list is no name.
-/
import Stencil.Name
import Stencil.Term.Json

namespace Stencil
set_option autoImplicit false

namespace Segment

def toJson : Segment → Json
  | .symbol s => .obj [("symbol", .str s)]
  | .uri u => .obj [("uri", u.toJson)]
  | .selfRef => .str "self_ref"

def ofField? (key : String) (value : Json) : Option Segment :=
  if key = "symbol" then value.str?.map .symbol
  else if key = "uri" then (Uri.ofJson? value).map .uri
  else none

def ofJson? (inForm : Bool) (j : Json) : Option Segment :=
  if j.tag? inForm = some "self_ref" then some .selfRef
  else j.single?.bind fun (key, value) => ofField? key value

end Segment

namespace Name

def toJson (n : Name) : Json := .arr (n.segments.map Segment.toJson)

def ofJson? (inForm : Bool) (j : Json) : Option Name :=
  (j.list (Segment.ofJson? inForm)).bind ofSegments?

end Name

end Stencil
