/- # Json -- JSON values

A JSON value as the library works with it. A number keeps the kind of its token: integers in the
range of sixty-four bits are exact, every other number is a double. An object is its list of fields;
a reader never produces two fields of one key.
-/
import Stencil.Number.Binary64

namespace Stencil
set_option autoImplicit false

/-- A JSON number: an exact integer or a double. -/
inductive Json.Number where
  | int (n : Int)
  | float (x : Binary64)
deriving DecidableEq

/-- A JSON value. -/
inductive Json where
  | null
  | bool (b : Bool)
  | num (n : Json.Number)
  | str (s : String)
  | arr (items : List Json)
  | obj (fields : List (String × Json))

namespace Json

/-- An integer as a JSON value. -/
def int (n : Int) : Json := .num (.int n)

/-- A text, or null for none. -/
def strOrNull : Option String → Json
  | some s => .str s
  | none => .null

/-! ## Reading parts of a value

Each reader answers none where the value has another shape. -/

def str? : Json → Option String
  | .str s => some s
  | _ => none

def bool? : Json → Option Bool
  | .bool b => some b
  | _ => none

def arr? : Json → Option (List Json)
  | .arr items => some items
  | _ => none

def obj? : Json → Option (List (String × Json))
  | .obj fields => some fields
  | _ => none

/-- An integer token; a number written with a point or an exponent is none. -/
def int? : Json → Option Int
  | .num (.int n) => some n
  | _ => none

/-- An integer token from zero up to below `bound`. -/
def nat? (bound : Nat) (j : Json) : Option Nat := do
  let n ← j.int?
  if 0 ≤ n ∧ n < bound then some n.toNat else none

def uint64? (j : Json) : Option UInt64 := (j.nat? UInt64.size).map UInt64.ofNat

def uint32? (j : Json) : Option UInt32 := (j.nat? UInt32.size).map UInt32.ofNat

/-- The value of a field, if this is an object that has it. -/
def field? (key : String) : Json → Option Json
  | .obj fields => fields.lookup key
  | _ => none

/-- The only field of an object with exactly one. -/
def single? : Json → Option (String × Json)
  | .obj [field] => some field
  | _ => none

/-- A record with fields under the given keys: an object, or a list of the first fields in the order of
the keys, whose other fields are missing. -/
def record? (keys : List String) : Json → Option Json
  | .obj fields => some (.obj fields)
  | .arr items => if items.length ≤ keys.length then some (.obj (keys.zip items)) else none
  | _ => none

@[simp] theorem record?_obj (keys : List String) (fields : List (String × Json)) :
    record? keys (.obj fields) = some (.obj fields) := rfl

/-- Whether a value stands for nothing: null does, and an empty object where `orEmpty` allows it. -/
def isNothing (orEmpty : Bool) : Json → Bool
  | .null => true
  | .obj [] => orEmpty
  | _ => false

/-- A tag: a string, or an object with the tag as its only key and nothing under it. -/
def tag? (orEmpty : Bool) : Json → Option String
  | .str s => some s
  | j => j.single?.bind fun (key, value) => if value.isNothing orEmpty then some key else none

/-- Read an optional part: a missing field takes the default, one that is there must be read. -/
def fieldOr {α : Type} (j : Json) (key : String) (default : α) (read : Json → Option α) :
    Option α :=
  match j.field? key with
  | some v => read v
  | none => some default

/-- Read a required part. -/
def required {α : Type} (j : Json) (key : String) (read : Json → Option α) : Option α :=
  (j.field? key).bind read

/-- Read a part that may also be null. -/
def optional {α : Type} (read : Json → Option α) : Json → Option (Option α)
  | .null => some none
  | j => (read j).map some

/-- Read a list, element by element. -/
def list {α : Type} (read : Json → Option α) (j : Json) : Option (List α) :=
  j.arr?.bind (·.mapM read)

/-! ## Depth -/

mutual

/-- The number of arrays and objects around the innermost part, the value itself counted. -/
def depth : Json → Nat
  | .arr items => depthItems items + 1
  | .obj fields => depthFields fields + 1
  | _ => 1

/-- The greatest depth of the items of an array. -/
def depthItems : List Json → Nat
  | [] => 0
  | item :: items => max item.depth (depthItems items)

/-- The greatest depth of the fields of an object. -/
def depthFields : List (String × Json) → Nat
  | [] => 0
  | (_, value) :: fields => max value.depth (depthFields fields)

end

end Json

end Stencil
