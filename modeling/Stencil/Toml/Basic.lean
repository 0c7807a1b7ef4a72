/- # Toml -- TOML values and the tables of a document

A document is a table whose fields are filled line by line. How a table came about decides who may
still add to it: a table written in braces is closed, one opened by a header is not opened twice, one
that a longer header implies may be opened later, and one made by a dotted key takes further dotted
keys only.
-/
import Stencil.Number.Binary64

namespace Stencil
set_option autoImplicit false

/-- How a table came about. -/
inductive Toml.Origin where
  | braces
  | header
  | implied
  | dotted
deriving DecidableEq

/-- A TOML value; `moment` is a date, a time or both in one spelling, and `tables` is a list of tables
that headers add to. -/
inductive Toml where
  | string (s : String)
  | integer (n : Int)
  | float (x : Binary64)
  | boolean (b : Bool)
  | moment (text : String)
  | array (items : List Toml)
  | table (origin : Toml.Origin) (fields : List (String × Toml))
  | tables (items : List (List (String × Toml)))

namespace Toml

/-- The fields of a table. -/
abbrev Fields := List (String × Toml)

def string? : Toml → Option String
  | .string s => some s
  | _ => none

def integer? : Toml → Option Int
  | .integer n => some n
  | _ => none

def boolean? : Toml → Option Bool
  | .boolean b => some b
  | _ => none

/-- The key that holds the text of a moment where a table is wanted. -/
def momentKey : String := "$__toml_private_datetime"

/-- The fields of a single table; a moment is a table of its text. -/
def fields? : Toml → Option Fields
  | .table _ fields => some fields
  | .moment text => some [(momentKey, .string text)]
  | _ => none

/-- Put a value in place of that of a key, or add the key at the end. -/
def setField (key : String) (value : Toml) : Fields → Fields
  | [] => [(key, value)]
  | (k, v) :: rest => if k = key then (k, value) :: rest else (k, v) :: setField key value rest

/-- Change the last table of a list of tables. -/
def changeLast (change : Fields → Option Fields) (items : List Fields) : Option (List Fields) :=
  match items.getLast? with
  | some last => (change last).map fun last => items.dropLast ++ [last]
  | none => none

/-- Add a key with its value below a path of dotted keys. A key is added once; the table it goes to is
the one at hand or one made by dotted keys. -/
def putDotted (key : String) (value : Toml) : List String → Fields → Option Fields
  | [], fields => if (fields.lookup key).isSome then none else some (fields ++ [(key, value)])
  | step :: path, fields =>
    match fields.lookup step with
    | none => (putDotted key value path []).map fun sub => fields ++ [(step, .table .dotted sub)]
    | some (.table .dotted sub) =>
      (putDotted key value path sub).map fun sub => setField step (.table .dotted sub) fields
    | some (.table .implied sub) =>
      if path.isEmpty then none
      else (putDotted key value path sub).map fun sub => setField step (.table .implied sub) fields
    | some (.tables items) =>
      if path.isEmpty then none
      else (changeLast (putDotted key value path) items).map fun items =>
        setField step (.tables items) fields
    | some _ => none

/-- Go down a path of header keys, making tables where there are none, and change the fields there. -/
def descend (change : Fields → Option Fields) : List String → Fields → Option Fields
  | [], fields => change fields
  | step :: path, fields =>
    match fields.lookup step with
    | none => (descend change path []).map fun sub => fields ++ [(step, .table .implied sub)]
    | some (.table .braces _) => none
    | some (.table origin sub) =>
      (descend change path sub).map fun sub => setField step (.table origin sub) fields
    | some (.tables items) =>
      (changeLast (descend change path) items).map fun items => setField step (.tables items) fields
    | some _ => none

/-- Open the table of a header and fill it. A table is opened once; one that was only implied so far
keeps what is in it. -/
def openTable (key : String) (fill : Fields → Option Fields) (fields : Fields) : Option Fields :=
  match fields.lookup key with
  | none => (fill []).map fun sub => fields ++ [(key, .table .header sub)]
  | some (.table .implied sub) => (fill sub).map fun sub => setField key (.table .header sub) fields
  | some _ => none

/-- Add a table to the list of tables of a header and fill it. -/
def addTable (key : String) (fill : Fields → Option Fields) (fields : Fields) : Option Fields :=
  match fields.lookup key with
  | none => (fill []).map fun sub => fields ++ [(key, .tables [sub])]
  | some (.tables items) =>
    (fill []).map fun sub => setField key (.tables (items ++ [sub])) fields
  | some _ => none

end Toml

end Stencil
