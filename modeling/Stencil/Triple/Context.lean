/- # Triple.Context -- a table of keys inside a store

A context with a root keeps the binding of a key as the triple of root, key and value. Putting a key
again replaces its value. Contexts with different roots share a store without touching each other. A
path of keys is one key, its parts joined by dots.
-/
import Stencil.Triple.Store

namespace Stencil
set_option autoImplicit false

/-- A table inside a store, known by its root. -/
structure Context where
  root : Uri
deriving DecidableEq

namespace Context

/-- What stands between the root of a context and the key of a child. -/
def childDelimiter : String := "/"

/-- What joins the parts of a path. -/
def pathDelimiter : String := "."

/-- The context below a key. -/
def child (c : Context) (key : String) : Context := ⟨c.root.extend childDelimiter key⟩

/-- The triples that bind a key. -/
def pattern (c : Context) (key : String) : Pattern := { subject := c.root, predicate := some ⟨key⟩ }

/-- The value of a key: the last one put. -/
def get? (c : Context) (s : Store) (key : String) : Option Value :=
  (s.find (c.pattern key)).getLast?.map Triple.object

def contains (c : Context) (s : Store) (key : String) : Bool := s.contains (c.pattern key)

/-- Bind a key, in place of what it was bound to. -/
def put (c : Context) (s : Store) (key : String) (value : Value) : Store :=
  (s.removeMatching (c.pattern key)).2.insert ⟨c.root, ⟨key⟩, value⟩

/-- Unbind a key, and tell whether it was bound. -/
def remove (c : Context) (s : Store) (key : String) : Bool × Store :=
  let (count, s) := s.removeMatching (c.pattern key)
  (0 < count, s)

/-- The key of a path. -/
def pathKey (path : List String) : String := String.intercalate pathDelimiter path

def getPath? (c : Context) (s : Store) (path : List String) : Option Value :=
  c.get? s (pathKey path)

def putPath (c : Context) (s : Store) (path : List String) (value : Value) : Store :=
  c.put s (pathKey path) value

/-- Every key with its value, in the order they were put. -/
def entries (c : Context) (s : Store) : List (String × Value) :=
  (s.find { subject := c.root }).map fun t => (t.predicate.id, t.object)

end Context

end Stencil
