/- # Config -- settings of an environment

Settings name the namespaces that are bound before any form runs, say how anonymous expansions are
called, and bound the nesting of expansions. Namespace prefixes are kept in increasing order of their
symbols, each once.
-/
import Stencil.Error

namespace Stencil
set_option autoImplicit false

/-- Settings of an environment. -/
structure Config where
  prefixes : List (String × Uri) := []
  defaultPrefix : Option String := none
  anonymousDelimiter : String := "/"
  anonymousStem : String := "_"
  maxExpansionDepth : UInt64 := 64
  builtinExtensions : Bool := true
deriving DecidableEq

namespace Config

/-- Put a symbol with its namespace in its place, instead of what it stood for. -/
def insertPrefix (symbol : String) (ns : Uri) : List (String × Uri) → List (String × Uri)
  | [] => [(symbol, ns)]
  | (s, n) :: rest =>
    if symbol = s then (symbol, ns) :: rest
    else if symbol < s then (symbol, ns) :: (s, n) :: rest
    else (s, n) :: insertPrefix symbol ns rest

/-- The settings with a namespace for a symbol. -/
def withPrefix (c : Config) (symbol : String) (ns : Uri) : Config :=
  { c with prefixes := insertPrefix symbol ns c.prefixes }

/-- The settings with a default prefix. -/
def withDefaultPrefix (c : Config) (symbol : String) : Config :=
  { c with defaultPrefix := some symbol }

/-- The default prefix has to be one of the prefixes. -/
def validate (c : Config) : Except ConfigError Unit :=
  match c.defaultPrefix with
  | some symbol =>
    if (c.prefixes.lookup symbol).isSome then .ok () else .error (.invalidDefaultPrefix symbol)
  | none => .ok ()

end Config

end Stencil
