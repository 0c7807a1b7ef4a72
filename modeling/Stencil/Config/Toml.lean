/- # Config.Toml -- settings as a TOML document

Each setting is a key of the document and may be missing; keys without meaning are skipped. Writing
puts every setting but a default prefix that is not there, and the namespaces in a table of their own
at the end. A bound on the nesting that exceeds the integers of the format cannot be written.
-/
import Stencil.Config.Basic
import Stencil.Toml.Writer

namespace Stencil.Config
set_option autoImplicit false

/-- Read a setting: a missing one takes the default. -/
def setting {α : Type} (fields : Toml.Fields) (key : String) (default : α)
    (read : Toml → Option α) : Option α :=
  match fields.lookup key with
  | some v => read v
  | none => some default

/-- The namespaces of a table. -/
def prefixesOfToml? (v : Toml) : Option (List (String × Uri)) := do
  let fields ← v.fields?
  fields.foldlM (fun ps (symbol, ns) => ns.string?.map fun s => insertPrefix symbol ⟨s⟩ ps) []

/-- A bound on the nesting of expansions. -/
def depthOfToml? (v : Toml) : Option UInt64 := do
  let n ← v.integer?
  if 0 ≤ n then some (UInt64.ofNat n.toNat) else none

def ofFields? (fields : Toml.Fields) : Option Config := do
  let prefixes ← setting fields "prefixes" [] prefixesOfToml?
  let defaultPrefix ← setting fields "default_prefix" none fun v => v.string?.map some
  let anonymousDelimiter ← setting fields "anonymous_delimiter" "/" Toml.string?
  let anonymousStem ← setting fields "anonymous_stem" "_" Toml.string?
  let maxExpansionDepth ← setting fields "max_expansion_depth" 64 depthOfToml?
  let builtinExtensions ← setting fields "builtin_extensions" true Toml.boolean?
  return { prefixes, defaultPrefix, anonymousDelimiter, anonymousStem, maxExpansionDepth,
           builtinExtensions }

/-- Read settings from a text that came from a place, and check them. -/
def parseFrom (place text : String) : Except ConfigError Config := do
  match (Toml.parse? text).bind ofFields? with
  | none => .error (.parse place)
  | some config =>
    config.validate
    return config

/-- Read settings from a text. -/
def parse (text : String) : Except ConfigError Config := parseFrom "<string>" text

/-- The lines of the namespaces. -/
def prefixesText : List (String × Uri) → String
  | [] => ""
  | (symbol, ns) :: rest => Toml.entryText symbol (Toml.stringText ns.id) ++ prefixesText rest

/-- The settings as a document, if the bound on the nesting can be written. -/
def toToml? (c : Config) : Option String :=
  if c.maxExpansionDepth.toNat < Nat.pow 2 63 then
    let first :=
      match c.defaultPrefix with
      | some symbol => Toml.entryText "default_prefix" (Toml.stringText symbol)
      | none => ""
    some (first ++
      Toml.entryText "anonymous_delimiter" (Toml.stringText c.anonymousDelimiter) ++
      Toml.entryText "anonymous_stem" (Toml.stringText c.anonymousStem) ++
      Toml.entryText "max_expansion_depth" (toString c.maxExpansionDepth.toNat) ++
      Toml.entryText "builtin_extensions" (Literal.booleanText c.builtinExtensions) ++
      "\n[prefixes]\n" ++ prefixesText c.prefixes)
  else none

end Stencil.Config
