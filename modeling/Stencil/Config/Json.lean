/- # Config.Json -- settings as a JSON record

Every field may be missing; the default prefix may also be null. -/
import Stencil.Config.Basic
import Stencil.Term.Json

namespace Stencil.Config
set_option autoImplicit false

/-- The namespaces of an object. -/
def prefixesOfJson? (j : Json) : Option (List (String × Uri)) := do
  let fields ← j.obj?
  fields.foldlM (fun ps (symbol, ns) => (Uri.ofJson? ns).map fun u => insertPrefix symbol u ps) []

/-- The keys of the settings, in the order of a list of them. -/
def keys : List String :=
  ["prefixes", "default_prefix", "anonymous_delimiter", "anonymous_stem", "max_expansion_depth",
    "builtin_extensions"]

def ofJson? (j : Json) : Option Config := do
  let j ← j.record? keys
  let prefixes ← j.fieldOr "prefixes" [] prefixesOfJson?
  let defaultPrefix ← j.fieldOr "default_prefix" none (Json.optional Json.str?)
  let anonymousDelimiter ← j.fieldOr "anonymous_delimiter" "/" Json.str?
  let anonymousStem ← j.fieldOr "anonymous_stem" "_" Json.str?
  let maxExpansionDepth ← j.fieldOr "max_expansion_depth" 64 Json.uint64?
  let builtinExtensions ← j.fieldOr "builtin_extensions" true Json.bool?
  return { prefixes, defaultPrefix, anonymousDelimiter, anonymousStem, maxExpansionDepth,
           builtinExtensions }

end Stencil.Config
