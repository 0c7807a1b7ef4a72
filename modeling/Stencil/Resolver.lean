/- # Resolver -- what a name stands for

A name is looked up in a fixed order. `self` is bound first; then the longest leading run of symbols
that is bound as a key decides, the segments behind it being appended to the bound resource; then a
leading identifier, a leading symbol with a namespace prefix, and at last the default namespace are
followed by the remaining segments. Nothing is ever put between what is appended.
-/
import Stencil.Error
import Stencil.Text.Split
import Stencil.Triple.Context

namespace Stencil
set_option autoImplicit false

/-- What a name resolves to: a value, or nothing because it mentions `self` outside of every
expansion. -/
inductive Resolution where
  | value (v : Value)
  | unresolved
deriving DecidableEq

/-- All that resolution looks at. -/
structure Resolver where
  bindings : Store
  symbols : Context
  prefixes : Context
  defaultNamespace : Option Uri
  currentSelf : Option Uri

/-- The identifier followed by the texts of segments. -/
def Uri.append (base : Uri) (rest : List Segment) : Uri :=
  rest.foldl (fun u s => ⟨u.id ++ s.text⟩) base

/-- The symbols at the front of a list of segments. -/
def leadingSymbols : List Segment → List String
  | .symbol s :: rest => s :: leadingSymbols rest
  | _ => []

namespace Resolver

/-- The namespace of a prefix. -/
def expandPrefix (r : Resolver) (symbol : String) : Except ResolveError Uri :=
  match r.prefixes.get? r.bindings symbol with
  | some (.uri ns) => .ok ns
  | some (.literal l) => .error (.notResource s!"prefix \"{symbol}\"" l.kind)
  | none => .error (.unboundPrefix symbol)

/-- The value bound to the first `k` of some symbols, joined by dots. -/
def boundKey? (r : Resolver) (symbols : List String) (k : Nat) : Option Value :=
  r.symbols.getPath? r.bindings (symbols.take k)

/-- The greatest number of leading symbols, up to `k` and at least one, that are a bound key, with
the value they are bound to. -/
def longestKey? (r : Resolver) (symbols : List String) : Nat → Option (Nat × Value)
  | 0 => none
  | k + 1 =>
    match r.boundKey? symbols (k + 1) with
    | some v => some (k + 1, v)
    | none => r.longestKey? symbols k

/-- The value of a key that covers the first `k` segments of a name: the value itself where that is
all of them, else the resource followed by the segments behind it. -/
def afterKey (segments : List Segment) (k : Nat) (v : Value) : Except ResolveError Value :=
  if k = segments.length then .ok v
  else
    match v with
    | .uri ns => .ok (.uri (ns.append (segments.drop k)))
    | .literal l =>
      let key := Context.pathKey ((leadingSymbols segments).take k)
      .error (.notResource s!"namespace binding \"{key}\"" l.kind)

/-- The value of a name no part of which is a bound key. -/
def withoutKey (r : Resolver) (n : Name) : Except ResolveError Resolution :=
  match n.head with
  | .uri u => .ok (.value (.uri (u.append n.tail)))
  | .symbol s =>
    match Text.splitFirst? ':' s.toList with
    | some (before, after) => do
      let ns ← r.expandPrefix (String.ofList before)
      return .value (.uri ((ns.extend "" (String.ofList after)).append n.tail))
    | none => .ok (.value (.uri ((r.defaultNamespace.getD .empty).append n.segments)))
  | .selfRef => .ok .unresolved

/-- The value of a name without `self`. -/
def resolveBound (r : Resolver) (n : Name) : Except ResolveError Resolution :=
  match n with
  | ⟨.uri u, []⟩ => .ok (.value (.uri u))
  | _ =>
    let symbols := leadingSymbols n.segments
    match r.longestKey? symbols symbols.length with
    | some (k, v) => (afterKey n.segments k v).map .value
    | none => r.withoutKey n

/-- The value of a name. -/
def resolve (r : Resolver) (n : Name) : Except ResolveError Resolution :=
  if n.hasSelf then
    match r.currentSelf with
    | some me => r.resolveBound (n.bindSelf me)
    | none => .ok .unresolved
  else r.resolveBound n

/-- The resource a name stands for, for a position that takes resources only; none where the name
mentions an unbound `self`. -/
def resolveUri (r : Resolver) (n : Name) (context : String) : Except ResolveError (Option Uri) :=
  match r.resolve n with
  | .error e => .error e
  | .ok (.value (.uri u)) => .ok (some u)
  | .ok (.value (.literal l)) => .error (.notResource context l.kind)
  | .ok .unresolved => .ok none

/-- The value of a name that must have one. -/
def valueOf (r : Resolver) (n : Name) : Except ResolveError Value :=
  match r.resolve n with
  | .error e => .error e
  | .ok (.value v) => .ok v
  | .ok .unresolved => .error (.unboundSelf n)

/-- The resource of a name that must have one. -/
def uriOf (r : Resolver) (n : Name) (context : String) : Except ResolveError Uri :=
  match r.resolveUri n context with
  | .error e => .error e
  | .ok (some u) => .ok u
  | .ok none => .error (.unboundSelf n)

end Resolver

end Stencil
