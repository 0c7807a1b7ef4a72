/- # Validator.Host -- validators that a host adds

Six validators beside the bundled ones, as a host would write them: two that always say the same, one
on the shape of triples, two that ask the tables behind the pack, and one that adds a triple.
-/
import Stencil.Validator.Registry

namespace Stencil.Host
set_option autoImplicit false

/-- Hand every pack on. -/
def pass : Validator := .host "Pass" .ok

/-- Refuse every pack. -/
def fail : Validator := .host "Fail" fun _ => .error (.validationFailed "Fail" "always fails")

/-- Refuse a triple whose object is its own subject. -/
def noSelfLoops : Validator :=
  .host "NoSelfLoops" fun p =>
    match p.triples.find? fun t => t.object = .uri t.subject with
    | some t => .error (.validationFailed "NoSelfLoops" s!"{t.display} points at itself")
    | none => .ok p

/-- The identifier must be a bound symbol key. -/
def requireSymbol (key : Uri) : Validator :=
  .host "RequireSymbol" fun p =>
    if (p.view.symbol? key.id).isSome then .ok p
    else .error (.validationFailed "RequireSymbol" s!"no symbol {key.display}")

/-- The identifier must be that of a registered template. -/
def requireTemplate (id : Uri) : Validator :=
  .host "RequireTemplate" fun p =>
    if p.view.hasTemplate id then .ok p
    else .error (.validationFailed "RequireTemplate" s!"no template {id.display}")

/-- Add a triple that gives the focus the number of triples there were. -/
def stamp (predicate : Uri) : Validator :=
  .host "Stamp" fun p =>
    let count := Literal.integer (Int64.ofNat p.size)
    .ok { p with triples := p.triples ++ [⟨p.focus, predicate, .literal count⟩] }

/-- A factory that takes any arguments. -/
def constant (v : Validator) : Factory := fun _ => .ok v

/-- A factory that takes a resource as its first argument and any others. -/
def ofFirst (owner : String) (build : Uri → Validator) : Factory
  | [] => .error (.invalidArguments owner "no argument")
  | a :: _ => (a.uri owner).map build

/-- The factories with their names. -/
def factories : List (String × Factory) :=
  [("Pass", constant pass), ("Fail", constant fail), ("NoSelfLoops", constant noSelfLoops),
    ("RequireSymbol", ofFirst "RequireSymbol" requireSymbol),
    ("RequireTemplate", ofFirst "RequireTemplate" requireTemplate),
    ("Stamp", ofFirst "Stamp" stamp)]

/-- A factory by name: one of these, or one of the bundled ones by name or alias. -/
def factory? (name : String) : Option Factory :=
  (factories.lookup name).or (Registry.builtin.get? name)

/-- The bundled validators and these. -/
def registry : Registry :=
  Registry.builtin.attemptAll (factories.map fun entry => .register entry.1 entry.2)

end Stencil.Host
