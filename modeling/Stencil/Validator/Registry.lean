/- # Validator.Registry -- validators by name

A registry keeps factories in the order they were registered. A second table says for each name and
each alias which of the factories it means; no name is given out twice. The registry of the bundled
validators is made by registering them. A call is a validator name with arguments, some of which are
calls themselves.
-/
import Stencil.Validator.Factory

namespace Stencil
set_option autoImplicit false

/-- Factories, and the places that names and aliases stand for. -/
structure Registry where
  factories : List (String × Factory) := []
  places : List (String × Nat) := []

mutual

/-- A validator by name with its arguments. -/
structure Call where
  name : String
  arguments : List CallArg

/-- An argument of a call: a value, or a call. -/
inductive CallArg where
  | value (v : Value)
  | call (c : Call)

end

namespace Registry

def empty : Registry := {}

/-- The factory of a name or alias. -/
def get? (r : Registry) (name : String) : Option Factory :=
  (r.places.lookup name).bind fun place => (r.factories[place]?).map Prod.snd

def contains (r : Registry) (name : String) : Bool := (r.places.lookup name).isSome

/-- The names without aliases, in the order they were registered. -/
def names (r : Registry) : List String := r.factories.map Prod.fst

def size (r : Registry) : Nat := r.factories.length

/-- Register a factory under a name that is free. -/
def register (r : Registry) (name : String) (factory : Factory) : Except ExtensionError Registry :=
  if r.contains name then .error (.duplicate name)
  else
    .ok
      { factories := r.factories ++ [(name, factory)]
        places := r.places ++ [(name, r.factories.length)] }

/-- Let a free name stand for what another name stands for now. -/
def registerAlias (r : Registry) (other target : String) : Except ExtensionError Registry :=
  if r.contains other then .error (.duplicate other)
  else
    match r.places.lookup target with
    | some place => .ok { r with places := r.places ++ [(other, place)] }
    | none => .error (.unknownValidator target)

end Registry

/-- What is asked of a registry: to register a factory, or an alias. -/
inductive Registration where
  | register (name : String) (factory : Factory)
  | registerAlias (other target : String)

def Registration.apply (r : Registry) : Registration → Except ExtensionError Registry
  | .register name factory => r.register name factory
  | .registerAlias other target => r.registerAlias other target

namespace Registry

/-- The registry after a registration; if it is refused, the registry as it was. -/
def attempt (r : Registry) (asked : Registration) : Registry :=
  match asked.apply r with
  | .ok after => after
  | .error _ => r

def attemptAll (r : Registry) (asked : List Registration) : Registry := asked.foldl attempt r

/-- The bundled factories with their names. -/
def bundled : List (String × Factory) :=
  [("AtLeastOne", Factory.atLeastOne), ("AtMostOne", Factory.atMostOne),
    ("ExactlyOne", Factory.exactlyOne), ("ExactlyN", Factory.exactlyN),
    ("Exclude", Factory.exclude), ("And", Factory.and), ("Or", Factory.or)]

/-- The registry of the bundled validators; `All` means `And`, and `Any` means `Or`. -/
def builtin : Registry :=
  empty.attemptAll (bundled.map (fun entry => .register entry.1 entry.2) ++
    [.registerAlias "All" "And", .registerAlias "Any" "Or"])

mutual

/-- Build the validator of a call, the calls among its arguments first. -/
def instantiate (r : Registry) : Call → Except ExtensionError Validator
  | ⟨name, arguments⟩ =>
    match r.get? name with
    | none => .error (.unknownValidator name)
    | some factory =>
      match instantiateArgs r arguments with
      | .ok arguments => factory arguments
      | .error e => .error e

/-- Build the arguments of a call from left to right. -/
def instantiateArgs (r : Registry) : List CallArg → Except ExtensionError (List ValidatorArg)
  | [] => .ok []
  | a :: as =>
    match instantiateArg r a with
    | .error e => .error e
    | .ok a =>
      match instantiateArgs r as with
      | .error e => .error e
      | .ok as => .ok (a :: as)

def instantiateArg (r : Registry) : CallArg → Except ExtensionError ValidatorArg
  | .value v => .ok (.value v)
  | .call c =>
    match instantiate r c with
    | .ok v => .ok (.validator v)
    | .error e => .error e

end

end Registry

end Stencil
