/- # Validator.Factory -- building validators from arguments

A factory takes the arguments of a validator, which are values and validators, and answers the
validator or says what is wrong with them. Factories for all bundled validators are given; a factory
checks the number of its arguments first and then their kinds from left to right.
-/
import Stencil.Validator.Basic

namespace Stencil
set_option autoImplicit false

/-- An argument of a validator. -/
inductive ValidatorArg where
  | value (v : Value)
  | validator (v : Validator)

namespace ValidatorArg

/-- An argument as messages show it. -/
def display : ValidatorArg → String
  | .value v => v.display
  | .validator v => s!"validator {v.name}"

/-- The argument as a resource. -/
def uri (owner : String) : ValidatorArg → Except ExtensionError Uri
  | .value (.uri u) => .ok u
  | a => .error (.invalidArguments owner s!"expected a resource, got {a.display}")

/-- The argument as a number that is not negative. -/
def count (owner : String) : ValidatorArg → Except ExtensionError Nat
  | .value (.literal l) =>
    match l.integer? with
    | some n =>
      if 0 ≤ n.toInt then .ok n.toInt.toNat
      else .error (.invalidArguments owner s!"expected a non-negative integer, got {l.display}")
    | none => .error (.invalidArguments owner s!"expected a non-negative integer, got {l.display}")
  | a => .error (.invalidArguments owner s!"expected an integer, got {a.display}")

/-- The argument as a validator. -/
def inner (owner : String) : ValidatorArg → Except ExtensionError Validator
  | .validator v => .ok v
  | a => .error (.invalidArguments owner s!"expected a validator, got {a.display}")

end ValidatorArg

/-- Builds a validator from its arguments. -/
abbrev Factory := List ValidatorArg → Except ExtensionError Validator

namespace Factory

/-- The error of a wrong number of arguments. -/
def wrongCount (owner : String) (expected actual : Nat) : ExtensionError :=
  .invalidArguments owner s!"expected {expected} argument(s), got {actual}"

/-- A factory with one argument, a resource. -/
def ofUri (owner : String) (build : Uri → Validator) : Factory
  | [a] => (a.uri owner).map build
  | as => .error (wrongCount owner 1 as.length)

def atLeastOne : Factory := ofUri "AtLeastOne" .atLeastOne

def atMostOne : Factory := ofUri "AtMostOne" .atMostOne

def exactlyOne : Factory := ofUri "ExactlyOne" (.exactlyN · 1)

def exactlyN : Factory
  | [a, b] => do
    let predicate ← a.uri "ExactlyN"
    let count ← b.count "ExactlyN"
    return .exactlyN predicate count
  | as => .error (wrongCount "ExactlyN" 2 as.length)

def exclude : Factory := ofUri "Exclude" .exclude

def and : Factory := fun as => (as.mapM (ValidatorArg.inner "And")).map .and

def or : Factory := fun as => (as.mapM (ValidatorArg.inner "Or")).map .or

end Factory

end Stencil
