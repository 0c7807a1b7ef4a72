/- # Validator -- conditions on the triples of an expansion

A validator takes a pack and either hands it on, perhaps changed, or refuses it. The bundled ones
count triples, drop a predicate, or combine other validators; a host adds its own as a name and a
function.
-/
import Stencil.Validator.Pack

namespace Stencil
set_option autoImplicit false

/-- A condition on a pack. -/
inductive Validator where
  | atLeastOne (predicate : Uri)
  | atMostOne (predicate : Uri)
  | exactlyN (predicate : Uri) (count : Nat)
  | exclude (predicate : Uri)
  | and (validators : List Validator)
  | or (validators : List Validator)
  | host (name : String) (check : Pack → Except ExtensionError Pack)

namespace Validator

/-- The name in messages. -/
def name : Validator → String
  | .atLeastOne _ => "AtLeastOne"
  | .atMostOne _ => "AtMostOne"
  | .exactlyN _ _ => "ExactlyN"
  | .exclude _ => "Exclude"
  | .and _ => "And"
  | .or _ => "Or"
  | .host name _ => name

/-- The first subject of a pack whose number of triples with a predicate fails a test makes the pack
be refused. -/
def checkSubjects (p : Pack) (predicate : Uri) (expected : Expected) (ok : Nat → Bool) :
    Except ExtensionError Pack :=
  match p.subjects.find? fun subject => !ok (p.countFor subject predicate) with
  | some subject =>
    .error (.cardinality predicate subject expected (p.countFor subject predicate))
  | none => .ok p

/-- The error of a disjunction of nothing. -/
def noAlternative : ExtensionError := .validationFailed "Or" "no alternatives to try"

mutual

/-- Hand a pack on or refuse it. -/
def run : Validator → Pack → Except ExtensionError Pack
  | .atLeastOne predicate, p => checkSubjects p predicate (.atLeast 1) (0 < ·)
  | .atMostOne predicate, p => checkSubjects p predicate (.atMost 1) (· ≤ 1)
  | .exactlyN predicate count, p =>
    let actual := (p.withPredicate predicate).length
    if actual = count then .ok p
    else .error (.cardinality predicate p.focus (.exactly count) actual)
  | .exclude predicate, p => .ok (p.retain (·.predicate ≠ predicate))
  | .and validators, p => runAll validators p
  | .or validators, p => runAny noAlternative validators p
  | .host _ check, p => check p

/-- Run validators one after another, each on what the one before handed on. -/
def runAll : List Validator → Pack → Except ExtensionError Pack
  | [], p => .ok p
  | v :: vs, p =>
    match v.run p with
    | .ok p => runAll vs p
    | .error e => .error e

/-- The answer of the first validator that takes the pack as it is; if none does, the error of the
last one, and `last` where there is none at all. -/
def runAny (last : ExtensionError) : List Validator → Pack → Except ExtensionError Pack
  | [], _ => .error last
  | v :: vs, p =>
    match v.run p with
    | .ok p => .ok p
    | .error e => runAny e vs p

end

/-- Two runs after each other are one run of both lists. -/
theorem runAll_append (vs ws : List Validator) (p : Pack) :
    runAll (vs ++ ws) p = (runAll vs p).bind (runAll ws) := by
  induction vs generalizing p with
  | nil => rfl
  | cons v vs ih =>
    simp only [List.cons_append, runAll]
    cases v.run p with
    | error e => rfl
    | ok q => exact ih q

end Validator

end Stencil
