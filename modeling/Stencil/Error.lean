/- # Error -- what can go wrong, and what is said about it

Errors are kept as causes. Each has a code that names its family and kind, a message for the case at
hand, and a piece of help for its kind; the wording is in this module, the reasons of a host that
refuses an import apart.
-/
import Stencil.Program.Basic

namespace Stencil
set_option autoImplicit false

/-! ## Names that do not resolve -/

inductive ResolveError where
  | unboundPrefix (symbol : String)
  | typeMismatch (context expected found : String)
  | unboundSelf (name : Name)
deriving DecidableEq

namespace ResolveError

def code : ResolveError → String
  | .unboundPrefix _ => "motif::resolve::unbound_prefix"
  | .typeMismatch _ _ _ => "motif::resolve::type_mismatch"
  | .unboundSelf _ => "motif::resolve::unbound_self"

def message : ResolveError → String
  | .unboundPrefix symbol => s!"prefix \"{symbol}\" has no bound namespace"
  | .typeMismatch context expected found =>
    s!"type mismatch in {context}: expected {expected}, found {found}"
  | .unboundSelf name => s!"`self` in \"{name.display}\" has no enclosing expansion"

def help : ResolveError → String
  | .unboundPrefix symbol =>
    s!"Declare the namespace before using it, e.g. `@prefix {symbol} = <http://example.org/>`. " ++
      "Prefixes are looked up in the environment's prefix table."
  | .typeMismatch _ _ _ =>
    "Subjects, predicates, template references and namespace bindings must be " ++
      "resource identifiers. A literal cannot be used in those positions."
  | .unboundSelf _ =>
    "`self` only means something inside a template or expansion body. " ++
      "At the top level, use an explicit name instead."

end ResolveError

/-- The error of a value that is no resource where a resource is wanted. -/
def ResolveError.notResource (context found : String) : ResolveError :=
  .typeMismatch context "resource" found

/-! ## Templates that cannot be defined or expanded -/

inductive TemplateError where
  | notFound (name : Name)
  | wrongArity (template : Uri) (expected actual : Nat)
  | duplicate (template : Uri)
  | unboundParameter (p : Parameter)
  | inheritanceCycle (template : Uri)
  | depthExceeded (limit : Nat)
deriving DecidableEq

namespace TemplateError

def code : TemplateError → String
  | .notFound _ => "motif::template::not_found"
  | .wrongArity _ _ _ => "motif::template::wrong_arity"
  | .duplicate _ => "motif::template::duplicate"
  | .unboundParameter _ => "motif::template::unbound_parameter"
  | .inheritanceCycle _ => "motif::template::inheritance_cycle"
  | .depthExceeded _ => "motif::template::depth_exceeded"

def message : TemplateError → String
  | .notFound name => s!"template not found: {name.display}"
  | .wrongArity template expected actual =>
    s!"template {template.display} expects {expected} argument(s), got {actual}"
  | .duplicate template => s!"template already defined: {template.display}"
  | .unboundParameter p =>
    s!"parameter \"{p.name}\" (position {p.position.toNat}) was never given an argument"
  | .inheritanceCycle template => s!"inheritance cycle through template {template.display}"
  | .depthExceeded limit => s!"expansion depth exceeded maximum of {limit}"

def help : TemplateError → String
  | .notFound _ =>
    "No template with this name is registered at the time of expansion. " ++
      "Define the template before the expansion that uses it."
  | .wrongArity _ _ _ =>
    "Pass exactly one argument for every declared parameter, in declaration order."
  | .duplicate _ =>
    "Templates are immutable once registered. Pick a different name for the new definition."
  | .unboundParameter _ =>
    "A parameter reference survived substitution. This happens when a parameter is " ++
      "used outside the template that declares it."
  | .inheritanceCycle _ =>
    "A template's base chain leads back to itself. " ++
      "Break the cycle by removing one `from` clause."
  | .depthExceeded _ =>
    "Nested expansions went deeper than `max_expansion_depth`. " ++
      "Check for templates that expand themselves, or raise the limit in the config."

end TemplateError

/-! ## Validators that refuse, or cannot be built -/

/-- How many triples a predicate should have. -/
inductive Expected where
  | atLeast (n : Nat)
  | atMost (n : Nat)
  | exactly (n : Nat)
deriving DecidableEq

def Expected.display : Expected → String
  | .atLeast n => s!"at least {n}"
  | .atMost n => s!"at most {n}"
  | .exactly n => s!"exactly {n}"

inductive ExtensionError where
  | cardinality (predicate subject : Uri) (expected : Expected) (actual : Nat)
  | validationFailed (validator reason : String)
  | unknownValidator (name : String)
  | duplicate (name : String)
  | invalidArguments (validator reason : String)
deriving DecidableEq

namespace ExtensionError

def code : ExtensionError → String
  | .cardinality _ _ _ _ => "motif::extension::cardinality"
  | .validationFailed _ _ => "motif::extension::validation_failed"
  | .unknownValidator _ => "motif::extension::unknown"
  | .duplicate _ => "motif::extension::duplicate"
  | .invalidArguments _ _ => "motif::extension::invalid_arguments"

def message : ExtensionError → String
  | .cardinality predicate subject expected actual =>
    s!"cardinality of {predicate.display} on {subject.display}: " ++
      s!"expected {expected.display}, found {actual}"
  | .validationFailed validator reason =>
    s!"validator {validator} rejected the expansion: {reason}"
  | .unknownValidator name => s!"unknown validator: {name}"
  | .duplicate name => s!"duplicate extension registration: {name}"
  | .invalidArguments validator reason => s!"invalid arguments to {validator}: {reason}"

def help : ExtensionError → String
  | .cardinality _ _ _ _ =>
    "The expansion produced the wrong number of triples for this predicate. " ++
      "No triples were committed."
  | .validationFailed _ _ =>
    "The expansion's triples did not satisfy an attached extension. No triples were committed."
  | .unknownValidator _ =>
    "No validator is registered under this name or alias. " ++
      "Register one with `register_extension`."
  | .duplicate _ =>
    "A validator with this name or alias is already registered. Use a different name."
  | .invalidArguments _ _ => "Check the number and kind of arguments the validator expects."

end ExtensionError

/-! ## Bindings and imports -/

/-- The two tables a name can be bound in. -/
inductive BindingKind where
  | symbol
  | namespacePrefix
deriving DecidableEq

def BindingKind.display : BindingKind → String
  | .symbol => "symbol"
  | .namespacePrefix => "prefix"

/-- Why the forms of a path cannot be had. -/
inductive ImportProblem where
  | cycle (trail : List String)
  | refused (reason : String)
deriving DecidableEq

inductive EnvironmentError where
  | duplicateBinding (kind : BindingKind) (name : String) (existing attempted : Value)
  | importFailed (path : String) (problem : ImportProblem)
deriving DecidableEq

namespace EnvironmentError

/-- What an import says about its problem: a cycle lists the paths that lead to it, a refusal gives
the reason of the host. -/
def importReason (path : String) : ImportProblem → String
  | .cycle trail => "import cycle: " ++ String.intercalate " -> " (trail ++ [path])
  | .refused reason => reason

def code : EnvironmentError → String
  | .duplicateBinding _ _ _ _ => "motif::environment::duplicate_binding"
  | .importFailed _ _ => "motif::environment::import"

def message : EnvironmentError → String
  | .duplicateBinding kind name existing attempted =>
    s!"{kind.display} \"{name}\" is already bound to {existing.display}, " ++
      s!"cannot rebind to {attempted.display}"
  | .importFailed path problem =>
    s!"import of \"{path}\" failed: {importReason path problem}"

def help : EnvironmentError → String
  | .duplicateBinding _ _ _ _ =>
    "Names are single-assignment. Use a new name, or remove the earlier binding."
  | .importFailed _ _ => "The import resolver could not provide forms for this path."

end EnvironmentError

/-! ## Settings and exports -/

inductive ConfigError where
  | read (path : String)
  | parse (path : String)
  | write (path : String)
  | invalidDefaultPrefix (symbol : String)
deriving DecidableEq

namespace ConfigError

def code : ConfigError → String
  | .read _ => "motif::config::read"
  | .parse _ => "motif::config::parse"
  | .write _ => "motif::config::write"
  | .invalidDefaultPrefix _ => "motif::config::invalid_default_prefix"

def message : ConfigError → String
  | .read path => s!"failed to read config: {path}"
  | .parse path => s!"failed to parse config: {path}"
  | .write path => s!"failed to write config: {path}"
  | .invalidDefaultPrefix symbol =>
    s!"default prefix \"{symbol}\" is not declared in `prefixes`"

def help : ConfigError → String
  | .read _ => "Ensure the config file exists and is readable."
  | .parse _ => "Check the TOML syntax in the config file."
  | .write _ => "Ensure you have write permissions to the config directory."
  | .invalidDefaultPrefix symbol =>
    s!"Add `{symbol} = \"<namespace>\"` under `[prefixes]`, or remove `default_prefix`."

end ConfigError

inductive ExportError where
  | write (path : String)
  | unknownFormat (name : String)
deriving DecidableEq

namespace ExportError

def code : ExportError → String
  | .write _ => "motif::export::write"
  | .unknownFormat _ => "motif::export::unknown_format"

def message : ExportError → String
  | .write path => s!"failed to write export: {path}"
  | .unknownFormat name => s!"unknown export format: \"{name}\""

def help : ExportError → String
  | .write _ => "Ensure you have write permissions to the output directory."
  | .unknownFormat _ => "Supported formats: ntriples, json."

end ExportError

/-! ## Any of these -/

inductive Error where
  | resolve (e : ResolveError)
  | template (e : TemplateError)
  | extension (e : ExtensionError)
  | environment (e : EnvironmentError)
  | config (e : ConfigError)
  | exports (e : ExportError)
deriving DecidableEq

namespace Error

def code : Error → String
  | .resolve e => e.code
  | .template e => e.code
  | .extension e => e.code
  | .environment e => e.code
  | .config e => e.code
  | .exports e => e.code

def message : Error → String
  | .resolve e => e.message
  | .template e => e.message
  | .extension e => e.message
  | .environment e => e.message
  | .config e => e.message
  | .exports e => e.message

def help : Error → String
  | .resolve e => e.help
  | .template e => e.help
  | .extension e => e.help
  | .environment e => e.help
  | .config e => e.help
  | .exports e => e.help

end Error

/-! ## Results that are there -/

theorem eq_ok_of_mapError {ε ε' α : Type} {f : ε → ε'} {x : Except ε α} {a : α}
    (done : x.mapError f = .ok a) : x = .ok a := by
  cases x with
  | ok b =>
      cases done
      rfl
  | error e => cases done

theorem bind_eq_ok {ε α β : Type} {x : Except ε α} {f : α → Except ε β} {b : β}
    (done : (x >>= f) = .ok b) : ∃ a, x = .ok a ∧ f a = .ok b := by
  cases x with
  | ok a => exact ⟨a, rfl, done⟩
  | error e => cases done

theorem map_eq_ok {ε α β : Type} {x : Except ε α} {f : α → β} {b : β} (done : x.map f = .ok b) :
    ∃ a, x = .ok a ∧ f a = b := by
  cases x with
  | ok a =>
      cases done
      exact ⟨a, rfl, rfl⟩
  | error e => cases done

end Stencil
