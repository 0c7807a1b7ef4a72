import Stencil.Config.Basic
import Stencil.Config.Json
import Stencil.Config.Toml
import Stencil.Disk
import Stencil.Environment.Basic
import Stencil.Environment.Step
import Stencil.Error
import Stencil.Expansion.Basic
import Stencil.Expansion.Scope
import Stencil.Expansion.SelfStack
import Stencil.Export.Format
import Stencil.Export.NTriples
import Stencil.Json.Basic
import Stencil.Json.Reader
import Stencil.Json.Writer
import Stencil.Name
import Stencil.Name.Json
import Stencil.Number.Binary64
import Stencil.Number.Nearest
import Stencil.Number.Shortest
import Stencil.Program.Basic
import Stencil.Program.Builder
import Stencil.Program.Equality
import Stencil.Program.Graft
import Stencil.Program.Json
import Stencil.Proofs.AssignedExpansion
import Stencil.Proofs.AssignmentLocality
import Stencil.Proofs.Atomicity
import Stencil.Proofs.Avoidance
import Stencil.Proofs.BaseChain
import Stencil.Proofs.BodyRelation
import Stencil.Proofs.BundledValidators
import Stencil.Proofs.Coherence
import Stencil.Proofs.Combinators
import Stencil.Proofs.ConcreteSelf
import Stencil.Proofs.ContextTable
import Stencil.Proofs.DepthLimit
import Stencil.Proofs.DottedNames
import Stencil.Proofs.DroppedPredicates
import Stencil.Proofs.ExportLines
import Stencil.Proofs.ExportRecords
import Stencil.Proofs.Freshness
import Stencil.Proofs.GraftLaws
import Stencil.Proofs.ImportStack
import Stencil.Proofs.Inheritance
import Stencil.Proofs.InheritedTriples
import Stencil.Proofs.Isolation
import Stencil.Proofs.JsonRoundTrip
import Stencil.Proofs.JsonText
import Stencil.Proofs.LexicalForms
import Stencil.Proofs.Lockstep
import Stencil.Proofs.LongestKey
import Stencil.Proofs.Minting
import Stencil.Proofs.Moments
import Stencil.Proofs.MoreTemplates
import Stencil.Proofs.Naming
import Stencil.Proofs.Nesting
import Stencil.Proofs.NeverUnbound
import Stencil.Proofs.Occurrences
import Stencil.Proofs.Ownership
import Stencil.Proofs.Persistence
import Stencil.Proofs.Preparation
import Stencil.Proofs.Provenance
import Stencil.Proofs.QuotedLiterals
import Stencil.Proofs.Registration
import Stencil.Proofs.Run
import Stencil.Proofs.ScopeChange
import Stencil.Proofs.SlotLists
import Stencil.Proofs.StoreIndex
import Stencil.Proofs.StoreRefinement
import Stencil.Proofs.SubjectCounts
import Stencil.Proofs.Substitution
import Stencil.Proofs.TableHistory
import Stencil.Proofs.ValidatorFormulas
import Stencil.Proofs.WellScoped
import Stencil.Proofs.WriteOnce
import Stencil.Resolver
import Stencil.Template.Lineage
import Stencil.Template.Table
import Stencil.Term
import Stencil.Term.Json
import Stencil.Text.Hex
import Stencil.Text.Marks
import Stencil.Text.Quoted
import Stencil.Text.Split
import Stencil.Toml.Basic
import Stencil.Toml.Reader
import Stencil.Toml.Writer
import Stencil.Triple
import Stencil.Triple.Context
import Stencil.Triple.Store
import Stencil.Validator.Basic
import Stencil.Validator.Factory
import Stencil.Validator.Host
import Stencil.Validator.Pack
import Stencil.Validator.Registry
