import ProfileCompiler.Journal.Record
import ProfileCompiler.Journal.Setup
import ProfileCompiler.Service
import ProfileCompiler.Session.Step
import ProfileCompiler.Proofs.Session.Failure
import ProfileCompiler.Proofs.Session.Isolation
import ProfileCompiler.Proofs.Session.Reentrancy
import ProfileCompiler.Proofs.Session.SharedEntries
import ProfileCompiler.Proofs.Session.Memoisation
import ProfileCompiler.Proofs.Catalog.Additions
import ProfileCompiler.Proofs.Catalog.Folds
import ProfileCompiler.Proofs.Merge.Knockout
import ProfileCompiler.Proofs.Catalog.Knockout
import ProfileCompiler.Proofs.Merge.Paths
import ProfileCompiler.Proofs.Merge.Order
import ProfileCompiler.Proofs.Resolution.Slots
import ProfileCompiler.Proofs.CheckIndex.WellFormed
import ProfileCompiler.Proofs.CheckIndex.Inversion
import ProfileCompiler.Proofs.Resolution.Collection
import ProfileCompiler.Proofs.Resolution.Unknown
import ProfileCompiler.Proofs.Resolution.Metadata
import ProfileCompiler.Proofs.Resolution.Precedence
import ProfileCompiler.Proofs.Catalog.WellFormed
import ProfileCompiler.Proofs.CheckIndex.Faults
import ProfileCompiler.Proofs.Resolution.Independence
import ProfileCompiler.Proofs.Merge.OrderedUnion
import ProfileCompiler.Proofs.Resolution.Values
import ProfileCompiler.Proofs.Resolution.Repetition
import ProfileCompiler.Proofs.Merge.Specification
import ProfileCompiler.Proofs.Merge.Repetition
import ProfileCompiler.Proofs.Text.Pieces
import ProfileCompiler.Proofs.Version.Shorthand
import ProfileCompiler.Proofs.Version.Terms
import ProfileCompiler.Proofs.Confinement.Questions
import ProfileCompiler.Proofs.Confinement.Pruning
import ProfileCompiler.Proofs.Confinement.Order
import ProfileCompiler.Proofs.Confinement.Unknown
import ProfileCompiler.Proofs.Files.Discovery
import ProfileCompiler.Proofs.Session.MapKeys
