import AttachmentGrammar.Main
import AttachmentGrammar.Registry
import AttachmentGrammar.Proofs.Grammar.Allowed
import AttachmentGrammar.Proofs.Grammar.Bounds
import AttachmentGrammar.Proofs.Revalidation.Upkeep
import AttachmentGrammar.Proofs.Validation.Exact
import AttachmentGrammar.Proofs.Graph.Count
import AttachmentGrammar.Proofs.Graph.Plain
import AttachmentGrammar.Proofs.Graph.Document
import AttachmentGrammar.Proofs.Grammar.Table
import AttachmentGrammar.Proofs.Grammar.Outcome
import AttachmentGrammar.Proofs.Grammar.Reordering
import AttachmentGrammar.Proofs.Grammar.History
import AttachmentGrammar.Proofs.Grammar.Diagnosis
import AttachmentGrammar.Proofs.Rule.Token
import AttachmentGrammar.Proofs.Rule.RoundTrip
import AttachmentGrammar.Proofs.Grammar.Growth
import AttachmentGrammar.Proofs.Grammar.Unsatisfiable
import AttachmentGrammar.Proofs.Grammar.Strictness
import AttachmentGrammar.Proofs.Grammar.Rendering
import AttachmentGrammar.Proofs.Registry.Histories
import AttachmentGrammar.Proofs.Registry.Service
import AttachmentGrammar.Proofs.Registry.Chronicle
import AttachmentGrammar.Proofs.Registry.Renewal
import AttachmentGrammar.Proofs.Revalidation.Coverage
import AttachmentGrammar.Proofs.Report.RoundTrip
import AttachmentGrammar.Proofs.Grammar.Permuted
import AttachmentGrammar.Proofs.Registry.Lasting
import AttachmentGrammar.Proofs.Pattern
import AttachmentGrammar.Proofs.Rule.Acceptance
import AttachmentGrammar.Proofs.Text.Lines
import AttachmentGrammar.Proofs.Rule.Locality
import AttachmentGrammar.Proofs.Revalidation.Canonical
import AttachmentGrammar.Proofs.Revalidation.Merging
import AttachmentGrammar.Proofs.Rule.Json
import AttachmentGrammar.Proofs.Relation.Pairs
import AttachmentGrammar.Proofs.Grammar.WellFormed
import AttachmentGrammar.Proofs.Grammar.Views
import AttachmentGrammar.Proofs.Grammar.Checked
import AttachmentGrammar.Proofs.Grammar.Literals
import AttachmentGrammar.Proofs.CommandLine.Paths
import AttachmentGrammar.Proofs.Relation.Aliasing
import AttachmentGrammar.Proofs.Vocabulary.Numbering
import AttachmentGrammar.Proofs.Validation.Agreement
import AttachmentGrammar.Proofs.Cardinality.Overlap
import AttachmentGrammar.Proofs.Revalidation.Order
