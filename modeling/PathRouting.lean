import PathRouting.Report
import PathRouting.Router.Generation
import PathRouting.Router.Recognition
import PathRouting.Router.Registration
import PathRouting.Proofs.Pattern.Fit
import PathRouting.Proofs.Sameness
import PathRouting.Proofs.Router.Atomicity
import PathRouting.Proofs.Trie.Contents
import PathRouting.Proofs.Trie.Walk
import PathRouting.Proofs.Trie.Run
import PathRouting.Proofs.Trie.Refinement
import PathRouting.Proofs.Trie.Layout
import PathRouting.Proofs.Trie.Spelling
import PathRouting.Proofs.Trie.Bindings
import PathRouting.Proofs.Trie.Relabelling
import PathRouting.Proofs.Trie.Completeness
import PathRouting.Proofs.Router.Reachable
import PathRouting.Proofs.Pattern.Spacing
import PathRouting.Proofs.Route.CleanValues
import PathRouting.Proofs.Route.Refusal
import PathRouting.Proofs.Router.Ambiguity
import PathRouting.Proofs.Router.Order
import PathRouting.Proofs.Index.Memory
import PathRouting.Proofs.Router.Naming
import PathRouting.Proofs.Router.Choice
import PathRouting.Proofs.Router.Restoration
import PathRouting.Proofs.Trie.Shape
import PathRouting.Proofs.Router.Consistency
import PathRouting.Proofs.Router.Conditions
import PathRouting.Proofs.Router.StaticRoutes
import PathRouting.Proofs.Pattern.Malformed
import PathRouting.Proofs.Pattern.Choices
import PathRouting.Proofs.Pattern.Acceptance
import PathRouting.Proofs.Pattern.Rereading
import PathRouting.Proofs.Tokens.Joining
import PathRouting.Proofs.Trie.Growth
import PathRouting.Proofs.Pattern.Attachments
import PathRouting.Proofs.Router.Query
import PathRouting.Proofs.Router.Omission
import PathRouting.Proofs.Pattern.Names
import PathRouting.Proofs.Pattern.Lossless
import PathRouting.Proofs.Router.NameTable
import PathRouting.Proofs.Router.History
import PathRouting.Proofs.Router.Safety
import PathRouting.Proofs.Validator.Numbers
import PathRouting.Proofs.Trie.Boundary
import PathRouting.Proofs.Index.Counting
