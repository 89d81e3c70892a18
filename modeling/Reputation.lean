import Reputation.Config
import Reputation.Node
import Reputation.Store.Rehearsal
import Reputation.Wire.Descriptors
import Reputation.Proofs.Index.MaxTree
import Reputation.Proofs.Index.Order
import Reputation.Proofs.Index.Agreement
import Reputation.Proofs.Index.History
import Reputation.Proofs.Resolution.Precedence
import Reputation.Proofs.Resolution.Counting
import Reputation.Proofs.Resolution.Candidates
import Reputation.Proofs.Resolution.Weighing
import Reputation.Proofs.Resolution.Answers
import Reputation.Proofs.Opinion.Payload
import Reputation.Proofs.Resolution.Verdicts
import Reputation.Proofs.Resolution.Convergence
import Reputation.Proofs.Store.Memory
import Reputation.Proofs.Entity.Label
import Reputation.Proofs.Resolution.Submission
import Reputation.Proofs.Store.Submission
import Reputation.Proofs.Address.IpText
import Reputation.Proofs.Text.Base64
import Reputation.Proofs.Address.Bound
import Reputation.Proofs.Address.NetworkText
import Reputation.Proofs.Entity.RoundTrip
import Reputation.Proofs.Store.Runs
import Reputation.Proofs.Store.GetOrCreate
import Reputation.Proofs.Store.Migration
import Reputation.Proofs.Resolution.Ineligible
import Reputation.Proofs.Resolution.Restatement
import Reputation.Proofs.Resolution.Faults
import Reputation.Proofs.Store.Indexing
import Reputation.Proofs.Resolution.Mirroring
import Reputation.Proofs.Api.Handling
import Reputation.Proofs.Api.Submission
import Reputation.Proofs.Api.Operations
import Reputation.Proofs.Store.Reuse
import Reputation.Proofs.Store.Decoding
import Reputation.Proofs.Store.BadRows
import Reputation.Proofs.Store.Legacy
import Reputation.Proofs.Resolution.Paths
import Reputation.Proofs.Resolution.Surfacing
import Reputation.Proofs.Store.Forgery
import Reputation.Proofs.Store.WeightSums
import Reputation.Proofs.Store.Hints
import Reputation.Proofs.Api.Lookups
import Reputation.Proofs.Index.Equivalence
import Reputation.Proofs.Index.BulkBuild
import Reputation.Proofs.Address.Spelling
import Reputation.Proofs.Entity.Canonical
import Reputation.Proofs.Entity.Queries
import Reputation.Proofs.Store.Opinions
import Reputation.Proofs.Address.Prefix
import Reputation.Proofs.Store.Scanning
import Reputation.Proofs.Store.SignerKeys
import Reputation.Proofs.Store.Searching
import Reputation.Proofs.Store.Refusals
import Reputation.Proofs.Entity.Concealment
import Reputation.Proofs.Resolution.KeyCache
import Reputation.Proofs.Text.Decimal
import Reputation.Proofs.Config.Trust
import Reputation.Proofs.Index.Subtree
