import McpMemory.Lib.Interleave
import McpMemory.Lib.Text
import McpMemory.Lib.Transaction
import McpMemory.Tasks.Cancellation
import McpMemory.Tasks.Unique
import McpMemory.Tasks.Recovery
import McpMemory.Journal.Claims
import McpMemory.Memory.Identity
import McpMemory.Memory.Database
import McpMemory.Ingress.Request
import McpMemory.Ingress.Domain
import McpMemory.Ingress.Execute
import McpMemory.Ingress.Runs
import McpMemory.Ingress.ExactlyOnce
import McpMemory.Ingress.Claims
import McpMemory.Ingress.Append
import McpMemory.Ingress.Parity
import McpMemory.Ingest.Groups
import McpMemory.Ingest.Schedule
import McpMemory.Ingest.Batch
import McpMemory.Curation.Request
import McpMemory.Curation.Transaction
import McpMemory.Curation.Execute
import McpMemory.Curation.Runs
import McpMemory.Curation.ExactlyOnce
import McpMemory.Curation.Footprint
import McpMemory.Curation.Protection
import McpMemory.Curation.Outcomes
import McpMemory.Curation.Liveness
import McpMemory.Curation.Applied
import McpMemory.Relational.Archiving
import McpMemory.Relational.Graph
import McpMemory.Relational.References
import McpMemory.History.Honesty
import McpMemory.Cache.Fresh
import McpMemory.Cache.Transparency
import McpMemory.Cache.Validated
import McpMemory.Providers.Budget
import McpMemory.Providers.Backoff
import McpMemory.Providers.Policy
import McpMemory.Providers.Admission
import McpMemory.Relational.Documents
import McpMemory.Maintenance.Statuses
import McpMemory.Maintenance.Rebuild
import McpMemory.Work.Hygiene
import McpMemory.Providers.Parity
import McpMemory.Providers.Transparent
import McpMemory.Review.Exact
import McpMemory.Postgres.Faithful
import McpMemory.Tasks.Parity
import McpMemory.Maintenance.Lossless
import McpMemory.Transport.Replies
import McpMemory.Curation.Tokens
import McpMemory.Curation.ActionIdentity
import McpMemory.Journal.Orphans
import McpMemory.Journal.Outbox
import McpMemory.Tasks.Updates
import McpMemory.Curation.DirectEvidence
import McpMemory.History.Protections
import McpMemory.Maintenance.Collection
import McpMemory.Maintenance.Dangling
import McpMemory.Curation.Candidates
import McpMemory.Curation.Coverage
import McpMemory.Curation.Descriptors
import McpMemory.Relational.ReadPaths
import McpMemory.Curation.LinkHistory
import McpMemory.Curation.Metadata
import McpMemory.Lib.BreadthFirst
import McpMemory.Lib.Commuting
import McpMemory.Lib.Cycles
import McpMemory.Lib.Endings
import McpMemory.Lib.KeySort
import McpMemory.Relational.Appending
import McpMemory.Relational.Resolving
import McpMemory.Relational.Splitting
import McpMemory.Search.Expansion
import McpMemory.Search.Filtering
import McpMemory.Search.Passes
import McpMemory.Search.Projections
import McpMemory.Storage.BufferedWriter
import McpMemory.Storage.EmbeddingCache
import McpMemory.Cache.Coalescing
import McpMemory.Curation.Structural
import McpMemory.Curation.Escalation
import McpMemory.Lib.Inline
import McpMemory.Memory.Summaries
import McpMemory.Toolkit.BoundedToolLoop
import McpMemory.Relational.Allocation
import McpMemory.Curation.Cooldowns
import McpMemory.Maintenance.Sweeping
import McpMemory.Memory.NormalForm
import McpMemory.Work.Uniqueness
import McpMemory.Work.SpecialistRoutes
import McpMemory.Work.Leases
import McpMemory.Maintenance.Pruning
import McpMemory.Curation.SweptReceipts
import McpMemory.Relational.Indexing
import McpMemory.Embedding.Store
import McpMemory.Embedding.Fencing
import McpMemory.Embedding.Repairs
import McpMemory.Review.Ledger
