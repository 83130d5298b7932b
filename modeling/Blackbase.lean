import Blackbase.Catalog.Model
import Blackbase.Catalog.RoundTrip
import Blackbase.Catalog.Values
import Blackbase.Context.ContextKeys
import Blackbase.Context.Contract
import Blackbase.Context.ContractForms
import Blackbase.Context.IsolationExact
import Blackbase.Context.PatchAgreement
import Blackbase.Context.RedisCodec.Rewrite
import Blackbase.Context.RuntimeProjection.Aggregate
import Blackbase.Context.RuntimeProjection.Audit
import Blackbase.Context.RuntimeProjection.Evidence
import Blackbase.Context.RuntimeProjection.Health
import Blackbase.Context.RuntimeProjection.Loop
import Blackbase.Context.RuntimeProjection.Model
import Blackbase.Context.RuntimeProjection.Tree
import Blackbase.Context.SnapshotLifetime
import Blackbase.Context.WriteClaim
import Blackbase.Contracts.Batch
import Blackbase.Core.CaseFolding
import Blackbase.Core.CodePoints
import Blackbase.Core.Toml.Blocks
import Blackbase.Core.Toml.Reading
import Blackbase.Core.Toml.Spelling
import Blackbase.Evaluation.Certification
import Blackbase.Evaluation.JournalRetry
import Blackbase.Evaluation.RegistryExact
import Blackbase.Evaluation.Unresolved
import Blackbase.Kernel.LateWrites
import Blackbase.Kernel.Parallel
import Blackbase.Kernel.ParallelAccount
import Blackbase.Kernel.ParallelStop
import Blackbase.Kernel.Slots.Meaning
import Blackbase.Kernel.Slots.Serial
import Blackbase.Plugin.Attribution
import Blackbase.Plugin.ContextBuild
import Blackbase.Plugin.Lifecycle
import Blackbase.Plugin.Receipts
import Blackbase.Project.CaseStageTermination
import Blackbase.Project.ControlLineage
import Blackbase.Project.DagExact
import Blackbase.Project.DagInputs
import Blackbase.Project.DagOrder
import Blackbase.Project.Delegation.Bounds
import Blackbase.Project.Envelope.Integrity
import Blackbase.Project.Finalization.AbortedRuns
import Blackbase.Project.Finalization.Once
import Blackbase.Project.Fingerprint
import Blackbase.Project.Imports.Isolation
import Blackbase.Project.LostLease
import Blackbase.Project.ManifestResume
import Blackbase.Project.Settlement.Live
import Blackbase.Project.StageOrder
import Blackbase.Project.Supervision
import Blackbase.Resources.Account.Holding
import Blackbase.Resources.Account.Limit
import Blackbase.Resources.Account.Reissue
import Blackbase.Resources.Artifacts.Exclusion
import Blackbase.Resources.Artifacts.Genuine
import Blackbase.Resources.Artifacts.Paths
import Blackbase.Resources.Artifacts.Recovery
import Blackbase.Resources.Artifacts.Scavenging
import Blackbase.Resources.Budget.Effects
import Blackbase.Resources.Control.RedisRetention
import Blackbase.Resources.GrantIdle
import Blackbase.Resources.Lease.Equivalence
import Blackbase.Resources.Lease.Fencing
import Blackbase.Resources.Lease.StrictMode
import Blackbase.Resources.PermitsConserved
import Blackbase.Resources.Scheduler.Books
import Blackbase.Resources.Scheduler.Calls
import Blackbase.Resources.Scheduler.Model
import Blackbase.Resources.Scheduler.Offers
import Blackbase.Resources.Scheduler.Refusal
import Blackbase.Resources.Scheduler.Stores
import Blackbase.Resources.Transport.Agreement
import Blackbase.Resources.Transport.Retries
import Blackbase.Types.RoundTrip
