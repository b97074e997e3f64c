import Plimsoll.TargetPolicy.Grammar
import Plimsoll.TargetPolicy.HostShape
import Plimsoll.TargetPolicy.Labels
import Plimsoll.TargetPolicy.Networks
import Plimsoll.Jmx
import Plimsoll.Jmx.Targets
import Plimsoll.Preflight
import Plimsoll.Preflight.Hosts
import Plimsoll.Preflight.PerPlan
import Plimsoll.Preflight.Secrets
import Plimsoll.Preflight.Reporting
import Plimsoll.Preflight.Widening
import Plimsoll.Contracts.Scripts
import Plimsoll.Git.Client
import Plimsoll.Git.Arguments
import Plimsoll.Sql.ReadCommitted
import Plimsoll.Database
import Plimsoll.Refresh
import Plimsoll.Refresh.Families
import Plimsoll.Refresh.Revocation
import Plimsoll.Refresh.ConsumedOnce
import Plimsoll.Auth
import Plimsoll.Auth.Minting
import Plimsoll.ScriptRepos
import Plimsoll.ScriptRepos.PlanPaths
import Plimsoll.Verify.Confinement
import Plimsoll.ErrorContract
import Plimsoll.Git.Refs
import Plimsoll.Verify.SparseCheckout
import Plimsoll.ScriptVersions.Pinning
import Plimsoll.PerformanceTests
import Plimsoll.PerformanceTests.NoLostUpdate
import Plimsoll.PerformanceTests.Readers
import Plimsoll.Python.Base64
import Plimsoll.Python.Json
import Plimsoll.Python.Datetime
import Plimsoll.Python.Uuid
import Plimsoll.Verify.Clean
import Plimsoll.ScriptVersions.Agreement
import Plimsoll.Sql.Guarantee
import Plimsoll.Services
import Plimsoll.Audit
import Plimsoll.Audit.Trail
import Plimsoll.TargetPolicy.History
import Plimsoll.Sql.Refusal
import Plimsoll.Conflicts
import Plimsoll.Jmx.Canonical
import Plimsoll.Jmx.Variables
import Plimsoll.Jmx.Spelling
import Plimsoll.Manifest.Names
import Plimsoll.Verify.Entries
import Plimsoll.Verify.Findings
import Plimsoll.Capacity
import Plimsoll.Auth.Login
import Plimsoll.Python.JsonRoundTrip
import Plimsoll.Contracts.Pagination
import Plimsoll.Pagination
import Plimsoll.Pagination.Cursors
import Plimsoll.Pagination.Traversal
import Plimsoll.Endpoints
import Plimsoll.Tenants
import Plimsoll.Tenants.Statements
import Plimsoll.Tenants.Operations
import Plimsoll.Tenants.Noninterference
import Plimsoll.Sql.Driver
import Plimsoll.Patches
import Plimsoll.Patches.Statements
import Plimsoll.Patches.Collections
import Plimsoll.Patches.Fields
import Plimsoll.Patches.Validity
import Plimsoll.Patches.Preserved
import Plimsoll.Patches.Operations
import Plimsoll.Patches.Safety
import Plimsoll.Sql.Rows
import Plimsoll.Sql.Evolution
import Plimsoll.Sql.Constraints
import Plimsoll.Sql.Duties
import Plimsoll.History
import Plimsoll.Integrity
import Plimsoll.Tenancy
import Plimsoll.Tenancy.Services
import Plimsoll.Sql.Replies
import Plimsoll.Sql.Atomic
import Plimsoll.Effects
import Plimsoll.Effects.Statements
import Plimsoll.Effects.Parts
import Plimsoll.Effects.Frames
import Plimsoll.Effects.Services
import Plimsoll.Vault
import Plimsoll.Vault.Variables
import Plimsoll.Access
import Plimsoll.Sql.Passive
import Plimsoll.Access.Readers
