import Plimsoll.Contracts.Resources
import Plimsoll.Contracts.Tests
import Plimsoll.Errors

/-!
The rows of the tables. What a row has that nothing reads is left out.
-/

namespace Plimsoll

open Contracts

/-- `AccessClaims`: whom a request comes from. -/
structure AccessClaims where
  userId : Uuid
  organizationId : Uuid
  role : String
deriving DecidableEq

/-- A point in time, in microseconds. -/
abbrev Timestamp := Int

/-- A row of `users`. -/
structure User where
  id : Uuid
  organizationId : Uuid
  email : String
  name : String
  orgRole : String
  passwordHash : Option String := none
  status : String := "ACTIVE"
deriving DecidableEq

/-- A row of `refresh_token_families`. -/
structure RefreshTokenFamily where
  id : Uuid
  organizationId : Uuid
  userId : Uuid
  currentHash : String
  revokedAt : Option Timestamp := none
  expiresAt : Timestamp
deriving DecidableEq

/-- A row of `refresh_token_history`. -/
structure RefreshTokenHistory where
  tokenHash : String
  familyId : Uuid
  organizationId : Uuid
deriving DecidableEq

/-- The values of `status` where a row can be archived. -/
inductive Status where
  | active
  | archived
deriving DecidableEq

/-- A row of `projects`. -/
structure Project where
  id : Uuid
  organizationId : Uuid
  name : String
  projectKey : String
  description : Option String := none
  environment : Option String := none
  status : Status := .active
  tags : List String := []
  createdBy : Uuid
  createdAt : Timestamp
  updatedAt : Timestamp
deriving DecidableEq

/-- A row of `generator_pools`. A config is `none` where the JSON `null` was stored. -/
structure GeneratorPool where
  id : Uuid
  organizationId : Uuid
  name : String
  runtime : PoolRuntime
  config : Option Json
  region : Option String
  maxGenerators : Int
  maxVusPerGenerator : Int
  supportedEngines : List String := ["jmeter"]
  status : Status := .active
  createdAt : Timestamp
  updatedAt : Timestamp
deriving DecidableEq

/-- A row of `credentials`. -/
structure Credential where
  id : Uuid
  organizationId : Uuid
  name : String
  kind : CredentialKind
  ciphertext : List UInt8
  keyRef : String
  createdBy : Uuid
  createdAt : Timestamp
deriving DecidableEq

/-- A row of `script_repos`. -/
structure ScriptRepo where
  id : Uuid
  organizationId : Uuid
  projectId : Uuid
  name : String
  engine : String := "jmeter"
  repoUrl : String
  defaultRef : String
  planPath : String
  credentialId : Option Uuid
  status : Status := .active
  createdBy : Uuid
  createdAt : Timestamp
  updatedAt : Timestamp
deriving DecidableEq

/-- An entry of `targets` in the metadata of a version. -/
structure ScriptVersions.TargetMetadata where
  scheme : String
  host : String
  port : Option Nat
deriving DecidableEq, Repr

/-- The mapping `summary_as_metadata` returns. -/
structure ScriptVersions.PlanMetadata where
  threadGroups : List String
  transactionControllers : List String
  timers : List String
  variableNames : List String
  dataFiles : List String
  targets : List ScriptVersions.TargetMetadata
deriving DecidableEq, Repr

/-- A row of `script_versions`. -/
structure ScriptVersion where
  id : Uuid
  organizationId : Uuid
  scriptRepoId : Uuid
  commitSha : String
  planPath : String
  checksum : String
  metadata : ScriptVersions.PlanMetadata
  resolvedAt : Timestamp
deriving DecidableEq

/-- The values of `performance_tests.status`. -/
inductive TestStatus where
  | draft
  | archived
deriving DecidableEq

/-- A row of `performance_tests`. A configuration is `none` where the JSON `null`
was stored. -/
structure PerformanceTest where
  id : Uuid
  organizationId : Uuid
  projectId : Uuid
  name : String
  description : Option String
  status : TestStatus := .draft
  configuration : Option WorkloadSpec
  version : Int := 1
  tags : List String
  createdBy : Uuid
  createdAt : Timestamp
  updatedAt : Timestamp
deriving DecidableEq

/-- A row of `performance_test_plans`. -/
structure PerformanceTestPlan where
  id : Uuid
  organizationId : Uuid
  performanceTestId : Uuid
  spec : TestPlanSpec
deriving DecidableEq

/-- A row of `sla_rules`. -/
structure SlaRule where
  id : Uuid
  organizationId : Uuid
  performanceTestId : Uuid
  spec : SlaRuleSpec
deriving DecidableEq

/-- A row of `target_policies`. -/
structure TargetPolicyRow where
  id : Uuid
  organizationId : Uuid
  version : Nat
  allowlist : List String
  createdBy : Uuid
  createdAt : Timestamp
deriving DecidableEq

/-- A row of `test_runs`. -/
structure TestRun where
  id : Uuid
  organizationId : Uuid
  status : String
deriving DecidableEq

/-- A row of `run_generators`. -/
structure RunGenerator where
  id : Uuid
  organizationId : Uuid
  runId : Uuid
  poolId : Uuid
  assignedUsers : Int
deriving DecidableEq

/-- A row of `audit_logs`. -/
structure AuditLog where
  id : Uuid
  organizationId : Uuid
  userId : Uuid
  action : String
  entityType : String
  entityId : Uuid
  metadata : Option (List (String × Detail))
deriving DecidableEq

/-! ## What statements return of them -/

/-- The columns `auth_lookup_user` returns. -/
structure LoginRow where
  id : Uuid
  organizationId : Uuid
  passwordHash : Option String
  status : String
  orgRole : String
deriving DecidableEq

def User.login (row : User) : LoginRow :=
  ⟨row.id, row.organizationId, row.passwordHash, row.status, row.orgRole⟩

/-- The columns `get_profile` returns. -/
structure Profile where
  id : Uuid
  email : String
  name : String
  orgRole : String
  organizationId : Uuid
deriving DecidableEq

def User.profile (row : User) : Profile :=
  ⟨row.id, row.email, row.name, row.orgRole, row.organizationId⟩

/-- The columns of a credential that may be shown. -/
structure CredentialSummary where
  id : Uuid
  name : String
  kind : CredentialKind
  createdAt : Timestamp
deriving DecidableEq

def Credential.summary (row : Credential) : CredentialSummary :=
  ⟨row.id, row.name, row.kind, row.createdAt⟩

/-- The material of a credential. -/
structure SecretMaterial where
  name : String
  ciphertext : List UInt8
  keyRef : String
  kind : CredentialKind
deriving DecidableEq

def Credential.material (row : Credential) : SecretMaterial :=
  ⟨row.name, row.ciphertext, row.keyRef, row.kind⟩

/-! ## Tenants -/

/-- What a row has that a policy reads. -/
class Tenant (ρ : Type) where
  organizationId : ρ → Uuid

instance : Tenant User := ⟨User.organizationId⟩
instance : Tenant RefreshTokenFamily := ⟨RefreshTokenFamily.organizationId⟩
instance : Tenant RefreshTokenHistory := ⟨RefreshTokenHistory.organizationId⟩
instance : Tenant Project := ⟨Project.organizationId⟩
instance : Tenant GeneratorPool := ⟨GeneratorPool.organizationId⟩
instance : Tenant Credential := ⟨Credential.organizationId⟩
instance : Tenant ScriptRepo := ⟨ScriptRepo.organizationId⟩
instance : Tenant ScriptVersion := ⟨ScriptVersion.organizationId⟩
instance : Tenant PerformanceTest := ⟨PerformanceTest.organizationId⟩
instance : Tenant PerformanceTestPlan := ⟨PerformanceTestPlan.organizationId⟩
instance : Tenant SlaRule := ⟨SlaRule.organizationId⟩
instance : Tenant TargetPolicyRow := ⟨TargetPolicyRow.organizationId⟩
instance : Tenant TestRun := ⟨TestRun.organizationId⟩
instance : Tenant RunGenerator := ⟨RunGenerator.organizationId⟩
instance : Tenant AuditLog := ⟨AuditLog.organizationId⟩

end Plimsoll
