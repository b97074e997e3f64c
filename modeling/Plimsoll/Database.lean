import Plimsoll.Action
import Plimsoll.Database.Rows
import Plimsoll.Python.Dict
import Plimsoll.Python.Sorted
import Plimsoll.Sql.Keyset
import Plimsoll.Sql.Program
import Mathlib.Algebra.Ring.Int.Defs

/-!
The database: the tables the services use, the statements of the repositories,
and `session_for_org`.

Every tenant table carries the policy `tenant_isolation`: a statement sees, and
may write, only rows of the organisation that the transaction is bound to.
-/

namespace Plimsoll

open Python Contracts

/-! ## Tables -/

/-- The tables, each by its primary key. -/
structure Database where
  users : Dict Uuid User := Dict.empty
  families : Dict Uuid RefreshTokenFamily := Dict.empty
  history : Dict String RefreshTokenHistory := Dict.empty
  projects : Dict Uuid Project := Dict.empty
  pools : Dict Uuid GeneratorPool := Dict.empty
  credentials : Dict Uuid Credential := Dict.empty
  scriptRepos : Dict Uuid ScriptRepo := Dict.empty
  scriptVersions : Dict Uuid ScriptVersion := Dict.empty
  tests : Dict Uuid PerformanceTest := Dict.empty
  plans : Dict Uuid PerformanceTestPlan := Dict.empty
  rules : Dict Uuid SlaRule := Dict.empty
  targetPolicies : Dict Uuid TargetPolicyRow := Dict.empty
  testRuns : Dict Uuid TestRun := Dict.empty
  runGenerators : Dict Uuid RunGenerator := Dict.empty
  auditLogs : Dict Uuid AuditLog := Dict.empty

namespace Database

/-- An entry of a unique index. -/
inductive UniqueKey where
  | projectKey (organizationId : Uuid) (projectKey : String)
  | poolName (organizationId : Uuid) (name : String)
  | credentialName (organizationId : Uuid) (name : String)
  | scriptVersion (scriptRepoId : Uuid) (commitSha planPath : String)
  | policyVersion (organizationId : Uuid) (version : Nat)
deriving DecidableEq

/-- A row that is written or deleted, or an entry that goes into a unique index. -/
inductive Write where
  | family (row : RefreshTokenFamily)
  | history (row : RefreshTokenHistory)
  | project (row : Project)
  | pool (row : GeneratorPool)
  | credential (row : Credential)
  | deleteCredential (id : Uuid)
  | scriptRepo (row : ScriptRepo)
  | scriptVersion (row : ScriptVersion)
  | test (row : PerformanceTest)
  | plan (row : PerformanceTestPlan)
  | deletePlan (id : Uuid)
  | rule (row : SlaRule)
  | deleteRule (id : Uuid)
  | targetPolicy (row : TargetPolicyRow)
  | audit (row : AuditLog)
  | entry (key : UniqueKey)
deriving DecidableEq

/-- A row as a transaction locks it, by its primary key, or an entry of a unique
index. -/
inductive RowLock where
  | family (id : Uuid)
  | history (tokenHash : String)
  | project (id : Uuid)
  | pool (id : Uuid)
  | credential (id : Uuid)
  | scriptRepo (id : Uuid)
  | scriptVersion (id : Uuid)
  | test (id : Uuid)
  | plan (id : Uuid)
  | rule (id : Uuid)
  | targetPolicy (id : Uuid)
  | audit (id : Uuid)
  | entry (key : UniqueKey)
deriving DecidableEq

def Write.lock : Write → RowLock
  | .family row => .family row.id
  | .history row => .history row.tokenHash
  | .project row => .project row.id
  | .pool row => .pool row.id
  | .credential row => .credential row.id
  | .deleteCredential id => .credential id
  | .scriptRepo row => .scriptRepo row.id
  | .scriptVersion row => .scriptVersion row.id
  | .test row => .test row.id
  | .plan row => .plan row.id
  | .deletePlan id => .plan id
  | .rule row => .rule row.id
  | .deleteRule id => .rule id
  | .targetPolicy row => .targetPolicy row.id
  | .audit row => .audit row.id
  | .entry key => .entry key

/-- The row that a write refers to, of those that can be deleted. -/
def Write.share : Write → Option RowLock
  | .scriptRepo row => row.credentialId.map RowLock.credential
  | _ => none

def Write.apply : Write → Database → Database
  | .family row, d => { d with families := d.families.set row.id row }
  | .history row, d => { d with history := d.history.set row.tokenHash row }
  | .project row, d => { d with projects := d.projects.set row.id row }
  | .pool row, d => { d with pools := d.pools.set row.id row }
  | .credential row, d => { d with credentials := d.credentials.set row.id row }
  | .deleteCredential id, d => { d with credentials := d.credentials.pop id }
  | .scriptRepo row, d => { d with scriptRepos := d.scriptRepos.set row.id row }
  | .scriptVersion row, d => { d with scriptVersions := d.scriptVersions.set row.id row }
  | .test row, d => { d with tests := d.tests.set row.id row }
  | .plan row, d => { d with plans := d.plans.set row.id row }
  | .deletePlan id, d => { d with plans := d.plans.pop id }
  | .rule row, d => { d with rules := d.rules.set row.id row }
  | .deleteRule id, d => { d with rules := d.rules.pop id }
  | .targetPolicy row, d => { d with targetPolicies := d.targetPolicies.set row.id row }
  | .audit row, d => { d with auditLogs := d.auditLogs.set row.id row }
  | .entry _, d => d

/-! ## Statements -/

/-- What is local to a transaction: `app.current_org_id`, and `now()`. -/
structure Setting where
  org : Option Uuid
  now : Timestamp

/-- Why a statement fails. -/
inductive Fault where
  | integrity
  | policy
  | outOfRange
deriving DecidableEq

/-- The exception that a failed statement raises. -/
def Fault.raised : Fault → Raised
  | .integrity => .integrityError
  | .policy => .policyError
  | .outOfRange => .dataError

/-- The columns an update of a script repository assigns. -/
structure ScriptRepoChanges where
  name : Patch String
  planPath : Patch String
  defaultRef : Patch String
  credentialId : Patch Uuid

/-- The columns an update of a project assigns. -/
structure ProjectChanges where
  name : Patch String
  description : Patch String
  environment : Patch String
  tags : Patch (List String)

/-- The columns an update of a generator pool assigns. -/
structure PoolChanges where
  name : Patch String
  config : Patch Json
  region : Patch String
  maxGenerators : Patch Int
  maxVusPerGenerator : Patch Int

/-- The columns an update of a performance test assigns. -/
structure TestChanges where
  name : Patch String
  description : Patch String
  configuration : Patch WorkloadSpec
  tags : Patch (List String)

/-- A keyset position: a timestamp and the number of an identifier, compared as a
row value. -/
abbrev Position := Timestamp ×ₗ Nat

/-- The statements of the repositories. A row that is inserted is given as what it
is at `now()`. -/
inductive Statement where
  /-- `bind_session_to_org`, and the start of `session_for_org`. -/
  | setCurrentOrg (org : Uuid)
  /-- `lookup_for_login`; the text is `lower(email)`. -/
  | lookupForLogin (email : String)
  | getProfile (userId : Uuid)
  | insertFamily (row : RefreshTokenFamily)
  | findByHash (tokenHash : String)
  | replaceHash (familyId : Uuid) (tokenHash : String)
  | revokeFamilyContaining (tokenHash : String)
  | organizationForToken (tokenHash : String)
  | recordHistory (row : RefreshTokenHistory)
  | insertProject (row : Timestamp → Project)
  | getProject (id : Uuid)
  | listProjects (limit : Nat) (after : Option Position)
  | updateProject (id : Uuid) (changes : ProjectChanges)
  | archiveProject (id : Uuid)
  | insertPool (row : Timestamp → GeneratorPool)
  | getPool (id : Uuid)
  | listPools (limit : Nat) (after : Option Position)
  | updatePool (id : Uuid) (changes : PoolChanges)
  | archivePool (id : Uuid)
  | poolCapacity (id : Uuid)
  | committedUsers (id : Uuid)
  | insertCredential (row : Timestamp → Credential)
  | getCredential (id : Uuid)
  | listCredentials (limit : Nat) (after : Option Position)
  | secretMaterial (id : Uuid)
  | credentialByName (name : String)
  | variableMaterial
  | referencingRepos (credentialId : Uuid)
  | deleteCredential (id : Uuid)
  | insertScriptRepo (row : Timestamp → ScriptRepo)
  | getScriptRepo (id : Uuid)
  | listScriptRepos (projectId : Uuid) (limit : Nat) (after : Option Position)
  | updateScriptRepo (id : Uuid) (changes : ScriptRepoChanges)
  | archiveScriptRepo (id : Uuid)
  | insertScriptVersion (row : Timestamp → ScriptVersion)
  | versionByCommit (scriptRepoId : Uuid) (commitSha planPath : String)
  | getScriptVersion (id : Uuid)
  | listScriptVersions (scriptRepoId : Uuid) (limit : Nat) (after : Option Position)
  | insertTest (row : Timestamp → PerformanceTest)
  | getTest (id : Uuid)
  | listTests (projectId : Uuid) (limit : Nat) (after : Option Position)
  | updateDocument (id : Uuid) (expectedVersion : Int) (changes : TestChanges)
  | deletePlans (testId : Uuid)
  | insertPlan (row : PerformanceTestPlan)
  | deleteRules (testId : Uuid)
  | insertRule (row : SlaRule)
  | plansFor (testId : Uuid)
  | rulesFor (testId : Uuid)
  | archiveTest (id : Uuid)
  | currentPolicy
  /-- The `SELECT` of `insert_next_version`, on the snapshot its statement begins with. -/
  | nextPolicyVersion
  /-- The `INSERT` of what it selected, into the unique index as it is by then. -/
  | insertPolicy (row : Timestamp → TargetPolicyRow)
  | insertAudit (row : AuditLog)

abbrev Statement.Answer : Statement → Type
  | .setCurrentOrg _ => Unit
  | .lookupForLogin _ => Option LoginRow
  | .getProfile _ => Option Profile
  | .insertFamily _ => Except Fault Unit
  | .findByHash _ => Option RefreshTokenFamily
  | .replaceHash _ _ => Unit
  | .revokeFamilyContaining _ => Unit
  | .organizationForToken _ => Option Uuid
  | .recordHistory _ => Except Fault Unit
  | .insertProject _ => Except Fault Project
  | .getProject _ => Option Project
  | .listProjects _ _ => List Project
  | .updateProject _ _ => Except Fault (Option Project)
  | .archiveProject _ => Bool
  | .insertPool _ => Except Fault GeneratorPool
  | .getPool _ => Option GeneratorPool
  | .listPools _ _ => List GeneratorPool
  | .updatePool _ _ => Except Fault (Option GeneratorPool)
  | .archivePool _ => Bool
  | .poolCapacity _ => Except Fault (Option Int)
  | .committedUsers _ => Int
  | .insertCredential _ => Except Fault CredentialSummary
  | .getCredential _ => Option CredentialSummary
  | .listCredentials _ _ => List CredentialSummary
  | .secretMaterial _ => Option SecretMaterial
  | .credentialByName _ => Option SecretMaterial
  | .variableMaterial => List SecretMaterial
  | .referencingRepos _ => List String
  | .deleteCredential _ => Except Fault Bool
  | .insertScriptRepo _ => Except Fault ScriptRepo
  | .getScriptRepo _ => Option ScriptRepo
  | .listScriptRepos _ _ _ => List ScriptRepo
  | .updateScriptRepo _ _ => Except Fault (Option ScriptRepo)
  | .archiveScriptRepo _ => Bool
  | .insertScriptVersion _ => Except Fault ScriptVersion
  | .versionByCommit _ _ _ => Option ScriptVersion
  | .getScriptVersion _ => Option ScriptVersion
  | .listScriptVersions _ _ _ => List ScriptVersion
  | .insertTest _ => Except Fault PerformanceTest
  | .getTest _ => Option PerformanceTest
  | .listTests _ _ _ => List PerformanceTest
  | .updateDocument _ _ _ => Except Fault (Option PerformanceTest)
  | .deletePlans _ => Unit
  | .insertPlan _ => Except Fault Unit
  | .deleteRules _ => Unit
  | .insertRule _ => Except Fault Unit
  | .plansFor _ => List TestPlanSpec
  | .rulesFor _ => List SlaRuleSpec
  | .archiveTest _ => Bool
  | .currentPolicy => Option TargetPolicyRow
  | .nextPolicyVersion => Nat
  | .insertPolicy _ => Except Fault TargetPolicyRow
  | .insertAudit _ => Except Fault Unit

variable (c : Setting) (d : Database)

/-- The policy `tenant_isolation`. -/
def Setting.Sees {ρ : Type} [Tenant ρ] (row : ρ) : Prop := c.org = some (Tenant.organizationId row)

instance {ρ : Type} [Tenant ρ] (row : ρ) : Decidable (c.Sees row) :=
  inferInstanceAs (Decidable (_ = _))

/-- The row with this key, if the policy shows it. -/
def byKey {κ ρ : Type} [DecidableEq κ] [Tenant ρ] (table : Dict κ ρ) (key : κ) : Option ρ :=
  (table.get? key).filter fun row => c.Sees row

/-- The rows of a table that the policy shows. -/
def visible {κ ρ : Type} [Tenant ρ] (table : Dict κ ρ) : List ρ :=
  (table.items.map Prod.snd).filter fun row => c.Sees row

/-- Some row of a table, of whatever organisation, is like this. -/
def exists_ {κ ρ : Type} (table : Dict κ ρ) (like : ρ → Bool) : Bool :=
  table.items.any fun item => like item.2

/-- The insertion of a row under a key that is not taken. -/
def insert {κ ρ : Type} [DecidableEq κ] [Tenant ρ] (table : Dict κ ρ) (key : κ) (row : ρ)
    (references : Bool) (write : Write) : Except Fault Unit × List Write :=
  if ¬ c.Sees row then (.error .policy, [])
  else if (table.get? key).isSome ∨ references = false then (.error .integrity, [])
  else (.ok (), [write])

/-- `SELECT ... FROM refresh_token_families WHERE current_hash = :hash`, the first
row. -/
def findByHash (tokenHash : String) : Option RefreshTokenFamily :=
  (d.families.items.map Prod.snd).find? fun row => row.currentHash = tokenHash ∧ c.Sees row

/-- `auth_org_for_refresh`, to which the policies do not apply. -/
def organizationForToken (tokenHash : String) : Option Uuid :=
  (((d.families.items.map Prod.snd).filter fun row => row.currentHash = tokenHash).map
      RefreshTokenFamily.organizationId ++
    ((d.history.get? tokenHash).map RefreshTokenHistory.organizationId).toList).head?

/-- The family that `revoke_family_containing` names: its history has the hash. -/
def familyContaining (tokenHash : String) : Option RefreshTokenFamily := do
  let entry ← byKey c d.history tokenHash
  byKey c d.families entry.familyId

/-- A column that is not null, assigned. -/
def assigned {α : Type} (old : α) : Patch α → Except Fault α
  | .unset => .ok old
  | .null => .error .integrity
  | .value new => .ok new

/-- A nullable column, assigned. -/
def assignedNullable {α : Type} (old : Option α) : Patch α → Option α
  | .unset => old
  | .null => none
  | .value new => some new

/-- A reference is null or leads to a row. -/
def References {κ ρ : Type} [DecidableEq κ] (table : Dict κ ρ) : Option κ → Bool
  | none => true
  | some key => (table.get? key).isSome

/-- What an insertion returns, and the entries it puts into unique indexes. -/
def returning {ρ : Type} (row : ρ) (entries : List UniqueKey) :
    Except Fault Unit × List Write → Except Fault ρ × List Write
  | (.ok (), writes) => (.ok row, writes ++ entries.map Write.entry)
  | (.error fault, writes) => (.error fault, writes)

/-- What an update returns that finds a row, or finds none. -/
def updating {ρ : Type} (found : Option ρ) (update : ρ → Except Fault ρ) (writes : ρ → List Write) :
    Except Fault (Option ρ) × List Write :=
  match found with
  | none => (.ok none, [])
  | some row =>
      match update row with
      | .ok row => (.ok (some row), writes row)
      | .error fault => (.error fault, [])

/-- `UPDATE ... SET status = 'ARCHIVED' WHERE id = :id AND status <> 'ARCHIVED'`. -/
def archiving {ρ : Type} (found : Option ρ) (archived : ρ → Bool) (write : ρ → Write) :
    Bool × List Write :=
  match found.filter fun row => !archived row with
  | none => (false, [])
  | some row => (true, [write row])

/-- A script repository with the columns of an update. -/
def updated (now : Timestamp) (row : ScriptRepo) (changes : ScriptRepoChanges) :
    Except Fault ScriptRepo := do
  let name ← assigned row.name changes.name
  let planPath ← assigned row.planPath changes.planPath
  let defaultRef ← assigned row.defaultRef changes.defaultRef
  let credentialId := assignedNullable row.credentialId changes.credentialId
  if References d.credentials credentialId then
    .ok { row with name, planPath, defaultRef, credentialId, updatedAt := now }
  else .error .integrity

/-- A project with the columns of an update. -/
def updatedProject (now : Timestamp) (row : Project) (changes : ProjectChanges) :
    Except Fault Project := do
  let name ← assigned row.name changes.name
  let tags ← assigned row.tags changes.tags
  return { row with
    name, tags
    description := assignedNullable row.description changes.description
    environment := assignedNullable row.environment changes.environment
    updatedAt := now }

/-- A generator pool with the columns of an update; its name is that of no other
pool of the organisation. A config that is `null` is stored as the JSON `null`. -/
def updatedPool (now : Timestamp) (row : GeneratorPool) (changes : PoolChanges) :
    Except Fault GeneratorPool := do
  let name ← assigned row.name changes.name
  let maxGenerators ← assigned row.maxGenerators changes.maxGenerators
  let maxVusPerGenerator ← assigned row.maxVusPerGenerator changes.maxVusPerGenerator
  if exists_ d.pools fun other =>
      other.id ≠ row.id ∧ other.organizationId = row.organizationId ∧ other.name = name then
    .error .integrity
  else
    .ok { row with
      name, maxGenerators, maxVusPerGenerator
      config := assignedNullable row.config changes.config
      region := assignedNullable row.region changes.region
      updatedAt := now }

/-- A performance test with the columns of an update. A configuration that is
`null` is stored as the JSON `null`. -/
def updatedTest (now : Timestamp) (row : PerformanceTest) (changes : TestChanges) :
    Except Fault PerformanceTest := do
  let name ← assigned row.name changes.name
  let tags ← assigned row.tags changes.tags
  return { row with
    name, tags
    description := assignedNullable row.description changes.description
    configuration := assignedNullable row.configuration changes.configuration
    version := row.version + 1
    updatedAt := now }

/-- The next version of a target policy: `COALESCE(MAX(version), 0) + 1` of those
the policy shows. -/
def nextPolicyVersion : Nat :=
  ((visible c d.targetPolicies).map TargetPolicyRow.version).foldr max 0 + 1

/-- An `INTEGER`, or the error of one that is out of range. -/
def integer (n : Int) : Except Fault Int :=
  if -2147483648 ≤ n ∧ n ≤ 2147483647 then .ok n else .error .outOfRange

/-- The product of a pool's two factors, if the pool is active. -/
def capacityOf (row : GeneratorPool) : Except Fault (Option Int) :=
  if row.status = .active then
    (integer (row.maxGenerators * row.maxVusPerGenerator)).map some
  else .ok none

/-- The users that unfinished runs hold on a pool. -/
def heldUsers (poolId : Uuid) : Int :=
  (((visible c d.runGenerators).filter fun generator =>
      generator.poolId = poolId ∧ (visible c d.testRuns).any fun run =>
        run.id = generator.runId ∧ run.status ∈ ["QUEUED", "STARTING", "RUNNING", "STOPPING"]).map
    RunGenerator.assignedUsers).sum

/-- The position of a row. -/
def position (at_ : Timestamp) (id : Uuid) : Position := toLex (at_, id.toNat)

/-- There is a user with this identifier. -/
def hasUser (id : Uuid) : Bool := (d.users.get? id).isSome

/-- What a statement answers, and what it writes. -/
def execute : (s : Statement) → Setting → Database → s.Answer × List Write
  | .setCurrentOrg _, _, _ => ((), [])
  | .lookupForLogin email, _, d =>
      (((d.users.items.map Prod.snd).find? fun row => row.email = email).map User.login, [])
  | .getProfile userId, c, d => ((byKey c d.users userId).map User.profile, [])
  | .insertFamily row, c, d =>
      insert c d.families row.id row (d.users.get? row.userId).isSome (.family row)
  | .findByHash tokenHash, c, d => (d.findByHash c tokenHash, [])
  | .replaceHash familyId tokenHash, c, d =>
      ((), ((byKey c d.families familyId).map fun row =>
        Write.family { row with currentHash := tokenHash }).toList)
  | .revokeFamilyContaining tokenHash, c, d =>
      ((), ((d.familyContaining c tokenHash).map fun row =>
        Write.family { row with revokedAt := some c.now }).toList)
  | .organizationForToken tokenHash, _, d => (d.organizationForToken tokenHash, [])
  | .recordHistory row, c, d =>
      insert c d.history row.tokenHash row (d.families.get? row.familyId).isSome (.history row)
  | .insertProject row, c, d =>
      let row := row c.now
      returning row [.projectKey row.organizationId row.projectKey]
        (insert c d.projects row.id row
          (d.hasUser row.createdBy && !exists_ d.projects fun other =>
            other.organizationId = row.organizationId ∧ other.projectKey = row.projectKey)
          (.project row))
  | .getProject id, c, d => (byKey c d.projects id, [])
  | .listProjects limit after, c, d =>
      (Sql.page (fun row => position row.createdAt row.id) limit after (visible c d.projects), [])
  | .updateProject id changes, c, d =>
      updating (byKey c d.projects id) (fun row => updatedProject c.now row changes)
        fun row => [.project row]
  | .archiveProject id, c, d =>
      archiving (byKey c d.projects id) (fun row => row.status = .archived)
        fun row => .project { row with status := .archived, updatedAt := c.now }
  | .insertPool row, c, d =>
      let row := row c.now
      returning row [.poolName row.organizationId row.name]
        (insert c d.pools row.id row
          (!exists_ d.pools fun other =>
            other.organizationId = row.organizationId ∧ other.name = row.name)
          (.pool row))
  | .getPool id, c, d => (byKey c d.pools id, [])
  | .listPools limit after, c, d =>
      (Sql.page (fun row => position row.createdAt row.id) limit after (visible c d.pools), [])
  | .updatePool id changes, c, d =>
      updating (byKey c d.pools id) (fun row => d.updatedPool c.now row changes)
        fun row => [.pool row, .entry (.poolName row.organizationId row.name)]
  | .archivePool id, c, d =>
      archiving (byKey c d.pools id) (fun row => row.status = .archived)
        fun row => .pool { row with status := .archived, updatedAt := c.now }
  | .poolCapacity id, c, d =>
      ((byKey c d.pools id).elim (.ok none) capacityOf, [])
  | .committedUsers id, c, d => (d.heldUsers c id, [])
  | .insertCredential row, c, d =>
      let row := row c.now
      returning row.summary [.credentialName row.organizationId row.name]
        (insert c d.credentials row.id row
          (d.hasUser row.createdBy && !exists_ d.credentials fun other =>
            other.organizationId = row.organizationId ∧ other.name = row.name)
          (.credential row))
  | .getCredential id, c, d => ((byKey c d.credentials id).map Credential.summary, [])
  | .listCredentials limit after, c, d =>
      ((Sql.page (fun row : Credential => position row.createdAt row.id) limit after
        (visible c d.credentials)).map Credential.summary, [])
  | .secretMaterial id, c, d => ((byKey c d.credentials id).map Credential.material, [])
  | .credentialByName name, c, d =>
      (((visible c d.credentials).find? fun row => row.name = name).map Credential.material, [])
  | .variableMaterial, c, d =>
      ((sortedBy (fun a b => a.name ≤ b.name)
        ((visible c d.credentials).filter fun row => row.kind = .variable)).map
          Credential.material, [])
  | .referencingRepos credentialId, c, d =>
      (sorted (((visible c d.scriptRepos).filter fun row =>
        row.credentialId = some credentialId).map ScriptRepo.name), [])
  | .deleteCredential id, c, d =>
      match byKey c d.credentials id with
      | none => (.ok false, [])
      | some row =>
          if exists_ d.scriptRepos fun repo => repo.credentialId = some row.id then
            (.error .integrity, [])
          else (.ok true, [.deleteCredential row.id])
  | .insertScriptRepo row, c, d =>
      let row := row c.now
      returning row []
        (insert c d.scriptRepos row.id row
          ((d.projects.get? row.projectId).isSome && References d.credentials row.credentialId &&
            d.hasUser row.createdBy)
          (.scriptRepo row))
  | .getScriptRepo id, c, d => (byKey c d.scriptRepos id, [])
  | .listScriptRepos projectId limit after, c, d =>
      (Sql.page (fun row => position row.createdAt row.id) limit after
        ((visible c d.scriptRepos).filter fun row => row.projectId = projectId), [])
  | .updateScriptRepo id changes, c, d =>
      updating (byKey c d.scriptRepos id) (fun row => d.updated c.now row changes)
        fun row => [.scriptRepo row]
  | .archiveScriptRepo id, c, d =>
      archiving (byKey c d.scriptRepos id) (fun row => row.status = .archived)
        fun row => .scriptRepo { row with status := .archived, updatedAt := c.now }
  | .insertScriptVersion row, c, d =>
      let row := row c.now
      returning row [.scriptVersion row.scriptRepoId row.commitSha row.planPath]
        (insert c d.scriptVersions row.id row
          ((d.scriptRepos.get? row.scriptRepoId).isSome && !exists_ d.scriptVersions fun other =>
            other.scriptRepoId = row.scriptRepoId ∧ other.commitSha = row.commitSha ∧
              other.planPath = row.planPath)
          (.scriptVersion row))
  | .versionByCommit scriptRepoId commitSha planPath, c, d =>
      ((visible c d.scriptVersions).find? fun row =>
        row.scriptRepoId = scriptRepoId ∧ row.commitSha = commitSha ∧ row.planPath = planPath, [])
  | .getScriptVersion id, c, d => (byKey c d.scriptVersions id, [])
  | .listScriptVersions scriptRepoId limit after, c, d =>
      (Sql.page (fun row => position row.resolvedAt row.id) limit after
        ((visible c d.scriptVersions).filter fun row => row.scriptRepoId = scriptRepoId), [])
  | .insertTest row, c, d =>
      let row := row c.now
      returning row []
        (insert c d.tests row.id row
          ((d.projects.get? row.projectId).isSome && d.hasUser row.createdBy) (.test row))
  | .getTest id, c, d => (byKey c d.tests id, [])
  | .listTests projectId limit after, c, d =>
      (Sql.page (fun row => position row.createdAt row.id) limit after
        ((visible c d.tests).filter fun row => row.projectId = projectId), [])
  | .updateDocument id expectedVersion changes, c, d =>
      updating ((byKey c d.tests id).filter fun row => row.version = expectedVersion)
        (fun row => updatedTest c.now row changes) fun row => [.test row]
  | .deletePlans testId, c, d =>
      ((), ((visible c d.plans).filter fun row => row.performanceTestId = testId).map fun row =>
        .deletePlan row.id)
  | .insertPlan row, c, d =>
      insert c d.plans row.id row
        ((d.tests.get? row.performanceTestId).isSome &&
          (d.scriptRepos.get? row.spec.scriptRepoId).isSome) (.plan row)
  | .deleteRules testId, c, d =>
      ((), ((visible c d.rules).filter fun row => row.performanceTestId = testId).map fun row =>
        .deleteRule row.id)
  | .insertRule row, c, d =>
      insert c d.rules row.id row (d.tests.get? row.performanceTestId).isSome (.rule row)
  | .plansFor testId, c, d =>
      (sortedBy (fun a b => a.executionOrder ≤ b.executionOrder)
        (((visible c d.plans).filter fun row => row.performanceTestId = testId).map
          PerformanceTestPlan.spec), [])
  | .rulesFor testId, c, d =>
      (sortedBy (fun a b => a.name ≤ b.name)
        (((visible c d.rules).filter fun row => row.performanceTestId = testId).map
          SlaRule.spec), [])
  | .archiveTest id, c, d =>
      archiving (byKey c d.tests id) (fun row => row.status = .archived)
        fun row => .test { row with status := .archived, updatedAt := c.now }
  | .currentPolicy, c, d =>
      ((sortedBy (fun a b => b.version ≤ a.version) (visible c d.targetPolicies)).head?, [])
  | .nextPolicyVersion, c, d => (d.nextPolicyVersion c, [])
  | .insertPolicy row, c, d =>
      let row := row c.now
      returning row [.policyVersion row.organizationId row.version]
        (insert c d.targetPolicies row.id row
          (d.hasUser row.createdBy && !exists_ d.targetPolicies fun other =>
            other.organizationId = row.organizationId ∧ other.version = row.version)
          (.targetPolicy row))
  | .insertAudit row, c, d => insert c d.auditLogs row.id row true (.audit row)

/-- `set_config` binds the transaction. -/
def rebind : Statement → Setting → Setting
  | .setCurrentOrg org, c => { c with org := some org }
  | _, c => c

end Database

/-! ## The environment -/

/-- What a program asks its interpreter. -/
inductive Question where
  /-- `secrets.token_urlsafe(48)`. -/
  | tokenUrlsafe
  /-- `uuid.uuid4()`. -/
  | uuid4
  /-- `datetime.now(UTC)`. -/
  | now
  /-- `os.urandom(NONCE_BYTES)`. -/
  | nonce

abbrev Question.Reply : Question → Type
  | .tokenUrlsafe => String
  | .uuid4 => Uuid
  | .now => Timestamp
  | .nonce => List UInt8

/-- What the interpreter will reply, in turn. -/
structure Environment where
  tokens : Nat → String
  tokensDrawn : Nat := 0
  uuids : Nat → Uuid
  uuidsDrawn : Nat := 0
  clock : Nat → Timestamp
  clockRead : Nat := 0
  nonces : Nat → List UInt8 := fun _ => []
  noncesDrawn : Nat := 0

def Environment.answer (e : Environment) : (q : Question) → q.Reply × Environment
  | .tokenUrlsafe => (e.tokens e.tokensDrawn, { e with tokensDrawn := e.tokensDrawn + 1 })
  | .uuid4 => (e.uuids e.uuidsDrawn, { e with uuidsDrawn := e.uuidsDrawn + 1 })
  | .now => (e.clock e.clockRead, { e with clockRead := e.clockRead + 1 })
  | .nonce => (e.nonces e.noncesDrawn, { e with noncesDrawn := e.noncesDrawn + 1 })

/-- The database of the services. -/
abbrev postgres : Sql.Interface where
  Database := Database
  Write := Database.Write
  apply := Database.Write.apply
  Lock := Database.RowLock
  lock := Database.Write.lock
  lockEq := inferInstance
  share := Database.Write.share
  Setting := Database.Setting
  Statement := Database.Statement
  Answer := Database.Statement.Answer
  execute := Database.execute
  setting := Database.rebind
  Environment := Environment
  Question := Question
  Reply := Question.Reply
  reply q e := e.answer q

/-- Code that runs on a session. -/
abbrev Transaction (α : Type) := Sql.Program postgres Raised α

namespace Transaction

open Database (Statement Fault Position ProjectChanges PoolChanges ScriptRepoChanges TestChanges)

variable {α : Type}

/-- `raise exc`. -/
def raise (exc : Raised) : Transaction α := Sql.Program.raise exc

/-- The answer of a statement that may fail. -/
def checked : Except Fault α → Transaction α
  | .ok a => pure a
  | .error fault => raise fault.raised

/-! ### The interpreter -/

/-- `secrets.token_urlsafe(48)`. -/
def tokenUrlsafe : Transaction String := .ask Question.tokenUrlsafe pure

/-- `uuid.uuid4()`. -/
def uuid4 : Transaction Uuid := .ask Question.uuid4 pure

/-- `datetime.now(UTC)`. -/
def now : Transaction Timestamp := .ask Question.now pure

/-- `os.urandom(NONCE_BYTES)`. -/
def nonce : Transaction (List UInt8) := .ask Question.nonce pure

/-! ### The repositories -/

/-- `bind_session_to_org`. -/
def bindSessionToOrg (org : Uuid) : Transaction Unit := .execute (Statement.setCurrentOrg org) pure

/-- `users.lookup_for_login`. -/
def lookupForLogin (lowered : String) : Transaction (Option LoginRow) :=
  .execute (Statement.lookupForLogin lowered) pure

/-- `users.get_profile`. -/
def getProfile (userId : Uuid) : Transaction (Option Profile) :=
  .execute (Statement.getProfile userId) pure

/-- `refresh_tokens.insert_family`. -/
def insertFamily (row : RefreshTokenFamily) : Transaction Unit :=
  .execute (Statement.insertFamily row) checked

/-- `refresh_tokens.find_by_hash`. -/
def findByHash (tokenHash : String) : Transaction (Option RefreshTokenFamily) :=
  .execute (Statement.findByHash tokenHash) pure

/-- `refresh_tokens.replace_hash`. -/
def replaceHash (familyId : Uuid) (tokenHash : String) : Transaction Unit :=
  .execute (Statement.replaceHash familyId tokenHash) pure

/-- `refresh_tokens.revoke_family_containing`. -/
def revokeFamilyContaining (tokenHash : String) : Transaction Unit :=
  .execute (Statement.revokeFamilyContaining tokenHash) pure

/-- `refresh_tokens.organization_for_token`. -/
def organizationForToken (tokenHash : String) : Transaction (Option Uuid) :=
  .execute (Statement.organizationForToken tokenHash) pure

/-- `refresh_tokens.record_history`. -/
def recordHistory (row : RefreshTokenHistory) : Transaction Unit :=
  .execute (Statement.recordHistory row) checked

/-- `projects.insert`. -/
def insertProject (row : Timestamp → Project) : Transaction Project :=
  .execute (Statement.insertProject row) checked

/-- `projects.get`. -/
def getProject (id : Uuid) : Transaction (Option Project) :=
  .execute (Statement.getProject id) pure

/-- `projects.list_page`. -/
def listProjects (limit : Nat) (after : Option Position) : Transaction (List Project) :=
  .execute (Statement.listProjects limit after) pure

/-- `projects.update`. -/
def updateProject (id : Uuid) (changes : ProjectChanges) : Transaction (Option Project) :=
  .execute (Statement.updateProject id changes) checked

/-- `projects.archive`. -/
def archiveProject (id : Uuid) : Transaction Bool :=
  .execute (Statement.archiveProject id) pure

/-- `pools.insert`. -/
def insertPool (row : Timestamp → GeneratorPool) : Transaction GeneratorPool :=
  .execute (Statement.insertPool row) checked

/-- `pools.get`. -/
def getPool (id : Uuid) : Transaction (Option GeneratorPool) :=
  .execute (Statement.getPool id) pure

/-- `pools.list_page`. -/
def listPools (limit : Nat) (after : Option Position) : Transaction (List GeneratorPool) :=
  .execute (Statement.listPools limit after) pure

/-- `pools.update`. -/
def updatePool (id : Uuid) (changes : PoolChanges) : Transaction (Option GeneratorPool) :=
  .execute (Statement.updatePool id changes) checked

/-- `pools.archive`. -/
def archivePool (id : Uuid) : Transaction Bool := .execute (Statement.archivePool id) pure

/-- `pools.capacity`. -/
def poolCapacity (id : Uuid) : Transaction (Option Int) :=
  .execute (Statement.poolCapacity id) checked

/-- `pools.committed_users`. -/
def committedUsers (id : Uuid) : Transaction Int := .execute (Statement.committedUsers id) pure

/-- `credentials.insert`. -/
def insertCredential (row : Timestamp → Credential) : Transaction CredentialSummary :=
  .execute (Statement.insertCredential row) checked

/-- `credentials.get`. -/
def getCredential (id : Uuid) : Transaction (Option CredentialSummary) :=
  .execute (Statement.getCredential id) pure

/-- `credentials.list_page`. -/
def listCredentials (limit : Nat) (after : Option Position) :
    Transaction (List CredentialSummary) :=
  .execute (Statement.listCredentials limit after) pure

/-- `credentials.secret_material`. -/
def secretMaterial (id : Uuid) : Transaction (Option SecretMaterial) :=
  .execute (Statement.secretMaterial id) pure

/-- `credentials.by_name`. -/
def credentialByName (name : String) : Transaction (Option SecretMaterial) :=
  .execute (Statement.credentialByName name) pure

/-- `credentials.variable_material`. -/
def variableMaterial : Transaction (List SecretMaterial) :=
  .execute Statement.variableMaterial pure

/-- `credentials.referencing_repos`. -/
def referencingRepos (credentialId : Uuid) : Transaction (List String) :=
  .execute (Statement.referencingRepos credentialId) pure

/-- `credentials.delete`. -/
def deleteCredential (id : Uuid) : Transaction Bool :=
  .execute (Statement.deleteCredential id) checked

/-- `script_repos.insert`. -/
def insertScriptRepo (row : Timestamp → ScriptRepo) : Transaction ScriptRepo :=
  .execute (Statement.insertScriptRepo row) checked

/-- `script_repos.get`. -/
def getScriptRepo (id : Uuid) : Transaction (Option ScriptRepo) :=
  .execute (Statement.getScriptRepo id) pure

/-- `script_repos.list_page_for_project`. -/
def listScriptRepos (projectId : Uuid) (limit : Nat) (after : Option Position) :
    Transaction (List ScriptRepo) :=
  .execute (Statement.listScriptRepos projectId limit after) pure

/-- `script_repos.update`. -/
def updateScriptRepo (id : Uuid) (changes : ScriptRepoChanges) : Transaction (Option ScriptRepo) :=
  .execute (Statement.updateScriptRepo id changes) checked

/-- `script_repos.archive`. -/
def archiveScriptRepo (id : Uuid) : Transaction Bool :=
  .execute (Statement.archiveScriptRepo id) pure

/-- `script_versions.insert`. -/
def insertScriptVersion (row : Timestamp → ScriptVersion) : Transaction ScriptVersion :=
  .execute (Statement.insertScriptVersion row) checked

/-- `script_versions.by_commit`. -/
def versionByCommit (scriptRepoId : Uuid) (commitSha planPath : String) :
    Transaction (Option ScriptVersion) :=
  .execute (Statement.versionByCommit scriptRepoId commitSha planPath) pure

/-- `script_versions.get`. -/
def getScriptVersion (id : Uuid) : Transaction (Option ScriptVersion) :=
  .execute (Statement.getScriptVersion id) pure

/-- `script_versions.list_page_for_repo`. -/
def listScriptVersions (scriptRepoId : Uuid) (limit : Nat) (after : Option Position) :
    Transaction (List ScriptVersion) :=
  .execute (Statement.listScriptVersions scriptRepoId limit after) pure

/-- `performance_tests.insert`. -/
def insertTest (row : Timestamp → PerformanceTest) : Transaction PerformanceTest :=
  .execute (Statement.insertTest row) checked

/-- `performance_tests.get`. -/
def getTest (id : Uuid) : Transaction (Option PerformanceTest) :=
  .execute (Statement.getTest id) pure

/-- `performance_tests.list_page_for_project`. -/
def listTests (projectId : Uuid) (limit : Nat) (after : Option Position) :
    Transaction (List PerformanceTest) :=
  .execute (Statement.listTests projectId limit after) pure

/-- `performance_tests.update_document`. -/
def updateDocument (id : Uuid) (expectedVersion : Int) (changes : TestChanges) :
    Transaction (Option PerformanceTest) :=
  .execute (Statement.updateDocument id expectedVersion changes) checked

/-- The `DELETE` of `performance_tests.replace_plans`. -/
def deletePlans (testId : Uuid) : Transaction Unit := .execute (Statement.deletePlans testId) pure

/-- An `INSERT` of `performance_tests.replace_plans`. -/
def insertPlan (row : PerformanceTestPlan) : Transaction Unit :=
  .execute (Statement.insertPlan row) checked

/-- The `DELETE` of `performance_tests.replace_sla_rules`. -/
def deleteRules (testId : Uuid) : Transaction Unit := .execute (Statement.deleteRules testId) pure

/-- An `INSERT` of `performance_tests.replace_sla_rules`. -/
def insertRule (row : SlaRule) : Transaction Unit := .execute (Statement.insertRule row) checked

/-- `performance_tests.plans_for`. -/
def plansFor (testId : Uuid) : Transaction (List TestPlanSpec) :=
  .execute (Statement.plansFor testId) pure

/-- `performance_tests.sla_rules_for`. -/
def rulesFor (testId : Uuid) : Transaction (List SlaRuleSpec) :=
  .execute (Statement.rulesFor testId) pure

/-- `performance_tests.archive`. -/
def archiveTest (id : Uuid) : Transaction Bool := .execute (Statement.archiveTest id) pure

/-- `target_policy.current`. -/
def currentPolicy : Transaction (Option TargetPolicyRow) := .execute Statement.currentPolicy pure

/-- `target_policy.insert_next_version`: one statement, whose snapshot others may
outdate before it inserts. -/
def insertNextPolicy (row : Nat → Timestamp → TargetPolicyRow) : Transaction TargetPolicyRow :=
  .execute Statement.nextPolicyVersion fun version =>
    .execute (Statement.insertPolicy (row version)) checked

/-- `audit.insert`. -/
def insertAudit (row : AuditLog) : Transaction Unit := .execute (Statement.insertAudit row) checked

end Transaction

/-! ## Sessions -/

/-- The committed database, and the interpreter. -/
structure World where
  database : Database
  environment : Environment

/-- The setting a transaction begins with. -/
def Database.Setting.of (org : Option Uuid) (e : Environment) : Database.Setting :=
  ⟨org, e.clock e.clockRead⟩

/-- `async with session_for_org(org_id) as session: body`. -/
def sessionForOrg {α : Type} (org : Option Uuid) (body : Transaction α) : Action World α :=
  fun w =>
    match Sql.transaction body (Database.Setting.of org w.environment) w.database w.environment with
    | (outcome, database, environment) => (outcome, { database, environment })

end Plimsoll
