import Plimsoll.History
import Plimsoll.Sql.Atomic

/-!
What the operations are for.

The tables are a map from locks to rows. An operation, with what it is answered with, is a
relation of such maps: which rows it writes, what it needs to find there, and what it tells
of. The relation is looser than the operation run alone. What is looked up before a row is
added is left out, a request that changes nothing may show its row as it was earlier, and a
credential may be told to be deleted that is not deleted by this request.
-/

namespace Plimsoll.Effects

open Python Contracts
open Database (Write RowLock Setting Statement UniqueKey)
open History (Row rowAt written InPlace)
open Relation (Comp)

/-! ## Transitions -/

abbrev Store := History.rows.Store

abbrev Transition := History.rows.Transition

/-- The tables as a map. -/
def store (d : Database) : Store := fun lock => rowAt lock d

/-- A row is written. -/
def put (s : Store) (write : Write) : Store := Function.update s write.lock (written write)

theorem put_self (s : Store) (write : Write) : put s write write.lock = written write :=
  Function.update_self ..

theorem put_of_ne (s : Store) {write : Write} {lock : RowLock} (other : lock ≠ write.lock) :
    put s write lock = s lock :=
  Function.update_of_ne other ..

/-- No row. -/
def nothing : (lock : RowLock) → Row lock
  | .family _ => none
  | .history _ => none
  | .project _ => none
  | .pool _ => none
  | .credential _ => none
  | .scriptRepo _ => none
  | .scriptVersion _ => none
  | .test _ => none
  | .plan _ => none
  | .rule _ => none
  | .targetPolicy _ => none
  | .audit _ => none
  | .entry _ => ()

/-- A row comes to stand where none stands. -/
def Adds (write : Write) : Transition := fun s s' =>
  s write.lock = nothing write.lock ∧ s' = put s write

/-- An audit row. -/
def Tells (principal : AccessClaims) (action entityType : String) (entityId : Uuid)
    (metadata : Option (List (String × Detail))) : Transition := fun s s' =>
  ∃ id, Adds (.audit {
    id, action, entityType, entityId, metadata
    organizationId := principal.organizationId
    userId := principal.userId }) s s'

section

variable {ρ : Type} (org : Uuid) (at_ : Store → Option ρ) (write : ρ → Write)

/-- A new row, under an identifier and a time, which is told of. -/
def Creates (row : Uuid → Timestamp → ρ) (shown : ρ → Prop) (tells : ρ → Transition) :
    Transition := fun s s' =>
  ∃ id now, shown (row id now) ∧ Comp (Adds (write (row id now))) (tells (row id now)) s s'

/-- A row of the organisation that may be changed is, which is told of. -/
def Changes [Tenant ρ] (may : ρ → Prop) (change : Timestamp → ρ → ρ) (shown : ρ → Prop)
    (tells : ρ → Transition) : Transition := fun s s' =>
  ∃ old now, at_ s = some old ∧ Tenant.organizationId old = org ∧ may old ∧
    shown (change now old) ∧ tells (change now old) (put s (write (change now old))) s'

/-- Nothing is changed, and what is shown is the row of the organisation as it is or as it
was earlier. -/
def Shows [Tenant ρ] (becomes : ρ → ρ → Prop) (shown : ρ → Prop) : Transition := fun s s' =>
  s = s' ∧ ∃ row row', shown row ∧ at_ s = some row' ∧ becomes row row' ∧
    Tenant.organizationId row' = org

/-- A row of the organisation is archived, which is told of, or it was before. -/
def Archives [Tenant ρ] (archived : ρ → Bool) (archive : Timestamp → ρ → ρ)
    (tells : Transition) : Transition := fun s s' =>
  Changes org at_ write (fun old => archived old = false) archive (fun _ => True)
      (fun _ => tells) s s' ∨
    s = s' ∧ ∃ row, at_ s = some row ∧ archived row = true ∧ Tenant.organizationId row = org

end

/-- A column that is not null, with what a request gives for it. -/
def patched {α : Type} (old : α) : Patch α → α
  | .value new => new
  | _ => old

/-! ## Rows -/

section

variable (principal : AccessClaims)

def project (body : ProjectCreate) (id : Uuid) (createdAt : Timestamp) : Project where
  id := id
  organizationId := principal.organizationId
  name := body.name
  projectKey := body.projectKey
  description := body.description
  environment := body.environment
  tags := body.tags
  createdBy := principal.userId
  createdAt := createdAt
  updatedAt := createdAt

def patchProject (body : ProjectUpdate) (now : Timestamp) (old : Project) : Project :=
  { old with
    name := patched old.name body.name
    tags := patched old.tags body.tags
    description := Database.assignedNullable old.description body.description
    environment := Database.assignedNullable old.environment body.environment
    updatedAt := now }

def archiveProject (now : Timestamp) (old : Project) : Project :=
  { old with status := .archived, updatedAt := now }

def pool (body : PoolCreate) (id : Uuid) (createdAt : Timestamp) : GeneratorPool where
  id := id
  organizationId := principal.organizationId
  name := body.name
  runtime := body.runtime
  config := some body.config
  region := body.region
  maxGenerators := body.maxGenerators
  maxVusPerGenerator := body.maxVusPerGenerator
  createdAt := createdAt
  updatedAt := createdAt

def patchPool (body : PoolUpdate) (now : Timestamp) (old : GeneratorPool) : GeneratorPool :=
  { old with
    name := patched old.name body.name
    maxGenerators := patched old.maxGenerators body.maxGenerators
    maxVusPerGenerator := patched old.maxVusPerGenerator body.maxVusPerGenerator
    config := Database.assignedNullable old.config body.config
    region := Database.assignedNullable old.region body.region
    updatedAt := now }

def archivePool (now : Timestamp) (old : GeneratorPool) : GeneratorPool :=
  { old with status := .archived, updatedAt := now }

def credential (body : CredentialCreate) (ciphertext : List UInt8) (id : Uuid)
    (createdAt : Timestamp) : Credential where
  id := id
  organizationId := principal.organizationId
  name := body.name
  kind := body.kind
  ciphertext := ciphertext
  keyRef := "local:v1"
  createdBy := principal.userId
  createdAt := createdAt

def scriptRepo (projectId : Uuid) (body : ScriptRepoCreate) (id : Uuid) (createdAt : Timestamp) :
    ScriptRepo where
  id := id
  organizationId := principal.organizationId
  projectId := projectId
  name := body.name
  repoUrl := body.repoUrl
  defaultRef := body.defaultRef
  planPath := body.planPath
  credentialId := body.credentialId
  createdBy := principal.userId
  createdAt := createdAt
  updatedAt := createdAt

def patchScriptRepo (body : ScriptRepoUpdate) (now : Timestamp) (old : ScriptRepo) : ScriptRepo :=
  { old with
    name := patched old.name body.name
    planPath := patched old.planPath body.planPath
    defaultRef := patched old.defaultRef body.defaultRef
    credentialId := Database.assignedNullable old.credentialId body.credentialId
    updatedAt := now }

def archiveScriptRepo (now : Timestamp) (old : ScriptRepo) : ScriptRepo :=
  { old with status := .archived, updatedAt := now }

def test (projectId : Uuid) (body : TestCreate) (id : Uuid) (createdAt : Timestamp) :
    PerformanceTest where
  id := id
  organizationId := principal.organizationId
  projectId := projectId
  name := body.name
  description := body.description
  configuration := some body.configuration
  tags := body.tags
  createdBy := principal.userId
  createdAt := createdAt
  updatedAt := createdAt

def patchTest (body : TestUpdate) (now : Timestamp) (old : PerformanceTest) : PerformanceTest :=
  { old with
    name := patched old.name body.name
    tags := patched old.tags body.tags
    description := Database.assignedNullable old.description body.description
    configuration := Database.assignedNullable old.configuration body.configuration
    version := old.version + 1
    updatedAt := now }

def archiveTest (now : Timestamp) (old : PerformanceTest) : PerformanceTest :=
  { old with status := .archived, updatedAt := now }

def scriptVersion (repoId : Uuid) (planPath : String) (candidate : ScriptVersions.PinCandidate)
    (id : Uuid) (resolvedAt : Timestamp) : ScriptVersion where
  id := id
  organizationId := principal.organizationId
  scriptRepoId := repoId
  commitSha := candidate.sha
  planPath := planPath
  checksum := candidate.checksum
  metadata := ScriptVersions.summaryAsMetadata candidate.summary
  resolvedAt := resolvedAt

end

/-! ## The parts of a test -/

section

variable {σ : Type} (org testId : Uuid)

/-- The plans of a test are gone. -/
def ClearsPlans : Transition := fun s s' => s' = fun lock => match lock with
  | .plan id => (s (.plan id)).filter fun row =>
      !(decide (row.performanceTestId = testId) && decide (row.organizationId = org))
  | other => s other

/-- The rules of a test are gone. -/
def ClearsRules : Transition := fun s s' => s' = fun lock => match lock with
  | .rule id => (s (.rule id)).filter fun row =>
      !(decide (row.performanceTestId = testId) && decide (row.organizationId = org))
  | other => s other

/-- Rows are added one after the other, each under an identifier of its own. -/
def AddsAll (write : Uuid → σ → Write) : List σ → Transition
  | [] => Eq
  | spec :: rest => fun s s' => ∃ id, Comp (Adds (write id spec)) (AddsAll write rest) s s'

def ReplacesPlans (plans : List TestPlanSpec) : Transition :=
  Comp (ClearsPlans org testId) (AddsAll (fun id spec =>
    .plan { id, organizationId := org, performanceTestId := testId, spec }) plans)

def ReplacesRules (rules : List SlaRuleSpec) : Transition :=
  Comp (ClearsRules org testId) (AddsAll (fun id spec =>
    .rule { id, organizationId := org, performanceTestId := testId, spec }) rules)

/-- What is given is replaced, and what is not stays. -/
def WhenGiven (value : Option σ) (replaces : σ → Transition) : Transition :=
  match value with
  | none => Eq
  | some given => replaces given

end

/-! ## Policies -/

/-- The version that comes after all those of an organisation. -/
def IsNext (org : Uuid) (version : Nat) (s : Store) : Prop :=
  (∀ id row, s (.targetPolicy id) = some row → row.organizationId = org → row.version < version) ∧
    (version = 1 ∨ ∃ id row, s (.targetPolicy id) = some row ∧ row.organizationId = org ∧
      row.version + 1 = version)

theorem IsNext.unique {org : Uuid} {version version' : Nat} {s : Store}
    (next : IsNext org version s) (next' : IsNext org version' s) : version = version' := by
  have le {a b : Nat} (one : IsNext org a s) (other : IsNext org b s) : a ≤ b := by
    rcases one.2 with rfl | ⟨id, row, there, own, rfl⟩
    · rcases other.2 with rfl | ⟨_, _, _, _, rfl⟩
      · exact le_rfl
      · omega
    · exact other.1 id row there own
  exact le_antisymm (le next next') (le next' next)

/-! ## Operations -/

/-- `NONCE_BYTES`. -/
def nonceBytes : Nat := 12

/-- The document of a test is shown. -/
def ShowsTest (answer : Answer) (row : PerformanceTest) : Prop :=
  ∃ document, answer = .test document ∧ document.row = row

/-- A pool is shown. -/
def ShowsPool (answer : Answer) (row : GeneratorPool) : Prop :=
  ∃ config, row.config = some config ∧ answer = .pool {
    config
    id := row.id
    name := row.name
    runtime := row.runtime
    region := row.region
    maxGenerators := row.maxGenerators
    maxVusPerGenerator := row.maxVusPerGenerator
    capacity := row.maxGenerators * row.maxVusPerGenerator
    supportedEngines := row.supportedEngines
    status := row.status
    createdAt := row.createdAt }

variable (dep : Deployment)

/-- What a request that is answered does to the tables, whatever runs beside it. A
credential that another deletes in the meantime is told to be deleted all the same. -/
def effect : Request → Answer → Transition
  | ⟨principal, .createProject body⟩, answer =>
      Creates .project (project principal body) (fun row => answer = .project row) fun row =>
        Tells principal "project.created" "project" row.id
          (some [("projectKey", .text body.projectKey)])
  | ⟨principal, .updateProject id body⟩, answer =>
      if Projects.changedColumns body = [] then
        Shows principal.organizationId (fun s => s (.project id)) History.ProjectBecomes
          fun row => answer = .project row
      else
        Changes principal.organizationId (fun s => s (.project id)) .project (fun _ => True)
          (patchProject body) (fun row => answer = .project row) fun _ =>
            Tells principal "project.updated" "project" id
              (some [("fields", .texts (sorted (Projects.changedColumns body)))])
  | ⟨principal, .archiveProject id⟩, _ =>
      Archives principal.organizationId (fun s => s (.project id)) .project
        (fun row => row.status = .archived) archiveProject
          (Tells principal "project.deleted" "project" id none)
  | ⟨principal, .createPool body⟩, answer =>
      Creates .pool (pool principal body) (ShowsPool answer) fun row =>
        Tells principal "pool.created" "generator_pool" row.id
          (some [("runtime", .text body.runtime.text)])
  | ⟨principal, .updatePool id body⟩, answer =>
      if Pools.changedColumns body = [] then
        Shows principal.organizationId (fun s => s (.pool id)) History.PoolBecomes
          (ShowsPool answer)
      else
        Changes principal.organizationId (fun s => s (.pool id)) .pool (fun _ => True)
          (patchPool body) (ShowsPool answer) fun _ =>
            Tells principal "pool.updated" "generator_pool" id
              (some [("fields", .texts (sorted (Pools.changedColumns body)))])
  | ⟨principal, .archivePool id⟩, _ =>
      Archives principal.organizationId (fun s => s (.pool id)) .pool
        (fun row => row.status = .archived) archivePool
          (Tells principal "pool.deleted" "generator_pool" id none)
  | ⟨principal, .createCredential body⟩, answer => fun s s' =>
      ∃ cipher nonce, dep.keys = some cipher ∧ nonce.length = nonceBytes ∧ Creates .credential
        (credential principal body (nonce ++ cipher nonce body.secret.toUTF8.toList))
          (fun row => answer = .credential row.summary) (fun row =>
            Tells principal "credential.created" "credential" row.id
              (some [("kind", .text body.kind.text)])) s s'
  | ⟨principal, .deleteCredential id⟩, _ => fun s s' =>
      Tells principal "credential.deleted" "credential" id none s s' ∨
        ∃ old, s (.credential id) = some old ∧ old.organizationId = principal.organizationId ∧
          Tells principal "credential.deleted" "credential" id none
            (put s (.deleteCredential id)) s'
  | ⟨principal, .createScriptRepo projectId body⟩, answer =>
      Creates .scriptRepo (scriptRepo principal projectId body)
        (fun row => answer = .scriptRepo row) fun row =>
          Tells principal "script_repo.created" "script_repo" row.id
            (some [("repoUrl", .text body.repoUrl), ("planPath", .text body.planPath)])
  | ⟨principal, .updateScriptRepo id body⟩, answer =>
      if ScriptRepos.changedColumns body = [] then
        Shows principal.organizationId (fun s => s (.scriptRepo id)) History.ScriptRepoBecomes
          fun row => answer = .scriptRepo row
      else
        Changes principal.organizationId (fun s => s (.scriptRepo id)) .scriptRepo
          (fun _ => True) (patchScriptRepo body) (fun row => answer = .scriptRepo row) fun _ =>
            Tells principal "script_repo.updated" "script_repo" id
              (some [("fields", .texts (sorted (ScriptRepos.changedColumns body)))])
  | ⟨principal, .archiveScriptRepo id⟩, _ =>
      Archives principal.organizationId (fun s => s (.scriptRepo id)) .scriptRepo
        (fun row => row.status = .archived) archiveScriptRepo
          (Tells principal "script_repo.deleted" "script_repo" id none)
  | ⟨principal, .createTest projectId body⟩, answer =>
      Creates .test (test principal projectId body) (ShowsTest answer) fun row =>
        Comp (Comp (ReplacesPlans principal.organizationId row.id body.plans)
          (ReplacesRules principal.organizationId row.id body.slaRules))
            (Tells principal "test.created" "performance_test" row.id
              (some [("plans", .number body.plans.length),
                ("slaRules", .number body.slaRules.length)]))
  | ⟨principal, .updateTest id body⟩, answer =>
      Changes principal.organizationId (fun s => s (.test id)) .test
        (fun old => old.version = body.version) (patchTest body) (ShowsTest answer) fun row =>
          Comp (Comp
              (WhenGiven (PerformanceTests.value? body.plans)
                (ReplacesPlans principal.organizationId id))
              (WhenGiven (PerformanceTests.value? body.slaRules)
                (ReplacesRules principal.organizationId id)))
            (Tells principal "test.updated" "performance_test" id
              (some [("fields", .texts (sorted (PerformanceTests.changedColumns body))),
                ("version", .number row.version)]))
  | ⟨principal, .archiveTest id⟩, _ =>
      Archives principal.organizationId (fun s => s (.test id)) .test
        (fun row => row.status = .archived) archiveTest
          (Tells principal "test.deleted" "performance_test" id none)
  | ⟨principal, .replaceTargetPolicy allowlist⟩, answer => fun s s' =>
      TargetPolicy.validateEntries dep.ucd allowlist = .ok () ∧
        ∃ version, IsNext principal.organizationId version s ∧
          Creates .targetPolicy (fun id => TargetPolicy.policyRow principal allowlist id version)
            (fun row => answer = .policy row) (fun row =>
              Tells principal "target_policy.updated" "target_policy" row.id
                (some [("version", .number row.version),
                  ("entries", .number allowlist.length)])) s s'
  | ⟨principal, .pinVersion repoId planPath ref candidate⟩, answer => fun s s' =>
      Creates .scriptVersion (scriptVersion principal repoId planPath candidate)
          (fun row => answer = .version 201 row) (fun row =>
            Tells principal "script_version.pinned" "script_version" row.id
              (some [("commitSha", .text candidate.sha), ("ref", .text ref)])) s s' ∨
        s = s' ∧ ∃ id row, answer = .version 200 row ∧ s (.scriptVersion id) = some row ∧
          row.organizationId = principal.organizationId ∧ row.scriptRepoId = repoId ∧
            row.commitSha = candidate.sha ∧ row.planPath = planPath

end Plimsoll.Effects
