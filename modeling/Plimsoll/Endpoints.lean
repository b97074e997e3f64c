import Plimsoll.Pagination
import Plimsoll.Preflight
import Plimsoll.Verify

/-!
The endpoints of the services. Most are one transaction; those that reach a Git host
do so between two.
-/

namespace Plimsoll.Endpoints

open Python Contracts Transaction
open ScriptRepos (record refuse)
open Preflight (PlanInput PreflightInput PreflightReport)

/-- What the services are deployed on. Git's world `W` is what has happened to it. -/
structure Host (W : Type) extends Deployment where
  interp : Interpreter
  driver : Pagination.Driver
  rt : Runtime
  git : Git W
  /-- `get_key_provider().decrypt`. -/
  decrypt : List UInt8 → String → Except Raised (List UInt8)

variable {W : Type} (host : Host W) (principal : AccessClaims)

/-! ## What is read for Git -/

/-- `access_for`. -/
def accessFor (row : ScriptRepo) : Transaction GitAccess :=
  match row.credentialId with
  | none => return { url := row.repoUrl }
  | some credentialId => do
      match ← secretMaterial credentialId with
      | none => refuse .validationFailed "The repository's credential no longer exists."
      | some material => do
          let secret ← .finished (host.decrypt material.ciphertext material.keyRef)
          return { url := row.repoUrl, kind := some material.kind.text, secret := some secret }

/-- `credentials.variables`. -/
def values (decode : List UInt8 → String) : List SecretMaterial → Transaction (List (String × String))
  | [] => return []
  | row :: rest => do
      let secret ← .finished (host.decrypt row.ciphertext row.keyRef)
      let others ← values decode rest
      return (row.name, decode secret) :: others

/-- `plans` of `_preflight_input`. -/
def planInputs : List TestPlanSpec → Transaction (List PlanInput)
  | [] => return []
  | plan :: rest => do
      let row ← ScriptRepos.require plan.scriptRepoId
      let access ← accessFor host row
      let others ← planInputs rest
      return {
        repoName := row.name
        access
        planPath := row.planPath
        ref := if plan.pinnedRef.getD "" = "" then row.defaultRef else plan.pinnedRef.getD ""
        virtualUsers := plan.virtualUsers } :: others

/-- `free_capacity` of `_preflight_input`: no pool is no reason to refuse. -/
def freeCapacity (poolId : Uuid) : Transaction (Option Int) := do
  match ← (Pools.capacityFor poolId).attempt with
  | .ok free => return some free
  | .error (.plimsollError _) => return none
  | .error exc => raise exc

/-- `_preflight_input`. -/
def preflightInput (testId : Uuid) : Transaction PreflightInput := do
  let document ← PerformanceTests.require testId
  let configuration ← PerformanceTests.modelValidate document.row.configuration
  let plans ← planInputs host document.plans
  let policy ← currentPolicy
  let freeCapacity ← freeCapacity configuration.generatorPoolId
  let material ← variableMaterial
  let items ← values host host.rt.decode material
  return {
    requestedUsers := configuration.virtualUsers
    plans
    allowlist := (policy.map TargetPolicyRow.allowlist).getD []
    values := Dict.ofList items
    freeCapacity }

/-! ## Endpoints with one transaction -/

/-- `get_pool`. -/
def getPool (poolId : Uuid) : Transaction PoolResponse := do
  Pools.response (some (← Pools.require poolId))

/-- `get_version`. -/
def getVersion (versionId : Uuid) : Transaction ScriptVersion := do
  match ← getScriptVersion versionId with
  | none => refuse .notFound "No such script version."
  | some row => return row

/-- `get_test`. -/
def getTest (testId : Uuid) : Transaction PerformanceTests.TestDocument := do
  PerformanceTests.response (← PerformanceTests.require testId)

/-! ## Endpoints with two -/

/-- `session_for_org(principal.organization_id)`. -/
def session {α : Type} (body : Transaction α) : Action World α :=
  sessionForOrg (some principal.organizationId) body

/-- What has come to an end outside of the database. -/
def outside {α : Type} (outcome : Except Raised α) : Action World α := fun w => (outcome, w)

/-- The first transaction of an endpoint that reads a repository. -/
def reading (repoId : Uuid) : Transaction (ScriptRepo × GitAccess) := do
  let row ← ScriptRepos.require repoId
  let access ← accessFor host row
  return (row, access)

/-- `verify_script_repo`. -/
def verifyScriptRepo (repoId : Uuid) (w : W) : Action World VerifyReport := do
  let (row, access) ← session principal (reading host repoId)
  let report ← outside (Verify.run host.rt host.git access row.planPath row.defaultRef w).1
  session principal (record principal "script_repo.verified" "script_repo" repoId
    (some [("ok", .flag report.ok), ("commitSha", (report.commitSha.map Detail.text).getD .null)]))
  return report

/-- `body.ref or row.default_ref`. -/
def refOf (ref : Option String) (row : ScriptRepo) : String :=
  match ref with
  | none => row.defaultRef
  | some ref => if ref = "" then row.defaultRef else ref

/-- `pin_version`. -/
def pinVersion (repoId : Uuid) (ref : Option String) (w : W) : Action World (Nat × ScriptVersion) := do
  let (row, access) ← session principal (reading host repoId)
  let candidate ← outside
    (ScriptVersions.resolveForPin host.rt host.git access row.planPath (refOf ref row) w).1
  session principal (ScriptVersions.pinVersion principal repoId row.planPath (refOf ref row) candidate)

/-- `validate_test`. -/
def validateTest (testId : Uuid) (w : W) : Action World PreflightReport := do
  let inputs ← session principal (preflightInput host testId)
  let report ← outside (Preflight.run host.rt host.git inputs w).1
  session principal (record principal "test.validated" "performance_test" testId
    (some [("ok", .flag report.ok), ("failed", .texts ((report.checks.filter fun check =>
      check.status ≠ .pass).map Preflight.Check.code))]))
  return report

/-! ## Calls -/

/-- An operation that is a request of its own; a pin comes after a reading. -/
def alone : Operation → Bool
  | .pinVersion .. => false
  | _ => true

/-- What the services can be called for. -/
inductive Call where
  | request (operation : Operation) (alone : alone operation = true)
  | listProjects (limit : Nat) (cursor : Option String)
  | getProject (id : Uuid)
  | listPools (limit : Nat) (cursor : Option String)
  | getPool (id : Uuid)
  | listCredentials (limit : Nat) (cursor : Option String)
  | listScriptRepos (projectId : Uuid) (limit : Nat) (cursor : Option String)
  | getScriptRepo (id : Uuid)
  | verifyScriptRepo (id : Uuid)
  | pinVersion (repoId : Uuid) (ref : Option String)
  | listVersions (repoId : Uuid) (limit : Nat) (cursor : Option String)
  | getVersion (id : Uuid)
  | listTests (projectId : Uuid) (limit : Nat) (cursor : Option String)
  | getTest (id : Uuid)
  | validateTest (id : Uuid)
  | getTargetPolicy

/-- `TargetPolicyResponse`. -/
structure TargetPolicyResponse where
  version : Nat
  allowlist : List String
  createdAt : Option Timestamp := none

/-- `get_target_policy`. -/
def getTargetPolicy : Transaction TargetPolicyResponse := do
  match ← currentPolicy with
  | none => return { version := 0, allowlist := [] }
  | some row => return { version := row.version, allowlist := row.allowlist, createdAt := row.createdAt }

/-- What a call is answered with. -/
inductive Response where
  | answer (answer : Answer)
  | projects (page : Page Project)
  | pools (page : Page PoolResponse)
  | credentials (page : Page CredentialSummary)
  | scriptRepos (page : Page ScriptRepo)
  | versions (page : Page ScriptVersion)
  | version (row : ScriptVersion)
  | tests (page : Page PerformanceTests.TestDocument)
  | targetPolicy (response : TargetPolicyResponse)
  | verified (report : VerifyReport)
  | validated (report : PreflightReport)

/-- What a call does; `w` is the world that Git finds. -/
def Call.perform (w : W) : Call → Action World Response
  | .request operation _ => session principal do
      return .answer (← Request.perform host.toDeployment ⟨principal, operation⟩)
  | .listProjects limit cursor => session principal do
      return .projects (← Pagination.listProjects host.interp host.driver limit cursor)
  | .getProject id => session principal do
      return .answer (.project (← ScriptRepos.requireProject id))
  | .listPools limit cursor => session principal do
      return .pools (← Pagination.listPools host.interp host.driver limit cursor)
  | .getPool id => session principal do
      return .answer (.pool (← Endpoints.getPool id))
  | .listCredentials limit cursor => session principal do
      return .credentials (← Pagination.listCredentials host.interp host.driver limit cursor)
  | .listScriptRepos projectId limit cursor => session principal do
      return .scriptRepos
        (← Pagination.listScriptRepos host.interp host.driver projectId limit cursor)
  | .getScriptRepo id => session principal do
      return .answer (.scriptRepo (← ScriptRepos.require id))
  | .verifyScriptRepo id => do
      return .verified (← Endpoints.verifyScriptRepo host principal id w)
  | .pinVersion repoId ref => do
      let (status, row) ← Endpoints.pinVersion host principal repoId ref w
      return .answer (.version status row)
  | .listVersions repoId limit cursor => session principal do
      return .versions (← Pagination.listVersions host.interp host.driver repoId limit cursor)
  | .getVersion id => session principal do
      return .version (← Endpoints.getVersion id)
  | .listTests projectId limit cursor => session principal do
      return .tests (← Pagination.listTests host.interp host.driver projectId limit cursor)
  | .getTest id => session principal do
      return .answer (.test (← Endpoints.getTest id))
  | .validateTest id => do
      return .validated (← Endpoints.validateTest host principal id w)
  | .getTargetPolicy => session principal do
      return .targetPolicy (← Endpoints.getTargetPolicy)

/-- A call as it is made: by whom, and what the interpreter and Git reply to it. -/
structure Made (W : Type) where
  principal : AccessClaims
  call : Call
  environment : Environment
  git : W

/-- The organisation that a call is made for. -/
def Made.org (made : Made W) : Uuid := made.principal.organizationId

/-- Calls one after the other: what each is answered with, beside the organisation
it goes to, and the database that they leave. -/
def serve (host : Host W) :
    List (Made W) → Database → List (Uuid × Except Raised Response) × Database
  | [], d => ([], d)
  | made :: rest, d =>
      let (response, w) := made.call.perform host made.principal made.git ⟨d, made.environment⟩
      let (responses, d) := serve host rest w.database
      ((made.org, response) :: responses, d)

end Plimsoll.Endpoints
