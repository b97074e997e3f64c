import Plimsoll.PerformanceTests
import Plimsoll.ScriptVersions.Pinning
import Plimsoll.TargetPolicy

/-!
The services that write, and the requests to them: each is one transaction of
the organisation it comes from.
-/

namespace Plimsoll

open Python Contracts Transaction
open ScriptRepos (given record refuse requireProject)

/-- `except IntegrityError`, with what is raised instead. -/
def onIntegrityError (error : PlimsollError) : Raised → Raised
  | .integrityError => .plimsollError error
  | exc => exc

/-! ## Projects -/

namespace Projects

/-- The refusal of a key that is taken. -/
def taken (projectKey : String) : PlimsollError where
  code := .conflict
  message := "A project with key " ++ projectKey ++ " already exists."

/-- `create`. -/
def create (principal : AccessClaims) (body : ProjectCreate) : Transaction Project := do
  let id ← uuid4
  let row ← (insertProject fun createdAt => {
    id, createdAt
    organizationId := principal.organizationId
    name := body.name
    projectKey := body.projectKey
    description := body.description
    environment := body.environment
    tags := body.tags
    createdBy := principal.userId
    updatedAt := createdAt }).mapError (onIntegrityError (taken body.projectKey))
  record principal "project.created" "project" row.id
    (some [("projectKey", .text body.projectKey)])
  return row

/-- `changes`, the columns. -/
def changedColumns (body : ProjectUpdate) : List String :=
  (if given body.name then ["name"] else []) ++
    (if given body.description then ["description"] else []) ++
      (if given body.environment then ["environment"] else []) ++
        (if given body.tags then ["tags"] else [])

/-- `changes`, the values. -/
def changesOf (body : ProjectUpdate) : Database.ProjectChanges where
  name := body.name
  description := body.description
  environment := body.environment
  tags := body.tags

/-- `update`, with what the endpoint makes of its row. -/
def update (principal : AccessClaims) (projectId : Uuid) (body : ProjectUpdate) :
    Transaction Project := do
  let current ← requireProject projectId
  if changedColumns body = [] then return current
  else do
    let row ← updateProject projectId (changesOf body)
    record principal "project.updated" "project" projectId
      (some [("fields", .texts (sorted (changedColumns body)))])
    match row with
    | none => raise .attributeError
    | some row => return row

/-- `archive`. -/
def archive (principal : AccessClaims) (projectId : Uuid) : Transaction Unit := do
  let _ ← requireProject projectId
  if ← archiveProject projectId then
    record principal "project.deleted" "project" projectId none
  else return ()

end Projects

/-! ## Generator pools -/

/-- `str(runtime)`. -/
def Contracts.PoolRuntime.text : PoolRuntime → String
  | .docker => "docker"
  | .kubernetes => "kubernetes"

/-- `PoolResponse`. -/
structure Contracts.PoolResponse where
  id : Uuid
  name : String
  runtime : PoolRuntime
  config : Json
  region : Option String
  maxGenerators : Int
  maxVusPerGenerator : Int
  capacity : Int
  supportedEngines : List String
  status : Status
  createdAt : Timestamp
deriving DecidableEq

namespace Pools

/-- The refusal of a name that is taken. -/
def taken (name : String) : PlimsollError where
  code := .conflict
  message := "A generator pool named " ++ name ++ " already exists."

/-- `create`. -/
def create (principal : AccessClaims) (body : PoolCreate) : Transaction GeneratorPool := do
  let id ← uuid4
  let row ← (insertPool fun createdAt => {
    id, createdAt
    organizationId := principal.organizationId
    name := body.name
    runtime := body.runtime
    config := some body.config
    region := body.region
    maxGenerators := body.maxGenerators
    maxVusPerGenerator := body.maxVusPerGenerator
    updatedAt := createdAt }).mapError (onIntegrityError (taken body.name))
  record principal "pool.created" "generator_pool" row.id
    (some [("runtime", .text body.runtime.text)])
  return row

/-- `require`. -/
def require (poolId : Uuid) : Transaction GeneratorPool := do
  match ← getPool poolId with
  | none => refuse .notFound "No such generator pool."
  | some row => return row

/-- `changes`, the columns. -/
def changedColumns (body : PoolUpdate) : List String :=
  (if given body.name then ["name"] else []) ++
    (if given body.config then ["config"] else []) ++
      (if given body.region then ["region"] else []) ++
        (if given body.maxGenerators then ["max_generators"] else []) ++
          (if given body.maxVusPerGenerator then ["max_vus_per_generator"] else [])

/-- `changes`, the values. -/
def changesOf (body : PoolUpdate) : Database.PoolChanges where
  name := body.name
  config := body.config
  region := body.region
  maxGenerators := body.maxGenerators
  maxVusPerGenerator := body.maxVusPerGenerator

/-- `update`. -/
def update (principal : AccessClaims) (poolId : Uuid) (body : PoolUpdate) :
    Transaction (Option GeneratorPool) := do
  let current ← require poolId
  if changedColumns body = [] then return some current
  else do
    let row ← updatePool poolId (changesOf body)
    record principal "pool.updated" "generator_pool" poolId
      (some [("fields", .texts (sorted (changedColumns body)))])
    return row

/-- `archive`. -/
def archive (principal : AccessClaims) (poolId : Uuid) : Transaction Unit := do
  let _ ← require poolId
  if ← archivePool poolId then
    record principal "pool.deleted" "generator_pool" poolId none
  else return ()

/-- `capacity_for`. -/
def capacityFor (poolId : Uuid) : Transaction Int := do
  match ← poolCapacity poolId with
  | none => refuse .notFound "No such active generator pool."
  | some total => return total - (← committedUsers poolId)

/-- `_response`; a config that is no mapping does not pass `PoolResponse`. -/
def response : Option GeneratorPool → Transaction PoolResponse
  | none => raise .attributeError
  | some row =>
      match row.config with
      | none => raise .valueError
      | some config =>
          return {
            config
            id := row.id
            name := row.name
            runtime := row.runtime
            region := row.region
            maxGenerators := row.maxGenerators
            maxVusPerGenerator := row.maxVusPerGenerator
            capacity := row.maxGenerators * row.maxVusPerGenerator
            supportedEngines := row.supportedEngines
            status := row.status
            createdAt := row.createdAt }

end Pools

/-! ## Credentials -/

/-- `str(kind)`. -/
def Contracts.CredentialKind.text : CredentialKind → String
  | .gitToken => "GIT_TOKEN"
  | .gitSshKey => "GIT_SSH_KEY"
  | .variable => "VARIABLE"

namespace Credentials

/-- `LocalKeyProvider`: its cipher, of a nonce and a plaintext; `none` where the
configured key is unusable. -/
abbrev KeyProvider := Option (List UInt8 → List UInt8 → List UInt8)

/-- `get_key_provider().encrypt`. -/
def encrypt (keys : KeyProvider) (plaintext : List UInt8) : Transaction (List UInt8 × String) :=
  match keys with
  | none => raise .secretError
  | some cipher => do
      let drawn ← nonce
      return (drawn ++ cipher drawn plaintext, "local:v1")

/-- The refusal of a name that is taken. -/
def taken (name : String) : PlimsollError where
  code := .conflict
  message := "A credential named " ++ name ++ " already exists."

/-- `create`. -/
def create (keys : KeyProvider) (principal : AccessClaims) (body : CredentialCreate) :
    Transaction CredentialSummary := do
  let (ciphertext, keyRef) ← encrypt keys body.secret.toUTF8.toList
  let id ← uuid4
  let row ← (insertCredential fun createdAt => {
    id, ciphertext, keyRef, createdAt
    organizationId := principal.organizationId
    name := body.name
    kind := body.kind
    createdBy := principal.userId }).mapError (onIntegrityError (taken body.name))
  record principal "credential.created" "credential" row.id
    (some [("kind", .text body.kind.text)])
  return row

/-- `delete`. -/
def delete (principal : AccessClaims) (credentialId : Uuid) : Transaction Unit := do
  match ← getCredential credentialId with
  | none => refuse .notFound "No such credential."
  | some _ => do
      let inUse ← referencingRepos credentialId
      if inUse ≠ [] then
        refuse .resourceInUse "This credential is still used by a script repository."
          [("scriptRepos", .texts inUse)]
      else do
        let _ ← deleteCredential credentialId
        record principal "credential.deleted" "credential" credentialId none

end Credentials

/-! ## The target policy -/

namespace TargetPolicy

/-- The row of a policy. -/
def policyRow (principal : AccessClaims) (allowlist : List String) (id : Uuid) (version : Nat)
    (createdAt : Timestamp) : TargetPolicyRow where
  id := id
  organizationId := principal.organizationId
  version := version
  allowlist := allowlist
  createdBy := principal.userId
  createdAt := createdAt

/-- `replace`. -/
def replace (ucd : Unicode) (principal : AccessClaims) (allowlist : List String) :
    Transaction TargetPolicyRow :=
  match validateEntries ucd allowlist with
  | .error error => raise (.plimsollError error)
  | .ok () => do
      let id ← uuid4
      let row ← insertNextPolicy (policyRow principal allowlist id)
      record principal "target_policy.updated" "target_policy" row.id
        (some [("version", .number row.version), ("entries", .number allowlist.length)])
      return row

end TargetPolicy

/-! ## Performance tests -/

/-- `_response` of a test: its configuration has to pass `WorkloadSpec`. -/
def PerformanceTests.response (document : TestDocument) : Transaction TestDocument := do
  let _ ← modelValidate document.row.configuration
  return document

/-! ## Requests -/

/-- What the services that write are asked for. A pin is its second transaction. -/
inductive Operation where
  | createProject (body : ProjectCreate)
  | updateProject (id : Uuid) (body : ProjectUpdate)
  | archiveProject (id : Uuid)
  | createPool (body : PoolCreate)
  | updatePool (id : Uuid) (body : PoolUpdate)
  | archivePool (id : Uuid)
  | createCredential (body : CredentialCreate)
  | deleteCredential (id : Uuid)
  | createScriptRepo (projectId : Uuid) (body : ScriptRepoCreate)
  | updateScriptRepo (id : Uuid) (body : ScriptRepoUpdate)
  | archiveScriptRepo (id : Uuid)
  | createTest (projectId : Uuid) (body : TestCreate)
  | updateTest (id : Uuid) (body : TestUpdate)
  | archiveTest (id : Uuid)
  | replaceTargetPolicy (allowlist : List String)
  | pinVersion (repoId : Uuid) (planPath ref : String) (candidate : ScriptVersions.PinCandidate)

/-- An operation, and whom it comes from. -/
structure Request where
  principal : AccessClaims
  operation : Operation

/-- What a request is answered with. A response that shows the columns of its row is
the row. -/
inductive Answer where
  | project (row : Project)
  | pool (response : PoolResponse)
  | credential (row : CredentialSummary)
  | scriptRepo (row : ScriptRepo)
  | test (document : PerformanceTests.TestDocument)
  | policy (row : TargetPolicyRow)
  | version (status : Nat) (row : ScriptVersion)
  | noContent
deriving DecidableEq

/-- What the services are configured with. -/
structure Deployment where
  ucd : Unicode
  keys : Credentials.KeyProvider

/-- The transaction of a request. -/
def Request.perform (dep : Deployment) (request : Request) : Transaction Answer :=
  let principal := request.principal
  match request.operation with
  | .createProject body => do return .project (← Projects.create principal body)
  | .updateProject id body => do return .project (← Projects.update principal id body)
  | .archiveProject id => do
      Projects.archive principal id
      return .noContent
  | .createPool body => do return .pool (← Pools.response (some (← Pools.create principal body)))
  | .updatePool id body => do return .pool (← Pools.response (← Pools.update principal id body))
  | .archivePool id => do
      Pools.archive principal id
      return .noContent
  | .createCredential body => do return .credential (← Credentials.create dep.keys principal body)
  | .deleteCredential id => do
      Credentials.delete principal id
      return .noContent
  | .createScriptRepo projectId body => do
      return .scriptRepo (← ScriptRepos.create principal projectId body)
  | .updateScriptRepo id body => do return .scriptRepo (← ScriptRepos.update principal id body)
  | .archiveScriptRepo id => do
      ScriptRepos.archive principal id
      return .noContent
  | .createTest projectId body => do
      return .test (← PerformanceTests.response
        (← PerformanceTests.create principal projectId body))
  | .updateTest id body => do
      return .test (← PerformanceTests.response (← PerformanceTests.update principal id body))
  | .archiveTest id => do
      PerformanceTests.archive principal id
      return .noContent
  | .replaceTargetPolicy allowlist => do
      return .policy (← TargetPolicy.replace dep.ucd principal allowlist)
  | .pinVersion repoId planPath ref candidate => do
      let (status, row) ← ScriptVersions.pinVersion principal repoId planPath ref candidate
      return .version status row

/-- Requests to the services that write, in any number. -/
def services (dep : Deployment) : Sql.System postgres Raised Answer where
  Job := Request
  setting request e := Database.Setting.of (some request.principal.organizationId) e
  body := Request.perform dep

abbrev ServiceServer (dep : Deployment) := Sql.Server (services dep)

end Plimsoll
