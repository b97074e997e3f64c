import Plimsoll.Database
import Plimsoll.Python.Sorted

/-!
Script repositories: the operations that write them, each in the transaction of
its request.
-/

namespace Plimsoll.ScriptRepos

open Python Contracts Transaction
open Database (ScriptRepoChanges)

/-- `str(uuid)`. -/
def uuidText (id : Uuid) : String :=
  let digits := Nat.toDigits 16 id.toNat
  let padded := List.replicate (32 - digits.length) '0' ++ digits
  let group (start length : Nat) : String := String.ofList ((padded.drop start).take length)
  join "-" [group 0 8, group 8 4, group 12 4, group 16 4, group 20 12]

/-- `PlimsollError(code, message, details)`. -/
def refuse {α : Type} (code : ErrorCode) (message : String) (details : List (String × Detail) := []) :
    Transaction α :=
  raise (.plimsollError { code, message, details })

/-- `audit.record`. -/
def record (principal : AccessClaims) (action entityType : String) (entityId : Uuid)
    (metadata : Option (List (String × Detail))) : Transaction Unit := do
  let id ← uuid4
  insertAudit {
    id, action, entityType, entityId, metadata
    organizationId := principal.organizationId
    userId := principal.userId }

/-- `projects.require`. -/
def requireProject (projectId : Uuid) : Transaction Project := do
  match ← getProject projectId with
  | none => refuse .notFound "No such project."
  | some project => return project

/-- `script_repos.require`. -/
def require (repoId : Uuid) : Transaction ScriptRepo := do
  match ← getScriptRepo repoId with
  | none => refuse .notFound "No such script repository."
  | some row => return row

/-- The check that a credential exists, where one is named. -/
def requireCredential (credentialId : Option Uuid) (details : Uuid → List (String × Detail)) :
    Transaction Unit :=
  match credentialId with
  | none => return ()
  | some credentialId => do
      match ← getCredential credentialId with
      | none => refuse .validationFailed "No such credential." (details credentialId)
      | some _ => return ()

/-- `create`. -/
def create (principal : AccessClaims) (projectId : Uuid) (body : ScriptRepoCreate) :
    Transaction ScriptRepo := do
  let _ ← requireProject projectId
  requireCredential body.credentialId fun id => [("credentialId", .text (uuidText id))]
  let id ← uuid4
  let row ← insertScriptRepo fun createdAt => {
    id, projectId, createdAt
    organizationId := principal.organizationId
    name := body.name
    repoUrl := body.repoUrl
    planPath := body.planPath
    defaultRef := body.defaultRef
    credentialId := body.credentialId
    createdBy := principal.userId
    updatedAt := createdAt }
  record principal "script_repo.created" "script_repo" row.id
    (some [("repoUrl", .text body.repoUrl), ("planPath", .text body.planPath)])
  return row

/-- A field is part of the request. -/
def given {α : Type} : Patch α → Bool
  | .unset => false
  | _ => true

/-- `changes`, the columns. -/
def changedColumns (body : ScriptRepoUpdate) : List String :=
  (if given body.name then ["name"] else []) ++
    (if given body.planPath then ["plan_path"] else []) ++
      (if given body.defaultRef then ["default_ref"] else []) ++
        (if given body.credentialId then ["credential_id"] else [])

/-- `changes`, the values. -/
def changesOf (body : ScriptRepoUpdate) : ScriptRepoChanges where
  name := body.name
  planPath := body.planPath
  defaultRef := body.defaultRef
  credentialId := body.credentialId

/-- `changes.get("credential_id")`. -/
def newCredential (body : ScriptRepoUpdate) : Option Uuid :=
  match body.credentialId with
  | .value id => some id
  | _ => none

/-- `update`, with what the endpoint makes of its row. -/
def update (principal : AccessClaims) (repoId : Uuid) (body : ScriptRepoUpdate) :
    Transaction ScriptRepo := do
  let current ← require repoId
  if changedColumns body = [] then return current
  else do
    requireCredential (newCredential body) fun _ => []
    let row ← updateScriptRepo repoId (changesOf body)
    record principal "script_repo.updated" "script_repo" repoId
      (some [("fields", .texts (sorted (changedColumns body)))])
    match row with
    | none => raise .attributeError
    | some row => return row

/-- `archive`. -/
def archive (principal : AccessClaims) (repoId : Uuid) : Transaction Unit := do
  let _ ← require repoId
  if ← archiveScriptRepo repoId then
    record principal "script_repo.deleted" "script_repo" repoId none
  else return ()

end Plimsoll.ScriptRepos
