import Plimsoll.ScriptRepos

/-!
Performance tests: one document across three tables, guarded by its version.
-/

namespace Plimsoll.PerformanceTests

open Python Contracts Transaction ScriptRepos
open Database (TestChanges)

/-- `TestDocument`. -/
structure TestDocument where
  row : PerformanceTest
  plans : List TestPlanSpec
  slaRules : List SlaRuleSpec
deriving DecidableEq

/-- `missing` of `_check_references`. -/
def missingRepos : List TestPlanSpec → Transaction (List String)
  | [] => return []
  | plan :: rest => do
      let found ← getScriptRepo plan.scriptRepoId
      let missing ← missingRepos rest
      return if found.isNone then uuidText plan.scriptRepoId :: missing else missing

/-- `problems` of `_check_references`. -/
def problems (configuration : WorkloadSpec) (pool : Option GeneratorPool) (missing : List String) :
    List (String × Detail) :=
  (if pool.isNone then [("generatorPoolId", .text (uuidText configuration.generatorPoolId))]
    else []) ++
  (if missing = [] then [] else [("scriptRepoIds", .texts missing)])

/-- `_check_references`. -/
def checkReferences (configuration : WorkloadSpec) (plans : List TestPlanSpec) :
    Transaction Unit := do
  let pool ← getPool configuration.generatorPoolId
  let missing ← missingRepos plans
  if problems configuration pool missing = [] then return ()
  else
    refuse .validationFailed "The test refers to resources that do not exist."
      (problems configuration pool missing)

/-- `_document`. -/
def document (row : PerformanceTest) : Transaction TestDocument := do
  let plans ← plansFor row.id
  let slaRules ← rulesFor row.id
  return { row, plans, slaRules }

/-- The insertions that replace a collection. -/
def insertAll {σ : Type} (insert : Uuid → σ → Transaction Unit) : List σ → Transaction Unit
  | [] => return ()
  | spec :: rest => do
      let id ← uuid4
      insert id spec
      insertAll insert rest

/-- A collection is replaced: all of it is deleted, and what is given inserted. -/
def replaceAll {σ : Type} (delete : Transaction Unit) (insert : Uuid → σ → Transaction Unit)
    (specs : List σ) : Transaction Unit := do
  delete
  insertAll insert specs

/-- `replace_plans`. -/
def replacePlans (org testId : Uuid) (plans : List TestPlanSpec) : Transaction Unit :=
  replaceAll (deletePlans testId)
    (fun id spec => insertPlan { id, organizationId := org, performanceTestId := testId, spec })
    plans

/-- `replace_sla_rules`. -/
def replaceSlaRules (org testId : Uuid) (rules : List SlaRuleSpec) : Transaction Unit :=
  replaceAll (deleteRules testId)
    (fun id spec => insertRule { id, organizationId := org, performanceTestId := testId, spec })
    rules

/-- `create`. -/
def create (principal : AccessClaims) (projectId : Uuid) (body : TestCreate) :
    Transaction TestDocument := do
  let _ ← requireProject projectId
  checkReferences body.configuration body.plans
  let id ← uuid4
  let row ← insertTest fun createdAt => {
    id, projectId, createdAt
    organizationId := principal.organizationId
    name := body.name
    description := body.description
    configuration := some body.configuration
    tags := body.tags
    createdBy := principal.userId
    updatedAt := createdAt }
  replacePlans principal.organizationId row.id body.plans
  replaceSlaRules principal.organizationId row.id body.slaRules
  record principal "test.created" "performance_test" row.id
    (some [("plans", .number body.plans.length), ("slaRules", .number body.slaRules.length)])
  document row

/-- `require`. -/
def require (testId : Uuid) : Transaction TestDocument := do
  match ← getTest testId with
  | none => refuse .notFound "No such performance test."
  | some row => document row

/-- A field of a body, where `None` stands for one that is left out as well. -/
def value? {α : Type} : Patch α → Option α
  | .value a => some a
  | _ => none

/-- `WorkloadSpec.model_validate(row.configuration)`. -/
def modelValidate : Option WorkloadSpec → Transaction WorkloadSpec
  | some configuration => return configuration
  | none => raise .valueError

/-- `body.configuration or WorkloadSpec.model_validate(current.row.configuration)`. -/
def configurationOr (body : TestUpdate) (current : TestDocument) : Transaction WorkloadSpec :=
  match value? body.configuration with
  | some configuration => return configuration
  | none => modelValidate current.row.configuration

/-- The check of `update` that what the body names, or keeps, exists. -/
def checkUpdate (body : TestUpdate) (current : TestDocument) : Transaction Unit :=
  if (value? body.configuration).isSome ∨ (value? body.plans).isSome then do
    let configuration ← configurationOr body current
    checkReferences configuration ((value? body.plans).getD current.plans)
  else return ()

/-- `changes`, the columns. -/
def changedColumns (body : TestUpdate) : List String :=
  (if given body.name then ["name"] else []) ++
    (if given body.description then ["description"] else []) ++
      (if given body.configuration then ["configuration"] else []) ++
        (if given body.tags then ["tags"] else [])

/-- `changes`, the values. -/
def changesOf (body : TestUpdate) : TestChanges where
  name := body.name
  description := body.description
  configuration := body.configuration
  tags := body.tags

/-- The refusal of an update whose version is not the current one. -/
def conflict (version : Int) : PlimsollError where
  code := .conflict
  message := "This test was modified by someone else; reload it and reapply your change."
  details := [("expectedVersion", .number version)]

/-- `if value is not None: action(value)`. -/
def whenGiven {σ : Type} (value : Option σ) (action : σ → Transaction Unit) : Transaction Unit :=
  match value with
  | none => return ()
  | some value => action value

/-- What `update` does once its guarded `UPDATE` has found the row. -/
def finishUpdate (principal : AccessClaims) (testId : Uuid) (body : TestUpdate)
    (row : PerformanceTest) : Transaction TestDocument := do
  whenGiven (value? body.plans) (replacePlans principal.organizationId testId)
  whenGiven (value? body.slaRules) (replaceSlaRules principal.organizationId testId)
  record principal "test.updated" "performance_test" testId
    (some [("fields", .texts (sorted (changedColumns body))), ("version", .number row.version)])
  document row

/-- `update`. -/
def update (principal : AccessClaims) (testId : Uuid) (body : TestUpdate) :
    Transaction TestDocument := do
  let current ← require testId
  checkUpdate body current
  match ← updateDocument testId body.version (changesOf body) with
  | none => raise (.plimsollError (conflict body.version))
  | some row => finishUpdate principal testId body row

/-- `archive`. -/
def archive (principal : AccessClaims) (testId : Uuid) : Transaction Unit := do
  let _ ← require testId
  if ← archiveTest testId then
    record principal "test.deleted" "performance_test" testId none
  else return ()

end Plimsoll.PerformanceTests
