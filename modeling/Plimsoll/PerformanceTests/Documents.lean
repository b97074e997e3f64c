import Mathlib.Data.Multiset.Defs
import Plimsoll.Database.Locked
import Plimsoll.Database.Tables
import Plimsoll.PerformanceTests

/-!
The document of a performance test, and what one transaction makes of it.
-/

namespace Plimsoll.PerformanceTests

open Python Contracts Transaction
open Database (Setting Statement rowsOf Keyed Appended)

/-! ## Documents -/

/-- What a test is about: its row without its status and its times, and its plans
and rules in no order. -/
structure Document where
  name : String
  description : Option String
  configuration : Option WorkloadSpec
  tags : List String
  plans : Multiset TestPlanSpec
  slaRules : Multiset SlaRuleSpec
deriving DecidableEq

/-- A value that a body gives, or the old one. -/
def inherited {α : Type} (old : α) (patch : Patch α) : α := (value? patch).getD old

/-- A document with an update applied: what the body leaves out is inherited, what
it gives replaces the old as a whole. -/
def Document.patch (document : Document) (body : TestUpdate) : Document where
  name := inherited document.name body.name
  description := Database.assignedNullable document.description body.description
  configuration := Database.assignedNullable document.configuration body.configuration
  tags := inherited document.tags body.tags
  plans := match value? body.plans with
    | none => document.plans
    | some plans => plans
  slaRules := match value? body.slaRules with
    | none => document.slaRules
    | some rules => rules

/-- The plans of a test, in the order in which they are stored. -/
def planSpecs (org testId : Uuid) (plans : Dict Uuid PerformanceTestPlan) : List TestPlanSpec :=
  ((rowsOf org plans).filter fun row => row.performanceTestId = testId).map PerformanceTestPlan.spec

/-- The rules of a test, in the order in which they are stored. -/
def ruleSpecs (org testId : Uuid) (rules : Dict Uuid SlaRule) : List SlaRuleSpec :=
  ((rowsOf org rules).filter fun row => row.performanceTestId = testId).map SlaRule.spec

/-- A row with what belongs to it. -/
def documentOf (org : Uuid) (d : Database) (row : PerformanceTest) : Document where
  name := row.name
  description := row.description
  configuration := row.configuration
  tags := row.tags
  plans := planSpecs org row.id d.plans
  slaRules := ruleSpecs org row.id d.rules

/-- What `_document` reads for a row. -/
def documentIn (org : Uuid) (d : Database) (row : PerformanceTest) : TestDocument where
  row := row
  plans := sortedBy (fun a b => a.executionOrder ≤ b.executionOrder) (planSpecs org row.id d.plans)
  slaRules := sortedBy (fun a b => a.name ≤ b.name) (ruleSpecs org row.id d.rules)

theorem plansFor_eq {org testId : Uuid} {c : Setting} {d : Database} (bound : c.org = some org) :
    Database.execute (.plansFor testId) c d =
      (sortedBy (fun a b => a.executionOrder ≤ b.executionOrder) (planSpecs org testId d.plans),
        []) := by
  rw [Database.execute, Database.visible_eq bound]
  rfl

theorem rulesFor_eq {org testId : Uuid} {c : Setting} {d : Database} (bound : c.org = some org) :
    Database.execute (.rulesFor testId) c d =
      (sortedBy (fun a b => a.name ≤ b.name) (ruleSpecs org testId d.rules), []) := by
  rw [Database.execute, Database.visible_eq bound]
  rfl

/-- Plans that are deleted one after the other. -/
theorem applyAll_deletePlan (rows : List PerformanceTestPlan) (d : Database) :
    postgres.applyAll (rows.map fun row => .deletePlan row.id) d =
      { d with plans := Database.without d.plans (rows.map PerformanceTestPlan.id) } := by
  induction rows generalizing d with
  | nil => rfl
  | cons row rows ih => exact ih _

/-- Rules that are deleted one after the other. -/
theorem applyAll_deleteRule (rows : List SlaRule) (d : Database) :
    postgres.applyAll (rows.map fun row => .deleteRule row.id) d =
      { d with rules := Database.without d.rules (rows.map SlaRule.id) } := by
  induction rows generalizing d with
  | nil => rfl
  | cons row rows ih => exact ih _

/-! ## Requests -/

/-- A principal of an organisation. -/
structure Member (org : Uuid) where
  claims : AccessClaims
  ofOrganization : claims.organizationId = org
deriving DecidableEq

/-- A request for one test. -/
inductive Job (org : Uuid) where
  | update (member : Member org) (body : TestUpdate)
  | archive (member : Member org)
  | read (member : Member org)
deriving DecidableEq

def Job.member {org : Uuid} : Job org → Member org
  | .update member _ => member
  | .archive member => member
  | .read member => member

/-- The body of an update. -/
def Job.body? {org : Uuid} : Job org → Option TestUpdate
  | .update _ body => some body
  | _ => none

/-- The transaction of a request; an archive answers with nothing. -/
def Job.body {org : Uuid} (testId : Uuid) : Job org → Transaction (Option TestDocument)
  | .update member body => do
      let document ← PerformanceTests.update member.claims testId body
      return some document
  | .archive member => do
      PerformanceTests.archive member.claims testId
      return none
  | .read _ => do
      let document ← require testId
      return some document

variable {org testId : Uuid}

/-- Requests for one test, in any number. -/
def requests (org testId : Uuid) : Sql.System postgres Raised (Option TestDocument) where
  Job := Job org
  setting job e := Setting.of (some job.member.claims.organizationId) e
  body := Job.body testId

abbrev TestServer (org testId : Uuid) := Sql.Server (requests org testId)

/-! ## What a test rests on -/

/-- A generator pool of the organisation. -/
def HasPool (org : Uuid) (d : Database) (id : Uuid) : Prop :=
  ∃ pool, d.pools.get? id = some pool ∧ pool.organizationId = org

/-- A script repository of the organisation. -/
def HasRepo (org : Uuid) (d : Database) (id : Uuid) : Prop :=
  ∃ repo, d.scriptRepos.get? id = some repo ∧ repo.organizationId = org

/-- The test is there, with a configuration, and what it refers to is there. -/
structure Sound (org testId : Uuid) (d : Database) : Prop where
  row : ∃ row configuration, d.tests.get? testId = some row ∧ row.id = testId ∧
    row.organizationId = org ∧ row.configuration = some configuration ∧
      HasPool org d configuration.generatorPoolId
  repos : ∀ spec ∈ planSpecs org testId d.plans, HasRepo org d spec.scriptRepoId
  plansKeyed : Keyed PerformanceTestPlan.id d.plans
  rulesKeyed : Keyed SlaRule.id d.rules

/-- No field of the body is `null`, and what it refers to is there. -/
structure Clean (org : Uuid) (d : Database) (body : TestUpdate) : Prop where
  name : body.name ≠ .null
  description : body.description ≠ .null
  configuration : body.configuration ≠ .null
  tags : body.tags ≠ .null
  plans : body.plans ≠ .null
  slaRules : body.slaRules ≠ .null
  pool : ∀ configuration, body.configuration = .value configuration →
    HasPool org d configuration.generatorPoolId
  repos : ∀ plans, body.plans = .value plans → ∀ spec ∈ plans, HasRepo org d spec.scriptRepoId

/-- The test is archived. -/
def Archived (testId : Uuid) (d : Database) : Prop :=
  ∃ row, d.tests.get? testId = some row ∧ row.status = .archived

/-- How requests change the database: what tests refer to stays, and what is
archived stays so. -/
structure Evolves (org testId : Uuid) (d d' : Database) : Prop where
  pools : d'.pools = d.pools
  scriptRepos : d'.scriptRepos = d.scriptRepos
  archived : Archived testId d → Archived testId d'
  sound : Sound org testId d → Sound org testId d'

theorem Evolves.refl (d : Database) : Evolves org testId d d :=
  ⟨rfl, rfl, fun archived => archived, fun sound => sound⟩

theorem Evolves.trans {d₁ d₂ d₃ : Database} (first : Evolves org testId d₁ d₂)
    (second : Evolves org testId d₂ d₃) : Evolves org testId d₁ d₃ where
  pools := second.pools.trans first.pools
  scriptRepos := second.scriptRepos.trans first.scriptRepos
  archived archived := second.archived (first.archived archived)
  sound sound := second.sound (first.sound sound)

theorem HasPool.evolve {d d' : Database} {id : Uuid} (has : HasPool org d id)
    (evolves : Evolves org testId d d') : HasPool org d' id := by
  rw [HasPool, evolves.pools]
  exact has

theorem HasRepo.evolve {d d' : Database} {id : Uuid} (has : HasRepo org d id)
    (evolves : Evolves org testId d d') : HasRepo org d' id := by
  rw [HasRepo, evolves.scriptRepos]
  exact has

/-! ## Effects -/

/-- A row with an update applied at a time. -/
def patchedRow (row : PerformanceTest) (body : TestUpdate) (now : Timestamp) : PerformanceTest :=
  { row with
    name := inherited row.name body.name
    description := Database.assignedNullable row.description body.description
    configuration := Database.assignedNullable row.configuration body.configuration
    tags := inherited row.tags body.tags
    version := row.version + 1
    updatedAt := now }

/-- The plans behind an update. -/
def PlansAfter (org testId : Uuid) (body : TestUpdate) (before after : Dict Uuid PerformanceTestPlan) :
    Prop :=
  match value? body.plans with
  | none => after = before
  | some plans => planSpecs org testId after = plans ∧ Keyed PerformanceTestPlan.id after

/-- The rules behind an update. -/
def RulesAfter (org testId : Uuid) (body : TestUpdate) (before after : Dict Uuid SlaRule) : Prop :=
  match value? body.slaRules with
  | none => after = before
  | some rules => ruleSpecs org testId after = rules ∧ Keyed SlaRule.id after

/-- The audit row of an update. -/
def updateAudit (claims : AccessClaims) (testId : Uuid) (body : TestUpdate) (version : Int)
    (id : Uuid) : AuditLog where
  id := id
  organizationId := claims.organizationId
  userId := claims.userId
  action := "test.updated"
  entityType := "performance_test"
  entityId := testId
  metadata := some [("fields", .texts (sorted (changedColumns body))), ("version", .number version)]

/-- The audit row of an archive. -/
def archiveAudit (claims : AccessClaims) (testId id : Uuid) : AuditLog where
  id := id
  organizationId := claims.organizationId
  userId := claims.userId
  action := "test.deleted"
  entityType := "performance_test"
  entityId := testId
  metadata := none

/-- What a request that returns makes of the database, and what it answers. -/
inductive Effect (org testId : Uuid) : Job org → Option TestDocument → Database → Database → Prop
  | update {d : Database} {member : Member org} {body : TestUpdate} {row : PerformanceTest}
      {now : Timestamp} {plans : Dict Uuid PerformanceTestPlan} {rules : Dict Uuid SlaRule}
      {auditId : Uuid} (clean : Clean org d body) (found : d.tests.get? testId = some row)
      (current : row.version = body.version)
      (plansAfter : PlansAfter org testId body d.plans plans)
      (rulesAfter : RulesAfter org testId body d.rules rules)
      (audited : d.auditLogs.get? auditId = none) :
      Effect org testId (.update member body)
        (some (documentIn org { d with plans, rules } (patchedRow row body now))) d
        { d with
          tests := d.tests.set testId (patchedRow row body now)
          plans := plans
          rules := rules
          auditLogs := d.auditLogs.set auditId
            (updateAudit member.claims testId body (row.version + 1) auditId) }
  | archive {d : Database} {member : Member org} {row : PerformanceTest} {now : Timestamp}
      {auditId : Uuid} (found : d.tests.get? testId = some row) (live : row.status = .draft)
      (audited : d.auditLogs.get? auditId = none) :
      Effect org testId (.archive member) none d
        { d with
          tests := d.tests.set testId { row with status := .archived, updatedAt := now }
          auditLogs := d.auditLogs.set auditId (archiveAudit member.claims testId auditId) }
  | archived {d : Database} {member : Member org} (archived : Archived testId d) :
      Effect org testId (.archive member) none d d
  | read {d : Database} {member : Member org} {answer : Option TestDocument} :
      Effect org testId (.read member) answer d d

end Plimsoll.PerformanceTests
