import Plimsoll.PerformanceTests.Documents
import Plimsoll.Services
import Plimsoll.Sql.Driver

/-!
The partial updates: of projects, generator pools, script repositories and
performance tests.

Every field of an update can be left out or be `null`, whatever its column holds; and
what the columns hold is less than what the bodies do. Below is what an update is for,
and the bodies that come to it.
-/

namespace Plimsoll.Patches

open Python Contracts Transaction
open Database (Setting Statement ProjectChanges PoolChanges ScriptRepoChanges TestChanges Keyed)
open PerformanceTests (planSpecs ruleSpecs documentIn value?)

/-! ## Columns -/

/-- A text column holds no null character. -/
def text (value : String) : Bool := value.toList.all fun c => c ≠ '\u0000'

/-- `TEXT[]`. -/
def texts (values : List String) : Bool := values.all text

/-- `INTEGER`. -/
def integer (n : Int) : Bool := (Database.integer n).isOk

/-- What is bound for a field that is given. -/
def binds {α : Type} (holds : α → Bool) : Patch α → Bool
  | .value a => holds a
  | _ => true

def storableProject (changes : ProjectChanges) : Bool :=
  binds text changes.name && binds text changes.description && binds text changes.environment &&
    binds texts changes.tags

def storablePool (jsonb : Json → Bool) (changes : PoolChanges) : Bool :=
  binds text changes.name && binds jsonb changes.config && binds text changes.region &&
    binds integer changes.maxGenerators && binds integer changes.maxVusPerGenerator

def storableScriptRepo (changes : ScriptRepoChanges) : Bool :=
  binds text changes.name && binds text changes.planPath && binds text changes.defaultRef

def storableTest (version : Int) (changes : TestChanges) : Bool :=
  integer version && binds text changes.name && binds text changes.description &&
    binds texts changes.tags

def storablePlan (spec : TestPlanSpec) : Bool :=
  spec.pinnedRef.all text && integer spec.virtualUsers && integer spec.executionOrder

/-- An entity is a `VARCHAR(255)`; its model has no such bound. -/
def storableRule (spec : SlaRuleSpec) : Bool :=
  text spec.name && spec.entity.all (fun entity => text entity && entity.length ≤ 255) &&
    spec.unit.all text

/-- What the columns of the four resources hold; `jsonb` is what a `JSONB` column
accepts. -/
def accepts (jsonb : Json → Bool) : (s : Statement) → s.Answer → Bool
  | .insertProject _, .ok row =>
      text row.name && row.description.all text && row.environment.all text && texts row.tags
  | .updateProject _ changes, _ => storableProject changes
  | .insertPool _, .ok row =>
      text row.name && row.config.all jsonb && row.region.all text && integer row.maxGenerators &&
        integer row.maxVusPerGenerator
  | .updatePool _ changes, _ => storablePool jsonb changes
  | .insertScriptRepo _, .ok row =>
      text row.name && text row.repoUrl && text row.planPath && text row.defaultRef
  | .updateScriptRepo _ changes, _ => storableScriptRepo changes
  | .insertTest _, .ok row => text row.name && row.description.all text && texts row.tags
  | .updateDocument _ expectedVersion changes, .ok (some row) =>
      storableTest expectedVersion changes && integer row.version
  | .updateDocument _ expectedVersion changes, _ => storableTest expectedVersion changes
  | .insertPlan row, _ => storablePlan row.spec
  | .insertRule row, _ => storableRule row.spec
  | _, _ => true

/-- The driver; what a column does not hold is a `DataError`. -/
def driver (jsonb : Json → Bool) : Sql.Driver postgres Raised where
  accepts := accepts jsonb
  refusal := .dataError

/-- A request on its session, behind the driver. -/
def handle (dep : Deployment) (jsonb : Json → Bool) (request : Request) : Action World Answer :=
  sessionForOrg (some request.principal.organizationId)
    ((Request.perform dep request).through (driver jsonb))

/-! ## Fields -/

/-- A column that is not nullable, behind an update. -/
def Takes {α : Type} (patch : Patch α) (old new : α) : Prop :=
  match patch with
  | .unset => new = old
  | .null => False
  | .value given => new = given

/-- A nullable column, behind an update. -/
def TakesNullable {α : Type} (patch : Patch α) (old new : Option α) : Prop :=
  match patch with
  | .unset => new = old
  | .null => new = none
  | .value given => new = some given

/-- A project whose present fields took their values. -/
structure ProjectPatched (body : ProjectUpdate) (old new : Project) : Prop where
  name : Takes body.name old.name new.name
  description : TakesNullable body.description old.description new.description
  environment : TakesNullable body.environment old.environment new.environment
  tags : Takes body.tags old.tags new.tags
  others : new = { old with
    name := new.name
    description := new.description
    environment := new.environment
    tags := new.tags
    updatedAt := new.updatedAt }

/-- A pool whose present fields took their values. -/
structure PoolPatched (body : PoolUpdate) (old new : GeneratorPool) : Prop where
  name : Takes body.name old.name new.name
  config : TakesNullable body.config old.config new.config
  region : TakesNullable body.region old.region new.region
  maxGenerators : Takes body.maxGenerators old.maxGenerators new.maxGenerators
  maxVusPerGenerator : Takes body.maxVusPerGenerator old.maxVusPerGenerator new.maxVusPerGenerator
  others : new = { old with
    name := new.name
    config := new.config
    region := new.region
    maxGenerators := new.maxGenerators
    maxVusPerGenerator := new.maxVusPerGenerator
    updatedAt := new.updatedAt }

/-- A script repository whose present fields took their values. -/
structure ScriptRepoPatched (body : ScriptRepoUpdate) (old new : ScriptRepo) : Prop where
  name : Takes body.name old.name new.name
  planPath : Takes body.planPath old.planPath new.planPath
  defaultRef : Takes body.defaultRef old.defaultRef new.defaultRef
  credentialId : TakesNullable body.credentialId old.credentialId new.credentialId
  others : new = { old with
    name := new.name
    planPath := new.planPath
    defaultRef := new.defaultRef
    credentialId := new.credentialId
    updatedAt := new.updatedAt }

/-- A test whose present fields took their values. -/
structure TestPatched (body : TestUpdate) (old new : PerformanceTest) : Prop where
  name : Takes body.name old.name new.name
  description : TakesNullable body.description old.description new.description
  configuration : TakesNullable body.configuration old.configuration new.configuration
  tags : Takes body.tags old.tags new.tags
  version : new.version = old.version + 1
  others : new = { old with
    name := new.name
    description := new.description
    configuration := new.configuration
    tags := new.tags
    version := new.version
    updatedAt := new.updatedAt }

/-- A collection of a test behind an update: `null` leaves it alone, and the
collections of the other tests stay as they are. -/
def Replaced {σ ρ : Type} (patch : Patch (List σ)) (specs : Uuid → Uuid → Dict Uuid ρ → List σ)
    (org testId : Uuid) (before after : Dict Uuid ρ) : Prop :=
  specs org testId after = (value? patch).getD (specs org testId before) ∧
    ∀ org' testId', ¬ (org' = org ∧ testId' = testId) →
      specs org' testId' after = specs org' testId' before

/-! ## What creation demands -/

section

variable (d : Database)

/-- A row of the organisation. -/
def Has {ρ : Type} [Tenant ρ] (org : Uuid) (table : Dict Uuid ρ) (id : Uuid) : Prop :=
  ∃ row, table.get? id = some row ∧ Tenant.organizationId row = org

/-- A project that `ProjectCreate` accepts, under a key of its own. -/
def ProjectCreatable (row : Project) : Prop :=
  (∃ body : ProjectCreate, row.name = body.name ∧ row.projectKey = body.projectKey ∧
    row.description = body.description ∧ row.environment = body.environment ∧
      row.tags = body.tags) ∧
  ∀ id other, d.projects.get? id = some other → other.organizationId = row.organizationId →
    other.projectKey = row.projectKey → id = row.id

/-- A pool that `PoolCreate` accepts, under a name of its own. -/
def PoolCreatable (row : GeneratorPool) : Prop :=
  (∃ body : PoolCreate, row.name = body.name ∧ row.runtime = body.runtime ∧
    row.config = some body.config ∧ row.region = body.region ∧
      row.maxGenerators = body.maxGenerators ∧ row.maxVusPerGenerator = body.maxVusPerGenerator) ∧
  ∀ id other, d.pools.get? id = some other → other.organizationId = row.organizationId →
    other.name = row.name → id = row.id

/-- A script repository that `ScriptRepoCreate` accepts, of a project and with a
credential that are there. -/
def ScriptRepoCreatable (row : ScriptRepo) : Prop :=
  (∃ body : ScriptRepoCreate, row.name = body.name ∧ row.repoUrl = body.repoUrl ∧
    row.planPath = body.planPath ∧ row.defaultRef = body.defaultRef ∧
      row.credentialId = body.credentialId) ∧
  Has row.organizationId d.projects row.projectId ∧
    ∀ id ∈ row.credentialId, Has row.organizationId d.credentials id

/-- A test that `TestCreate` accepts with its plans and rules, and what these refer to
is there. -/
def TestCreatable (row : PerformanceTest) : Prop :=
  (∃ body : TestCreate, row.name = body.name ∧ row.description = body.description ∧
    row.configuration = some body.configuration ∧ row.tags = body.tags ∧
      planSpecs row.organizationId row.id d.plans = body.plans ∧
        ruleSpecs row.organizationId row.id d.rules = body.slaRules) ∧
  Has row.organizationId d.projects row.projectId ∧
    (∀ configuration ∈ row.configuration,
      Has row.organizationId d.pools configuration.generatorPoolId) ∧
    ∀ plan ∈ planSpecs row.organizationId row.id d.plans,
      Has row.organizationId d.scriptRepos plan.scriptRepoId

end

/-! ## Safe updates -/

/-- The operation is a partial update. -/
def partialUpdate : Operation → Bool
  | .updateProject _ _ => true
  | .updatePool _ _ => true
  | .updateScriptRepo _ _ => true
  | .updateTest _ _ => true
  | _ => false

/-- What a partial update that is answered has made of the database: one row is another,
which could have been created so and is shown, and nothing else is but an audit row. -/
def Committed (org : Uuid) (d d' : Database) (answer : Answer) : Operation → Prop
  | .updateProject id body => ∃ old new auditLogs,
      d.projects.get? id = some old ∧ old.organizationId = org ∧ ProjectPatched body old new ∧
        d' = { d with projects := d.projects.set id new, auditLogs := auditLogs } ∧
          ProjectCreatable d' new ∧ answer = .project new
  | .updatePool id body => ∃ old new auditLogs response,
      d.pools.get? id = some old ∧ old.organizationId = org ∧ PoolPatched body old new ∧
        d' = { d with pools := d.pools.set id new, auditLogs := auditLogs } ∧
          PoolCreatable d' new ∧ Pools.response (some new) = pure response ∧
            answer = .pool response
  | .updateScriptRepo id body => ∃ old new auditLogs,
      d.scriptRepos.get? id = some old ∧ old.organizationId = org ∧
        ScriptRepoPatched body old new ∧
          d' = { d with scriptRepos := d.scriptRepos.set id new, auditLogs := auditLogs } ∧
            ScriptRepoCreatable d' new ∧ answer = .scriptRepo new
  | .updateTest id body => ∃ old new plans rules auditLogs,
      d.tests.get? id = some old ∧ old.organizationId = org ∧ TestPatched body old new ∧
        Replaced body.plans planSpecs org id d.plans plans ∧
          Replaced body.slaRules ruleSpecs org id d.rules rules ∧
            d' = { d with
              tests := d.tests.set id new
              plans := plans
              rules := rules
              auditLogs := auditLogs } ∧
              TestCreatable d' new ∧ PerformanceTests.response (documentIn org d' new) =
                pure (documentIn org d' new) ∧ answer = .test (documentIn org d' new)
  | _ => False

/-- A partial update is answered and has committed what it was given, or it is refused
and has left the database as it was. -/
def Safe (org : Uuid) (operation : Operation) (d : Database) :
    Except Raised Answer × World → Prop
  | (.ok answer, w) => Committed org d w.database answer operation
  | (.error exc, w) => (∃ error, exc = .plimsollError error) ∧ w.database = d

/-! ## The condition -/

/-- What the body of an update of a test refers to is there. -/
def Resolves (org : Uuid) (d : Database) (body : TestUpdate) : Prop :=
  (∀ configuration, body.configuration = .value configuration →
    Has org d.pools configuration.generatorPoolId) ∧
  ∀ plans, body.plans = .value plans → ∀ plan ∈ plans, Has org d.scriptRepos plan.scriptRepoId

/-- Where an update comes to its row: no column that is not nullable is given `null`, the
columns hold what they are given, a name is taken by no other pool, a plan path stays
inside the repository, and the version of a test can be counted on. -/
def Meets (jsonb : Json → Bool) (org : Uuid) (d : Database) : Operation → Prop
  | .updateProject id body => Has org d.projects id →
      body.name ≠ .null ∧ body.tags ≠ .null ∧ storableProject (Projects.changesOf body) = true
  | .updatePool id body => Has org d.pools id →
      body.name ≠ .null ∧ body.config ≠ .null ∧ body.maxGenerators ≠ .null ∧
        body.maxVusPerGenerator ≠ .null ∧ storablePool jsonb (Pools.changesOf body) = true ∧
          ∀ name, body.name = .value name → ∀ other row, d.pools.get? other = some row →
            row.organizationId = org → row.name = name → other = id
  | .updateScriptRepo id body => Has org d.scriptRepos id →
      (∀ credential, body.credentialId = .value credential → Has org d.credentials credential) →
        body.name ≠ .null ∧ body.planPath ≠ .null ∧ body.defaultRef ≠ .null ∧
          storableScriptRepo (ScriptRepos.changesOf body) = true ∧
            ∀ planPath, body.planPath = .value planPath →
              insideTheRepository planPath = .ok planPath
  | .updateTest id body => ∀ row, d.tests.get? id = some row → row.organizationId = org →
      Resolves org d body →
        storableTest body.version (PerformanceTests.changesOf body) = true ∧
          (row.version = body.version → integer (row.version + 1) = true ∧
            body.name ≠ .null ∧ body.configuration ≠ .null ∧ body.tags ≠ .null ∧
              (∀ plans, body.plans = .value plans → ∀ plan ∈ plans, storablePlan plan = true) ∧
                ∀ rules, body.slaRules = .value rules → ∀ rule ∈ rules, storableRule rule = true)
  | _ => True

/-! ## Runs -/

/-- What is given of a collection. -/
def count {σ : Type} (patch : Patch (List σ)) : Nat := ((value? patch).getD []).length

/-- The identifiers that an operation draws, at most. -/
def draws : Operation → Nat
  | .createTest _ body => body.plans.length + body.slaRules.length + 2
  | .updateTest _ body => count body.plans + count body.slaRules + 1
  | _ => 2

/-- The next identifiers that the interpreter draws are new: in the tables, and among
each other. -/
structure Fresh (e : Environment) (d : Database) (n : Nat) : Prop where
  distinct : ∀ i j, i < j → j < n → e.uuids (e.uuidsDrawn + i) ≠ e.uuids (e.uuidsDrawn + j)
  new : ∀ i < n, d.auditLogs.get? (e.uuids (e.uuidsDrawn + i)) = none ∧
    d.plans.get? (e.uuids (e.uuidsDrawn + i)) = none ∧
      d.rules.get? (e.uuids (e.uuidsDrawn + i)) = none

/-- A database before the first request: there are users, and none of the resources. -/
structure Initial (d : Database) : Prop where
  projects : d.projects = Dict.empty
  pools : d.pools = Dict.empty
  scriptRepos : d.scriptRepos = Dict.empty
  tests : d.tests = Dict.empty
  plans : d.plans = Dict.empty
  rules : d.rules = Dict.empty

/-- What requests lead to, one after the other, each under a condition on its
organisation, on the database that it finds, and on what it asks for. -/
inductive Reached (dep : Deployment) (jsonb : Json → Bool)
    (condition : Uuid → Database → Operation → Prop) (d₀ : Database) : Database → Prop
  | initial : Reached dep jsonb condition d₀ d₀
  | request {d : Database} {e : Environment} {request : Request}
      (reached : Reached dep jsonb condition d₀ d) (fresh : Fresh e d (draws request.operation))
      (met : condition request.principal.organizationId d request.operation) :
      Reached dep jsonb condition d₀ (handle dep jsonb request ⟨d, e⟩).2.database

end Plimsoll.Patches
