import Plimsoll.PerformanceTests.Guarded

/-!
Updates of one test that run side by side: none is lost.
-/

namespace Plimsoll.PerformanceTests

open Python Contracts
open Database (Appended)

variable {org testId : Uuid}

/-- The bodies of the updates among requests that returned. -/
def updates (returned : List (Job org × Option TestDocument)) : List TestUpdate :=
  returned.filterMap fun r => r.1.body?

/-- A request to archive. -/
def Job.archives : Job org → Bool
  | .archive _ => true
  | _ => false

/-- What requests that returned have made of a test: `row₀` was its row in `d₀`, `row`
is its row in `d`. -/
structure Law (org testId : Uuid) (d₀ : Database) (row₀ : PerformanceTest)
    (returned : List (Job org × Option TestDocument)) (d : Database) (row : PerformanceTest)
    (trail : List AuditLog) : Prop where
  found : d.tests.get? testId = some row
  named : row.id = testId
  /-- The updates expected the versions from that of `row₀` on, one each. -/
  expected : (updates returned).map TestUpdate.version =
    (List.range (updates returned).length).map fun (i : Nat) => row₀.version + i
  version : row.version = row₀.version + (updates returned).length
  document : documentOf org d row =
    (updates returned).foldl Document.patch (documentOf org d₀ row₀)
  status : row.status = if returned.any fun r => r.1.archives then .archived else row₀.status
  /-- The audit log has grown by these rows. -/
  audited : Appended AuditLog.id trail d₀.auditLogs d.auditLogs
  updated : (trail.filter fun entry => entry.action = "test.updated").map AuditLog.metadata =
    (updates returned).map fun body => some [("fields", .texts (sorted (changedColumns body))),
      ("version", .number (body.version + 1))]
  deleted : (trail.filter fun entry => entry.action = "test.deleted").length =
    if row.status = row₀.status then 0 else 1

/-- Every committed update has been applied, once and in the order of the versions, and
every update that failed has failed with a conflict. -/
def NoLostUpdate (d₀ : Database) (s : TestServer org testId) : Prop :=
  (∃ row₀ row trail, d₀.tests.get? testId = some row₀ ∧
    Law org testId d₀ row₀ s.returned s.committed row trail) ∧
  ∀ id session exc, s.sessions id = some session → session.program = .finished (.error exc) →
    Conflicts session.job exc

section

variable {d₀ d d' : Database} {row₀ row : PerformanceTest} {trail : List AuditLog}
  {returned : List (Job org × Option TestDocument)} {job : Job org} {answer : Option TestDocument}

theorem updates_append : updates (returned ++ [(job, answer)]) =
    updates returned ++ job.body?.toList := by
  rw [updates, List.filterMap_append, ← updates]
  cases h : job.body? <;> simp [h]

theorem archives_append : ((returned ++ [(job, answer)]).any fun r => r.1.archives) =
    ((returned.any fun r => r.1.archives) || job.archives) := by
  rw [List.any_append]
  simp

/-- A row with an update applied, and what now belongs to it. -/
theorem documentOf_patched {body : TestUpdate} {now : Timestamp}
    {plans : Dict Uuid PerformanceTestPlan} {rules : Dict Uuid SlaRule}
    (named : row.id = testId) (plansAfter : PlansAfter org testId body d.plans plans)
    (rulesAfter : RulesAfter org testId body d.rules rules) (samePlans : d'.plans = plans)
    (sameRules : d'.rules = rules) :
    documentOf org d' (patchedRow row body now) = (documentOf org d row).patch body := by
  have plansSame : (planSpecs org testId d'.plans : Multiset TestPlanSpec) =
      ((documentOf org d row).patch body).plans := by
    rw [PlansAfter] at plansAfter
    rw [samePlans, Document.patch, documentOf, named]
    split at plansAfter
    · rw [plansAfter]
    · rw [plansAfter.1]
  have rulesSame : (ruleSpecs org testId d'.rules : Multiset SlaRuleSpec) =
      ((documentOf org d row).patch body).slaRules := by
    rw [RulesAfter] at rulesAfter
    rw [sameRules, Document.patch, documentOf, named]
    split at rulesAfter
    · rw [rulesAfter]
    · rw [rulesAfter.1]
  rw [documentOf, show (patchedRow row body now).id = testId from named, plansSame, rulesSame]
  rfl

theorem Law.start (found : d₀.tests.get? testId = some row₀) (named : row₀.id = testId) :
    Law org testId d₀ row₀ [] d₀ row₀ [] where
  found := found
  named := named
  expected := rfl
  version := (Int.add_zero _).symm
  document := rfl
  status := rfl
  audited := Appended.nil
  updated := rfl
  deleted := by simp

/-- A request that returns without a trace. -/
theorem Law.idle (law : Law org testId d₀ row₀ returned d row trail) (noBody : job.body? = none)
    (noArchive : job.archives = true → row.status = .archived) :
    Law org testId d₀ row₀ (returned ++ [(job, answer)]) d row trail := by
  have same : updates (returned ++ [(job, answer)]) = updates returned := by
    rw [updates_append, noBody, Option.toList_none, List.append_nil]
  refine { law with expected := ?_, version := ?_, document := ?_, status := ?_, updated := ?_ }
  · rw [same]
    exact law.expected
  · rw [same]
    exact law.version
  · rw [same]
    exact law.document
  · rw [archives_append]
    cases archives : job.archives with
    | false =>
        rw [Bool.or_false]
        exact law.status
    | true =>
        rw [Bool.or_true, if_pos rfl]
        exact noArchive archives
  · rw [same]
    exact law.updated

/-- A request that archives. -/
theorem Law.archive (law : Law org testId d₀ row₀ returned d row trail) {member : Member org}
    {now : Timestamp} {auditId : Uuid} (live : row.status = .draft)
    (free : d.auditLogs.get? auditId = none) :
    Law org testId d₀ row₀ (returned ++ [(.archive member, answer)])
      { d with
        tests := d.tests.set testId { row with status := .archived, updatedAt := now }
        auditLogs := d.auditLogs.set auditId (archiveAudit member.claims testId auditId) }
      { row with status := .archived, updatedAt := now }
      (trail ++ [archiveAudit member.claims testId auditId]) := by
  have same : updates (returned ++ [((.archive member : Job org), answer)]) = updates returned := by
    rw [updates_append]
    exact List.append_nil _
  have before : row₀.status = .draft := by
    have status := law.status
    rw [live] at status
    split at status
    · cases status
    · exact status.symm
  constructor
  · exact Dict.get?_set_self ..
  · exact law.named
  · rw [same]
    exact law.expected
  · rw [same]
    exact law.version
  · rw [same, ← law.document]
    rfl
  · rw [archives_append, show (Job.archive member).archives = true from rfl, Bool.or_true, if_pos rfl]
  · exact law.audited.concat free
  · rw [same, List.filter_append, List.map_append, law.updated]
    exact List.append_nil _
  · rw [List.filter_append, List.length_append, law.deleted, live, before]
    rfl

/-- An update. -/
theorem Law.update (law : Law org testId d₀ row₀ returned d row trail) {member : Member org}
    {body : TestUpdate} {now : Timestamp} {plans : Dict Uuid PerformanceTestPlan}
    {rules : Dict Uuid SlaRule} {auditId : Uuid} (current : row.version = body.version)
    (plansAfter : PlansAfter org testId body d.plans plans)
    (rulesAfter : RulesAfter org testId body d.rules rules)
    (free : d.auditLogs.get? auditId = none) :
    Law org testId d₀ row₀ (returned ++ [(.update member body, answer)])
      { d with
        tests := d.tests.set testId (patchedRow row body now)
        plans := plans
        rules := rules
        auditLogs := d.auditLogs.set auditId
          (updateAudit member.claims testId body (row.version + 1) auditId) }
      (patchedRow row body now)
      (trail ++ [updateAudit member.claims testId body (row.version + 1) auditId]) := by
  have grown : updates (returned ++ [((.update member body : Job org), answer)]) =
      updates returned ++ [body] := by
    rw [updates_append]
    rfl
  constructor
  · exact Dict.get?_set_self ..
  · exact law.named
  · rw [grown, List.map_append, law.expected, List.length_append, List.length_singleton,
      List.range_succ, List.map_append, List.map_singleton, List.map_singleton, ← current,
      law.version]
  · rw [grown, List.length_append, List.length_singleton]
    change row.version + 1 = _
    rw [law.version]
    omega
  · rw [grown, List.foldl_append, ← law.document]
    exact documentOf_patched law.named plansAfter rulesAfter rfl rfl
  · rw [archives_append, show (Job.update member body).archives = false from rfl, Bool.or_false]
    exact law.status
  · exact law.audited.concat free
  · rw [grown, List.filter_append, List.map_append, List.map_append, law.updated]
    change _ ++ [some [_, ("version", Detail.number (row.version + 1))]] = _
    rw [current]
    rfl
  · rw [List.filter_append, List.length_append, law.deleted]
    rfl

theorem law_of_history {returned : List (Job org × Option TestDocument)} {d : postgres.Database}
    (found : d₀.tests.get? testId = some row₀) (named : row₀.id = testId)
    (history : Sql.History (I := postgres) (Effect org testId) d₀ returned d) :
    ∃ row trail, Law org testId d₀ row₀ returned d row trail := by
  induction history with
  | nil => exact ⟨row₀, [], Law.start found named⟩
  | snoc _ effect ih =>
      obtain ⟨row, trail, law⟩ := ih
      cases effect with
      | read => exact ⟨row, trail, law.idle rfl (fun archives => (nomatch archives))⟩
      | archived archived =>
          obtain ⟨row', found', status⟩ := archived
          rw [law.found] at found'
          obtain rfl := Option.some.inj found'
          exact ⟨row, trail, law.idle rfl fun _ => status⟩
      | archive found' live free =>
          rw [law.found] at found'
          obtain rfl := Option.some.inj found'
          exact ⟨_, _, law.archive live free⟩
      | update _ found' current plansAfter rulesAfter free =>
          rw [law.found] at found'
          obtain rfl := Option.some.inj found'
          exact ⟨_, _, law.update current plansAfter rulesAfter free⟩

end

/-! ## Runs -/

/-- A program is about to draw an identifier. -/
def drawing {α : Type} : Transaction α → Bool
  | .ask Question.uuid4 _ => true
  | _ => false

/-- An identifier that is drawn is new, and a request that begins is admissible. -/
def Proper (org testId : Uuid) (d₀ : Database) (s : TestServer org testId) :
    Sql.Event (requests org testId) → Prop
  | .start _ job => Admissible org d₀ job
  | .advance i => ∀ session ∈ s.sessions i, drawing session.program = true →
      (s.view session).plans.get? (s.environment.uuids s.environment.uuidsDrawn) = none ∧
        (s.view session).rules.get? (s.environment.uuids s.environment.uuidsDrawn) = none ∧
          (s.view session).auditLogs.get? (s.environment.uuids s.environment.uuidsDrawn) = none
  | _ => True

theorem condition_of_proper {d₀ : Database} (sound : Sound org testId d₀)
    (s : TestServer org testId) (e : Sql.Event (requests org testId))
    (met : Proper org testId d₀ s e) : (discipline sound).Condition s e := by
  cases e with
  | start i job => exact met
  | commit i => trivial
  | rollback i => trivial
  | advance i =>
      intro session found
      refine ⟨fun _ _ _ => trivial, ?_⟩
      intro q next shape
      cases q with
      | uuid4 => exact met session found (by rw [shape]; rfl)
      | _ => trivial

/-- Whatever run has led to a state, the law holds in it. -/
theorem law_of_run {d₀ : Database} {e : Environment} {s : TestServer org testId}
    (sound : Sound org testId d₀)
    (run : Sql.Server.Run (Proper org testId d₀) { committed := d₀, environment := e } s) :
    ∃ row₀ row trail, d₀.tests.get? testId = some row₀ ∧
      Law org testId d₀ row₀ s.returned s.committed row trail := by
  have inv := Sql.Discipline.invariant_of_run (condition_of_proper sound) run
  obtain ⟨row₀, -, found, named, -⟩ := sound.row
  obtain ⟨row, trail, law⟩ := law_of_history found named inv.history
  exact ⟨row₀, row, trail, found, law⟩

/-- However updates and archives of a test are interleaved, none is lost. -/
theorem noLostUpdate {d₀ : Database} {e : Environment} {s : TestServer org testId}
    (sound : Sound org testId d₀)
    (run : Sql.Server.Run (Proper org testId d₀) { committed := d₀, environment := e } s) :
    NoLostUpdate d₀ s := by
  refine ⟨law_of_run sound run, ?_⟩
  intro id session exc at_ raised
  exact (Sql.Discipline.invariant_of_run (condition_of_proper sound) run).raised at_ raised

/-! ## Two updates of one version -/

/-- A body that gives a name, and plans where `plans` are given. -/
def renameTo (name : String) (plans : Patch (List TestPlanSpec))
    (name_length : 1 ≤ name.length ∧ name.length ≤ 255)
    (plans_length : ∀ value, plans = .value value → 1 ≤ value.length) : TestUpdate where
  version := 1
  name := .value name
  plans := plans
  name_length := by
    intro value same
    cases same
    exact name_length
  plans_length := plans_length

def samplePlan : TestPlanSpec where
  scriptRepoId := 2
  pinnedRef_length := by
    intro ref given
    cases given
  virtualUsers_ge := by decide
  executionOrder_ge := by decide

def sampleMember : Member 1 := ⟨⟨3, 1, "MEMBER"⟩, rfl⟩

/-- Of one version, an update of the name and the plans, and one of the name. -/
def sampleUpdates : Job 1 × Job 1 :=
  (.update sampleMember (renameTo "a" (.value [samplePlan, samplePlan]) (by decide) (by
      intro value same
      cases same
      decide)),
    .update sampleMember (renameTo "b" .unset (by decide) (by
      intro value same
      cases same)))

def sampleConfiguration : WorkloadSpec where
  virtualUsers := 1
  durationSeconds := 1
  generatorPoolId := 6
  virtualUsers_ge := by decide
  durationSeconds_ge := by decide
  rampUpSeconds_ge := by decide
  ramp_fits := by decide

def sampleTest : PerformanceTest where
  id := 5
  organizationId := 1
  projectId := 4
  name := "test"
  description := none
  configuration := some sampleConfiguration
  tags := []
  createdBy := 3
  createdAt := 0
  updatedAt := 0

def samplePool : GeneratorPool where
  id := 6
  organizationId := 1
  name := "pool"
  runtime := .docker
  config := ""
  region := none
  maxGenerators := 1
  maxVusPerGenerator := 1
  createdAt := 0
  updatedAt := 0

def sampleRepo : ScriptRepo where
  id := 2
  organizationId := 1
  projectId := 4
  name := "repo"
  repoUrl := "https://example.org/repo.git"
  defaultRef := "main"
  planPath := "plan.jmx"
  credentialId := none
  createdBy := 3
  createdAt := 0
  updatedAt := 0

def sampleDatabase : Database where
  pools := Dict.ofList [(6, samplePool)]
  scriptRepos := Dict.ofList [(2, sampleRepo)]
  tests := Dict.ofList [(5, sampleTest)]
  plans := Dict.ofList [(7, ⟨7, 1, 5, samplePlan⟩)]

theorem sampleDatabase_sound : Sound 1 5 sampleDatabase where
  row := ⟨sampleTest, sampleConfiguration, rfl, rfl, rfl, rfl, samplePool, rfl, rfl⟩
  repos := by
    intro spec member
    obtain rfl : spec = samplePlan := List.mem_singleton.mp member
    exact ⟨sampleRepo, rfl, rfl⟩
  plansKeyed := by
    intro id row found
    have member := Dict.get?_eq_some_iff.mp found
    cases List.mem_singleton.mp member
    rfl
  rulesKeyed := by
    intro id row found
    cases found

def sampleServer : TestServer 1 5 where
  committed := sampleDatabase
  environment := {
    tokens := fun _ => ""
    uuids := fun k => BitVec.ofNat 128 (100 + k)
    clock := fun k => k }

/-- One of the updates, an archive or a read. -/
def IsSample (job : Job 1) : Prop :=
  job = sampleUpdates.1 ∨ job = sampleUpdates.2 ∨ job = .archive sampleMember ∨
    job = .read sampleMember

instance decidableIsSample (job : Job 1) : Decidable (IsSample job) := inferInstanceAs (Decidable (_ ∨ _ ∨ _ ∨ _))

/-- The sample requests, with identifiers that are new. -/
def Sample (s : TestServer 1 5) : Sql.Event (requests 1 5) → Prop
  | .start _ job => IsSample job
  | .advance i => ∀ session ∈ s.sessions i, drawing session.program = true →
      (s.view session).plans.get? (s.environment.uuids s.environment.uuidsDrawn) = none ∧
        (s.view session).rules.get? (s.environment.uuids s.environment.uuidsDrawn) = none ∧
          (s.view session).auditLogs.get? (s.environment.uuids s.environment.uuidsDrawn) = none
  | _ => True

instance (s : TestServer 1 5) (e : Sql.Event (requests 1 5)) : Decidable (Sample s e) :=
  match e with
  | .start _ job => decidableIsSample job
  | .advance _ => inferInstanceAs (Decidable (∀ session ∈ _, _ → _ ∧ _ ∧ _))
  | .commit _ => inferInstanceAs (Decidable True)
  | .rollback _ => inferInstanceAs (Decidable True)

theorem proper_of_sample (s : TestServer 1 5) (e : Sql.Event (requests 1 5)) (met : Sample s e) :
    Proper 1 5 sampleDatabase s e := by
  cases e with
  | advance i => exact met
  | commit i => trivial
  | rollback i => trivial
  | start i job =>
      intro body given
      rcases met with rfl | rfl | rfl | rfl
      · obtain rfl := Option.some.inj given
        refine ⟨by decide, by decide, by decide, by decide, by decide, by decide, ?_, ?_⟩
        · intro configuration impossible
          cases impossible
        · intro plans same spec member
          cases same
          have one : spec = samplePlan := by simpa using member
          exact ⟨sampleRepo, by rw [one]; rfl, rfl⟩
      · obtain rfl := Option.some.inj given
        refine ⟨by decide, by decide, by decide, by decide, by decide, by decide, ?_, ?_⟩
        · intro configuration impossible
          cases impossible
        · intro plans impossible
          cases impossible
      · cases given
      · cases given

/-- Both updates read the test before either locks it; an archive follows. -/
def interleaved : List (Sql.Event (requests 1 5)) :=
  [.start 0 sampleUpdates.1, .start 1 sampleUpdates.2, .advance 1, .advance 1, .advance 1] ++
    List.replicate 16 (.advance 0) ++ [.commit 0, .advance 1, .rollback 1] ++
      [.start 2 (.archive sampleMember)] ++ List.replicate 6 (.advance 2) ++ [.commit 2]

theorem noLostUpdate_interleaved : ∃ s : TestServer 1 5, NoLostUpdate sampleDatabase s ∧
    s.returned.length = 2 := by
  cases ended : sampleServer.events Sample interleaved with
  | none =>
      have some_ : (sampleServer.events Sample interleaved).isSome = true := by decide +kernel
      rw [ended] at some_
      cases some_
  | some s =>
      refine ⟨s, noLostUpdate sampleDatabase_sound
        ((Sql.Server.run_of_events .refl ended).mono proper_of_sample), ?_⟩
      have answers : (sampleServer.events Sample interleaved).map (fun s => s.returned.length) =
        some 2 := by decide +kernel
      rw [ended] at answers
      exact Option.some.inj answers

end Plimsoll.PerformanceTests
