import Plimsoll.PerformanceTests.Documents

/-!
One request for a test, with others beside it.

An update writes nothing until its guarded `UPDATE` has found the version it
expects; that statement locks the row of the test, and the statements behind it are
unguarded.
-/

namespace Plimsoll.PerformanceTests

open Python Contracts Transaction
open Database (Fault Setting Statement rowsOf Keyed Appended)

variable {org testId : Uuid}

/-- What a request relies on: the row of the test is its lock, and the identifiers
it draws are new. -/
def rely (org testId : Uuid) : Sql.Rely postgres where
  lock := .test testId
  evolves := Evolves org testId
  evolves_refl := Evolves.refl
  evolves_trans _ _ _ := Evolves.trans
  replies
    | d, .uuid4, id => d.plans.get? id = none ∧ d.rules.get? id = none ∧ d.auditLogs.get? id = none
    | _, _, _ => True

variable {raises : Raised → Prop} {c : Setting} {base d : Database}

/-! ## Before the lock -/

section

variable (bound : c.org = some org)
include bound

theorem reads_document {row : PerformanceTest} {post : TestDocument → Setting → Sql.Phase postgres → Prop}
    (named : row.id = testId) (sound : Sound org testId d)
    (after : ∀ plans slaRules d', Evolves org testId d d' →
      (∀ spec ∈ plans, HasRepo org d' spec.scriptRepoId) →
        post ⟨row, plans, slaRules⟩ c (.reading d')) :
    (document row).Keeps (rely org testId) raises post c (.reading d) := by
  refine Sql.Program.Keeps.bind (reads_statement (fun _ => rfl) ?_)
  intro d₁ d₂ evolves₁ evolves₂
  refine Sql.Program.Keeps.bind (reads_statement (fun _ => rfl) ?_)
  intro d₃ d₄ evolves₃ evolves₄ d₅ evolves₅
  have later := Evolves.trans evolves₂ (Evolves.trans evolves₃ (Evolves.trans evolves₄ evolves₅))
  refine after _ _ d₅ (Evolves.trans evolves₁ later) ?_
  intro spec member
  rw [plansFor_eq bound, mem_sortedBy, named] at member
  exact ((evolves₁.sound sound).repos spec member).evolve later

theorem reads_require {post : TestDocument → Setting → Sql.Phase postgres → Prop}
    (sound : Sound org testId d)
    (after : ∀ current configuration d', Evolves org testId d d' →
      current.row.configuration = some configuration →
        HasPool org d' configuration.generatorPoolId →
          (∀ spec ∈ current.plans, HasRepo org d' spec.scriptRepoId) →
            post current c (.reading d')) :
    (require testId).Keeps (rely org testId) raises post c (.reading d) := by
  refine Sql.Program.Keeps.bind (reads_statement (fun _ => rfl) ?_)
  intro d₁ d₂ evolves₁ evolves₂
  obtain ⟨row, configuration, found, named, owner, configured, pool⟩ := (evolves₁.sound sound).row
  have answered : (Database.execute (.getTest testId) c d₁).1 = some row :=
    Database.byKey_eq bound found owner
  rw [answered]
  refine reads_document bound named (evolves₂.sound (evolves₁.sound sound)) ?_
  intro plans slaRules d₃ evolves₃ repos
  have later := Evolves.trans evolves₂ evolves₃
  exact after ⟨row, plans, slaRules⟩ configuration d₃ (Evolves.trans evolves₁ later) configured
    (pool.evolve later) repos

theorem reads_missingRepos {post : List String → Setting → Sql.Phase postgres → Prop}
    {plans : List TestPlanSpec} (repos : ∀ spec ∈ plans, HasRepo org d spec.scriptRepoId)
    (after : ∀ d', Evolves org testId d d' → post [] c (.reading d')) :
    (missingRepos plans).Keeps (rely org testId) raises post c (.reading d) := by
  induction plans generalizing d post with
  | nil => exact after
  | cons spec rest ih =>
      refine Sql.Program.Keeps.bind (reads_statement (fun _ => rfl) ?_)
      intro d₁ d₂ evolves₁ evolves₂
      have evolves := Evolves.trans evolves₁ evolves₂
      refine Sql.Program.Keeps.bind (ih ?_ ?_)
      · intro other member
        exact (repos other (List.mem_cons_of_mem _ member)).evolve evolves
      · intro d₃ evolves₃ d₄ evolves₄
        obtain ⟨repo, found, owner⟩ := (repos spec List.mem_cons_self).evolve evolves₁
        have answered : (Database.execute (.getScriptRepo spec.scriptRepoId) c d₁).1 = some repo :=
          Database.byKey_eq bound found owner
        rw [answered]
        exact after d₄ (Evolves.trans evolves (Evolves.trans evolves₃ evolves₄))

theorem reads_checkReferences {post : Unit → Setting → Sql.Phase postgres → Prop}
    {configuration : WorkloadSpec} {plans : List TestPlanSpec}
    (pool : HasPool org d configuration.generatorPoolId)
    (repos : ∀ spec ∈ plans, HasRepo org d spec.scriptRepoId)
    (after : ∀ d', Evolves org testId d d' → post () c (.reading d')) :
    (checkReferences configuration plans).Keeps (rely org testId) raises post c (.reading d) := by
  refine Sql.Program.Keeps.bind (reads_statement (fun _ => rfl) ?_)
  intro d₁ d₂ evolves₁ evolves₂
  have evolves := Evolves.trans evolves₁ evolves₂
  refine Sql.Program.Keeps.bind (reads_missingRepos bound ?_ ?_)
  · exact fun spec member => (repos spec member).evolve evolves
  · intro d₃ evolves₃
    obtain ⟨row, found, owner⟩ := pool.evolve evolves₁
    have answered : (Database.execute (.getPool configuration.generatorPoolId) c d₁).1 = some row :=
      Database.byKey_eq bound found owner
    rw [answered]
    exact fun d₄ evolves₄ => after d₄ (Evolves.trans evolves (Evolves.trans evolves₃ evolves₄))

theorem reads_checkUpdate {post : Unit → Setting → Sql.Phase postgres → Prop} {body : TestUpdate}
    {current : TestDocument} {configuration : WorkloadSpec} (clean : Clean org d body)
    (configured : current.row.configuration = some configuration)
    (pool : HasPool org d configuration.generatorPoolId)
    (repos : ∀ spec ∈ current.plans, HasRepo org d spec.scriptRepoId)
    (after : ∀ d', Evolves org testId d d' → post () c (.reading d')) :
    (checkUpdate body current).Keeps (rely org testId) raises post c (.reading d) := by
  have plansThere : ∀ spec ∈ (value? body.plans).getD current.plans,
      HasRepo org d spec.scriptRepoId := by
    cases given : body.plans with
    | unset => exact repos
    | null => exact repos
    | value plans => exact clean.repos plans given
  rw [checkUpdate]
  split
  · rw [configurationOr]
    cases given : body.configuration with
    | value configuration' =>
        exact reads_checkReferences bound (clean.pool configuration' given) plansThere after
    | unset =>
        rw [configured]
        exact reads_checkReferences bound pool plansThere after
    | null =>
        rw [configured]
        exact reads_checkReferences bound pool plansThere after
  · exact after

end

/-! ## With the lock -/

section

/- A collection: rows of a table, each with a specification, that are replaced as a
whole. The rest of the database stands still. -/
variable {σ ρ : Type} [Tenant ρ] (withTable : Dict Uuid ρ → Database) (row : Uuid → σ → ρ)
  (like : ρ → Bool) {key : ρ → Uuid} {specOf : ρ → σ} {specs : List σ}
  {post : Unit → Setting → Sql.Phase postgres → Prop} {insert : Uuid → σ → Transaction Unit}
  {table : Dict Uuid ρ}

omit [Tenant ρ] in
theorem keeps_insertAll (keyRow : ∀ id spec, key (row id spec) = id)
    (specRow : ∀ id spec, specOf (row id spec) = spec)
    (isNew : ∀ table id, (rely org testId).replies (withTable table) Question.uuid4 id →
      table.get? id = none)
    (inserts : ∀ table id, ∀ spec ∈ specs, ∀ post : Unit → Setting → Sql.Phase postgres → Prop,
      table.get? id = none → post () c (.owning base (withTable (table.set id (row id spec)))) →
        (insert id spec).Keeps (rely org testId) raises post c (.owning base (withTable table)))
    (after : ∀ rows table', rows.map specOf = specs → (∀ r ∈ rows, ∃ id spec, r = row id spec) →
      Appended key rows table table' → post () c (.owning base (withTable table'))) :
    (insertAll insert specs).Keeps (rely org testId) raises post c
      (.owning base (withTable table)) := by
  induction specs generalizing table with
  | nil => exact after [] table rfl (fun _ member => (nomatch member)) Appended.nil
  | cons spec rest ih =>
      refine Sql.Program.Keeps.bind ?_
      intro id drawn
      have free := isNew table id drawn
      refine Sql.Program.Keeps.bind (inserts table id spec List.mem_cons_self _ free ?_)
      refine ih (fun table id other member => inserts table id other (List.mem_cons_of_mem _ member)) ?_
      intro rows table' same made appended
      refine after (row id spec :: rows) table' ?_ ?_ ?_
      · rw [List.map_cons, specRow, same]
      · intro r member
        rcases List.mem_cons.mp member with rfl | later
        · exact ⟨id, spec, rfl⟩
        · exact made r later
      · refine Appended.set (by rw [keyRow]; exact free) ?_
        rw [keyRow]
        exact appended

/-- Behind a replacement the collection is what was given. -/
theorem keeps_replaceAll (keyRow : ∀ id spec, key (row id spec) = id)
    (specRow : ∀ id spec, specOf (row id spec) = spec)
    (ownRow : ∀ id spec, Tenant.organizationId (row id spec) = org)
    (likeRow : ∀ id spec, like (row id spec) = true)
    (isNew : ∀ table id, (rely org testId).replies (withTable table) Question.uuid4 id →
      table.get? id = none)
    (keyed : Keyed key table) {delete : Transaction Unit}
    (deletes : ∀ post : Unit → Setting → Sql.Phase postgres → Prop,
      post () c (.owning base (withTable
        (Database.without table (((rowsOf org table).filter like).map key)))) →
        delete.Keeps (rely org testId) raises post c (.owning base (withTable table)))
    (inserts : ∀ table id, ∀ spec ∈ specs, ∀ post : Unit → Setting → Sql.Phase postgres → Prop,
      table.get? id = none → post () c (.owning base (withTable (table.set id (row id spec)))) →
        (insert id spec).Keeps (rely org testId) raises post c (.owning base (withTable table)))
    (after : ∀ table', ((rowsOf org table').filter like).map specOf = specs → Keyed key table' →
      post () c (.owning base (withTable table'))) :
    (replaceAll delete insert specs).Keeps (rely org testId) raises post c
      (.owning base (withTable table)) := by
  refine Sql.Program.Keeps.bind (deletes _ ?_)
  refine keeps_insertAll withTable row keyRow specRow isNew inserts ?_
  intro rows table' same made appended
  have owned : ∀ r ∈ rows, Tenant.organizationId r = org := by
    intro r member
    obtain ⟨id, spec, rfl⟩ := made r member
    exact ownRow id spec
  have alike : ∀ r ∈ rows, like r = true := by
    intro r member
    obtain ⟨id, spec, rfl⟩ := made r member
    exact likeRow id spec
  refine after table' ?_ ((keyed.without _).appended appended)
  rw [Database.rowsOf_appended appended owned, List.filter_append,
    Database.rowsOf_without keyed like, List.nil_append, List.filter_eq_self.mpr alike, same]

end

section

variable (bound : c.org = some org)
include bound

theorem keeps_replacePlans {post : Unit → Setting → Sql.Phase postgres → Prop}
    {plans : List TestPlanSpec} (tested : (d.tests.get? testId).isSome = true)
    (keyed : Keyed PerformanceTestPlan.id d.plans)
    (repos : ∀ spec ∈ plans, HasRepo org d spec.scriptRepoId)
    (after : ∀ table, planSpecs org testId table = plans → Keyed PerformanceTestPlan.id table →
      post () c (.owning base { d with plans := table })) :
    (replacePlans org testId plans).Keeps (rely org testId) raises post c (.owning base d) := by
  refine keeps_replaceAll (fun table => { d with plans := table })
    (fun id spec => ⟨id, org, testId, spec⟩) (fun row => row.performanceTestId = testId)
    (fun _ _ => rfl) (fun _ _ => rfl) (fun _ _ => rfl) (fun _ _ => decide_eq_true rfl)
    (fun _ _ drawn => drawn.1) keyed ?_ ?_ after
  · intro post after
    refine keeps_statement rfl ?_
    rw [Database.visible_eq bound, applyAll_deletePlan]
    exact after
  · intro table id spec member post free after
    obtain ⟨repo, found, -⟩ := repos spec member
    have executed : Database.execute (.insertPlan ⟨id, org, testId, spec⟩) c
        { d with plans := table } = (.ok (), [.plan ⟨id, org, testId, spec⟩]) := by
      refine Database.insert_free bound free ?_
      rw [Bool.and_eq_true]
      exact ⟨tested, Option.isSome_iff_exists.mpr ⟨repo, found⟩⟩
    exact keeps_checked executed rfl after

theorem keeps_replaceSlaRules {post : Unit → Setting → Sql.Phase postgres → Prop}
    {rules : List SlaRuleSpec} (tested : (d.tests.get? testId).isSome = true)
    (keyed : Keyed SlaRule.id d.rules)
    (after : ∀ table, ruleSpecs org testId table = rules → Keyed SlaRule.id table →
      post () c (.owning base { d with rules := table })) :
    (replaceSlaRules org testId rules).Keeps (rely org testId) raises post c (.owning base d) := by
  refine keeps_replaceAll (fun table => { d with rules := table })
    (fun id spec => ⟨id, org, testId, spec⟩) (fun row => row.performanceTestId = testId)
    (fun _ _ => rfl) (fun _ _ => rfl) (fun _ _ => rfl) (fun _ _ => decide_eq_true rfl)
    (fun _ _ drawn => drawn.2.1) keyed ?_ ?_ after
  · intro post after
    refine keeps_statement rfl ?_
    rw [Database.visible_eq bound, applyAll_deleteRule]
    exact after
  · intro table id spec _ post free after
    have executed : Database.execute (.insertRule ⟨id, org, testId, spec⟩) c
        { d with rules := table } = (.ok (), [.rule ⟨id, org, testId, spec⟩]) :=
      Database.insert_free bound free tested
    exact keeps_checked executed rfl after

theorem keeps_document {post : TestDocument → Setting → Sql.Phase postgres → Prop}
    {row : PerformanceTest} (after : post (documentIn org d row) c (.owning base d)) :
    (document row).Keeps (rely org testId) raises post c (.owning base d) := by
  refine Sql.Program.Keeps.bind (keeps_statement (plansFor_eq bound) ?_)
  exact Sql.Program.Keeps.bind (keeps_statement (rulesFor_eq bound) after)

/-- Once the row is locked an update replaces what its body gives. -/
theorem keeps_finishUpdate {claims : AccessClaims} {body : TestUpdate} {row : PerformanceTest}
    {post : TestDocument → Setting → Sql.Phase postgres → Prop}
    (member : claims.organizationId = org) (tested : (d.tests.get? testId).isSome = true)
    (plansKeyed : Keyed PerformanceTestPlan.id d.plans) (rulesKeyed : Keyed SlaRule.id d.rules)
    (repos : ∀ plans, body.plans = .value plans → ∀ spec ∈ plans, HasRepo org d spec.scriptRepoId)
    (after : ∀ plans rules auditId, PlansAfter org testId body d.plans plans →
      RulesAfter org testId body d.rules rules → d.auditLogs.get? auditId = none →
        post (documentIn org { d with plans, rules } row) c (.owning base { d with
          plans := plans
          rules := rules
          auditLogs := d.auditLogs.set auditId
            (updateAudit claims testId body row.version auditId) })) :
    (finishUpdate claims testId body row).Keeps (rely org testId) raises post c
      (.owning base d) := by
  subst member
  have rest : ∀ plans, PlansAfter claims.organizationId testId body d.plans plans →
      (do
        whenGiven (value? body.slaRules) (replaceSlaRules claims.organizationId testId)
        ScriptRepos.record claims "test.updated" "performance_test" testId
          (some [("fields", .texts (sorted (changedColumns body))), ("version", .number row.version)])
        document row : Transaction TestDocument).Keeps (rely claims.organizationId testId) raises post c
          (.owning base { d with plans }) := by
    intro plans plansAfter
    have audited : ∀ rules, RulesAfter claims.organizationId testId body d.rules rules →
        (do
          ScriptRepos.record claims "test.updated" "performance_test" testId
            (some [("fields", .texts (sorted (changedColumns body))),
              ("version", .number row.version)])
          document row : Transaction TestDocument).Keeps (rely claims.organizationId testId) raises post c
            (.owning base { d with plans, rules }) := by
      intro rules rulesAfter
      refine Sql.Program.Keeps.bind (keeps_record bound ?_ ?_)
      · exact fun _ drawn => drawn.2.2
      · exact fun auditId free => keeps_document bound (after plans rules auditId plansAfter rulesAfter free)
    refine Sql.Program.Keeps.bind ?_
    unfold RulesAfter at audited
    cases given : value? body.slaRules with
    | none => exact audited d.rules (by rw [given])
    | some rules =>
        refine keeps_replaceSlaRules bound tested rulesKeyed fun table specs keyed => ?_
        exact audited table (by rw [given]; exact ⟨specs, keyed⟩)
  refine Sql.Program.Keeps.bind ?_
  unfold PlansAfter at rest
  cases given : value? body.plans with
  | none => exact rest d.plans (by rw [given])
  | some plans =>
      refine keeps_replacePlans bound tested plansKeyed ?_ fun table specs keyed => ?_
      · refine repos plans ?_
        cases shape : body.plans with
        | unset => rw [shape] at given; cases given
        | null => rw [shape] at given; cases given
        | value plans' =>
            rw [shape] at given
            rw [Option.some.inj given]
      · exact rest table (by rw [given]; exact ⟨specs, keyed⟩)

end

/-! ## Requests -/

section

variable {row : PerformanceTest} {body : TestUpdate} {now : Timestamp}

/-- Columns that are not null can be assigned. -/
theorem updatedTest_eq (name : body.name ≠ .null) (tags : body.tags ≠ .null) :
    Database.updatedTest now row (changesOf body) = .ok (patchedRow row body now) := by
  have assigned : ∀ {α : Type} (old : α) (patch : Patch α), patch ≠ .null →
      Database.assigned old patch = .ok (inherited old patch) := by
    intro α old patch there
    cases patch with
    | null => exact absurd rfl there
    | unset => rfl
    | value new => rfl
  rw [Database.updatedTest, changesOf]
  simp only [assigned row.name body.name name, assigned row.tags body.tags tags]
  rfl

/-- The guard finds the version that the update expects. -/
theorem updateDocument_current (bound : c.org = some org) (found : d.tests.get? testId = some row)
    (owner : row.organizationId = org) (current : row.version = body.version)
    (name : body.name ≠ .null) (tags : body.tags ≠ .null) :
    Database.execute (.updateDocument testId body.version (changesOf body)) c d =
      (.ok (some (patchedRow row body c.now)), [.test (patchedRow row body c.now)]) := by
  change Database.updating ((Database.byKey c d.tests testId).filter _) _ _ = _
  rw [Database.byKey_eq bound found owner, Option.filter_some, if_pos (by simpa using current)]
  simp only [Database.updating, updatedTest_eq name tags]

/-- The guard finds another version. -/
theorem updateDocument_stale (bound : c.org = some org) (found : d.tests.get? testId = some row)
    (owner : row.organizationId = org) (stale : row.version ≠ body.version) :
    Database.execute (.updateDocument testId body.version (changesOf body)) c d =
      (.ok none, []) := by
  change Database.updating ((Database.byKey c d.tests testId).filter _) _ _ = _
  rw [Database.byKey_eq bound found owner, Option.filter_some, if_neg (by simpa using stale)]
  rfl

end

theorem Clean.evolve {body : TestUpdate} {d' : Database} (clean : Clean org d body)
    (evolves : Evolves org testId d d') : Clean org d' body :=
  { clean with
    pool := fun configuration given => (clean.pool configuration given).evolve evolves
    repos := fun plans given spec member => (clean.repos plans given spec member).evolve evolves }

/-- What a request may raise: an update, that its version is not the current one. -/
def Conflicts (job : Job org) (exc : Raised) : Prop :=
  ∃ body, job.body? = some body ∧ exc = .plimsollError (conflict body.version)

section

variable (bound : c.org = some org) (sound : Sound org testId d)
include bound sound

theorem update_keeps {member : Member org} {body : TestUpdate} (clean : Clean org d body) :
    (Job.body testId (.update member body)).Keeps (rely org testId) (Conflicts (.update member body))
      (Sql.Phase.Made (Effect org testId (.update member body))) c (.reading d) := by
  refine Sql.Program.Keeps.bind (Sql.Program.Keeps.bind (reads_require bound sound ?_))
  intro current configuration d₁ evolves₁ configured pool repos
  refine Sql.Program.Keeps.bind
    (reads_checkUpdate bound (clean.evolve evolves₁) configured pool repos ?_)
  intro d₂ evolves₂ d₃ evolves₃ _
  have evolves := Evolves.trans evolves₁ (Evolves.trans evolves₂ evolves₃)
  have clean₃ := clean.evolve evolves
  obtain ⟨row, -, found, named, owner, -⟩ := (evolves.sound sound).row
  by_cases current : row.version = body.version
  · have executed : postgres.execute (Statement.updateDocument testId body.version (changesOf body))
        c d₃ = _ := updateDocument_current bound found owner current clean₃.name clean₃.tags
    rw [executed]
    have sound₃ := evolves.sound sound
    subst named
    refine ⟨fun silent => (nomatch silent), fun _ => ⟨List.mem_singleton_self _, ?_⟩⟩
    refine keeps_finishUpdate bound member.ofOrganization ?_ sound₃.plansKeyed sound₃.rulesKeyed
      clean₃.repos ?_
    · change (Dict.get? (d₃.tests.set row.id (patchedRow row body c.now)) row.id).isSome = true
      rw [Dict.get?_set_self]
      rfl
    · intro plans rules auditId plansAfter rulesAfter free
      exact Effect.update clean₃ found current plansAfter rulesAfter free
  · have executed : postgres.execute (Statement.updateDocument testId body.version (changesOf body))
        c d₃ = _ := updateDocument_stale bound found owner current
    rw [executed]
    exact ⟨fun _ => ⟨body, rfl, rfl⟩, fun writes => absurd rfl writes⟩

theorem archive_keeps {member : Member org} :
    (Job.body testId (.archive member)).Keeps (rely org testId) (Conflicts (.archive member))
      (Sql.Phase.Made (Effect org testId (.archive member))) c (.reading d) := by
  refine Sql.Program.Keeps.bind (Sql.Program.Keeps.bind (reads_require bound sound ?_))
  intro _ _ d₁ evolves₁ _ _ _ d₂ evolves₂ _
  have evolves := Evolves.trans evolves₁ evolves₂
  obtain ⟨row, -, found, named, owner, -⟩ := (evolves.sound sound).row
  have there := Database.byKey_eq bound found owner
  cases status : row.status with
  | archived =>
      have executed : postgres.execute (Statement.archiveTest testId) c d₂ = (false, []) := by
        change Database.archiving (Database.byKey c d₂.tests testId) _ _ = _
        rw [there, Database.archiving, Option.filter_some, if_neg (by simp [status])]
      rw [executed]
      refine ⟨fun _ => ?_, fun writes => absurd rfl writes⟩
      intro d₃ evolves₃ d₄ evolves₄
      have stays := Evolves.archived (Evolves.trans evolves₃ evolves₄) ⟨row, found, status⟩
      exact Effect.archived stays
  | draft =>
      have executed : postgres.execute (Statement.archiveTest testId) c d₂ =
          (true, [.test { row with status := .archived, updatedAt := c.now }]) := by
        change Database.archiving (Database.byKey c d₂.tests testId) _ _ = _
        rw [there, Database.archiving, Option.filter_some, if_pos (by simp [status])]
      rw [executed]
      subst named
      have own : c.org = some member.claims.organizationId := by rw [bound, member.ofOrganization]
      refine ⟨fun silent => (nomatch silent), fun _ => ⟨List.mem_singleton_self _, ?_⟩⟩
      refine keeps_record own ?_ ?_
      · exact fun _ drawn => drawn.2.2
      · intro auditId free
        exact Effect.archive found status free

theorem read_keeps {member : Member org} :
    (Job.body testId (.read member)).Keeps (rely org testId) (Conflicts (.read member))
      (Sql.Phase.Made (Effect org testId (.read member))) c (.reading d) := by
  refine Sql.Program.Keeps.bind (reads_require bound sound ?_)
  intro _ _ _ _ _ _ _ _ _
  exact Effect.read

end

/-- What a test refers to stays through a request. -/
theorem Effect.evolves {job : Job org} {answer : Option TestDocument} {d d' : Database}
    (effect : Effect org testId job answer d d') : Evolves org testId d d' := by
  cases effect with
  | archived _ => exact Evolves.refl d
  | read => exact Evolves.refl d
  | @archive _ _ row now auditId found live _ =>
      refine ⟨rfl, rfl, fun _ => ⟨_, Dict.get?_set_self .., rfl⟩, fun sound => ?_⟩
      obtain ⟨row', configuration, found', named, owner, configured, pool⟩ := sound.row
      rw [found] at found'
      obtain rfl := Option.some.inj found'
      exact ⟨⟨_, configuration, Dict.get?_set_self .., named, owner, configured, pool⟩, sound.repos,
        sound.plansKeyed, sound.rulesKeyed⟩
  | @update _ _ body row now plans rules auditId clean found current plansAfter rulesAfter _ =>
      refine ⟨rfl, rfl, ?_, fun sound => ⟨?_, ?_, ?_, ?_⟩⟩
      · rintro ⟨row', found', archived⟩
        rw [found] at found'
        obtain rfl := Option.some.inj found'
        exact ⟨_, Dict.get?_set_self .., archived⟩
      · obtain ⟨row', configuration, found', named, owner, configured, pool⟩ := sound.row
        rw [found] at found'
        obtain rfl := Option.some.inj found'
        cases given : body.configuration with
        | null => exact absurd given clean.configuration
        | unset =>
            refine ⟨_, configuration, Dict.get?_set_self .., named, owner, ?_, pool⟩
            rw [patchedRow, given]
            exact configured
        | value configuration' =>
            refine ⟨_, configuration', Dict.get?_set_self .., named, owner, ?_,
              clean.pool configuration' given⟩
            rw [patchedRow, given]
            rfl
      · intro spec member
        rw [PlansAfter] at plansAfter
        cases given : body.plans with
        | null => exact absurd given clean.plans
        | unset =>
            rw [given] at plansAfter
            obtain rfl := plansAfter
            exact sound.repos spec member
        | value specs =>
            rw [given] at plansAfter
            rw [plansAfter.1] at member
            exact clean.repos specs given spec member
      · rw [PlansAfter] at plansAfter
        split at plansAfter
        · obtain rfl := plansAfter
          exact sound.plansKeyed
        · exact plansAfter.2
      · rw [RulesAfter] at rulesAfter
        split at rulesAfter
        · obtain rfl := rulesAfter
          exact sound.rulesKeyed
        · exact rulesAfter.2

/-- A request whose body, if it has one, has no `null` and names what is there. -/
def Admissible (org : Uuid) (d : Database) (job : Job org) : Prop :=
  ∀ body, job.body? = some body → Clean org d body

/-- Requests for one test write under the lock of its row. -/
def discipline {d₀ : Database} (sound : Sound org testId d₀) :
    Sql.Discipline (requests org testId) where
  toRely := rely org testId
  initial := d₀
  admissible := Admissible org d₀
  effect := Effect org testId
  raises := Conflicts
  evolves_of_effect _ := Effect.evolves
  keeps := by
    intro job e d admissible evolves
    have bound : (Setting.of (some job.member.claims.organizationId) e).org = some org :=
      congrArg some job.member.ofOrganization
    have sound' := Evolves.sound evolves sound
    cases job with
    | update member body =>
        exact update_keeps bound sound' (Clean.evolve (admissible body rfl) evolves)
    | archive member => exact archive_keeps bound sound'
    | read member => exact read_keeps bound sound'

end Plimsoll.PerformanceTests
