import Plimsoll.Patches.Collections
import Plimsoll.Patches.Fields

/-!
The invariant of the database: every row of the four resources is one that could have
been created as it is.
-/

namespace Plimsoll.Patches

open Python Contracts
open Database (Keyed)
open PerformanceTests (planSpecs ruleSpecs)

/-- Every row stands under its identifier and could have been created so. -/
structure Valid (d : Database) : Prop where
  projects : ∀ id row, d.projects.get? id = some row → row.id = id ∧ ProjectCreatable d row
  pools : ∀ id row, d.pools.get? id = some row → row.id = id ∧ PoolCreatable d row
  scriptRepos : ∀ id row, d.scriptRepos.get? id = some row → row.id = id ∧ ScriptRepoCreatable d row
  tests : ∀ id row, d.tests.get? id = some row → row.id = id ∧ TestCreatable d row
  plans : Keyed PerformanceTestPlan.id d.plans
  rules : Keyed SlaRule.id d.rules

theorem valid_of_initial {d : Database} (initial : Initial d) : Valid d where
  projects _ _ found := by rw [initial.projects] at found; cases found
  pools _ _ found := by rw [initial.pools] at found; cases found
  scriptRepos _ _ found := by rw [initial.scriptRepos] at found; cases found
  tests _ _ found := by rw [initial.tests] at found; cases found
  plans _ _ found := by rw [initial.plans] at found; cases found
  rules _ _ found := by rw [initial.rules] at found; cases found

variable {d : Database}

/-! ## One row written -/

section

variable {ρ : Type} {key : ρ → Uuid} {table : Dict Uuid ρ} {row : ρ} {id : Uuid}

/-- A row that is written in place of one of its own organisation takes nothing away. -/
theorem Has.set [Tenant ρ] {org : Uuid} (has : Has org table id)
    (owner : ∀ old, table.get? (key row) = some old →
      Tenant.organizationId old = Tenant.organizationId row) :
    Has org (table.set (key row) row) id := by
  obtain ⟨there, found, mine⟩ := has
  by_cases here : key row = id
  · refine ⟨row, by rw [← here, Dict.get?_set_self], ?_⟩
    rw [← owner there (here ▸ found), mine]
  · exact ⟨there, by rw [Dict.get?_set_ne _ _ here, found], mine⟩

/-- A row that is alone of its kind leaves the others alone. -/
theorem alone_set {same : ρ → ρ → Prop} (symm : ∀ {a b}, same a b → same b a)
    (alone : ∀ id other, (table.set (key row) row).get? id = some other → same other row →
      id = key row)
    {row' : ρ} (found : table.get? id = some row') (keyed : key row' = id)
    (was : ∀ id other, table.get? id = some other → same other row' → id = key row')
    (id' : Uuid) (other : ρ) (found' : (table.set (key row) row).get? id' = some other)
    (alike : same other row') : id' = key row' := by
  rw [Dict.get?_set] at found'
  split at found'
  · rename_i here
    cases found'
    rw [← here, keyed]
    by_cases there : key row = id
    · exact there
    · exact (alone id row' (by rw [Dict.get?_set_ne _ _ there, found]) (symm alike)).symm
  · exact was id' other found' alike

end

/-- An audit row is of no resource. -/
theorem Valid.auditLogs (valid : Valid d) (auditLogs : Dict Uuid AuditLog) :
    Valid { d with auditLogs := auditLogs } :=
  ⟨valid.projects, valid.pools, valid.scriptRepos, valid.tests, valid.plans, valid.rules⟩

theorem Valid.setProject (valid : Valid d) {row : Project}
    (creatable : ProjectCreatable { d with projects := d.projects.set row.id row } row)
    (owner : ∀ old, d.projects.get? row.id = some old →
      old.organizationId = row.organizationId) :
    Valid { d with projects := d.projects.set row.id row } where
  projects id row' found := by
    rw [Dict.get?_set] at found
    split at found
    · rename_i here
      cases found
      exact ⟨here, creatable⟩
    · obtain ⟨keyed, created, alone⟩ := valid.projects id row' found
      refine ⟨keyed, created, fun id' other found' owner' same' => ?_⟩
      exact @alone_set _ Project.id _ row id
        (fun a b => a.organizationId = b.organizationId ∧ a.projectKey = b.projectKey)
        (fun same => ⟨same.1.symm, same.2.symm⟩)
        (fun id other found same => creatable.2 id other found same.1 same.2) row' found keyed
        (fun id other found same => alone id other found same.1 same.2) id' other found'
        ⟨owner', same'⟩
  pools := valid.pools
  scriptRepos id row' found := by
    obtain ⟨keyed, created, project, credential⟩ := valid.scriptRepos id row' found
    exact ⟨keyed, created, @Has.set _ Project.id _ _ _ _ _ project owner, credential⟩
  tests id row' found := by
    obtain ⟨keyed, created, project, pool, repos⟩ := valid.tests id row' found
    exact ⟨keyed, created, @Has.set _ Project.id _ _ _ _ _ project owner, pool, repos⟩
  plans := valid.plans
  rules := valid.rules

theorem Valid.setPool (valid : Valid d) {row : GeneratorPool}
    (creatable : PoolCreatable { d with pools := d.pools.set row.id row } row)
    (owner : ∀ old, d.pools.get? row.id = some old → old.organizationId = row.organizationId) :
    Valid { d with pools := d.pools.set row.id row } where
  projects := valid.projects
  pools id row' found := by
    rw [Dict.get?_set] at found
    split at found
    · rename_i here
      cases found
      exact ⟨here, creatable⟩
    · obtain ⟨keyed, created, alone⟩ := valid.pools id row' found
      refine ⟨keyed, created, fun id' other found' owner' same' => ?_⟩
      exact @alone_set _ GeneratorPool.id _ row id
        (fun a b => a.organizationId = b.organizationId ∧ a.name = b.name)
        (fun same => ⟨same.1.symm, same.2.symm⟩)
        (fun id other found same => creatable.2 id other found same.1 same.2) row' found keyed
        (fun id other found same => alone id other found same.1 same.2) id' other found'
        ⟨owner', same'⟩
  scriptRepos := valid.scriptRepos
  tests id row' found := by
    obtain ⟨keyed, created, project, pool, repos⟩ := valid.tests id row' found
    exact ⟨keyed, created, project,
      fun configuration there =>
        @Has.set _ GeneratorPool.id _ _ _ _ _ (pool configuration there) owner,
      repos⟩
  plans := valid.plans
  rules := valid.rules

theorem Valid.setCredential (valid : Valid d) {row : Credential}
    (free : d.credentials.get? row.id = none) :
    Valid { d with credentials := d.credentials.set row.id row } where
  projects := valid.projects
  pools := valid.pools
  scriptRepos id row' found := by
    obtain ⟨keyed, created, project, credential⟩ := valid.scriptRepos id row' found
    refine ⟨keyed, created, project, fun k refers => ?_⟩
    refine @Has.set _ Credential.id _ _ _ _ _ (credential k refers) fun old found => ?_
    rw [free] at found
    cases found
  tests := valid.tests
  plans := valid.plans
  rules := valid.rules

theorem Valid.popCredential (valid : Valid d) {id : Uuid}
    (unused : ∀ key repo, d.scriptRepos.get? key = some repo → repo.credentialId ≠ some id) :
    Valid { d with credentials := d.credentials.pop id } where
  projects := valid.projects
  pools := valid.pools
  scriptRepos key row found := by
    obtain ⟨keyed, created, project, credential⟩ := valid.scriptRepos key row found
    refine ⟨keyed, created, project, fun k refers => ?_⟩
    obtain ⟨there, found', mine⟩ := credential k refers
    refine ⟨there, ?_, mine⟩
    rw [Dict.get?_pop, if_neg]
    · exact found'
    · rintro rfl
      exact unused key row found refers
  tests := valid.tests
  plans := valid.plans
  rules := valid.rules

theorem Valid.setScriptRepo (valid : Valid d) {row : ScriptRepo}
    (creatable : ScriptRepoCreatable d row)
    (owner : ∀ old, d.scriptRepos.get? row.id = some old →
      old.organizationId = row.organizationId) :
    Valid { d with scriptRepos := d.scriptRepos.set row.id row } where
  projects := valid.projects
  pools := valid.pools
  scriptRepos id row' found := by
    rw [Dict.get?_set] at found
    split at found
    · rename_i here
      cases found
      exact ⟨here, creatable⟩
    · exact valid.scriptRepos id row' found
  tests id row' found := by
    obtain ⟨keyed, created, project, pool, repos⟩ := valid.tests id row' found
    exact ⟨keyed, created, project, pool,
      fun plan member => @Has.set _ ScriptRepo.id _ _ _ _ _ (repos plan member) owner⟩
  plans := valid.plans
  rules := valid.rules

theorem Valid.setTest (valid : Valid d) {row : PerformanceTest} (org : Uuid)
    {plans : Dict Uuid PerformanceTestPlan} {rules : Dict Uuid SlaRule}
    {planPatch : Patch (List TestPlanSpec)} {rulePatch : Patch (List SlaRuleSpec)}
    (creatable : TestCreatable { d with
      tests := d.tests.set row.id row
      plans := plans
      rules := rules } row)
    (plansKeyed : Keyed PerformanceTestPlan.id plans) (rulesKeyed : Keyed SlaRule.id rules)
    (replacedPlans : Replaced planPatch planSpecs org row.id d.plans plans)
    (replacedRules : Replaced rulePatch ruleSpecs org row.id d.rules rules) :
    Valid { d with
      tests := d.tests.set row.id row
      plans := plans
      rules := rules } where
  projects := valid.projects
  pools := valid.pools
  scriptRepos := valid.scriptRepos
  tests id row' found := by
    rw [Dict.get?_set] at found
    split at found
    · rename_i here
      cases found
      exact ⟨here, creatable⟩
    · rename_i elsewhere
      obtain ⟨keyed, ⟨body, name, description, configuration, tags, itsPlans, itsRules⟩, project,
        pool, repos⟩ := valid.tests id row' found
      have differs : ¬ (row'.organizationId = org ∧ row'.id = row.id) := by
        rintro ⟨-, same⟩
        exact elsewhere (same.symm.trans keyed)
      have samePlans := replacedPlans.2 _ _ differs
      refine ⟨keyed, ⟨body, name, description, configuration, tags, samePlans.trans itsPlans,
        (replacedRules.2 _ _ differs).trans itsRules⟩, project, pool, ?_⟩
      change ∀ plan ∈ planSpecs row'.organizationId row'.id plans, _
      rw [samePlans]
      exact repos
  plans := plansKeyed
  rules := rulesKeyed

end Plimsoll.Patches
