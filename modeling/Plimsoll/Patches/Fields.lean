import Plimsoll.Patches.Statements

/-!
What an update makes of a row: the present fields take their values, and the row is
still one that could have been created.
-/

namespace Plimsoll.Patches

open Python Contracts
open Database (assigned assignedNullable exists_ Keyed)
open ScriptRepos (given)
open PerformanceTests (planSpecs)

variable {d : Database} {now : Timestamp} {id : Uuid}

section

variable {α : Type} {patch : Patch α}

/-! ## Fields -/

theorem takes_of_assigned {old new : α} (made : assigned old patch = .ok new) :
    Takes patch old new := by
  cases patch with
  | unset => exact (Except.ok.inj made).symm
  | null => cases made
  | value value => exact (Except.ok.inj made).symm

theorem takesNullable_assigned {old : Option α} :
    TakesNullable patch old (assignedNullable old patch) := by
  cases patch <;> rfl

/-- Only `null` is not assigned. -/
theorem exists_assigned {old : α} (there : patch ≠ .null) :
    ∃ new, assigned old patch = .ok new := by
  cases patch with
  | unset => exact ⟨old, rfl⟩
  | null => exact absurd rfl there
  | value value => exact ⟨value, rfl⟩

/-- A field keeps what its old value had and its given value has. -/
theorem Takes.holds {P : α → Prop} {old new : α} (takes : Takes patch old new) (was : P old)
    (is : ∀ value, patch = .value value → P value) : P new := by
  cases patch with
  | unset =>
      obtain rfl : new = old := takes
      exact was
  | null => cases takes
  | value value =>
      obtain rfl : new = value := takes
      exact is new rfl

theorem TakesNullable.holds {P : α → Prop} {old new : Option α}
    (takes : TakesNullable patch old new) (was : ∀ value, old = some value → P value)
    (is : ∀ value, patch = .value value → P value) : ∀ value, new = some value → P value := by
  intro value same
  cases patch with
  | unset =>
      obtain rfl : new = old := takes
      exact was value same
  | null =>
      obtain rfl : new = none := takes
      cases same
  | value value' =>
      obtain rfl : new = some value' := takes
      cases same
      exact is value rfl

/-- A field that is not given is left alone. -/
theorem unset_of_given {β : Type} {x : β} (none_ : (if given patch then [x] else []) = []) :
    patch = .unset := by
  cases patch with
  | unset => rfl
  | null => cases none_
  | value value => cases none_

theorem takes_unset {old : α} (unset : patch = .unset) : Takes patch old old := by
  subst unset
  rfl

theorem takesNullable_unset {old : Option α} (unset : patch = .unset) :
    TakesNullable patch old old := by
  subst unset
  rfl

end

/-! ## Projects -/

theorem exists_updatedProject {old : Project} {body : ProjectUpdate} (name : body.name ≠ .null)
    (tags : body.tags ≠ .null) :
    ∃ new, Database.updatedProject now old (Projects.changesOf body) = .ok new := by
  obtain ⟨newName, named⟩ := @exists_assigned _ _ old.name name
  obtain ⟨newTags, tagged⟩ := @exists_assigned _ _ old.tags tags
  simp only [Database.updatedProject, Projects.changesOf, named, tagged]
  exact ⟨_, rfl⟩

theorem projectPatched_of_ok {old new : Project} {body : ProjectUpdate}
    (made : Database.updatedProject now old (Projects.changesOf body) = .ok new) :
    ProjectPatched body old new := by
  obtain ⟨named, tagged, made⟩ := Database.updatedProject_ok made
  rw [made]
  exact ⟨takes_of_assigned named, takesNullable_assigned, takesNullable_assigned,
    takes_of_assigned tagged, rfl⟩

theorem projectPatched_nothing {old : Project} {body : ProjectUpdate}
    (nothing : Projects.changedColumns body = []) : ProjectPatched body old old := by
  rw [Projects.changedColumns] at nothing
  simp only [List.append_eq_nil_iff] at nothing
  obtain ⟨⟨⟨name, description⟩, environment⟩, tags⟩ := nothing
  exact ⟨takes_unset (unset_of_given name), takesNullable_unset (unset_of_given description),
    takesNullable_unset (unset_of_given environment), takes_unset (unset_of_given tags), rfl⟩

theorem projectCreatable_patched {old new : Project} {body : ProjectUpdate} {d' : Database}
    (creatable : ProjectCreatable d old) (keyed : old.id = id)
    (patched : ProjectPatched body old new) (after : d'.projects = d.projects.set id new) :
    ProjectCreatable d' new := by
  obtain ⟨⟨created, name, projectKey, description, environment, tags⟩, alone⟩ := creatable
  have others := patched.others
  have sameKey : new.projectKey = old.projectKey := by rw [others]
  have sameOrg : new.organizationId = old.organizationId := by rw [others]
  have sameId : new.id = id := by rw [others, keyed]
  refine ⟨⟨{
    name := new.name
    projectKey := new.projectKey
    description := new.description
    environment := new.environment
    tags := new.tags
    name_length := patched.name.holds (name ▸ created.name_length) body.name_length
    projectKey_length := by rw [sameKey, projectKey]; exact created.projectKey_length
    projectKey_pattern := by rw [sameKey, projectKey]; exact created.projectKey_pattern
    environment_length := patched.environment.holds (environment ▸ created.environment_length)
      body.environment_length }, rfl, rfl, rfl, rfl, rfl⟩, ?_⟩
  intro id' other found owner same
  rw [after, Dict.get?_set] at found
  split at found
  · rename_i here
    exact here.symm.trans sameId.symm
  · rw [sameId, ← keyed]
    exact alone id' other found (owner.trans sameOrg) (same.trans sameKey)

/-! ## Pools -/

/-- Nobody else has the name of the pool. -/
def NameFree (d : Database) (row : GeneratorPool) (name : String) : Prop :=
  ∀ id other, d.pools.get? id = some other → other.organizationId = row.organizationId →
    other.name = name → id = row.id

theorem exists_updatedPool {old : GeneratorPool} {body : PoolUpdate}
    (keyed : Keyed GeneratorPool.id d.pools) (name : body.name ≠ .null)
    (maxGenerators : body.maxGenerators ≠ .null)
    (maxVusPerGenerator : body.maxVusPerGenerator ≠ .null)
    (free : ∀ new, Takes body.name old.name new → NameFree d old new) :
    ∃ new, d.updatedPool now old (Pools.changesOf body) = .ok new := by
  obtain ⟨newName, named⟩ := @exists_assigned _ _ old.name name
  obtain ⟨newGenerators, generators⟩ := @exists_assigned _ _ old.maxGenerators maxGenerators
  obtain ⟨newVus, vus⟩ := @exists_assigned _ _ old.maxVusPerGenerator maxVusPerGenerator
  simp only [Database.updatedPool, Pools.changesOf, named, generators, vus]
  refine ⟨_, if_neg ?_⟩
  intro taken
  obtain ⟨⟨id', other⟩, member, same⟩ := List.any_eq_true.mp taken
  obtain ⟨differs, owner, sameName⟩ := of_decide_eq_true same
  have found := Dict.get?_eq_some_iff.mpr member
  rw [keyed id' other found] at differs
  exact differs (free newName (takes_of_assigned named) id' other found owner sameName)

theorem poolPatched_of_ok {old new : GeneratorPool} {body : PoolUpdate}
    (made : d.updatedPool now old (Pools.changesOf body) = .ok new) : PoolPatched body old new := by
  obtain ⟨named, generators, vus, made⟩ := Database.updatedPool_ok made
  rw [made]
  exact ⟨takes_of_assigned named, takesNullable_assigned, takesNullable_assigned,
    takes_of_assigned generators, takes_of_assigned vus, rfl⟩

theorem poolPatched_nothing {old : GeneratorPool} {body : PoolUpdate}
    (nothing : Pools.changedColumns body = []) : PoolPatched body old old := by
  rw [Pools.changedColumns] at nothing
  simp only [List.append_eq_nil_iff] at nothing
  obtain ⟨⟨⟨⟨name, config⟩, region⟩, generators⟩, vus⟩ := nothing
  exact ⟨takes_unset (unset_of_given name), takesNullable_unset (unset_of_given config),
    takesNullable_unset (unset_of_given region), takes_unset (unset_of_given generators),
    takes_unset (unset_of_given vus), rfl⟩

/-- A nullable column that is not given `null` has a value if it had one. -/
theorem TakesNullable.exists_some {α : Type} {patch : Patch α} {old new : Option α} {value : α}
    (takes : TakesNullable patch old new) (was : old = some value) (there : patch ≠ .null) :
    ∃ value, new = some value := by
  cases patch with
  | unset => exact ⟨value, takes.trans was⟩
  | null => exact absurd rfl there
  | value value => exact ⟨value, takes⟩

theorem PoolCreatable.configured {row : GeneratorPool} (creatable : PoolCreatable d row) :
    ∃ config, row.config = some config := by
  obtain ⟨⟨created, -, -, stored, -⟩, -⟩ := creatable
  exact ⟨_, stored⟩

theorem poolCreatable_patched {old new : GeneratorPool} {body : PoolUpdate} {d' : Database}
    (creatable : PoolCreatable d old) (keyed : old.id = id) (config : body.config ≠ .null)
    (free : ∀ new, Takes body.name old.name new → NameFree d old new)
    (patched : PoolPatched body old new) (after : d'.pools = d.pools.set id new) :
    PoolCreatable d' new := by
  obtain ⟨⟨created, name, runtime, stored, region, generators, vus⟩, -⟩ := creatable
  have others := patched.others
  have sameOrg : new.organizationId = old.organizationId := by rw [others]
  have sameId : new.id = id := by rw [others, keyed]
  obtain ⟨newConfig, shown⟩ := patched.config.exists_some stored config
  refine ⟨⟨{
    name := new.name
    runtime := new.runtime
    config := newConfig
    region := new.region
    maxGenerators := new.maxGenerators
    maxVusPerGenerator := new.maxVusPerGenerator
    name_length := patched.name.holds (name ▸ created.name_length) body.name_length
    region_length := patched.region.holds (region ▸ created.region_length) body.region_length
    maxGenerators_ge := patched.maxGenerators.holds (generators ▸ created.maxGenerators_ge)
      body.maxGenerators_ge
    maxVusPerGenerator_ge := patched.maxVusPerGenerator.holds (vus ▸ created.maxVusPerGenerator_ge)
      body.maxVusPerGenerator_ge }, rfl, rfl, shown, rfl, rfl, rfl⟩, ?_⟩
  intro id' other found owner same
  rw [after, Dict.get?_set] at found
  split at found
  · rename_i here
    exact here.symm.trans sameId.symm
  · rw [sameId, ← keyed]
    exact free new.name patched.name id' other found (owner.trans sameOrg) same

/-! ## Script repositories -/

theorem exists_updated {old : ScriptRepo} {body : ScriptRepoUpdate} (name : body.name ≠ .null)
    (planPath : body.planPath ≠ .null) (defaultRef : body.defaultRef ≠ .null)
    (there : ∀ id ∈ assignedNullable old.credentialId body.credentialId,
      (d.credentials.get? id).isSome = true) :
    ∃ new, d.updated now old (ScriptRepos.changesOf body) = .ok new := by
  obtain ⟨newName, named⟩ := @exists_assigned _ _ old.name name
  obtain ⟨newPath, placed⟩ := @exists_assigned _ _ old.planPath planPath
  obtain ⟨newRef, ref⟩ := @exists_assigned _ _ old.defaultRef defaultRef
  simp only [Database.updated, ScriptRepos.changesOf, named, placed, ref]
  refine ⟨_, if_pos ?_⟩
  cases refers : assignedNullable old.credentialId body.credentialId with
  | none => rfl
  | some id => exact there id refers

theorem scriptRepoPatched_of_ok {old new : ScriptRepo} {body : ScriptRepoUpdate}
    (made : d.updated now old (ScriptRepos.changesOf body) = .ok new) :
    ScriptRepoPatched body old new := by
  obtain ⟨named, placed, ref, -, made⟩ := Database.updated_ok made
  rw [made]
  exact ⟨takes_of_assigned named, takes_of_assigned placed, takes_of_assigned ref,
    takesNullable_assigned, rfl⟩

theorem scriptRepoPatched_nothing {old : ScriptRepo} {body : ScriptRepoUpdate}
    (nothing : ScriptRepos.changedColumns body = []) : ScriptRepoPatched body old old := by
  rw [ScriptRepos.changedColumns] at nothing
  simp only [List.append_eq_nil_iff] at nothing
  obtain ⟨⟨⟨name, planPath⟩, defaultRef⟩, credentialId⟩ := nothing
  exact ⟨takes_unset (unset_of_given name), takes_unset (unset_of_given planPath),
    takes_unset (unset_of_given defaultRef), takesNullable_unset (unset_of_given credentialId), rfl⟩

theorem scriptRepoCreatable_patched {old new : ScriptRepo} {body : ScriptRepoUpdate} {d' : Database}
    (creatable : ScriptRepoCreatable d old)
    (inside : ∀ planPath, body.planPath = .value planPath →
      insideTheRepository planPath = .ok planPath)
    (there : ∀ credential, body.credentialId = .value credential →
      Has old.organizationId d.credentials credential)
    (patched : ScriptRepoPatched body old new) (projects : d'.projects = d.projects)
    (credentials : d'.credentials = d.credentials) : ScriptRepoCreatable d' new := by
  obtain ⟨⟨created, name, repoUrl, planPath, defaultRef, credentialId⟩, project, credential⟩ :=
    creatable
  have others := patched.others
  have sameUrl : new.repoUrl = created.repoUrl := by rw [others, ← repoUrl]
  have sameOrg : new.organizationId = old.organizationId := by rw [others]
  have sameProject : new.projectId = old.projectId := by rw [others]
  refine ⟨⟨{
    name := new.name
    repoUrl := new.repoUrl
    planPath := new.planPath
    defaultRef := new.defaultRef
    credentialId := new.credentialId
    name_length := patched.name.holds (name ▸ created.name_length) body.name_length
    repoUrl_length := sameUrl ▸ created.repoUrl_length
    repoUrl_scheme := by rw [sameUrl]; exact created.repoUrl_scheme
    planPath_length := patched.planPath.holds (planPath ▸ created.planPath_length)
      body.planPath_length
    planPath_inside := patched.planPath.holds (P := fun path => insideTheRepository path = .ok path)
      (by rw [planPath]; exact created.planPath_inside) inside
    defaultRef_length := patched.defaultRef.holds (defaultRef ▸ created.defaultRef_length)
      body.defaultRef_length }, rfl, rfl, rfl, rfl, rfl⟩, ?_, ?_⟩
  · rw [projects, sameOrg, sameProject]
    exact project
  · rw [credentials, sameOrg]
    exact patched.credentialId.holds credential there

/-! ## Performance tests -/

theorem exists_updatedTest {old : PerformanceTest} {body : TestUpdate} (name : body.name ≠ .null)
    (tags : body.tags ≠ .null) :
    ∃ new, Database.updatedTest now old (PerformanceTests.changesOf body) = .ok new := by
  obtain ⟨newName, named⟩ := @exists_assigned _ _ old.name name
  obtain ⟨newTags, tagged⟩ := @exists_assigned _ _ old.tags tags
  simp only [Database.updatedTest, PerformanceTests.changesOf, named, tagged]
  exact ⟨_, rfl⟩

theorem testPatched_of_ok {old new : PerformanceTest} {body : TestUpdate}
    (made : Database.updatedTest now old (PerformanceTests.changesOf body) = .ok new) :
    TestPatched body old new := by
  obtain ⟨named, tagged, made⟩ := Database.updatedTest_ok made
  rw [made]
  exact ⟨takes_of_assigned named, takesNullable_assigned, takesNullable_assigned,
    takes_of_assigned tagged, rfl, rfl⟩

/-- A collection behind an update keeps what the old one had and what is given has. -/
theorem Replaced.holds {σ ρ : Type} {patch : Patch (List σ)}
    {specs : Uuid → Uuid → Dict Uuid ρ → List σ} {org testId : Uuid} {before after : Dict Uuid ρ}
    {P : List σ → Prop} (replaced : Replaced patch specs org testId before after)
    (was : P (specs org testId before)) (is : ∀ given, patch = .value given → P given) :
    P (specs org testId after) := by
  rw [replaced.1]
  cases patch with
  | unset => exact was
  | null => exact was
  | value given => exact is given rfl

theorem TestCreatable.configured {row : PerformanceTest} (creatable : TestCreatable d row) :
    ∃ configuration, row.configuration = some configuration := by
  obtain ⟨⟨created, -, -, configured, -⟩, -⟩ := creatable
  exact ⟨_, configured⟩

theorem testCreatable_patched {old new : PerformanceTest} {body : TestUpdate} {d' : Database}
    (creatable : TestCreatable d old) (configured : body.configuration ≠ .null)
    (resolves : Resolves old.organizationId d body) (patched : TestPatched body old new)
    (plans : Replaced body.plans planSpecs old.organizationId old.id d.plans d'.plans)
    (projects : d'.projects = d.projects) (pools : d'.pools = d.pools)
    (scriptRepos : d'.scriptRepos = d.scriptRepos) : TestCreatable d' new := by
  obtain ⟨⟨created, name, description, configuration, tags, oldPlans, -⟩, project, pool, repos⟩ :=
    creatable
  have others := patched.others
  have sameId : new.id = old.id := by rw [others]
  have sameOrg : new.organizationId = old.organizationId := by rw [others]
  have sameProject : new.projectId = old.projectId := by rw [others]
  obtain ⟨newConfiguration, shown⟩ := patched.configuration.exists_some configuration configured
  refine ⟨⟨{
    name := new.name
    description := new.description
    configuration := newConfiguration
    plans := planSpecs new.organizationId new.id d'.plans
    slaRules := PerformanceTests.ruleSpecs new.organizationId new.id d'.rules
    tags := new.tags
    name_length := patched.name.holds (name ▸ created.name_length) body.name_length
    plans_length := ?_ }, rfl, rfl, shown, rfl, rfl, rfl⟩, ?_, ?_, ?_⟩
  · rw [sameOrg, sameId]
    exact plans.holds (P := fun specs => 1 ≤ specs.length)
      (by rw [oldPlans]; exact created.plans_length) body.plans_length
  · rw [projects, sameOrg, sameProject]
    exact project
  · rw [pools, sameOrg]
    exact patched.configuration.holds pool resolves.1
  · rw [scriptRepos, sameOrg, sameId]
    exact plans.holds (P := fun specs => ∀ plan ∈ specs,
      Has old.organizationId d.scriptRepos plan.scriptRepoId) repos resolves.2

end Plimsoll.Patches
