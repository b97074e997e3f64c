import Plimsoll.Effects.Frames

/-!
The services take the effects of their requests.
-/

namespace Plimsoll.Effects

open Python Contracts Transaction
open Database (Write RowLock Setting Statement UniqueKey)
open History (InPlace rowAt)
open Relation (Comp)
open ScriptRepos (record requireProject requireCredential)
open Sql.Isolation (Takes.pure Takes.raise Takes.bind Takes.strengthen Takes.weaken Takes.read
  Takes.given Takes.mapError)

variable {α : Type} {c : Setting} {E : Transition} {E' : α → Transition} {org id : Uuid}

/-! ## What is read -/

/-- A statement that writes nothing, and whose answer does not matter. -/
theorem takes_reading {s : Statement} {result : s.Answer → α} (same : Database.rebind s c = c)
    (silent : ∀ d, (Database.execute s c d).2 = []) :
    Takes (Sql.Program.execute s fun answer => pure (result answer)) c E fun _ => E :=
  Takes.read same silent fun _ => Takes.pure fun _ _ made => made

/-- What is found need not be told. -/
theorem takes_forgetting {p : Transaction α} {known : α → Store → Prop}
    (takes : Takes p c E fun a => Comp E fun s s' => s = s' ∧ known a s) :
    Takes p c E fun _ => E := by
  refine takes.weaken ?_
  rintro a s s'' ⟨s', before, rfl, -⟩
  exact before

theorem takes_requireProject (bound : c.org = some org) :
    Takes (requireProject id) c E fun row => Comp E fun s s' =>
      s = s' ∧ Found .projects org id History.ProjectBecomes row s := by
  refine Takes.bind (takes_getProject bound) fun found => ?_
  cases found with
  | none => exact Takes.raise _
  | some row =>
      refine Takes.pure ?_
      rintro s s'' ⟨s', before, same, found⟩
      exact ⟨s', before, same, found row rfl⟩

theorem takes_requirePool (bound : c.org = some org) :
    Takes (Pools.require id) c E fun row => Comp E fun s s' =>
      s = s' ∧ Found .pools org id History.PoolBecomes row s := by
  refine Takes.bind (takes_getPool bound) fun found => ?_
  cases found with
  | none => exact Takes.raise _
  | some row =>
      refine Takes.pure ?_
      rintro s s'' ⟨s', before, same, found⟩
      exact ⟨s', before, same, found row rfl⟩

theorem takes_requireScriptRepo (bound : c.org = some org) :
    Takes (ScriptRepos.require id) c E fun row => Comp E fun s s' =>
      s = s' ∧ Found .scriptRepos org id History.ScriptRepoBecomes row s := by
  refine Takes.bind (takes_getScriptRepo bound) fun found => ?_
  cases found with
  | none => exact Takes.raise _
  | some row =>
      refine Takes.pure ?_
      rintro s s'' ⟨s', before, same, found⟩
      exact ⟨s', before, same, found row rfl⟩

theorem takes_document (row : PerformanceTest) :
    Takes (PerformanceTests.document row) c E fun document s s' =>
      document.row = row ∧ E s s' := by
  refine Takes.bind (takes_reading rfl fun _ => rfl) fun plans =>
    Takes.bind (takes_reading rfl fun _ => rfl) fun rules => Takes.pure fun s s' before => ?_
  exact ⟨rfl, before⟩

theorem takes_requireTest (bound : c.org = some org) :
    Takes (PerformanceTests.require id) c E fun document => Comp E fun s s' =>
      s = s' ∧ Found .tests org id History.TestBecomes document.row s := by
  refine Takes.bind (takes_getTest bound) fun found => ?_
  cases found with
  | none => exact Takes.raise _
  | some row =>
      refine (takes_document row).weaken ?_
      rintro document s s'' ⟨rfl, s', before, same, found⟩
      exact ⟨s', before, same, found document.row rfl⟩

theorem takes_requireCredential {credentialId : Option Uuid}
    {details : Uuid → List (String × Detail)} :
    Takes (requireCredential credentialId details) c E fun _ => E := by
  cases credentialId with
  | none => exact Takes.pure fun _ _ made => made
  | some credentialId =>
      refine Takes.bind (takes_reading rfl fun _ => rfl) fun found => ?_
      cases found with
      | none => exact Takes.raise _
      | some row => exact Takes.pure fun _ _ made => made

theorem takes_missingRepos (bound : c.org = some org) (plans : List TestPlanSpec) :
    Takes (PerformanceTests.missingRepos plans) c E fun _ => E := by
  induction plans with
  | nil => exact Takes.pure fun _ _ made => made
  | cons plan rest ih =>
      exact Takes.bind (takes_forgetting (takes_getScriptRepo bound)) fun _ =>
        Takes.bind ih fun _ => Takes.pure fun _ _ made => made

theorem takes_checkReferences {configuration : WorkloadSpec} {plans : List TestPlanSpec}
    (bound : c.org = some org) :
    Takes (PerformanceTests.checkReferences configuration plans) c E fun _ => E := by
  refine Takes.bind (takes_forgetting (takes_getPool bound)) fun pool =>
    Takes.bind (takes_missingRepos bound plans) fun missing => ?_
  split
  · exact Takes.pure fun _ _ made => made
  · exact Takes.raise _

theorem takes_checkUpdate {body : TestUpdate} {current : PerformanceTests.TestDocument}
    (bound : c.org = some org) :
    Takes (PerformanceTests.checkUpdate body current) c E fun _ => E := by
  have configured : Takes (PerformanceTests.configurationOr body current) c E fun _ => E := by
    unfold PerformanceTests.configurationOr
    split
    · exact Takes.pure fun _ _ made => made
    · unfold PerformanceTests.modelValidate
      split
      · exact Takes.pure fun _ _ made => made
      · exact Takes.raise _
  unfold PerformanceTests.checkUpdate
  split
  · exact Takes.bind configured fun _ => takes_checkReferences bound
  · exact Takes.pure fun _ _ made => made

/-! ## Archiving -/

/-- What is archived is told of. -/
theorem takes_archived {ρ σ : Type} [Tenant ρ] {kind : Kind ρ} {principal : AccessClaims}
    {require : Transaction σ} {archive : Transaction Bool} {archived : ρ → Bool}
    {archiveAt : Timestamp → ρ → ρ} {becomes : ρ → ρ → Prop} {shown : σ → ρ}
    {action entityType : String}
    (required : Takes require c Eq fun found => Comp Eq fun s s' =>
      s = s' ∧ Found kind org id becomes (shown found) s)
    (archives : ∀ E : Transition, (∀ s s', E s s' →
      ∃ row, kind.at_ id s' = some row ∧ Tenant.organizationId row = org) →
        Takes archive c E fun done =>
          Comp E (ArchivesNow kind org id archived (archiveAt c.now) done)) :
    Takes (require >>= fun _ => archive >>= fun done =>
        if done = true then record principal action entityType id none else pure ())
      c Eq fun _ => Archives org (kind.at_ id) kind.write archived archiveAt
        (Tells principal action entityType id none) := by
  refine Takes.bind required fun row => Takes.bind (archives _ ?_) fun done => ?_
  · rintro s s' ⟨s, rfl, rfl, row', there, -, owner⟩
    exact ⟨row', there, owner⟩
  · cases done with
    | true =>
        refine takes_record.weaken ?_
        rintro a s s'' ⟨s', ⟨s₁, ⟨s, rfl, rfl, -⟩, old, there, owner, live, rfl⟩, tells⟩
        exact Or.inl ⟨old, c.now, there, owner, live, trivial, tells⟩
    | false =>
        refine Takes.pure ?_
        rintro s s' ⟨s₁, ⟨s, rfl, rfl, -⟩, rfl, row, there, isArchived, owner⟩
        exact Or.inr ⟨rfl, row, there, isArchived, owner⟩

/-! ## The services -/

section

variable {dep : Deployment} {principal : AccessClaims}
  (bound : c.org = some principal.organizationId)

theorem takes_projects_create {body : ProjectCreate} :
    Takes (Projects.create principal body) c Eq fun row =>
      effect dep ⟨principal, .createProject body⟩ (.project row) := by
  refine Takes.bind takes_uuid4 fun id => Takes.bind takes_insertProject.mapError fun row =>
    Takes.bind takes_record fun _ => Takes.pure ?_
  rintro s s'' ⟨s', ⟨s, rfl, rfl, adds⟩, tells⟩
  exact ⟨id, c.now, rfl, s', adds, tells⟩

/-- A pool is shown as it is. -/
theorem takes_poolResponse (row : GeneratorPool) :
    Takes (Pools.response (some row)) c E fun response s s' =>
      ShowsPool (.pool response) row ∧ E s s' := by
  cases stored : row.config with
  | none =>
      simp only [Pools.response, stored]
      exact Takes.raise _
  | some config =>
      simp only [Pools.response, stored]
      exact Takes.pure fun s s' before => ⟨⟨config, stored, rfl⟩, before⟩

/-- A test is shown as it is, if its configuration is one. -/
theorem takes_testResponse (document : PerformanceTests.TestDocument) :
    Takes (PerformanceTests.response document) c E fun shown s s' => shown = document ∧ E s s' := by
  rw [PerformanceTests.response]
  cases document.row.configuration with
  | none => exact Takes.raise _
  | some configuration => exact Takes.pure fun s s' before => ⟨rfl, before⟩

theorem takes_pools_create {body : PoolCreate} :
    Takes (Pools.create principal body >>= fun row => Pools.response (some row)) c Eq
      fun response => effect dep ⟨principal, .createPool body⟩ (.pool response) := by
  have creates : Takes (Pools.create principal body) c Eq fun row =>
      Creates .pool (pool principal body) (fun made => row = made) fun row =>
        Tells principal "pool.created" "generator_pool" row.id
          (some [("runtime", .text body.runtime.text)]) := by
    refine Takes.bind takes_uuid4 fun id => Takes.bind takes_insertPool.mapError
      fun row => Takes.bind takes_record fun _ => Takes.pure ?_
    rintro s s'' ⟨s', ⟨s, rfl, rfl, adds⟩, tells⟩
    exact ⟨id, c.now, rfl, s', adds, tells⟩
  refine Takes.bind creates fun row => (takes_poolResponse row).weaken ?_
  rintro response s s' ⟨shows, id, now, rfl, made⟩
  exact ⟨id, now, shows, made⟩

/-- What the key provider makes of a plaintext. -/
theorem takes_encrypt {keys : Credentials.KeyProvider} {plaintext : List UInt8} :
    Takes (Credentials.encrypt keys plaintext) c E fun stored s s' => E s s' ∧ ∃ cipher nonce,
      keys = some cipher ∧ nonce.length = nonceBytes ∧
        stored = (nonce ++ cipher nonce plaintext, "local:v1") := by
  cases keys with
  | none => exact Takes.raise _
  | some cipher =>
      refine Takes.bind takes_nonce fun nonce => Takes.pure ?_
      rintro s s' ⟨length, before⟩
      exact ⟨before, cipher, nonce, rfl, length, rfl⟩

theorem takes_credentials_create {body : CredentialCreate} :
    Takes (Credentials.create dep.keys principal body) c Eq fun row =>
      effect dep ⟨principal, .createCredential body⟩ (.credential row) := by
  refine Takes.bind takes_encrypt fun stored => ?_
  obtain ⟨ciphertext, keyRef⟩ := stored
  refine Takes.bind takes_uuid4 fun id => Takes.bind takes_insertCredential.mapError
    fun row => Takes.bind takes_record fun _ => Takes.pure ?_
  rintro s s'' ⟨s', ⟨s₁, ⟨rfl, cipher, nonce, known, length, same⟩, rfl, adds⟩, tells⟩
  cases same
  exact ⟨cipher, nonce, known, length, id, c.now, rfl, s', adds, tells⟩

include bound

theorem takes_projects_update {body : ProjectUpdate} :
    Takes (Projects.update principal id body) c Eq fun row =>
      effect dep ⟨principal, .updateProject id body⟩ (.project row) := by
  refine Takes.bind (takes_requireProject bound) fun current => ?_
  by_cases unchanged : Projects.changedColumns body = []
  · simp only [effect, if_pos unchanged]
    refine Takes.pure ?_
    rintro s s' ⟨s, rfl, rfl, row', there, became, owner⟩
    exact ⟨rfl, current, row', rfl, there, became, owner⟩
  · simp only [effect, if_neg unchanged]
    refine Takes.bind (takes_updateProject bound) fun row => Takes.bind takes_record fun _ => ?_
    cases row with
    | none => exact Takes.raise _
    | some row =>
        refine Takes.pure ?_
        rintro s s'' ⟨s', ⟨s₁, ⟨s, rfl, rfl, -⟩, -, old, there, owner, -, rfl, rfl⟩, tells⟩
        exact ⟨old, c.now, there, owner, trivial, rfl, tells⟩

theorem takes_pools_update {body : PoolUpdate} :
    Takes (Pools.update principal id body >>= Pools.response) c Eq fun response =>
      effect dep ⟨principal, .updatePool id body⟩ (.pool response) := by
  have updates : Takes (Pools.update principal id body) c Eq fun found s s' =>
      ∀ response row, found = some row → ShowsPool (.pool response) row →
        effect dep ⟨principal, .updatePool id body⟩ (.pool response) s s' := by
    refine Takes.bind (takes_requirePool bound) fun current => ?_
    by_cases unchanged : Pools.changedColumns body = []
    · simp only [effect, if_pos unchanged]
      refine Takes.pure ?_
      rintro s s' ⟨s, rfl, rfl, row', there, became, owner⟩ response row same shows
      cases same
      exact ⟨rfl, current, row', shows, there, became, owner⟩
    · simp only [effect, if_neg unchanged]
      refine Takes.bind (takes_updatePool bound) fun found => Takes.bind takes_record fun _ =>
        Takes.pure ?_
      rintro s s'' ⟨s', ⟨s₁, ⟨s, rfl, rfl, -⟩, updates⟩, tells⟩ response row rfl shows
      obtain ⟨-, old, there, owner, -, rfl, rfl⟩ := updates
      exact ⟨old, c.now, there, owner, trivial, shows, tells⟩
  refine Takes.bind updates fun found => ?_
  cases found with
  | none => exact Takes.raise _
  | some row =>
      refine (takes_poolResponse row).weaken ?_
      rintro response s s' ⟨shows, happens⟩
      exact happens response row rfl shows

theorem takes_credentials_delete :
    Takes (Credentials.delete principal id) c Eq fun _ =>
      effect dep ⟨principal, .deleteCredential id⟩ .noContent := by
  refine Takes.bind (takes_reading rfl fun _ => rfl) fun found => ?_
  cases found with
  | none => exact Takes.raise _
  | some row =>
      refine Takes.bind (takes_reading rfl fun _ => rfl) fun inUse => ?_
      split
      · exact Takes.raise _
      · refine Takes.bind (takes_deleteCredential bound) fun done => takes_record.weaken ?_
        rintro a s s'' ⟨s', ⟨s, rfl, deletes⟩, tells⟩
        cases done with
        | true =>
            obtain ⟨old, there, owner, rfl⟩ := deletes
            exact Or.inr ⟨old, there, owner, tells⟩
        | false =>
            obtain rfl : s = s' := deletes
            exact Or.inl tells

theorem takes_scriptRepos_create {projectId : Uuid} {body : ScriptRepoCreate} :
    Takes (ScriptRepos.create principal projectId body) c Eq fun row =>
      effect dep ⟨principal, .createScriptRepo projectId body⟩ (.scriptRepo row) := by
  refine Takes.bind (takes_forgetting (takes_requireProject bound)) fun _ =>
    Takes.bind takes_requireCredential fun _ => Takes.bind takes_uuid4 fun id =>
      Takes.bind takes_insertScriptRepo fun row => Takes.bind takes_record fun _ => Takes.pure ?_
  rintro s s'' ⟨s', ⟨s, rfl, rfl, adds⟩, tells⟩
  exact ⟨id, c.now, rfl, s', adds, tells⟩

theorem takes_scriptRepos_update {body : ScriptRepoUpdate} :
    Takes (ScriptRepos.update principal id body) c Eq fun row =>
      effect dep ⟨principal, .updateScriptRepo id body⟩ (.scriptRepo row) := by
  refine Takes.bind (takes_requireScriptRepo bound) fun current => ?_
  by_cases unchanged : ScriptRepos.changedColumns body = []
  · simp only [effect, if_pos unchanged]
    refine Takes.pure ?_
    rintro s s' ⟨s, rfl, rfl, row', there, became, owner⟩
    exact ⟨rfl, current, row', rfl, there, became, owner⟩
  · simp only [effect, if_neg unchanged]
    refine Takes.bind takes_requireCredential fun _ => Takes.bind (takes_updateScriptRepo bound)
      fun row => Takes.bind takes_record fun _ => ?_
    cases row with
    | none => exact Takes.raise _
    | some row =>
        refine Takes.pure ?_
        rintro s s'' ⟨s', ⟨s₁, ⟨s, rfl, rfl, -⟩, -, old, there, owner, -, rfl, rfl⟩, tells⟩
        exact ⟨old, c.now, there, owner, trivial, rfl, tells⟩

omit bound in
/-- A test that comes was not there. -/
theorem comes_of_adds {row : PerformanceTest} {s s' : Store} (adds : Adds (.test row) s s') :
    s (.test row.id) ≠ s' (.test row.id) := by
  obtain ⟨vacant, rfl⟩ := adds
  intro same
  have there : put s (.test row) (.test row.id) = some row := Function.update_self ..
  exact Option.some_ne_none row (there.symm.trans (same.symm.trans vacant))

theorem takes_tests_create {projectId : Uuid} {body : TestCreate} :
    Takes (PerformanceTests.create principal projectId body >>= PerformanceTests.response) c Eq
      fun document => effect dep ⟨principal, .createTest projectId body⟩ (.test document) := by
  have creates : Takes (PerformanceTests.create principal projectId body) c Eq fun document =>
      effect dep ⟨principal, .createTest projectId body⟩ (.test document) := by
    refine Takes.bind (takes_forgetting (takes_requireProject bound)) fun _ =>
      Takes.bind (takes_checkReferences bound) fun _ => Takes.bind takes_uuid4 fun id =>
        Takes.bind takes_insertTest fun row => Takes.bind (takes_replacePlans bound ?_) fun _ =>
          Takes.bind (takes_replaceSlaRules bound ?_) fun _ => Takes.bind takes_record fun _ =>
            (takes_document row).weaken ?_
    · rintro s s' ⟨s, rfl, rfl, adds⟩
      exact comes_of_adds adds
    · rintro s s'' ⟨s', ⟨s, rfl, rfl, adds⟩, replaces⟩ same
      have kept : Leaves (· = .test id) s' s'' :=
        leaves_replacesPlans (fun _ => RowLock.noConfusion) replaces
      exact comes_of_adds adds (same.trans (kept _ rfl))
    · rintro document s s'' ⟨shown, s₃, ⟨s₂, ⟨s₁, ⟨s, rfl, rfl, adds⟩, plans⟩, rules⟩, tells⟩
      exact ⟨id, c.now, ⟨document, rfl, shown⟩, s₁, adds, s₃, ⟨s₂, plans, rules⟩, tells⟩
  refine Takes.bind creates fun document => (takes_testResponse document).weaken ?_
  rintro _ s s' ⟨rfl, happens⟩
  exact happens

theorem takes_projects_archive :
    Takes (Projects.archive principal id) c Eq fun _ =>
      effect dep ⟨principal, .archiveProject id⟩ .noContent :=
  takes_archived (takes_requireProject bound) fun _ there => takes_archiveProject bound there

theorem takes_pools_archive :
    Takes (Pools.archive principal id) c Eq fun _ =>
      effect dep ⟨principal, .archivePool id⟩ .noContent :=
  takes_archived (takes_requirePool bound) fun _ there => takes_archivePool bound there

theorem takes_scriptRepos_archive :
    Takes (ScriptRepos.archive principal id) c Eq fun _ =>
      effect dep ⟨principal, .archiveScriptRepo id⟩ .noContent :=
  takes_archived (takes_requireScriptRepo bound) fun _ there => takes_archiveScriptRepo bound there

theorem takes_tests_archive :
    Takes (PerformanceTests.archive principal id) c Eq fun _ =>
      effect dep ⟨principal, .archiveTest id⟩ .noContent :=
  takes_archived (takes_requireTest bound) fun _ there => takes_archiveTest bound there

omit bound in
theorem takes_whenGiven {σ : Type} {value : Option σ} {action : σ → Transaction Unit}
    {replaces : σ → Transition}
    (each : ∀ given, Takes (action given) c E fun _ => Comp E (replaces given)) :
    Takes (PerformanceTests.whenGiven value action) c E fun _ =>
      Comp E (WhenGiven value replaces) := by
  cases value with
  | none => exact Takes.pure fun s s' before => ⟨s', before, rfl⟩
  | some given => exact each given

omit bound in
/-- The version of a test that is updated is another. -/
theorem changes_of_updates {may : PerformanceTest → Prop} {body : TestUpdate} {now : Timestamp}
    {row : PerformanceTest} {s s' : Store}
    (updates : Updates .tests org id may (patchTest body now) (some row) s s') :
    s (.test id) ≠ s' (.test id) := by
  obtain ⟨key, old, there, -, -, rfl, rfl⟩ := updates
  obtain rfl : (patchTest body now old).id = id := key
  intro same
  have now_ : put s (.test (patchTest body now old)) (.test (patchTest body now old).id) =
      some (patchTest body now old) := Function.update_self ..
  have counted : old.version = old.version + 1 :=
    congrArg PerformanceTest.version (Option.some.inj (there.symm.trans (same.trans now_)))
  omega

theorem takes_tests_update {body : TestUpdate} :
    Takes (PerformanceTests.update principal id body >>= PerformanceTests.response) c Eq
      fun document => effect dep ⟨principal, .updateTest id body⟩ (.test document) := by
  have updates : Takes (PerformanceTests.update principal id body) c Eq fun document =>
      effect dep ⟨principal, .updateTest id body⟩ (.test document) := by
    refine Takes.bind (takes_forgetting (takes_requireTest bound)) fun current =>
      Takes.bind (takes_checkUpdate bound) fun _ =>
        Takes.bind (takes_updateDocument bound) fun found => ?_
    cases found with
    | none => exact Takes.raise _
    | some row =>
        refine Takes.bind (takes_whenGiven fun _ => takes_replacePlans bound ?_) fun _ =>
          Takes.bind (takes_whenGiven fun _ => takes_replaceSlaRules bound ?_) fun _ =>
            Takes.bind takes_record fun _ => (takes_document row).weaken ?_
        · rintro s s' ⟨s, rfl, updates⟩
          exact changes_of_updates updates
        · rintro s s'' ⟨s', ⟨s, rfl, updates⟩, replaces⟩ same
          have kept : Leaves (· = .test id) s' s'' := leaves_whenGiven
            (fun _ => leaves_replacesPlans fun _ => RowLock.noConfusion) replaces
          exact changes_of_updates updates (same.trans (kept _ rfl))
        · rintro document s s'' ⟨shown, s₃, ⟨s₂, ⟨s₁, ⟨s, rfl, updates⟩, plans⟩, rules⟩, tells⟩
          obtain ⟨-, old, there, owner, version, rfl, rfl⟩ := updates
          exact ⟨old, c.now, there, owner, version, ⟨document, rfl, shown⟩, s₃,
            ⟨s₂, plans, rules⟩, tells⟩
  refine Takes.bind updates fun document => (takes_testResponse document).weaken ?_
  rintro _ s s' ⟨rfl, happens⟩
  exact happens

theorem takes_targetPolicy_replace {allowlist : List String} :
    Takes (TargetPolicy.replace dep.ucd principal allowlist) c Eq fun row =>
      effect dep ⟨principal, .replaceTargetPolicy allowlist⟩ (.policy row) := by
  unfold TargetPolicy.replace
  cases valid : TargetPolicy.validateEntries dep.ucd allowlist with
  | error error => exact Takes.raise _
  | ok _ =>
      refine Takes.bind takes_uuid4 fun id => Takes.bind (takes_insertNextPolicy bound
        (fun _ _ => rfl) fun _ _ => rfl) fun row => Takes.bind takes_record fun _ => Takes.pure ?_
      rintro s s'' ⟨s', ⟨version, next, rfl, adds⟩, tells⟩
      exact ⟨valid, version, next, id, c.now, rfl, s', adds, tells⟩

theorem takes_scriptVersions_pin {repoId : Uuid} {planPath ref : String}
    {candidate : ScriptVersions.PinCandidate} :
    Takes (ScriptVersions.pinVersion principal repoId planPath ref candidate) c Eq fun pinned =>
      effect dep ⟨principal, .pinVersion repoId planPath ref candidate⟩
        (.version pinned.1 pinned.2) := by
  refine Takes.bind (takes_versionByCommit bound) fun existing => ?_
  cases existing with
  | some existing =>
      refine Takes.pure ?_
      rintro s s' ⟨s, rfl, rfl, found⟩
      obtain ⟨id, there, owner, rest⟩ := found existing rfl
      exact Or.inr ⟨rfl, id, existing, rfl, there, owner, rest⟩
  | none =>
      refine Takes.bind takes_uuid4 fun id => Takes.bind takes_insertScriptVersion fun row =>
        Takes.bind takes_record fun _ => Takes.pure ?_
      rintro s s'' ⟨s', ⟨s₁, ⟨s, rfl, rfl, -⟩, rfl, adds⟩, tells⟩
      exact Or.inl ⟨id, c.now, rfl, s', adds, tells⟩

end

/-- What a service returns is the answer. -/
theorem takes_answer {p : Transaction α} {request : Request} {dep : Deployment}
    {answer : α → Answer} (takes : Takes p c Eq fun a => effect dep request (answer a)) :
    Takes (p >>= fun a => pure (answer a)) c Eq (effect dep request) :=
  Takes.bind takes fun _ => Takes.pure fun _ _ happens => happens

/-- Every request that is answered takes its effect. -/
theorem takes_perform (dep : Deployment) (request : Request) (e : Environment) :
    Takes (request.perform dep) (Setting.of (some request.principal.organizationId) e) Eq
      (effect dep request) := by
  obtain ⟨principal, operation⟩ := request
  have bound : (Setting.of (some principal.organizationId) e).org = some principal.organizationId :=
    rfl
  cases operation with
  | createProject body => exact takes_answer takes_projects_create
  | updateProject id body => exact takes_answer (takes_projects_update bound)
  | archiveProject id => exact takes_answer (takes_projects_archive bound)
  | createPool body =>
      rw [show Request.perform dep ⟨principal, .createPool body⟩ = _ from
        (Sql.Program.bind_assoc (Pools.create principal body) _ _).symm]
      exact takes_answer takes_pools_create
  | updatePool id body =>
      rw [show Request.perform dep ⟨principal, .updatePool id body⟩ = _ from
        (Sql.Program.bind_assoc (Pools.update principal id body) _ _).symm]
      exact takes_answer (takes_pools_update bound)
  | archivePool id => exact takes_answer (takes_pools_archive bound)
  | createCredential body => exact takes_answer takes_credentials_create
  | deleteCredential id => exact takes_answer (takes_credentials_delete bound)
  | createScriptRepo projectId body => exact takes_answer (takes_scriptRepos_create bound)
  | updateScriptRepo id body => exact takes_answer (takes_scriptRepos_update bound)
  | archiveScriptRepo id => exact takes_answer (takes_scriptRepos_archive bound)
  | createTest projectId body =>
      rw [show Request.perform dep ⟨principal, .createTest projectId body⟩ = _ from
        (Sql.Program.bind_assoc (PerformanceTests.create principal projectId body) _ _).symm]
      exact takes_answer (takes_tests_create bound)
  | updateTest id body =>
      rw [show Request.perform dep ⟨principal, .updateTest id body⟩ = _ from
        (Sql.Program.bind_assoc (PerformanceTests.update principal id body) _ _).symm]
      exact takes_answer (takes_tests_update bound)
  | archiveTest id => exact takes_answer (takes_tests_archive bound)
  | replaceTargetPolicy allowlist => exact takes_answer (takes_targetPolicy_replace bound)
  | pinVersion repoId planPath ref candidate => exact takes_answer (takes_scriptVersions_pin bound)

/-! ## Runs -/

open Sql.Server

section

variable {dep : Deployment}
  {condition condition' : ServiceServer dep → Sql.Event (services dep) → Prop}
  {d : Database} {e : Environment} {s s' : ServiceServer dep}

/-- What is committed in a run is what the effects of the requests that were answered make of
the tables. -/
theorem serially_answered (inPlace : ∀ lock, InPlace lock (rowAt lock d))
    (urandom : ∀ n, (e.nonces n).length = nonceBytes)
    (run : Run condition { committed := d, environment := e } s) :
    Sql.Serially (effect dep) s.returned (store d) (store s.committed) :=
  isolation.serially_of_run (takes_perform dep)
    (fun request answer s s' happens => (orderly_of_effect dep request answer s s' happens).evolves)
    (fun request answer _ _ _ inPlace entered happens unlocked =>
      (orderly_of_effect dep request answer _ _ happens).keeps inPlace entered unlocked)
    inPlace urandom run

/-- Whatever requests run side by side, and between whatever two moments, the tables change
as if the requests that are answered in between took effect one after the other, each at
once and with nothing beside it, in the order in which they are answered. -/
theorem serially_of_runs (inPlace : ∀ lock, InPlace lock (rowAt lock d))
    (urandom : ∀ n, (e.nonces n).length = nonceBytes)
    (run : Run condition { committed := d, environment := e } s) (later : Run condition' s s') :
    ∃ answered, s'.returned = s.returned ++ answered ∧
      Sql.Serially (effect dep) answered (store s.committed) (store s'.committed) :=
  isolation.serially_of_later (takes_perform dep)
    (fun request answer s s' happens => (orderly_of_effect dep request answer s s' happens).evolves)
    (fun request answer _ _ _ inPlace entered happens unlocked =>
      (orderly_of_effect dep request answer _ _ happens).keeps inPlace entered unlocked)
    inPlace urandom run later

end

/-! ## A policy beside a project archived -/

open History (plain asAda oneProject Anyhow)

def sampleServer : ServiceServer plain where
  committed := oneProject
  environment := {
    tokens _ := ""
    uuids n := BitVec.ofNat 128 (n + 10)
    clock n := n
    nonces _ := List.replicate 12 7 }

/-- Two archive a project, and one replaces the policy meanwhile; the first is done. -/
def archivingBeside : List (Sql.Event (services plain)) :=
  [.start 0 (asAda (.archiveProject 3)), .start 1 (asAda (.archiveProject 3)),
    .start 2 (asAda (.replaceTargetPolicy ["shop.example.com"])), .advance 2, .advance 0,
    .advance 1, .advance 2, .advance 0, .advance 0, .advance 2, .advance 0, .commit 0]

/-- The others are done. -/
def doneBeside : List (Sql.Event (services plain)) :=
  [.advance 1, .advance 2, .advance 2, .commit 2, .commit 1]

/-- The policy that comes of it. -/
def policyBeside : TargetPolicyRow where
  id := 10
  organizationId := 2
  version := 1
  allowlist := ["shop.example.com"]
  createdBy := 1
  createdAt := 0

theorem serially_archivingBeside : ∃ s s' : ServiceServer plain, Run Anyhow sampleServer s ∧
    Run Anyhow s s' ∧ s.returned.map Prod.snd = [.noContent] ∧
      s'.returned.map Prod.snd = [.noContent, .policy policyBeside, .noContent] ∧
        ∃ answered, s'.returned = s.returned ++ answered ∧
          Sql.Serially (effect plain) answered (store s.committed) (store s'.committed) := by
  have reached : ((sampleServer.events Anyhow archivingBeside).bind fun s =>
      (s.events Anyhow doneBeside).map fun s' => (s.returned.map Prod.snd,
        s'.returned.map Prod.snd)) = some ([.noContent],
          [.noContent, .policy policyBeside, .noContent]) := by
    decide +kernel
  obtain ⟨s, first, rest⟩ := Option.bind_eq_some_iff.mp reached
  obtain ⟨s', second, same⟩ := Option.map_eq_some_iff.mp rest
  obtain ⟨returned, returned'⟩ := Prod.mk.inj same
  have run : Run Anyhow sampleServer s := run_of_events .refl first
  have later : Run Anyhow s s' := run_of_events .refl second
  exact ⟨s, s', run, later, returned, returned',
    serially_of_runs History.inPlace_oneProject (fun _ => rfl) run later⟩

end Plimsoll.Effects
