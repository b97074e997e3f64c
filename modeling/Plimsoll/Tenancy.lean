import Plimsoll.History
import Plimsoll.Sql.Duties

/-!
Organisations beside each other.

A transaction changes rows of its own organisation only, and the rows of an organisation
refer to rows of the same one, whatever requests run side by side. The first is what the
policies check, in a transaction that is never bound to another organisation; the second
the foreign keys do not check, and every service has to look up what it refers to.
-/

namespace Plimsoll.Tenancy

open Python Contracts Transaction
open Database (Write RowLock Setting Statement Fault UniqueKey byKey byKey_eq_some_iff)
open History (Row rowAt written InPlace Stays evolution found_inPlace each_insert each_returning
  each_updating each_archiving each_deleteCredential)

/-! ## Rows of organisations -/

/-- The organisation of a row. -/
def orgOf : (lock : RowLock) → Row lock → Option Uuid
  | .family _, row => row.map RefreshTokenFamily.organizationId
  | .history _, row => row.map RefreshTokenHistory.organizationId
  | .project _, row => row.map Project.organizationId
  | .pool _, row => row.map GeneratorPool.organizationId
  | .credential _, row => row.map Credential.organizationId
  | .scriptRepo _, row => row.map ScriptRepo.organizationId
  | .scriptVersion _, row => row.map ScriptVersion.organizationId
  | .test _, row => row.map PerformanceTest.organizationId
  | .plan _, row => row.map PerformanceTestPlan.organizationId
  | .rule _, row => row.map SlaRule.organizationId
  | .targetPolicy _, row => row.map TargetPolicyRow.organizationId
  | .audit _, row => row.map AuditLog.organizationId
  | .entry _, _ => none

/-- What a row refers to, with the organisation that it has to be of. -/
def demands : (lock : RowLock) → Row lock → List (RowLock × Uuid)
  | .scriptRepo _, row =>
      row.toList.map fun found => (.project found.projectId, found.organizationId)
  | .scriptVersion _, row =>
      row.toList.map fun found => (.scriptRepo found.scriptRepoId, found.organizationId)
  | .test _, row => row.toList.flatMap fun found =>
      (.project found.projectId, found.organizationId) :: found.configuration.toList.map
        fun configuration => (.pool configuration.generatorPoolId, found.organizationId)
  | .plan _, row => row.toList.flatMap fun found =>
      [(.test found.performanceTestId, found.organizationId),
        (.scriptRepo found.spec.scriptRepoId, found.organizationId)]
  | .rule _, row =>
      row.toList.map fun found => (.test found.performanceTestId, found.organizationId)
  | _, _ => []

/-- The rows that a row refers to are of its organisation. -/
def Linked (lock : RowLock) (row : Row lock) (target : RowLock) (row' : Row target) : Prop :=
  ∀ org, (target, org) ∈ demands lock row → orgOf target row' = some org

theorem org_of_stays {ρ : Type} [Tenant ρ] {becomes : ρ → ρ → Prop} {before after : Option ρ}
    {org : Uuid} (stays : Stays becomes before after)
    (same : ∀ old new, becomes old new → Tenant.organizationId new = Tenant.organizationId old)
    (here : before.map Tenant.organizationId = some org) :
    after.map Tenant.organizationId = some org := by
  obtain ⟨old, there, owner⟩ := Option.map_eq_some_iff.mp here
  obtain ⟨new, there', became⟩ := stays old there
  exact Option.map_eq_some_iff.mpr ⟨new, there', (same old new became).trans owner⟩

/-- What is demanded of a row stays so. -/
theorem org_of_follows {lock target : RowLock} {row : Row lock} {r r' : Row target} {org : Uuid}
    (demanded : (target, org) ∈ demands lock row) (follows : History.Follows target r r')
    (here : orgOf target r = some org) : orgOf target r' = some org := by
  have kept : (∃ id, target = .project id) ∨ (∃ id, target = .pool id) ∨
      (∃ id, target = .scriptRepo id) ∨ ∃ id, target = .test id := by
    cases lock with
    | scriptRepo _ =>
        obtain ⟨found, -, same⟩ := List.mem_map.mp demanded
        exact Or.inl ⟨_, (congrArg Prod.fst same).symm⟩
    | scriptVersion _ =>
        obtain ⟨found, -, same⟩ := List.mem_map.mp demanded
        exact Or.inr (Or.inr (Or.inl ⟨_, (congrArg Prod.fst same).symm⟩))
    | test _ =>
        obtain ⟨found, -, member⟩ := List.mem_flatMap.mp demanded
        rcases List.mem_cons.mp member with same | pool
        · exact Or.inl ⟨_, congrArg Prod.fst same⟩
        · obtain ⟨configuration, -, same⟩ := List.mem_map.mp pool
          exact Or.inr (Or.inl ⟨_, (congrArg Prod.fst same).symm⟩)
    | plan _ =>
        obtain ⟨found, -, member⟩ := List.mem_flatMap.mp demanded
        rcases List.mem_cons.mp member with same | other
        · exact Or.inr (Or.inr (Or.inr ⟨_, congrArg Prod.fst same⟩))
        · exact Or.inr (Or.inr (Or.inl ⟨_, congrArg Prod.fst (List.mem_singleton.mp other)⟩))
    | rule _ =>
        obtain ⟨found, -, same⟩ := List.mem_map.mp demanded
        exact Or.inr (Or.inr (Or.inr ⟨_, (congrArg Prod.fst same).symm⟩))
    | _ => cases demanded
  rcases kept with ⟨id, rfl⟩ | ⟨id, rfl⟩ | ⟨id, rfl⟩ | ⟨id, rfl⟩
  · refine @org_of_stays Project _ _ _ _ _ follows (fun old new became => ?_) here
    exact (congrArg Project.organizationId became.1).trans rfl
  · refine @org_of_stays GeneratorPool _ _ _ _ _ follows (fun old new became => ?_) here
    exact (congrArg GeneratorPool.organizationId became.1).trans rfl
  · refine @org_of_stays ScriptRepo _ _ _ _ _ follows (fun old new became => ?_) here
    exact (congrArg ScriptRepo.organizationId became.1).trans rfl
  · refine @org_of_stays PerformanceTest _ _ _ _ _ follows (fun old new became => ?_) here
    exact (congrArg PerformanceTest.organizationId became.1).trans rfl

/-! ## The policies -/

/-- The policies pass a write: what it replaces is of the organisation that the transaction
is bound to, and so is what it leaves. -/
def Passed (c : Setting) (d : Database) (write : Write) : Prop :=
  (∀ org, orgOf write.lock (rowAt write.lock d) = some org → c.org = some org) ∧
    ∀ org, orgOf write.lock (written write) = some org → c.org = some org

section

variable {c : Setting} {d : Database} {write : Write}

theorem passed_entry (k : UniqueKey) : Passed c d (.entry k) := by
  constructor
  · intro org here
    cases here
  · intro org here
    cases here

/-- A row that is new, and may be seen. -/
theorem passed_new {ρ : Type} [Tenant ρ] {row : ρ} (sees : c.Sees row)
    (before : orgOf write.lock (rowAt write.lock d) = none)
    (after : orgOf write.lock (written write) = some (Tenant.organizationId row)) :
    Passed c d write := by
  constructor
  · intro org here
    rw [before] at here
    cases here
  · intro org here
    rw [after] at here
    exact Option.some.inj here ▸ sees

/-- A row that is seen, and what is made of it. -/
theorem passed_seen {ρ : Type} [Tenant ρ] {old : ρ} (sees : c.Sees old)
    (before : orgOf write.lock (rowAt write.lock d) = some (Tenant.organizationId old))
    (after : ∀ org, orgOf write.lock (written write) = some org → org = Tenant.organizationId old) :
    Passed c d write := by
  constructor
  · intro org here
    rw [before] at here
    exact Option.some.inj here ▸ sees
  · intro org here
    rw [after org here]
    exact sees

variable (inPlace : ∀ lock, InPlace lock (rowAt lock d))
include inPlace

theorem passed_updateProject {id : Uuid} {changes : Database.ProjectChanges} :
    ∀ w ∈ (Database.execute (.updateProject id changes) c d).2, Passed c d w := by
  refine each_updating fun old new found made w member => ?_
  obtain ⟨-, -, rest⟩ := Database.updatedProject_ok made
  have sameId : new.id = old.id := by rw [rest]
  have there := found_inPlace found (inPlace (.project id)) sameId
  rw [List.mem_singleton.mp member]
  refine passed_seen (byKey_eq_some_iff.mp found).2 (congrArg _ there) fun org here => ?_
  rw [← Option.some.inj here, rest]
  rfl

theorem passed_updatePool {id : Uuid} {changes : Database.PoolChanges} :
    ∀ w ∈ (Database.execute (.updatePool id changes) c d).2, Passed c d w := by
  refine each_updating fun old new found made w member => ?_
  obtain ⟨-, -, -, rest⟩ := Database.updatedPool_ok made
  have sameId : new.id = old.id := by rw [rest]
  have there := found_inPlace found (inPlace (.pool id)) sameId
  rcases List.mem_cons.mp member with rfl | entry
  · refine passed_seen (byKey_eq_some_iff.mp found).2 (congrArg _ there) fun org here => ?_
    rw [← Option.some.inj here, rest]
    rfl
  · rw [List.mem_singleton.mp entry]
    exact passed_entry _

theorem passed_updateScriptRepo {id : Uuid} {changes : Database.ScriptRepoChanges} :
    ∀ w ∈ (Database.execute (.updateScriptRepo id changes) c d).2, Passed c d w := by
  refine each_updating fun old new found made w member => ?_
  obtain ⟨-, -, -, -, rest⟩ := Database.updated_ok made
  have sameId : new.id = old.id := by rw [rest]
  have there := found_inPlace found (inPlace (.scriptRepo id)) sameId
  rw [List.mem_singleton.mp member]
  refine passed_seen (byKey_eq_some_iff.mp found).2 (congrArg _ there) fun org here => ?_
  rw [← Option.some.inj here, rest]
  rfl

theorem passed_updateDocument {id : Uuid} {expectedVersion : Int} {changes : Database.TestChanges} :
    ∀ w ∈ (Database.execute (.updateDocument id expectedVersion changes) c d).2,
      Passed c d w := by
  refine each_updating fun old new found made w member => ?_
  have found := (Option.filter_eq_some_iff.mp found).1
  obtain ⟨-, -, rest⟩ := Database.updatedTest_ok made
  have sameId : new.id = old.id := by rw [rest]
  have there := found_inPlace found (inPlace (.test id)) sameId
  rw [List.mem_singleton.mp member]
  refine passed_seen (byKey_eq_some_iff.mp found).2 (congrArg _ there) fun org here => ?_
  rw [← Option.some.inj here, rest]
  rfl

/-- The policies pass every write of every statement. -/
theorem passed_execute (s : Statement) : ∀ w ∈ (Database.execute s c d).2, Passed c d w := by
  have absent {ρ : Type} {f : ρ → Uuid} {row : Option ρ} (free : row = none) :
      row.map f = none := by rw [free]; rfl
  cases s with
  | insertFamily row => exact each_insert fun sees free => passed_new sees (absent free) rfl
  | recordHistory row => exact each_insert fun sees free => passed_new sees (absent free) rfl
  | insertProject row =>
      exact each_returning passed_entry fun sees free => passed_new sees (absent free) rfl
  | insertPool row =>
      exact each_returning passed_entry fun sees free => passed_new sees (absent free) rfl
  | insertCredential row =>
      exact each_returning passed_entry fun sees free => passed_new sees (absent free) rfl
  | insertScriptRepo row =>
      exact each_returning passed_entry fun sees free => passed_new sees (absent free) rfl
  | insertScriptVersion row =>
      exact each_returning passed_entry fun sees free => passed_new sees (absent free) rfl
  | insertTest row =>
      exact each_returning passed_entry fun sees free => passed_new sees (absent free) rfl
  | insertPlan row => exact each_insert fun sees free => passed_new sees (absent free) rfl
  | insertRule row => exact each_insert fun sees free => passed_new sees (absent free) rfl
  | insertPolicy row =>
      exact each_returning passed_entry fun sees free => passed_new sees (absent free) rfl
  | insertAudit row => exact each_insert fun sees free => passed_new sees (absent free) rfl
  | replaceHash familyId tokenHash =>
      intro w member
      obtain ⟨old, found, rfl⟩ := Option.map_eq_some_iff.mp (Option.mem_toList.mp member)
      have there := found_inPlace found (inPlace (.family familyId)) rfl
      exact passed_seen (byKey_eq_some_iff.mp found).2 (congrArg _ there) fun org here =>
        (Option.some.inj here).symm
  | revokeFamilyContaining tokenHash =>
      intro w member
      obtain ⟨old, found, rfl⟩ := Option.map_eq_some_iff.mp (Option.mem_toList.mp member)
      obtain ⟨entry, -, found⟩ := Option.bind_eq_some_iff.mp found
      have there := found_inPlace found (inPlace (.family entry.familyId)) rfl
      exact passed_seen (byKey_eq_some_iff.mp found).2 (congrArg _ there) fun org here =>
        (Option.some.inj here).symm
  | updateProject id changes => exact passed_updateProject inPlace
  | updatePool id changes => exact passed_updatePool inPlace
  | updateScriptRepo id changes => exact passed_updateScriptRepo inPlace
  | updateDocument id expectedVersion changes => exact passed_updateDocument inPlace
  | archiveProject id =>
      refine each_archiving fun old found => ?_
      have there := found_inPlace found (inPlace (.project id)) rfl
      exact passed_seen (byKey_eq_some_iff.mp found).2 (congrArg _ there) fun org here =>
        (Option.some.inj here).symm
  | archivePool id =>
      refine each_archiving fun old found => ?_
      have there := found_inPlace found (inPlace (.pool id)) rfl
      exact passed_seen (byKey_eq_some_iff.mp found).2 (congrArg _ there) fun org here =>
        (Option.some.inj here).symm
  | archiveScriptRepo id =>
      refine each_archiving fun old found => ?_
      have there := found_inPlace found (inPlace (.scriptRepo id)) rfl
      exact passed_seen (byKey_eq_some_iff.mp found).2 (congrArg _ there) fun org here =>
        (Option.some.inj here).symm
  | archiveTest id =>
      refine each_archiving fun old found => ?_
      have there := found_inPlace found (inPlace (.test id)) rfl
      exact passed_seen (byKey_eq_some_iff.mp found).2 (congrArg _ there) fun org here =>
        (Option.some.inj here).symm
  | deleteCredential id =>
      refine each_deleteCredential fun old found => ?_
      have there := found_inPlace found (inPlace (.credential id)) rfl
      refine passed_seen (byKey_eq_some_iff.mp found).2 (congrArg _ there) fun org here => ?_
      cases here
  | deletePlans testId =>
      intro w member
      obtain ⟨row, seen, rfl⟩ := List.mem_map.mp member
      obtain ⟨id, found, sees⟩ := Database.mem_visible.mp (List.mem_filter.mp seen).1
      obtain rfl : row.id = id := inPlace (.plan id) row found
      refine passed_seen sees (congrArg _ found) fun org here => ?_
      cases here
  | deleteRules testId =>
      intro w member
      obtain ⟨row, seen, rfl⟩ := List.mem_map.mp member
      obtain ⟨id, found, sees⟩ := Database.mem_visible.mp (List.mem_filter.mp seen).1
      obtain rfl : row.id = id := inPlace (.rule id) row found
      refine passed_seen sees (congrArg _ found) fun org here => ?_
      cases here
  | _ =>
      intro w member
      cases member

end

/-! ## What the services look up -/

/-- A row that the transaction sees. -/
def Own {ρ : Type} [Tenant ρ] (c : Setting) (table : Dict Uuid ρ) (id : Uuid) : Prop :=
  ∃ row, byKey c table id = some row

/-- What is owed before a statement: the transaction stays bound to its organisation, and
has looked up what a row refers to. -/
def Owed : Statement → Setting → Database → Prop
  | .setCurrentOrg _, _, _ => False
  | .insertScriptRepo row, c, d => Own c d.projects (row c.now).projectId
  | .insertScriptVersion row, c, d => Own c d.scriptRepos (row c.now).scriptRepoId
  | .insertTest row, c, d => Own c d.projects (row c.now).projectId ∧
      ∀ configuration, (row c.now).configuration = some configuration →
        Own c d.pools configuration.generatorPoolId
  | .updateDocument _ _ changes, c, d =>
      ∀ configuration, changes.configuration = .value configuration →
        Own c d.pools configuration.generatorPoolId
  | .insertPlan row, c, d =>
      Own c d.tests row.performanceTestId ∧ Own c d.scriptRepos row.spec.scriptRepoId
  | .insertRule row, c, d => Own c d.tests row.performanceTestId
  | _, _, _ => True

def duties : Sql.Duties evolution := ⟨Owed⟩

section

variable {c : Setting} {d d' : Database} {id : Uuid}

theorem own_of_stays {ρ : Type} [Tenant ρ] {becomes : ρ → ρ → Prop} {table table' : Dict Uuid ρ}
    (own : Own c table id) (stays : Stays becomes (table.get? id) (table'.get? id))
    (same : ∀ old new, becomes old new → Tenant.organizationId new = Tenant.organizationId old) :
    Own c table' id := by
  obtain ⟨old, found⟩ := own
  obtain ⟨there, sees⟩ := byKey_eq_some_iff.mp found
  obtain ⟨new, there', became⟩ := stays old there
  refine ⟨new, byKey_eq_some_iff.mpr ⟨there', ?_⟩⟩
  rw [Setting.Sees, same old new became]
  exact sees

theorem own_projects (own : Own c d.projects id) (onward : evolution.Onward d d') :
    Own c d'.projects id :=
  own_of_stays own (onward (.project id)) fun _ _ became =>
    (congrArg Project.organizationId became.1).trans rfl

theorem own_pools (own : Own c d.pools id) (onward : evolution.Onward d d') : Own c d'.pools id :=
  own_of_stays own (onward (.pool id)) fun _ _ became =>
    (congrArg GeneratorPool.organizationId became.1).trans rfl

theorem own_scriptRepos (own : Own c d.scriptRepos id) (onward : evolution.Onward d d') :
    Own c d'.scriptRepos id :=
  own_of_stays own (onward (.scriptRepo id)) fun _ _ became =>
    (congrArg ScriptRepo.organizationId became.1).trans rfl

theorem own_tests (own : Own c d.tests id) (onward : evolution.Onward d d') : Own c d'.tests id :=
  own_of_stays own (onward (.test id)) fun _ _ became =>
    (congrArg PerformanceTest.organizationId became.1).trans rfl

/-- What the transaction sees is of the organisation of the rows that it may write. -/
theorem org_of_own {ρ σ : Type} [Tenant ρ] [Tenant σ] {table : Dict Uuid ρ} {row : σ}
    (own : Own c table id) (sees : c.Sees row) :
    (table.get? id).map Tenant.organizationId = some (Tenant.organizationId row) := by
  obtain ⟨old, found⟩ := own
  obtain ⟨there, sees'⟩ := byKey_eq_some_iff.mp found
  rw [there, Option.map_some, ← sees, ← sees']

end

/-- What a write demands is so already. -/
def Fits (d : Database) (write : Write) : Prop :=
  ∀ target org, (target, org) ∈ demands write.lock (written write) →
    orgOf target (rowAt target d) = some org

section

variable {c : Setting} {d : Database}

theorem fits_nil {write : Write} (nothing : demands write.lock (written write) = []) :
    Fits d write := by
  intro target org demanded
  rw [nothing] at demanded
  cases demanded

theorem fits_insertScriptRepo {row : ScriptRepo} (own : Own c d.projects row.projectId)
    (sees : c.Sees row) : Fits d (.scriptRepo row) := by
  intro target org demanded
  cases List.mem_singleton.mp demanded
  exact org_of_own own sees

theorem fits_insertScriptVersion {row : ScriptVersion} (own : Own c d.scriptRepos row.scriptRepoId)
    (sees : c.Sees row) : Fits d (.scriptVersion row) := by
  intro target org demanded
  cases List.mem_singleton.mp demanded
  exact org_of_own own sees

theorem fits_test {row : PerformanceTest}
    (project : (d.projects.get? row.projectId).map Project.organizationId =
      some row.organizationId)
    (pool : ∀ configuration, row.configuration = some configuration →
      (d.pools.get? configuration.generatorPoolId).map GeneratorPool.organizationId =
        some row.organizationId) : Fits d (.test row) := by
  intro target org demanded
  obtain ⟨found, there, member⟩ := List.mem_flatMap.mp demanded
  obtain rfl : row = found := Option.some.inj (Option.mem_toList.mp there)
  rcases List.mem_cons.mp member with same | inPool
  · cases same
    exact project
  · obtain ⟨configuration, given, same⟩ := List.mem_map.mp inPool
    cases same
    exact pool configuration (Option.mem_toList.mp given)

theorem fits_insertPlan {row : PerformanceTestPlan} (test : Own c d.tests row.performanceTestId)
    (repo : Own c d.scriptRepos row.spec.scriptRepoId) (sees : c.Sees row) :
    Fits d (.plan row) := by
  intro target org demanded
  rcases List.mem_cons.mp demanded with same | other
  · cases same
    exact org_of_own test sees
  · cases List.mem_singleton.mp other
    exact org_of_own repo sees

theorem fits_insertRule {row : SlaRule} (test : Own c d.tests row.performanceTestId)
    (sees : c.Sees row) : Fits d (.rule row) := by
  intro target org demanded
  cases List.mem_singleton.mp demanded
  exact org_of_own test sees

variable (inPlace : ∀ lock, InPlace lock (rowAt lock d))
  (linked : ∀ lock target, Linked lock (rowAt lock d) target (rowAt target d))
include inPlace linked

omit inPlace in
/-- A row that is there demands what it demanded. -/
theorem fits_kept {write : Write}
    (same : demands write.lock (written write) = demands write.lock (rowAt write.lock d)) :
    Fits d write := by
  intro target org demanded
  rw [same] at demanded
  exact linked write.lock target org demanded

theorem fits_updateScriptRepo {id : Uuid} {changes : Database.ScriptRepoChanges} :
    ∀ w ∈ (Database.execute (.updateScriptRepo id changes) c d).2, Fits d w := by
  refine each_updating fun old new found made w member => ?_
  obtain ⟨-, -, -, -, rest⟩ := Database.updated_ok made
  have sameId : new.id = old.id := by rw [rest]
  have there := found_inPlace found (inPlace (.scriptRepo id)) sameId
  rw [List.mem_singleton.mp member]
  refine fits_kept linked ?_
  change _ = (d.scriptRepos.get? new.id).toList.map _
  rw [there, rest]
  rfl

/-- A test that is updated keeps its project; its pool is looked up where it is new. -/
theorem fits_updateDocument {id : Uuid} {expectedVersion : Int} {changes : Database.TestChanges}
    (owed : Owed (.updateDocument id expectedVersion changes) c d) :
    ∀ w ∈ (Database.execute (.updateDocument id expectedVersion changes) c d).2, Fits d w := by
  refine each_updating fun old new found made w member => ?_
  have found := (Option.filter_eq_some_iff.mp found).1
  obtain ⟨-, -, rest⟩ := Database.updatedTest_ok made
  have sameId : old.id = id := inPlace (.test id) old (byKey_eq_some_iff.mp found).1
  have sees := (byKey_eq_some_iff.mp found).2
  have before (target : RowLock)
      (demanded : (target, old.organizationId) ∈ demands (.test id) (d.tests.get? id)) :
      orgOf target (rowAt target d) = some old.organizationId :=
    linked (.test id) target old.organizationId demanded
  have there := (byKey_eq_some_iff.mp found).1
  have sameOwner : new.organizationId = old.organizationId := by rw [rest]
  have sameProject : new.projectId = old.projectId := by rw [rest]
  have configured : new.configuration =
      Database.assignedNullable old.configuration changes.configuration := by rw [rest]
  rw [List.mem_singleton.mp member]
  refine fits_test ?_ fun configuration given => ?_
  · rw [sameProject, sameOwner]
    refine before (.project old.projectId) ?_
    rw [there]
    exact List.mem_flatMap.mpr ⟨old, List.mem_singleton_self _, List.mem_cons_self⟩
  · rw [sameOwner]
    rw [configured] at given
    cases patch : changes.configuration with
    | null =>
        rw [patch] at given
        cases given
    | value configuration' =>
        rw [patch] at given
        obtain rfl : configuration' = configuration := Option.some.inj given
        exact org_of_own (owed configuration' patch) sees
    | unset =>
        rw [patch] at given
        refine before (.pool configuration.generatorPoolId) ?_
        rw [there]
        refine List.mem_flatMap.mpr ⟨old, List.mem_singleton_self _, List.mem_cons_of_mem _ ?_⟩
        exact List.mem_map.mpr ⟨configuration, Option.mem_toList.mpr given, rfl⟩

/-- What is written fits, where nothing more is owed. -/
theorem fits_execute (s : Statement) (owed : Owed s c d) :
    ∀ w ∈ (Database.execute s c d).2, Fits d w := by
  have fits_entry (k : UniqueKey) : Fits d (.entry k) := fits_nil rfl
  cases s with
  | insertFamily row => exact each_insert fun _ _ => fits_nil rfl
  | recordHistory row => exact each_insert fun _ _ => fits_nil rfl
  | insertProject row => exact each_returning fits_entry fun _ _ => fits_nil rfl
  | insertPool row => exact each_returning fits_entry fun _ _ => fits_nil rfl
  | insertCredential row => exact each_returning fits_entry fun _ _ => fits_nil rfl
  | insertPolicy row => exact each_returning fits_entry fun _ _ => fits_nil rfl
  | insertAudit row => exact each_insert fun _ _ => fits_nil rfl
  | insertScriptRepo row =>
      exact each_returning fits_entry fun sees _ => fits_insertScriptRepo owed sees
  | insertScriptVersion row =>
      exact each_returning fits_entry fun sees _ => fits_insertScriptVersion owed sees
  | insertTest row =>
      exact each_returning fits_entry fun sees _ => fits_test (org_of_own owed.1 sees)
        fun configuration given => org_of_own (owed.2 configuration given) sees
  | insertPlan row => exact each_insert fun sees _ => fits_insertPlan owed.1 owed.2 sees
  | insertRule row => exact each_insert fun sees _ => fits_insertRule owed sees
  | replaceHash familyId tokenHash =>
      intro w member
      obtain ⟨old, -, rfl⟩ := Option.map_eq_some_iff.mp (Option.mem_toList.mp member)
      exact fits_nil rfl
  | revokeFamilyContaining tokenHash =>
      intro w member
      obtain ⟨old, -, rfl⟩ := Option.map_eq_some_iff.mp (Option.mem_toList.mp member)
      exact fits_nil rfl
  | updateProject id changes =>
      refine each_updating fun old new _ _ w member => ?_
      rw [List.mem_singleton.mp member]
      exact fits_nil rfl
  | updatePool id changes =>
      refine each_updating fun old new _ _ w member => ?_
      rcases List.mem_cons.mp member with rfl | entry
      · exact fits_nil rfl
      · rw [List.mem_singleton.mp entry]
        exact fits_entry _
  | updateScriptRepo id changes => exact fits_updateScriptRepo inPlace linked
  | updateDocument id expectedVersion changes => exact fits_updateDocument inPlace linked owed
  | archiveProject id => exact each_archiving fun _ _ => fits_nil rfl
  | archivePool id => exact each_archiving fun _ _ => fits_nil rfl
  | archiveScriptRepo id =>
      refine each_archiving fun old found => fits_kept linked ?_
      have there := found_inPlace found (inPlace (.scriptRepo id)) rfl
      change _ = (d.scriptRepos.get? old.id).toList.map _
      rw [there]
      rfl
  | archiveTest id =>
      refine each_archiving fun old found => fits_kept linked ?_
      have there := found_inPlace found (inPlace (.test id)) rfl
      change _ = (d.tests.get? old.id).toList.flatMap _
      rw [there]
      rfl
  | deleteCredential id => exact each_deleteCredential fun _ _ => fits_nil rfl
  | deletePlans testId =>
      intro w member
      obtain ⟨row, -, rfl⟩ := List.mem_map.mp member
      exact fits_nil rfl
  | deleteRules testId =>
      intro w member
      obtain ⟨row, -, rfl⟩ := List.mem_map.mp member
      exact fits_nil rfl
  | _ =>
      intro w member
      cases member

end

/-- Rows refer to rows of their organisation. -/
def links : Sql.Links duties where
  linked := Linked
  stays lock r target r₁ r₂ follows linked org demanded :=
    org_of_follows demanded follows (linked org demanded)
  execute s c d inPlace linked owed write member target org demanded := by
    have sound : evolution.Sound d := inPlace
    exact org_of_follows demanded ((sound.execute s c).2 target)
      (fits_execute inPlace linked s owed write member target org demanded)

/-- A transaction that stays bound to its organisation. -/
def binding : Sql.Duties evolution := ⟨fun s c _ => Database.rebind s c = c⟩

/-- What a request may change. -/
def confinement : Sql.Confinement binding Request where
  mine request lock row := ∀ org, orgOf lock row = some org → org = request.principal.organizationId
  bound request c := c.org = some request.principal.organizationId
  setting request s c d same bound := by
    have same : Database.rebind s c = c := same
    exact (congrArg Setting.org same).trans bound
  execute request s c d inPlace _ bound write member := by
    obtain ⟨before, after⟩ := passed_execute (c := c) inPlace s write member
    exact ⟨fun org here => Option.some.inj ((before org here).symm.trans bound),
      fun org here => Option.some.inj ((after org here).symm.trans bound)⟩

end Plimsoll.Tenancy
