import Plimsoll.Database.Tables
import Plimsoll.Services
import Plimsoll.Sql.Evolution

/-!
What becomes of the rows of the tables, whatever transactions run side by side.

No statement of the repositories forgets a row of a project, a pool, a script
repository, a version, a test, a policy, an audit row or a refresh-token family;
the columns that no update names stay; what is archived stays archived, and what is
revoked stays revoked.
-/

namespace Plimsoll.History

open Python Contracts
open Database (Write RowLock Setting Statement Fault UniqueKey byKey byKey_eq_some_iff)

/-! ## Rows -/

/-- What stands under a lock. -/
abbrev Row : RowLock → Type
  | .family _ => Option RefreshTokenFamily
  | .history _ => Option RefreshTokenHistory
  | .project _ => Option Project
  | .pool _ => Option GeneratorPool
  | .credential _ => Option Credential
  | .scriptRepo _ => Option ScriptRepo
  | .scriptVersion _ => Option ScriptVersion
  | .test _ => Option PerformanceTest
  | .plan _ => Option PerformanceTestPlan
  | .rule _ => Option SlaRule
  | .targetPolicy _ => Option TargetPolicyRow
  | .audit _ => Option AuditLog
  | .entry _ => Unit

def rowAt : (lock : RowLock) → Database → Row lock
  | .family id, d => d.families.get? id
  | .history tokenHash, d => d.history.get? tokenHash
  | .project id, d => d.projects.get? id
  | .pool id, d => d.pools.get? id
  | .credential id, d => d.credentials.get? id
  | .scriptRepo id, d => d.scriptRepos.get? id
  | .scriptVersion id, d => d.scriptVersions.get? id
  | .test id, d => d.tests.get? id
  | .plan id, d => d.plans.get? id
  | .rule id, d => d.rules.get? id
  | .targetPolicy id, d => d.targetPolicies.get? id
  | .audit id, d => d.auditLogs.get? id
  | .entry _, _ => ()

/-- What a write leaves under its lock. -/
def written : (write : Write) → Row write.lock
  | .family row => some row
  | .history row => some row
  | .project row => some row
  | .pool row => some row
  | .credential row => some row
  | .deleteCredential _ => none
  | .scriptRepo row => some row
  | .scriptVersion row => some row
  | .test row => some row
  | .plan row => some row
  | .deletePlan _ => none
  | .rule row => some row
  | .deleteRule _ => none
  | .targetPolicy row => some row
  | .audit row => some row
  | .entry _ => ()

/-- The tables, row by row. -/
def rows : Sql.Rows postgres where
  Row := Row
  row := rowAt
  written := written
  row_apply write d := by
    cases write with
    | entry key => rfl
    | deleteCredential id => exact (Dict.get?_pop _ _ _).trans (if_pos rfl)
    | deletePlan id => exact (Dict.get?_pop _ _ _).trans (if_pos rfl)
    | deleteRule id => exact (Dict.get?_pop _ _ _).trans (if_pos rfl)
    | _ => exact Dict.get?_set_self _ _ _
  row_apply_other write lock d other := by
    cases write <;> cases lock <;> first
      | rfl
      | exact Dict.get?_set_ne _ _ fun same => other (same ▸ rfl)
      | exact (Dict.get?_pop _ _ _).trans (if_neg fun same => other (congrArg _ same.symm))

/-! ## What a row may become -/

/-- A row that is there stays, as something that it may become. -/
def Stays {ρ : Type} (becomes : ρ → ρ → Prop) (before after : Option ρ) : Prop :=
  ∀ old, before = some old → ∃ new, after = some new ∧ becomes old new

/-- A family changes its hash, and is revoked for good. -/
def FamilyBecomes (old new : RefreshTokenFamily) : Prop :=
  new = { old with currentHash := new.currentHash, revokedAt := new.revokedAt } ∧
    (old.revokedAt.isSome = true → new.revokedAt.isSome = true)

/-- A project keeps its key, and is archived for good. -/
def ProjectBecomes (old new : Project) : Prop :=
  new = { old with
    name := new.name
    description := new.description
    environment := new.environment
    status := new.status
    tags := new.tags
    updatedAt := new.updatedAt } ∧
    (old.status = .archived → new.status = .archived)

/-- A pool keeps its runtime, and is archived for good. -/
def PoolBecomes (old new : GeneratorPool) : Prop :=
  new = { old with
    name := new.name
    config := new.config
    region := new.region
    maxGenerators := new.maxGenerators
    maxVusPerGenerator := new.maxVusPerGenerator
    status := new.status
    updatedAt := new.updatedAt } ∧
    (old.status = .archived → new.status = .archived)

/-- A script repository keeps its project and its address, and is archived for good. -/
def ScriptRepoBecomes (old new : ScriptRepo) : Prop :=
  new = { old with
    name := new.name
    defaultRef := new.defaultRef
    planPath := new.planPath
    credentialId := new.credentialId
    status := new.status
    updatedAt := new.updatedAt } ∧
    (old.status = .archived → new.status = .archived)

/-- A test keeps its project, is archived for good, and counts what is changed
otherwise. -/
def TestBecomes (old new : PerformanceTest) : Prop :=
  new = { old with
    name := new.name
    description := new.description
    status := new.status
    configuration := new.configuration
    version := new.version
    tags := new.tags
    updatedAt := new.updatedAt } ∧
    (old.status = .archived → new.status = .archived) ∧ old.version ≤ new.version ∧
      (old.version = new.version →
        new = { old with status := new.status, updatedAt := new.updatedAt })

/-- What may become of a row. A credential can be deleted, the plans and rules of a test
are replaced; versions, policies and audit rows stay as they are. -/
def Follows : (lock : RowLock) → Row lock → Row lock → Prop
  | .family _ => Stays FamilyBecomes
  | .history _ => Stays Eq
  | .project _ => Stays ProjectBecomes
  | .pool _ => Stays PoolBecomes
  | .scriptRepo _ => Stays ScriptRepoBecomes
  | .scriptVersion _ => Stays Eq
  | .test _ => Stays TestBecomes
  | .targetPolicy _ => Stays Eq
  | .audit _ => Stays Eq
  | .credential _ => fun _ _ => True
  | .plan _ => fun _ _ => True
  | .rule _ => fun _ _ => True
  | .entry _ => fun _ _ => True

section

variable {ρ : Type} {becomes : ρ → ρ → Prop}

theorem Stays.refl (same : ∀ row, becomes row row) (row : Option ρ) : Stays becomes row row :=
  fun old there => ⟨old, there, same old⟩

theorem Stays.trans (further : ∀ {a b c}, becomes a b → becomes b c → becomes a c)
    {before between after : Option ρ} (first : Stays becomes before between)
    (second : Stays becomes between after) : Stays becomes before after := by
  intro old there
  obtain ⟨mid, there', became⟩ := first old there
  obtain ⟨new, there'', became'⟩ := second mid there'
  exact ⟨new, there'', further became became'⟩

end

theorem FamilyBecomes.trans {a b c : RefreshTokenFamily} (first : FamilyBecomes a b)
    (second : FamilyBecomes b c) : FamilyBecomes a c := by
  obtain ⟨rest, revoked⟩ := first
  obtain ⟨rest', revoked'⟩ := second
  exact ⟨rest'.trans (by rw [rest]), revoked' ∘ revoked⟩

theorem ProjectBecomes.trans {a b c : Project} (first : ProjectBecomes a b)
    (second : ProjectBecomes b c) : ProjectBecomes a c := by
  obtain ⟨rest, archived⟩ := first
  obtain ⟨rest', archived'⟩ := second
  exact ⟨rest'.trans (by rw [rest]), archived' ∘ archived⟩

theorem PoolBecomes.trans {a b c : GeneratorPool} (first : PoolBecomes a b)
    (second : PoolBecomes b c) : PoolBecomes a c := by
  obtain ⟨rest, archived⟩ := first
  obtain ⟨rest', archived'⟩ := second
  exact ⟨rest'.trans (by rw [rest]), archived' ∘ archived⟩

theorem ScriptRepoBecomes.trans {a b c : ScriptRepo} (first : ScriptRepoBecomes a b)
    (second : ScriptRepoBecomes b c) : ScriptRepoBecomes a c := by
  obtain ⟨rest, archived⟩ := first
  obtain ⟨rest', archived'⟩ := second
  exact ⟨rest'.trans (by rw [rest]), archived' ∘ archived⟩

theorem TestBecomes.trans {a b c : PerformanceTest} (first : TestBecomes a b)
    (second : TestBecomes b c) : TestBecomes a c := by
  obtain ⟨rest, archived, counted, kept⟩ := first
  obtain ⟨rest', archived', counted', kept'⟩ := second
  refine ⟨rest'.trans (by rw [rest]), archived' ∘ archived, counted.trans counted', ?_⟩
  intro same
  have between : a.version = b.version := by omega
  have further : b.version = c.version := by omega
  exact (kept' further).trans (by rw [kept between])

theorem follows_refl (lock : RowLock) (row : Row lock) : Follows lock row row := by
  cases lock with
  | family _ => exact Stays.refl (fun _ => ⟨rfl, id⟩) row
  | history _ => exact Stays.refl (fun _ => rfl) row
  | project _ => exact Stays.refl (fun _ => ⟨rfl, id⟩) row
  | pool _ => exact Stays.refl (fun _ => ⟨rfl, id⟩) row
  | scriptRepo _ => exact Stays.refl (fun _ => ⟨rfl, id⟩) row
  | scriptVersion _ => exact Stays.refl (fun _ => rfl) row
  | test _ => exact Stays.refl (fun _ => ⟨rfl, id, le_refl _, fun _ => rfl⟩) row
  | targetPolicy _ => exact Stays.refl (fun _ => rfl) row
  | audit _ => exact Stays.refl (fun _ => rfl) row
  | _ => trivial

theorem follows_trans (lock : RowLock) (a b c : Row lock) (first : Follows lock a b)
    (second : Follows lock b c) : Follows lock a c := by
  cases lock with
  | family _ => exact @Stays.trans _ FamilyBecomes FamilyBecomes.trans a b c first second
  | history _ => exact @Stays.trans _ Eq Eq.trans a b c first second
  | project _ => exact @Stays.trans _ ProjectBecomes ProjectBecomes.trans a b c first second
  | pool _ => exact @Stays.trans _ PoolBecomes PoolBecomes.trans a b c first second
  | scriptRepo _ => exact @Stays.trans _ ScriptRepoBecomes ScriptRepoBecomes.trans a b c first second
  | scriptVersion _ => exact @Stays.trans _ Eq Eq.trans a b c first second
  | test _ => exact @Stays.trans _ TestBecomes TestBecomes.trans a b c first second
  | targetPolicy _ => exact @Stays.trans _ Eq Eq.trans a b c first second
  | audit _ => exact @Stays.trans _ Eq Eq.trans a b c first second
  | _ => trivial

/-! ## What a statement writes -/

section

variable {ρ σ : Type}

section

variable {κ : Type} [DecidableEq κ] [Tenant ρ] {c : Setting} {table : Dict κ ρ} {key : κ} {row : ρ}
  {referenced : Bool} {write : Write}

/-- An insertion fails, or writes its row where nothing stands against it. -/
theorem insert_cases :
    (∃ fault, Database.insert c table key row referenced write = (.error fault, [])) ∨
      Database.insert c table key row referenced write = (.ok (), [write]) ∧
        c.Sees row ∧ table.get? key = none ∧ referenced = true := by
  unfold Database.insert
  split
  · exact Or.inl ⟨_, rfl⟩
  · rename_i sees
    split
    · exact Or.inl ⟨_, rfl⟩
    · rename_i free
      rw [not_or, Option.not_isSome_iff_eq_none, Bool.not_eq_false] at free
      exact Or.inr ⟨rfl, not_not.mp sees, free⟩

theorem writes_insert :
    (Database.insert c table key row referenced write).2 = [] ∨
      (Database.insert c table key row referenced write).2 = [write] ∧ c.Sees row ∧
        table.get? key = none ∧ referenced = true := by
  rcases @insert_cases ρ κ _ _ c table key row referenced write with ⟨fault, failed⟩ | ⟨same, free⟩
  · exact Or.inl (congrArg Prod.snd failed)
  · exact Or.inr ⟨congrArg Prod.snd same, free⟩

/-- The entries are written with the row. -/
theorem writes_returning {result : σ} {entries : List UniqueKey} :
    (Database.returning result entries
        (Database.insert c table key row referenced write)).2 = [] ∨
      (Database.returning result entries
          (Database.insert c table key row referenced write)).2 = write :: entries.map Write.entry ∧
        c.Sees row ∧ table.get? key = none ∧ referenced = true := by
  rcases @insert_cases ρ κ _ _ c table key row referenced write with ⟨fault, failed⟩ | ⟨same, free⟩
  · rw [failed]
    exact Or.inl rfl
  · rw [same]
    exact Or.inr ⟨rfl, free⟩

end

theorem writes_updating {found : Option ρ} {update : ρ → Except Fault ρ} {writes : ρ → List Write} :
    (Database.updating found update writes).2 = [] ∨ ∃ old new, found = some old ∧
      update old = .ok new ∧ (Database.updating found update writes).2 = writes new := by
  cases answer : (Database.updating found update writes).1 with
  | ok result =>
      rcases Database.updating_ok answer with ⟨-, -, same⟩ | ⟨old, new, there, made, -, same⟩
      · exact Or.inl same
      · exact Or.inr ⟨old, new, there, made, same⟩
  | error fault =>
      left
      cases found with
      | none => rfl
      | some old =>
          unfold Database.updating at answer ⊢
          cases made : update old with
          | error fault => simp only [made]
          | ok new => simp [made] at answer

theorem writes_archiving {found : Option ρ} {archived : ρ → Bool} {write : ρ → Write} :
    (Database.archiving found archived write).2 = [] ∨ ∃ old, found = some old ∧
      (Database.archiving found archived write).2 = [write old] := by
  rcases @Database.archiving_cases ρ found archived write with same | ⟨old, there, -, same⟩
  · exact Or.inl (congrArg Prod.snd same)
  · exact Or.inr ⟨old, there, congrArg Prod.snd same⟩

end

/-! ## Statements -/

/-- A row stands under its own identifier. -/
def InPlace : (lock : RowLock) → Row lock → Prop
  | .family id => fun row => ∀ found, row = some found → found.id = id
  | .history tokenHash => fun row => ∀ found, row = some found → found.tokenHash = tokenHash
  | .project id => fun row => ∀ found, row = some found → found.id = id
  | .pool id => fun row => ∀ found, row = some found → found.id = id
  | .credential id => fun row => ∀ found, row = some found → found.id = id
  | .scriptRepo id => fun row => ∀ found, row = some found → found.id = id
  | .scriptVersion id => fun row => ∀ found, row = some found → found.id = id
  | .test id => fun row => ∀ found, row = some found → found.id = id
  | .plan id => fun row => ∀ found, row = some found → found.id = id
  | .rule id => fun row => ∀ found, row = some found → found.id = id
  | .targetPolicy id => fun row => ∀ found, row = some found → found.id = id
  | .audit id => fun row => ∀ found, row = some found → found.id = id
  | .entry _ => fun _ => True

theorem inPlace_written (write : Write) : InPlace write.lock (written write) := by
  cases write with
  | entry key => trivial
  | deleteCredential id => exact fun found impossible => by cases impossible
  | deletePlan id => exact fun found impossible => by cases impossible
  | deleteRule id => exact fun found impossible => by cases impossible
  | _ => exact fun found same => Option.some.inj same ▸ rfl

/-- A write that leaves its row as something that it may become. -/
def Proper (d : Database) (write : Write) : Prop :=
  Follows write.lock (rowAt write.lock d) (written write)

section

variable {c : Setting} {d : Database}

theorem proper_entry (k : UniqueKey) : Proper d (.entry k) := trivial

/-- A row that is new. -/
theorem stays_new {ρ : Type} {becomes : ρ → ρ → Prop} {before after : Option ρ}
    (free : before = none) : Stays becomes before after := by
  intro old there
  rw [free] at there
  cases there

/-- A row that is there. -/
theorem stays_old {ρ : Type} {becomes : ρ → ρ → Prop} {before : Option ρ} {old new : ρ}
    (there : before = some old) (became : becomes old new) : Stays becomes before (some new) := by
  intro old' there'
  rw [there, Option.some.injEq] at there'
  exact ⟨new, rfl, there' ▸ became⟩

end

/-! What holds of every write of a statement, from its kind. -/

section

variable {ρ : Type} {P : Write → Prop}

theorem each_insert {κ : Type} [DecidableEq κ] [Tenant ρ] {c : Setting} {table : Dict κ ρ} {key : κ}
    {row : ρ} {referenced : Bool} {write : Write}
    (new : c.Sees row → table.get? key = none → P write) :
    ∀ w ∈ (Database.insert c table key row referenced write).2, P w := by
  intro w member
  rcases @writes_insert ρ κ _ _ c table key row referenced write with same | ⟨same, sees, free, -⟩
  · rw [same] at member
    cases member
  · rw [same] at member
    rw [List.mem_singleton.mp member]
    exact new sees free

theorem each_returning {κ σ : Type} [DecidableEq κ] [Tenant ρ] {c : Setting} {table : Dict κ ρ}
    {key : κ} {row : ρ} {referenced : Bool} {write : Write} {result : σ} {entries : List UniqueKey}
    (entry : ∀ k, P (.entry k)) (new : c.Sees row → table.get? key = none → P write) :
    ∀ w ∈ (Database.returning result entries
      (Database.insert c table key row referenced write)).2, P w := by
  intro w member
  rcases @writes_returning ρ σ κ _ _ c table key row referenced write result entries with
    same | ⟨same, sees, free, -⟩
  · rw [same] at member
    cases member
  · rw [same] at member
    rcases List.mem_cons.mp member with rfl | other
    · exact new sees free
    · obtain ⟨k, -, rfl⟩ := List.mem_map.mp other
      exact entry k

theorem each_updating {found : Option ρ} {update : ρ → Except Fault ρ} {writes : ρ → List Write}
    (each : ∀ old new, found = some old → update old = .ok new → ∀ w ∈ writes new, P w) :
    ∀ w ∈ (Database.updating found update writes).2, P w := by
  intro w member
  rcases @writes_updating ρ found update writes with same | ⟨old, new, there, made, same⟩
  · rw [same] at member
    cases member
  · rw [same] at member
    exact each old new there made w member

theorem each_archiving {found : Option ρ} {archived : ρ → Bool} {write : ρ → Write}
    (each : ∀ old, found = some old → P (write old)) :
    ∀ w ∈ (Database.archiving found archived write).2, P w := by
  intro w member
  rcases @writes_archiving ρ found archived write with same | ⟨old, there, same⟩
  · rw [same] at member
    cases member
  · rw [same] at member
    rw [List.mem_singleton.mp member]
    exact each old there

/-- The deletion of a credential that is seen. -/
theorem each_deleteCredential {c : Setting} {d : Database} {id : Uuid}
    (each : ∀ old, byKey c d.credentials id = some old → P (.deleteCredential old.id)) :
    ∀ w ∈ (Database.execute (.deleteCredential id) c d).2, P w := by
  intro w member
  rw [Database.execute] at member
  split at member
  · cases member
  · rename_i old found
    split at member
    · cases member
    · rw [List.mem_singleton.mp member]
      exact each old found

end

/-- What a statement finds under a key stands in its place. -/
theorem found_inPlace {ρ : Type} [Tenant ρ] {c : Setting} {table : Dict Uuid ρ} {key : ρ → Uuid}
    {id other : Uuid} {old : ρ} (found : Database.byKey c table id = some old)
    (inPlace : ∀ row, table.get? id = some row → key row = id) (same : other = key old) :
    table.get? other = some old := by
  have there := (byKey_eq_some_iff.mp found).1
  rw [same, inPlace old there]
  exact there

section

variable {c : Setting} {d : Database} (inPlace : ∀ lock, InPlace lock (rowAt lock d))
include inPlace

theorem proper_updateProject {id : Uuid} {changes : Database.ProjectChanges} :
    ∀ w ∈ (Database.execute (.updateProject id changes) c d).2, Proper d w := by
  refine each_updating fun old new found made w member => ?_
  obtain ⟨-, -, rest⟩ := Database.updatedProject_ok made
  have sameId : new.id = old.id := by rw [rest]
  rw [List.mem_singleton.mp member]
  refine stays_old ?_ ⟨rest.trans (by rw [rest]), fun archived => ?_⟩
  · exact found_inPlace found (inPlace (.project id)) sameId
  · rw [rest]
    exact archived

theorem proper_updatePool {id : Uuid} {changes : Database.PoolChanges} :
    ∀ w ∈ (Database.execute (.updatePool id changes) c d).2, Proper d w := by
  refine each_updating fun old new found made w member => ?_
  obtain ⟨-, -, -, rest⟩ := Database.updatedPool_ok made
  have sameId : new.id = old.id := by rw [rest]
  rcases List.mem_cons.mp member with rfl | entry
  · refine stays_old ?_ ⟨rest.trans (by rw [rest]), fun archived => ?_⟩
    · exact found_inPlace found (inPlace (.pool id)) sameId
    · rw [rest]
      exact archived
  · rw [List.mem_singleton.mp entry]
    trivial

theorem proper_updateScriptRepo {id : Uuid} {changes : Database.ScriptRepoChanges} :
    ∀ w ∈ (Database.execute (.updateScriptRepo id changes) c d).2, Proper d w := by
  refine each_updating fun old new found made w member => ?_
  obtain ⟨-, -, -, -, rest⟩ := Database.updated_ok made
  have sameId : new.id = old.id := by rw [rest]
  rw [List.mem_singleton.mp member]
  refine stays_old ?_ ⟨rest.trans (by rw [rest]), fun archived => ?_⟩
  · exact found_inPlace found (inPlace (.scriptRepo id)) sameId
  · rw [rest]
    exact archived

theorem proper_updateDocument {id : Uuid} {expectedVersion : Int} {changes : Database.TestChanges} :
    ∀ w ∈ (Database.execute (.updateDocument id expectedVersion changes) c d).2, Proper d w := by
  refine each_updating fun old new found made w member => ?_
  obtain ⟨-, -, rest⟩ := Database.updatedTest_ok made
  have sameId : new.id = old.id := by rw [rest]
  have counted : new.version = old.version + 1 := by rw [rest]
  rw [List.mem_singleton.mp member]
  refine stays_old ?_ ⟨rest.trans (by rw [rest]), fun archived => ?_, by omega, by omega⟩
  · exact found_inPlace (Option.filter_eq_some_iff.mp found).1 (inPlace (.test id)) sameId
  · rw [rest]
    exact archived

/-- No statement leaves a row as something that it may not become. -/
theorem proper_execute (s : Statement) : ∀ w ∈ (Database.execute s c d).2, Proper d w := by
  cases s with
  | insertFamily row => exact each_insert fun _ free => stays_new free
  | recordHistory row => exact each_insert fun _ free => stays_new free
  | insertProject row => exact each_returning proper_entry fun _ free => stays_new free
  | insertPool row => exact each_returning proper_entry fun _ free => stays_new free
  | insertCredential row => exact each_returning proper_entry fun _ _ => trivial
  | insertScriptRepo row => exact each_returning proper_entry fun _ free => stays_new free
  | insertScriptVersion row => exact each_returning proper_entry fun _ free => stays_new free
  | insertTest row => exact each_returning proper_entry fun _ free => stays_new free
  | insertPlan row => exact each_insert fun _ _ => trivial
  | insertRule row => exact each_insert fun _ _ => trivial
  | insertPolicy row => exact each_returning proper_entry fun _ free => stays_new free
  | insertAudit row => exact each_insert fun _ free => stays_new free
  | replaceHash familyId tokenHash =>
      intro w member
      obtain ⟨old, found, rfl⟩ := Option.map_eq_some_iff.mp (Option.mem_toList.mp member)
      exact stays_old (found_inPlace found (inPlace (.family familyId)) rfl) ⟨rfl, id⟩
  | revokeFamilyContaining tokenHash =>
      intro w member
      obtain ⟨old, found, rfl⟩ := Option.map_eq_some_iff.mp (Option.mem_toList.mp member)
      obtain ⟨entry, -, found⟩ := Option.bind_eq_some_iff.mp found
      exact stays_old (found_inPlace found (inPlace (.family entry.familyId)) rfl)
        ⟨rfl, fun _ => rfl⟩
  | updateProject id changes => exact proper_updateProject inPlace
  | updatePool id changes => exact proper_updatePool inPlace
  | updateScriptRepo id changes => exact proper_updateScriptRepo inPlace
  | updateDocument id expectedVersion changes => exact proper_updateDocument inPlace
  | archiveProject id =>
      exact each_archiving fun old found =>
        stays_old (found_inPlace found (inPlace (.project id)) rfl) ⟨rfl, fun _ => rfl⟩
  | archivePool id =>
      exact each_archiving fun old found =>
        stays_old (found_inPlace found (inPlace (.pool id)) rfl) ⟨rfl, fun _ => rfl⟩
  | archiveScriptRepo id =>
      exact each_archiving fun old found =>
        stays_old (found_inPlace found (inPlace (.scriptRepo id)) rfl) ⟨rfl, fun _ => rfl⟩
  | archiveTest id =>
      exact each_archiving fun old found =>
        stays_old (found_inPlace found (inPlace (.test id)) rfl)
          ⟨rfl, fun _ => rfl, le_refl _, fun _ => rfl⟩
  | deleteCredential id => exact each_deleteCredential fun _ _ => trivial
  | deletePlans testId =>
      intro w member
      obtain ⟨row, -, rfl⟩ := List.mem_map.mp member
      trivial
  | deleteRules testId =>
      intro w member
      obtain ⟨row, -, rfl⟩ := List.mem_map.mp member
      trivial
  | _ =>
      intro w member
      cases member

end

/-! ## Runs -/

/-- The rows of the tables, and what becomes of them. -/
def evolution : Sql.Evolution postgres where
  toRows := rows
  holds := InPlace
  follows := Follows
  refl := follows_refl
  trans := follows_trans
  execute s _ _ inPlace write member :=
    ⟨inPlace_written write, proper_execute inPlace s write member⟩

/-- What a database has become where nothing was forgotten. -/
structure Remains (d d' : Database) : Prop where
  families : ∀ id, Stays FamilyBecomes (d.families.get? id) (d'.families.get? id)
  history : ∀ tokenHash, Stays Eq (d.history.get? tokenHash) (d'.history.get? tokenHash)
  projects : ∀ id, Stays ProjectBecomes (d.projects.get? id) (d'.projects.get? id)
  pools : ∀ id, Stays PoolBecomes (d.pools.get? id) (d'.pools.get? id)
  scriptRepos : ∀ id, Stays ScriptRepoBecomes (d.scriptRepos.get? id) (d'.scriptRepos.get? id)
  scriptVersions : ∀ id, Stays Eq (d.scriptVersions.get? id) (d'.scriptVersions.get? id)
  tests : ∀ id, Stays TestBecomes (d.tests.get? id) (d'.tests.get? id)
  targetPolicies : ∀ id, Stays Eq (d.targetPolicies.get? id) (d'.targetPolicies.get? id)
  auditLogs : ∀ id, Stays Eq (d.auditLogs.get? id) (d'.auditLogs.get? id)

theorem remains_of_onward {d d' : Database} (onward : evolution.Onward d d') : Remains d d' where
  families id := onward (.family id)
  history tokenHash := onward (.history tokenHash)
  projects id := onward (.project id)
  pools id := onward (.pool id)
  scriptRepos id := onward (.scriptRepo id)
  scriptVersions id := onward (.scriptVersion id)
  tests id := onward (.test id)
  targetPolicies id := onward (.targetPolicy id)
  auditLogs id := onward (.audit id)

open Sql.Server

/-- Whatever the programs of the transactions are, and however they interleave, nothing
that is committed at one moment of a run is forgotten or rewritten by a later one. -/
theorem remains_of_runs {ε α : Type} {sys : Sql.System postgres ε α}
    {condition condition' : Sql.Server sys → Sql.Event sys → Prop} {d : Database} {e : Environment}
    {s s' : Sql.Server sys} (inPlace : ∀ lock, InPlace lock (rowAt lock d))
    (run : Run condition { committed := d, environment := e } s) (later : Run condition' s s') :
    Remains s.committed s'.committed :=
  remains_of_onward (evolution.of_runs inPlace run later).2

/-! ## A project archived -/

/-- A project and its administrator. -/
def oneProject : Database where
  users := Dict.ofList [(1, {
    id := 1
    organizationId := 2
    email := "ada@example.com"
    name := "Ada"
    orgRole := "ORG_ADMIN" })]
  projects := Dict.ofList [(3, {
    id := 3
    organizationId := 2
    name := "Shop"
    projectKey := "SHOP"
    createdBy := 1
    createdAt := 0
    updatedAt := 0 })]

def plain : Deployment where
  ucd := Unicode.basic
  keys := none

def sampleServer : ServiceServer plain where
  committed := oneProject
  environment := {
    tokens _ := ""
    uuids n := BitVec.ofNat 128 (n + 10)
    clock n := n }

def asAda (operation : Operation) : Request where
  principal := ⟨1, 2, "ORG_ADMIN"⟩
  operation := operation

/-- Two archive the project at once; the second waits for the first. -/
def archiving : List (Sql.Event (services plain)) :=
  [.start 0 (asAda (.archiveProject 3)), .start 1 (asAda (.archiveProject 3)), .advance 0,
    .advance 1, .advance 0, .advance 0, .advance 0, .commit 0]

/-- The second goes on, and finds nothing to archive. -/
def archivingAgain : List (Sql.Event (services plain)) := [.advance 1, .commit 1]

theorem inPlace_oneProject (lock : RowLock) : InPlace lock (rowAt lock oneProject) := by
  cases lock with
  | entry key => trivial
  | project id =>
      intro found there
      have member := Dict.mem_of_get?_ofList there
      rw [List.mem_singleton] at member
      cases member
      rfl
  | _ =>
      intro found there
      cases there

/-- No condition on the steps of a run. -/
abbrev Anyhow (_ : ServiceServer plain) (_ : Sql.Event (services plain)) : Prop := True

theorem remains_archived : ∃ s s' : ServiceServer plain, Run Anyhow sampleServer s ∧
    Run Anyhow s s' ∧ s'.returned.length = 2 ∧
      (s'.committed.projects.get? 3).map Project.status = some .archived ∧
        Remains s.committed s'.committed := by
  have reached : ((sampleServer.events Anyhow archiving).bind fun s =>
      s.events Anyhow archivingAgain).map (fun s => (s.returned.length,
        (s.committed.projects.get? 3).map Project.status)) = some (2, some .archived) := by
    decide +kernel
  cases first : sampleServer.events Anyhow archiving with
  | none =>
      rw [first] at reached
      cases reached
  | some s =>
      rw [first, Option.bind_some] at reached
      cases second : s.events Anyhow archivingAgain with
      | none =>
          rw [second] at reached
          cases reached
      | some s' =>
          rw [second] at reached
          obtain ⟨returned, archived⟩ := Prod.mk.inj (Option.some.inj reached)
          have run : Run Anyhow sampleServer s := run_of_events .refl first
          have later : Run Anyhow s s' := run_of_events .refl second
          exact ⟨s, s', run, later, returned, archived,
            remains_of_runs inPlace_oneProject run later⟩

end Plimsoll.History
