import Plimsoll.History
import Plimsoll.Sql.Constraints

/-!
The unique indexes and the foreign keys of the tables, whatever transactions run side
by side.

A statement checks both against what it sees. What is committed in the end satisfies
them because it locks the entries that it makes, and shares the credential that it
refers to; every other row that is referred to is never deleted.
-/

namespace Plimsoll.Integrity

open Python Contracts
open Database (Write RowLock Setting Statement Fault UniqueKey byKey exists_ byKey_eq_some_iff)
open History (Row rowAt written InPlace Stays evolution found_inPlace writes_insert writes_returning
  writes_updating writes_archiving)

/-! ## Entries and references -/

/-- The entry of a row in the unique index of its table. -/
def entryOf : (lock : RowLock) → Row lock → Option UniqueKey
  | .project _, row => row.map fun found => .projectKey found.organizationId found.projectKey
  | .pool _, row => row.map fun found => .poolName found.organizationId found.name
  | .credential _, row => row.map fun found => .credentialName found.organizationId found.name
  | .scriptVersion _, row =>
      row.map fun found => .scriptVersion found.scriptRepoId found.commitSha found.planPath
  | .targetPolicy _, row => row.map fun found => .policyVersion found.organizationId found.version
  | _, _ => none

/-- The rows that a row refers to. -/
def references : (lock : RowLock) → Row lock → List RowLock
  | .history _, row => row.toList.map fun found => .family found.familyId
  | .scriptRepo _, row => row.toList.flatMap fun found =>
      .project found.projectId :: (found.credentialId.map RowLock.credential).toList
  | .scriptVersion _, row => row.toList.map fun found => .scriptRepo found.scriptRepoId
  | .test _, row => row.toList.map fun found => .project found.projectId
  | .plan _, row => row.toList.flatMap fun found =>
      [.test found.performanceTestId, .scriptRepo found.spec.scriptRepoId]
  | .rule _, row => row.toList.map fun found => .test found.performanceTestId
  | _, _ => []

/-- A row is there. -/
def Present : (lock : RowLock) → Row lock → Prop
  | .family _, row => row.isSome = true
  | .history _, row => row.isSome = true
  | .project _, row => row.isSome = true
  | .pool _, row => row.isSome = true
  | .credential _, row => row.isSome = true
  | .scriptRepo _, row => row.isSome = true
  | .scriptVersion _, row => row.isSome = true
  | .test _, row => row.isSome = true
  | .plan _, row => row.isSome = true
  | .rule _, row => row.isSome = true
  | .targetPolicy _, row => row.isSome = true
  | .audit _, row => row.isSome = true
  | .entry _, _ => True

/-- What no statement deletes. -/
def Permanent : RowLock → Prop
  | .credential _ => False
  | .plan _ => False
  | .rule _ => False
  | .entry _ => False
  | _ => True

/-- No two rows have one entry. -/
abbrev Unique (d : Database) : Prop := History.rows.Unique entryOf d

/-- Every row that is referred to is there. -/
abbrev Closed (d : Database) : Prop :=
  History.rows.Closed (fun lock row target => target ∈ references lock row) Present d

theorem present_stays (lock : RowLock) (row row' : Row lock) (permanent : Permanent lock)
    (follows : History.Follows lock row row') (present : Present lock row) : Present lock row' := by
  have stays {ρ : Type} {becomes : ρ → ρ → Prop} {before after : Option ρ}
      (stays : Stays becomes before after) (there : before.isSome = true) :
      after.isSome = true := by
    obtain ⟨old, here⟩ := Option.isSome_iff_exists.mp there
    obtain ⟨new, here', -⟩ := stays old here
    exact Option.isSome_iff_exists.mpr ⟨new, here'⟩
  cases lock with
  | credential _ => exact permanent.elim
  | plan _ => exact permanent.elim
  | rule _ => exact permanent.elim
  | entry _ => exact permanent.elim
  | _ => exact stays follows present

section

variable {d : Database}

/-- The row that an entry of the index is of. -/
def Holds (d : Database) (lock : RowLock) : UniqueKey → Prop
  | .projectKey org projectKey => ∃ id row, lock = .project id ∧ d.projects.get? id = some row ∧
      row.organizationId = org ∧ row.projectKey = projectKey
  | .poolName org name => ∃ id row, lock = .pool id ∧ d.pools.get? id = some row ∧
      row.organizationId = org ∧ row.name = name
  | .credentialName org name => ∃ id row, lock = .credential id ∧
      d.credentials.get? id = some row ∧ row.organizationId = org ∧ row.name = name
  | .scriptVersion repoId commitSha planPath => ∃ id row, lock = .scriptVersion id ∧
      d.scriptVersions.get? id = some row ∧ row.scriptRepoId = repoId ∧
        row.commitSha = commitSha ∧ row.planPath = planPath
  | .policyVersion org version => ∃ id row, lock = .targetPolicy id ∧
      d.targetPolicies.get? id = some row ∧ row.organizationId = org ∧ row.version = version

theorem holds_of_entryOf {lock : RowLock} {k : UniqueKey}
    (here : entryOf lock (rowAt lock d) = some k) : Holds d lock k := by
  cases lock with
  | project id =>
      obtain ⟨row, there, rfl⟩ := Option.map_eq_some_iff.mp here
      exact ⟨id, row, rfl, there, rfl, rfl⟩
  | pool id =>
      obtain ⟨row, there, rfl⟩ := Option.map_eq_some_iff.mp here
      exact ⟨id, row, rfl, there, rfl, rfl⟩
  | credential id =>
      obtain ⟨row, there, rfl⟩ := Option.map_eq_some_iff.mp here
      exact ⟨id, row, rfl, there, rfl, rfl⟩
  | scriptVersion id =>
      obtain ⟨row, there, rfl⟩ := Option.map_eq_some_iff.mp here
      exact ⟨id, row, rfl, there, rfl, rfl, rfl⟩
  | targetPolicy id =>
      obtain ⟨row, there, rfl⟩ := Option.map_eq_some_iff.mp here
      exact ⟨id, row, rfl, there, rfl, rfl⟩
  | _ => cases here

/-- A credential is referred to by script repositories only. -/
theorem references_credential {lock : RowLock} {id : Uuid}
    (here : .credential id ∈ references lock (rowAt lock d)) :
    ∃ repoId repo, d.scriptRepos.get? repoId = some repo ∧ repo.credentialId = some id := by
  cases lock with
  | scriptRepo repoId =>
      obtain ⟨repo, there, member⟩ := List.mem_flatMap.mp here
      rcases List.mem_cons.mp member with project | credential
      · cases project
      · obtain ⟨credentialId, held, same⟩ :=
          Option.map_eq_some_iff.mp (Option.mem_toList.mp credential)
        cases same
        exact ⟨repoId, repo, Option.mem_toList.mp there, held⟩
  | history _ =>
      obtain ⟨row, -, same⟩ := List.mem_map.mp here
      cases same
  | scriptVersion _ =>
      obtain ⟨row, -, same⟩ := List.mem_map.mp here
      cases same
  | test _ =>
      obtain ⟨row, -, same⟩ := List.mem_map.mp here
      cases same
  | rule _ =>
      obtain ⟨row, -, same⟩ := List.mem_map.mp here
      cases same
  | plan _ =>
      obtain ⟨row, -, member⟩ := List.mem_flatMap.mp here
      simp at member
  | _ => cases here

/-- To a plan, or to a rule, no row refers. -/
theorem references_ne {lock target : RowLock} {row : Row lock} (here : target ∈ references lock row)
    (id : Uuid) : target ≠ .plan id ∧ target ≠ .rule id := by
  cases lock with
  | scriptRepo _ =>
      obtain ⟨repo, -, member⟩ := List.mem_flatMap.mp here
      rcases List.mem_cons.mp member with rfl | credential
      · simp
      · obtain ⟨credentialId, -, rfl⟩ :=
          Option.map_eq_some_iff.mp (Option.mem_toList.mp credential)
        simp
  | plan _ =>
      obtain ⟨row, -, member⟩ := List.mem_flatMap.mp here
      rcases List.mem_cons.mp member with rfl | other
      · simp
      · rw [List.mem_singleton.mp other]
        simp
  | history _ =>
      obtain ⟨row, -, rfl⟩ := List.mem_map.mp here
      simp
  | scriptVersion _ =>
      obtain ⟨row, -, rfl⟩ := List.mem_map.mp here
      simp
  | test _ =>
      obtain ⟨row, -, rfl⟩ := List.mem_map.mp here
      simp
  | rule _ =>
      obtain ⟨row, -, rfl⟩ := List.mem_map.mp here
      simp
  | _ => cases here

end

/-- Where no row is like this, none is found that is. -/
theorem unlike_of_exists {κ ρ : Type} [DecidableEq κ] {table : Dict κ ρ} {like : ρ → Bool} {id : κ}
    {row : ρ} (none_ : exists_ table like = false) (there : table.get? id = some row) :
    like row ≠ true := by
  intro alike
  have some_ : exists_ table like = true :=
    List.any_eq_true.mpr ⟨(id, row), Dict.get?_eq_some_iff.mp there, alike⟩
  rw [none_] at some_
  cases some_

/-! ## Unique indexes -/

/-- What is written makes no entry that another row has, and locks those it makes. -/
def Claims (d : Database) (writes : List Write) : Prop :=
  ∀ write ∈ writes, ∀ k, entryOf write.lock (written write) = some k →
    (∀ lock, entryOf lock (rowAt lock d) = some k → lock = write.lock) ∧
      (∀ write' ∈ writes, entryOf write'.lock (written write') = some k →
        write'.lock = write.lock) ∧
        (entryOf write.lock (rowAt write.lock d) = some k ∨
          ∃ write' ∈ writes, write'.lock = .entry k)

section

variable {d : Database} {writes : List Write} {write : Write}

theorem claims_silent (silent : ∀ write ∈ writes, entryOf write.lock (written write) = none) :
    Claims d writes := by
  intro write member k here
  rw [silent write member] at here
  cases here

theorem claims_nil : Claims d [] := by
  intro write member
  cases member

/-- One row, and its entries. -/
theorem claims_row {entries : List UniqueKey}
    (each : ∀ k, entryOf write.lock (written write) = some k →
      (∀ lock, entryOf lock (rowAt lock d) = some k → lock = write.lock) ∧
        (entryOf write.lock (rowAt write.lock d) = some k ∨ k ∈ entries)) :
    Claims d (write :: entries.map Write.entry) := by
  intro write₁ member k here
  rcases List.mem_cons.mp member with rfl | entry
  · obtain ⟨alone, claimed⟩ := each k here
    refine ⟨alone, ?_, claimed.imp_right fun entry =>
      ⟨.entry k, List.mem_cons_of_mem _ (List.mem_map_of_mem entry), rfl⟩⟩
    intro write' member' here'
    rcases List.mem_cons.mp member' with rfl | entry
    · rfl
    · obtain ⟨k', -, rfl⟩ := List.mem_map.mp entry
      cases here'
  · obtain ⟨k', -, rfl⟩ := List.mem_map.mp entry
    cases here

/-- A row that keeps its entry. -/
theorem claims_kept (unique : Unique d)
    (kept : entryOf write.lock (written write) = entryOf write.lock (rowAt write.lock d)) :
    Claims d [write] := by
  change Claims d (write :: [].map Write.entry)
  exact claims_row fun k here =>
    ⟨fun lock there => unique lock write.lock k there (kept ▸ here), Or.inl (kept ▸ here)⟩

/-- A row that is inserted where nobody has its entry. -/
theorem claims_returning {κ ρ σ : Type} [DecidableEq κ] [Tenant ρ] {c : Setting} {table : Dict κ ρ}
    {key : κ} {row : ρ} {referenced : Bool} {result : σ} {k : UniqueKey}
    (own : entryOf write.lock (written write) = some k)
    (unheld : referenced = true → ∀ lock, ¬ Holds d lock k) :
    Claims d (Database.returning result [k]
      (Database.insert c table key row referenced write)).2 := by
  rcases @writes_returning ρ σ κ _ _ c table key row referenced write result [k] with
    same | ⟨same, -, -, passed⟩
  · exact same ▸ claims_nil
  · refine same ▸ claims_row fun k' here => ?_
    obtain rfl : k = k' := Option.some.inj (own.symm.trans here)
    exact ⟨fun lock there => absurd (holds_of_entryOf there) (unheld passed lock),
      Or.inr List.mem_cons_self⟩

/-- An insertion into a table without a unique index. -/
theorem claims_insert {κ ρ : Type} [DecidableEq κ] [Tenant ρ] {c : Setting} {table : Dict κ ρ}
    {key : κ} {row : ρ} {referenced : Bool} (none_ : entryOf write.lock (written write) = none) :
    Claims d (Database.insert c table key row referenced write).2 := by
  rcases @writes_insert ρ κ _ _ c table key row referenced write with same | ⟨same, -⟩
  · exact same ▸ claims_nil
  · refine same ▸ claims_silent fun write' member => ?_
    rw [List.mem_singleton.mp member]
    exact none_

theorem claims_returning_nil {κ ρ σ : Type} [DecidableEq κ] [Tenant ρ] {c : Setting}
    {table : Dict κ ρ} {key : κ} {row : ρ} {referenced : Bool} {result : σ}
    (none_ : entryOf write.lock (written write) = none) :
    Claims d (Database.returning result []
      (Database.insert c table key row referenced write)).2 := by
  rcases @writes_returning ρ σ κ _ _ c table key row referenced write result [] with
    same | ⟨same, -⟩
  · exact same ▸ claims_nil
  · refine same ▸ claims_silent fun write' member => ?_
    rw [List.mem_singleton.mp member]
    exact none_

/-- An update that writes to one row, and keeps its entry. -/
theorem claims_updating {ρ : Type} {found : Option ρ} {update : ρ → Except Fault ρ}
    {write : ρ → Write} (unique : Unique d)
    (kept : ∀ old new, found = some old → update old = .ok new →
      entryOf (write new).lock (written (write new)) =
        entryOf (write new).lock (rowAt (write new).lock d)) :
    Claims d (Database.updating found update fun row => [write row]).2 := by
  rcases @writes_updating ρ found update fun row => [write row] with
    same | ⟨old, new, there, made, same⟩
  · rw [same]
    exact claims_nil
  · rw [same]
    exact claims_kept unique (kept old new there made)

theorem claims_archiving {ρ : Type} {found : Option ρ} {archived : ρ → Bool} {write : ρ → Write}
    (unique : Unique d)
    (kept : ∀ old, found = some old → entryOf (write old).lock (written (write old)) =
      entryOf (write old).lock (rowAt (write old).lock d)) :
    Claims d (Database.archiving found archived write).2 := by
  rcases @writes_archiving ρ found archived write with same | ⟨old, there, same⟩
  · exact same ▸ claims_nil
  · exact same ▸ claims_kept unique (kept old there)

end

section

variable {c : Setting} {d : Database}

theorem claims_insertProject {row : Timestamp → Project} :
    Claims d (Database.execute (.insertProject row) c d).2 :=
  claims_returning rfl fun referenced => by
    rw [Bool.and_eq_true, Bool.not_eq_true'] at referenced
    rintro lock ⟨id, other, -, there, owner, key⟩
    exact unlike_of_exists referenced.2 there (decide_eq_true ⟨owner, key⟩)

theorem claims_insertPool {row : Timestamp → GeneratorPool} :
    Claims d (Database.execute (.insertPool row) c d).2 :=
  claims_returning rfl fun referenced => by
    rw [Bool.not_eq_true'] at referenced
    rintro lock ⟨id, other, -, there, owner, name⟩
    exact unlike_of_exists referenced there (decide_eq_true ⟨owner, name⟩)

theorem claims_insertCredential {row : Timestamp → Credential} :
    Claims d (Database.execute (.insertCredential row) c d).2 :=
  claims_returning rfl fun referenced => by
    rw [Bool.and_eq_true, Bool.not_eq_true'] at referenced
    rintro lock ⟨id, other, -, there, owner, name⟩
    exact unlike_of_exists referenced.2 there (decide_eq_true ⟨owner, name⟩)

theorem claims_insertScriptVersion {row : Timestamp → ScriptVersion} :
    Claims d (Database.execute (.insertScriptVersion row) c d).2 :=
  claims_returning rfl fun referenced => by
    rw [Bool.and_eq_true, Bool.not_eq_true'] at referenced
    rintro lock ⟨id, other, -, there, repo, commit, plan⟩
    exact unlike_of_exists referenced.2 there (decide_eq_true ⟨repo, commit, plan⟩)

theorem claims_insertPolicy {row : Timestamp → TargetPolicyRow} :
    Claims d (Database.execute (.insertPolicy row) c d).2 :=
  claims_returning rfl fun referenced => by
    rw [Bool.and_eq_true, Bool.not_eq_true'] at referenced
    rintro lock ⟨id, other, -, there, owner, version⟩
    exact unlike_of_exists referenced.2 there (decide_eq_true ⟨owner, version⟩)

/-- The name that a pool is given is that of no other one. -/
theorem updatedPool_alone {now : Timestamp} {old new : GeneratorPool}
    {changes : Database.PoolChanges} (made : d.updatedPool now old changes = .ok new) :
    exists_ d.pools (fun other => other.id ≠ old.id ∧
      other.organizationId = old.organizationId ∧ other.name = new.name) = false := by
  obtain ⟨name, -, made⟩ := of_bind_eq_ok made
  obtain ⟨maxGenerators, -, made⟩ := of_bind_eq_ok made
  obtain ⟨maxVusPerGenerator, -, made⟩ := of_bind_eq_ok made
  split at made
  · cases made
  · rename_i alone
    cases made
    exact Bool.not_eq_true _ ▸ alone

variable (inPlace : ∀ lock, InPlace lock (rowAt lock d))
include inPlace

theorem claims_updatePool {id : Uuid} {changes : Database.PoolChanges} :
    Claims d (Database.execute (.updatePool id changes) c d).2 := by
  rcases @writes_updating GeneratorPool (byKey c d.pools id)
      (fun row => d.updatedPool c.now row changes)
      (fun row => [.pool row, .entry (.poolName row.organizationId row.name)]) with
    same | ⟨old, new, found, made, same⟩
  · exact same ▸ claims_nil
  · obtain ⟨-, -, -, rest⟩ := Database.updatedPool_ok made
    have sameId : new.id = old.id := by rw [rest]
    have sameOwner : new.organizationId = old.organizationId := by rw [rest]
    rw [Database.execute, same]
    change Claims d (.pool new :: [.poolName new.organizationId new.name].map Write.entry)
    refine claims_row fun k here => ?_
    cases here
    refine ⟨fun lock there => ?_, Or.inr List.mem_cons_self⟩
    obtain ⟨id', other, rfl, held, owner, name⟩ := holds_of_entryOf there
    have placed : other.id = id' := inPlace (.pool id') other held
    have sameRow : other.id = old.id := by
      by_contra differs
      exact unlike_of_exists (updatedPool_alone made) held
        (decide_eq_true ⟨differs, owner.trans sameOwner, name⟩)
    rw [← placed, sameRow, ← sameId]
    rfl

variable (unique : Unique d)
include unique

theorem claims_updateProject {id : Uuid} {changes : Database.ProjectChanges} :
    Claims d (Database.execute (.updateProject id changes) c d).2 := by
  refine claims_updating unique fun old new found made => ?_
  obtain ⟨-, -, rest⟩ := Database.updatedProject_ok made
  have sameId : new.id = old.id := by rw [rest]
  have there := found_inPlace found (inPlace (.project id)) sameId
  change _ = (d.projects.get? new.id).map _
  rw [there, rest]
  rfl

/-- No statement makes an entry twice, or leaves one unlocked. -/
theorem claims_execute (s : Statement) : Claims d (Database.execute s c d).2 := by
  cases s with
  | insertProject row => exact claims_insertProject
  | insertPool row => exact claims_insertPool
  | insertCredential row => exact claims_insertCredential
  | insertScriptVersion row => exact claims_insertScriptVersion
  | insertPolicy row => exact claims_insertPolicy
  | insertFamily row => exact claims_insert rfl
  | recordHistory row => exact claims_insert rfl
  | insertPlan row => exact claims_insert rfl
  | insertRule row => exact claims_insert rfl
  | insertAudit row => exact claims_insert rfl
  | insertScriptRepo row => exact claims_returning_nil rfl
  | insertTest row => exact claims_returning_nil rfl
  | updateProject id changes => exact claims_updateProject inPlace unique
  | updatePool id changes => exact claims_updatePool inPlace
  | updateScriptRepo id changes => exact claims_updating unique fun _ _ _ _ => rfl
  | updateDocument id expectedVersion changes => exact claims_updating unique fun _ _ _ _ => rfl
  | archiveProject id =>
      refine claims_archiving unique fun old found => ?_
      have there := found_inPlace found (inPlace (.project id)) rfl
      change _ = (d.projects.get? old.id).map _
      rw [there]
      rfl
  | archivePool id =>
      refine claims_archiving unique fun old found => ?_
      have there := found_inPlace found (inPlace (.pool id)) rfl
      change _ = (d.pools.get? old.id).map _
      rw [there]
      rfl
  | archiveScriptRepo id => exact claims_archiving unique fun _ _ => rfl
  | archiveTest id => exact claims_archiving unique fun _ _ => rfl
  | replaceHash familyId tokenHash =>
      refine claims_silent fun write member => ?_
      obtain ⟨row, -, rfl⟩ := Option.map_eq_some_iff.mp (Option.mem_toList.mp member)
      rfl
  | revokeFamilyContaining tokenHash =>
      refine claims_silent fun write member => ?_
      obtain ⟨row, -, rfl⟩ := Option.map_eq_some_iff.mp (Option.mem_toList.mp member)
      rfl
  | deleteCredential id =>
      refine claims_silent fun write member => ?_
      rw [Database.execute] at member
      split at member
      · cases member
      · split at member
        · cases member
        · rw [List.mem_singleton.mp member]
          rfl
  | deletePlans testId =>
      refine claims_silent fun write member => ?_
      obtain ⟨row, -, rfl⟩ := List.mem_map.mp member
      rfl
  | deleteRules testId =>
      refine claims_silent fun write member => ?_
      obtain ⟨row, -, rfl⟩ := List.mem_map.mp member
      rfl
  | _ => exact claims_nil

end

/-- The unique indexes of the tables. -/
def indexes : Sql.Indexes evolution where
  Key := UniqueKey
  key := entryOf
  entry := .entry
  execute s c d inPlace unique := by
    have claims := claims_execute (c := c) inPlace unique s
    exact ⟨unique.applyAll fun write member k here =>
        ⟨(claims write member k here).1, (claims write member k here).2.1⟩,
      fun write member k here => (claims write member k here).2.2⟩

/-! ## Foreign keys -/

/-- What is written refers to rows that are there, and shares those that could be
deleted; what is deleted is referred to by no row. -/
structure Minds (d : Database) (writes : List Write) : Prop where
  refer : ∀ write ∈ writes, ∀ target ∈ references write.lock (written write),
    Present target (rowAt target d) ∧
      (target ∈ references write.lock (rowAt write.lock d) ∨ Permanent target ∨
        ∃ write' ∈ writes, write'.share = some target)
  kept : ∀ write ∈ writes, Present write.lock (written write) ∨
    (∀ lock, write.lock ∉ references lock (rowAt lock d)) ∧
      ∀ write' ∈ writes, write.lock ∉ references write'.lock (written write')

section

variable {d : Database} {writes : List Write} {write : Write}

theorem minds_nil : Minds d [] := by
  constructor
  · intro write member
    cases member
  · intro write member
    cases member

/-- One row, and its entries. -/
theorem minds_row {entries : List UniqueKey} (present : Present write.lock (written write))
    (each : ∀ target ∈ references write.lock (written write), Present target (rowAt target d) ∧
      (target ∈ references write.lock (rowAt write.lock d) ∨ Permanent target ∨
        write.share = some target)) :
    Minds d (write :: entries.map Write.entry) := by
  constructor
  · intro write₁ member target here
    rcases List.mem_cons.mp member with rfl | entry
    · obtain ⟨there, guarded⟩ := each target here
      refine ⟨there, guarded.imp_right (Or.imp_right fun shared => ?_)⟩
      exact ⟨write₁, List.mem_cons_self, shared⟩
    · obtain ⟨k, -, rfl⟩ := List.mem_map.mp entry
      cases here
  · intro write₁ member
    rcases List.mem_cons.mp member with rfl | entry
    · exact Or.inl present
    · obtain ⟨k, -, rfl⟩ := List.mem_map.mp entry
      exact Or.inl trivial

/-- A row that refers to what it referred to before. -/
theorem minds_kept (closed : Closed d) (present : Present write.lock (written write))
    (kept : references write.lock (written write) = references write.lock (rowAt write.lock d)) :
    Minds d [write] := by
  change Minds d (write :: [].map Write.entry)
  refine minds_row present fun target here => ?_
  rw [kept] at here
  exact ⟨closed write.lock target here, Or.inl here⟩

/-- Rows that refer to nothing. -/
theorem minds_silent (present : ∀ write ∈ writes, Present write.lock (written write))
    (silent : ∀ write ∈ writes, references write.lock (written write) = []) : Minds d writes := by
  constructor
  · intro write member target here
    rw [silent write member] at here
    cases here
  · exact fun write member => Or.inl (present write member)

/-- Rows are deleted to which none refers. -/
theorem minds_deleted (silent : ∀ write ∈ writes, references write.lock (written write) = [])
    (unreferred : ∀ write ∈ writes, ∀ lock, write.lock ∉ references lock (rowAt lock d)) :
    Minds d writes := by
  constructor
  · intro write member target here
    rw [silent write member] at here
    cases here
  · intro write member
    refine Or.inr ⟨unreferred write member, fun write' member' here => ?_⟩
    rw [silent write' member'] at here
    cases here

theorem minds_insert {κ ρ : Type} [DecidableEq κ] [Tenant ρ] {c : Setting} {table : Dict κ ρ}
    {key : κ} {row : ρ} {referenced : Bool} (present : Present write.lock (written write))
    (each : referenced = true → ∀ target ∈ references write.lock (written write),
      Present target (rowAt target d) ∧ (Permanent target ∨ write.share = some target)) :
    Minds d (Database.insert c table key row referenced write).2 := by
  rcases @writes_insert ρ κ _ _ c table key row referenced write with same | ⟨same, -, -, passed⟩
  · rw [same]
    exact minds_nil
  · rw [same]
    change Minds d (write :: [].map Write.entry)
    exact minds_row present fun target here =>
      ⟨(each passed target here).1, Or.inr (each passed target here).2⟩

theorem minds_returning {κ ρ σ : Type} [DecidableEq κ] [Tenant ρ] {c : Setting} {table : Dict κ ρ}
    {key : κ} {row : ρ} {referenced : Bool} {result : σ} {entries : List UniqueKey}
    (present : Present write.lock (written write))
    (each : referenced = true → ∀ target ∈ references write.lock (written write),
      Present target (rowAt target d) ∧ (Permanent target ∨ write.share = some target)) :
    Minds d (Database.returning result entries
      (Database.insert c table key row referenced write)).2 := by
  rcases @writes_returning ρ σ κ _ _ c table key row referenced write result entries with
    same | ⟨same, -, -, passed⟩
  · rw [same]
    exact minds_nil
  · rw [same]
    exact minds_row present fun target here =>
      ⟨(each passed target here).1, Or.inr (each passed target here).2⟩

theorem minds_updating {ρ : Type} {found : Option ρ} {update : ρ → Except Fault ρ}
    {write : ρ → Write}
    (each : ∀ old new, found = some old → update old = .ok new → Minds d [write new]) :
    Minds d (Database.updating found update fun row => [write row]).2 := by
  rcases @writes_updating ρ found update fun row => [write row] with
    same | ⟨old, new, there, made, same⟩
  · rw [same]
    exact minds_nil
  · rw [same]
    exact each old new there made

theorem minds_archiving {ρ : Type} {found : Option ρ} {archived : ρ → Bool} {write : ρ → Write}
    (each : ∀ old, found = some old → Minds d [write old]) :
    Minds d (Database.archiving found archived write).2 := by
  rcases @writes_archiving ρ found archived write with same | ⟨old, there, same⟩
  · rw [same]
    exact minds_nil
  · rw [same]
    exact each old there

end

section

variable {c : Setting} {d : Database}

/-- A new script repository: its project is there, and its credential. -/
theorem minds_insertScriptRepo {row : Timestamp → ScriptRepo} :
    Minds d (Database.execute (.insertScriptRepo row) c d).2 := by
  refine minds_returning rfl fun referenced target here => ?_
  rw [Bool.and_eq_true, Bool.and_eq_true] at referenced
  obtain ⟨repo, there, member⟩ := List.mem_flatMap.mp here
  obtain rfl := Option.some.inj (Option.mem_toList.mp there)
  rcases List.mem_cons.mp member with rfl | credential
  · exact ⟨referenced.1.1, Or.inl trivial⟩
  · obtain ⟨credentialId, held, rfl⟩ :=
      Option.map_eq_some_iff.mp (Option.mem_toList.mp credential)
    refine ⟨?_, Or.inr ?_⟩
    · have refers := referenced.1.2
      rw [held] at refers
      exact refers
    · change (row c.now).credentialId.map RowLock.credential = _
      rw [held]
      rfl

theorem minds_insertScriptVersion {row : Timestamp → ScriptVersion} :
    Minds d (Database.execute (.insertScriptVersion row) c d).2 := by
  refine minds_returning rfl fun referenced target here => ?_
  rw [Bool.and_eq_true] at referenced
  rw [List.mem_singleton.mp here]
  exact ⟨referenced.1, Or.inl trivial⟩

theorem minds_insertTest {row : Timestamp → PerformanceTest} :
    Minds d (Database.execute (.insertTest row) c d).2 := by
  refine minds_returning rfl fun referenced target here => ?_
  rw [Bool.and_eq_true] at referenced
  rw [List.mem_singleton.mp here]
  exact ⟨referenced.1, Or.inl trivial⟩

theorem minds_insertPlan {row : PerformanceTestPlan} :
    Minds d (Database.execute (.insertPlan row) c d).2 := by
  refine minds_insert rfl fun referenced target here => ?_
  rw [Bool.and_eq_true] at referenced
  rcases List.mem_cons.mp here with rfl | other
  · exact ⟨referenced.1, Or.inl trivial⟩
  · rw [List.mem_singleton.mp other]
    exact ⟨referenced.2, Or.inl trivial⟩

theorem minds_deletePlans {testId : Uuid} :
    Minds d (Database.execute (.deletePlans testId) c d).2 := by
  refine minds_deleted (fun write member => ?_) fun write member lock here => ?_
  · obtain ⟨row, -, rfl⟩ := List.mem_map.mp member
    rfl
  · obtain ⟨row, -, rfl⟩ := List.mem_map.mp member
    exact (references_ne here row.id).1 rfl

theorem minds_deleteRules {testId : Uuid} :
    Minds d (Database.execute (.deleteRules testId) c d).2 := by
  refine minds_deleted (fun write member => ?_) fun write member lock here => ?_
  · obtain ⟨row, -, rfl⟩ := List.mem_map.mp member
    rfl
  · obtain ⟨row, -, rfl⟩ := List.mem_map.mp member
    exact (references_ne here row.id).2 rfl

theorem minds_deleteCredential {id : Uuid} :
    Minds d (Database.execute (.deleteCredential id) c d).2 := by
  rw [Database.execute]
  split
  · exact minds_nil
  · rename_i row found
    split
    · exact minds_nil
    · rename_i unused
      rw [Bool.not_eq_true] at unused
      refine minds_deleted (fun write member => ?_) fun write member lock here => ?_
      · rw [List.mem_singleton.mp member]
        rfl
      · rw [List.mem_singleton.mp member] at here
        obtain ⟨repoId, repo, there, held⟩ := references_credential here
        exact unlike_of_exists unused there (decide_eq_true held)

theorem minds_updatePool {id : Uuid} {changes : Database.PoolChanges} :
    Minds d (Database.execute (.updatePool id changes) c d).2 := by
  rcases @writes_updating GeneratorPool (byKey c d.pools id)
      (fun row => d.updatedPool c.now row changes)
      (fun row => [.pool row, .entry (.poolName row.organizationId row.name)]) with
    same | ⟨old, new, -, -, same⟩
  · exact same ▸ minds_nil
  · rw [Database.execute, same]
    change Minds d (.pool new :: [.poolName new.organizationId new.name].map Write.entry)
    refine minds_row rfl fun target here => ?_
    cases here

variable (inPlace : ∀ lock, InPlace lock (rowAt lock d)) (closed : Closed d)
include inPlace closed

/-- A script repository that is updated keeps its project; its credential is there. -/
theorem minds_updateScriptRepo {id : Uuid} {changes : Database.ScriptRepoChanges} :
    Minds d (Database.execute (.updateScriptRepo id changes) c d).2 := by
  refine minds_updating fun old new found made => ?_
  obtain ⟨-, -, -, refers, rest⟩ := Database.updated_ok made
  have sameId : new.id = old.id := by rw [rest]
  have sameProject : new.projectId = old.projectId := by rw [rest]
  have there := found_inPlace found (inPlace (.scriptRepo id)) sameId
  change Minds d (.scriptRepo new :: [].map Write.entry)
  refine minds_row rfl fun target here => ?_
  obtain ⟨repo, same, member⟩ := List.mem_flatMap.mp here
  obtain rfl := Option.some.inj (Option.mem_toList.mp same)
  rcases List.mem_cons.mp member with rfl | credential
  · refine ⟨closed (.scriptRepo new.id) _ ?_, Or.inr (Or.inl trivial)⟩
    change _ ∈ (d.scriptRepos.get? new.id).toList.flatMap _
    rw [there, sameProject]
    exact List.mem_flatMap.mpr ⟨old, List.mem_singleton_self _, List.mem_cons_self⟩
  · obtain ⟨credentialId, held, rfl⟩ :=
      Option.map_eq_some_iff.mp (Option.mem_toList.mp credential)
    refine ⟨?_, Or.inr (Or.inr ?_)⟩
    · rw [held] at refers
      exact refers
    · change new.credentialId.map RowLock.credential = _
      rw [held]
      rfl

/-- No statement refers to what is not there, or deletes what is referred to. -/
theorem minds_execute (s : Statement) : Minds d (Database.execute s c d).2 := by
  have silent (target : RowLock) (impossible : target ∈ ([] : List RowLock)) {P : Prop} : P := by
    cases impossible
  cases s with
  | insertFamily row => exact minds_insert rfl fun _ target here => silent target here
  | recordHistory row =>
      refine minds_insert rfl fun referenced target here => ?_
      rw [List.mem_singleton.mp here]
      exact ⟨referenced, Or.inl trivial⟩
  | insertProject row => exact minds_returning rfl fun _ target here => silent target here
  | insertPool row => exact minds_returning rfl fun _ target here => silent target here
  | insertCredential row => exact minds_returning rfl fun _ target here => silent target here
  | insertPolicy row => exact minds_returning rfl fun _ target here => silent target here
  | insertAudit row => exact minds_insert rfl fun _ target here => silent target here
  | insertScriptRepo row => exact minds_insertScriptRepo
  | insertScriptVersion row => exact minds_insertScriptVersion
  | insertTest row => exact minds_insertTest
  | insertPlan row => exact minds_insertPlan
  | insertRule row =>
      refine minds_insert rfl fun referenced target here => ?_
      rw [List.mem_singleton.mp here]
      exact ⟨referenced, Or.inl trivial⟩
  | replaceHash familyId tokenHash =>
      refine minds_silent (fun write member => ?_) fun write member => ?_
      all_goals
        obtain ⟨row, -, rfl⟩ := Option.map_eq_some_iff.mp (Option.mem_toList.mp member)
        rfl
  | revokeFamilyContaining tokenHash =>
      refine minds_silent (fun write member => ?_) fun write member => ?_
      all_goals
        obtain ⟨row, -, rfl⟩ := Option.map_eq_some_iff.mp (Option.mem_toList.mp member)
        rfl
  | updateProject id changes =>
      exact minds_updating fun old new _ _ => minds_kept closed rfl rfl
  | updatePool id changes => exact minds_updatePool
  | updateScriptRepo id changes => exact minds_updateScriptRepo inPlace closed
  | updateDocument id expectedVersion changes =>
      refine minds_updating fun old new found made => minds_kept closed rfl ?_
      obtain ⟨-, -, rest⟩ := Database.updatedTest_ok made
      have sameId : new.id = old.id := by rw [rest]
      have there := found_inPlace (Option.filter_eq_some_iff.mp found).1 (inPlace (.test id)) sameId
      change _ = (d.tests.get? new.id).toList.map _
      rw [there, rest]
      rfl
  | archiveProject id => exact minds_archiving fun old _ => minds_kept closed rfl rfl
  | archivePool id => exact minds_archiving fun old _ => minds_kept closed rfl rfl
  | archiveScriptRepo id =>
      refine minds_archiving fun old found => minds_kept closed rfl ?_
      have there := found_inPlace found (inPlace (.scriptRepo id)) rfl
      change _ = (d.scriptRepos.get? old.id).toList.flatMap _
      rw [there]
      rfl
  | archiveTest id =>
      refine minds_archiving fun old found => minds_kept closed rfl ?_
      have there := found_inPlace found (inPlace (.test id)) rfl
      change _ = (d.tests.get? old.id).toList.map _
      rw [there]
      rfl
  | deleteCredential id => exact minds_deleteCredential
  | deletePlans testId => exact minds_deletePlans
  | deleteRules testId => exact minds_deleteRules
  | _ => exact minds_nil

end

/-- The foreign keys of the tables. -/
def foreignKeys : Sql.ForeignKeys evolution where
  refers lock row target := target ∈ references lock row
  there := Present
  permanent := Permanent
  stays := present_stays
  execute s c d inPlace closed := by
    have minds := minds_execute (c := c) inPlace closed s
    refine ⟨closed.applyAll (fun write member target here => ?_) minds.kept, ?_⟩
    · exact (minds.refer write member target here).1
    · exact fun write member target here => (minds.refer write member target here).2

/-! ## Runs -/

/-- Two rows of a table differ in their key. -/
def Distinct {κ ρ α : Type} [DecidableEq κ] (table : Dict κ ρ) (key : ρ → α) : Prop :=
  ∀ id id' row row', table.get? id = some row → table.get? id' = some row' → key row = key row' →
    id = id'

/-- A column is null, or it leads to a row of another table. -/
def Refers {κ ρ κ' ρ' : Type} [DecidableEq κ] [DecidableEq κ'] (table : Dict κ ρ)
    (column : ρ → Option κ') (table' : Dict κ' ρ') : Prop :=
  ∀ id row, table.get? id = some row → ∀ other, column row = some other →
    (table'.get? other).isSome = true

/-- The unique indexes, and the foreign keys between what the services write. -/
structure Consistent (d : Database) : Prop where
  projectKeys : Distinct d.projects fun row => (row.organizationId, row.projectKey)
  poolNames : Distinct d.pools fun row => (row.organizationId, row.name)
  credentialNames : Distinct d.credentials fun row => (row.organizationId, row.name)
  scriptVersions :
    Distinct d.scriptVersions fun row => (row.scriptRepoId, row.commitSha, row.planPath)
  policyVersions : Distinct d.targetPolicies fun row => (row.organizationId, row.version)
  historyFamilies : Refers d.history (fun row => some row.familyId) d.families
  repoProjects : Refers d.scriptRepos (fun row => some row.projectId) d.projects
  repoCredentials : Refers d.scriptRepos (fun row => row.credentialId) d.credentials
  versionRepos : Refers d.scriptVersions (fun row => some row.scriptRepoId) d.scriptRepos
  testProjects : Refers d.tests (fun row => some row.projectId) d.projects
  planTests : Refers d.plans (fun row => some row.performanceTestId) d.tests
  planRepos : Refers d.plans (fun row => some row.spec.scriptRepoId) d.scriptRepos
  ruleTests : Refers d.rules (fun row => some row.performanceTestId) d.tests

section

variable {d : Database}

theorem Consistent.unique (consistent : Consistent d) : Unique d := by
  intro lock lock' k here here'
  have holds := holds_of_entryOf here
  have holds' := holds_of_entryOf here'
  cases k with
  | projectKey org projectKey =>
      obtain ⟨id, row, rfl, there, rfl, rfl⟩ := holds
      obtain ⟨id', row', rfl, there', owner, key⟩ := holds'
      rw [consistent.projectKeys id id' row row' there there' (Prod.ext owner.symm key.symm)]
  | poolName org name =>
      obtain ⟨id, row, rfl, there, rfl, rfl⟩ := holds
      obtain ⟨id', row', rfl, there', owner, name⟩ := holds'
      rw [consistent.poolNames id id' row row' there there' (Prod.ext owner.symm name.symm)]
  | credentialName org name =>
      obtain ⟨id, row, rfl, there, rfl, rfl⟩ := holds
      obtain ⟨id', row', rfl, there', owner, name⟩ := holds'
      rw [consistent.credentialNames id id' row row' there there' (Prod.ext owner.symm name.symm)]
  | scriptVersion repoId commitSha planPath =>
      obtain ⟨id, row, rfl, there, rfl, rfl, rfl⟩ := holds
      obtain ⟨id', row', rfl, there', repo, commit, plan⟩ := holds'
      rw [consistent.scriptVersions id id' row row' there there'
        (Prod.ext repo.symm (Prod.ext commit.symm plan.symm))]
  | policyVersion org version =>
      obtain ⟨id, row, rfl, there, rfl, rfl⟩ := holds
      obtain ⟨id', row', rfl, there', owner, version⟩ := holds'
      rw [consistent.policyVersions id id' row row' there there' (Prod.ext owner.symm version.symm)]

theorem Consistent.closed (consistent : Consistent d) : Closed d := by
  intro lock target here
  cases lock with
  | history tokenHash =>
      obtain ⟨row, there, rfl⟩ := List.mem_map.mp here
      exact consistent.historyFamilies tokenHash row (Option.mem_toList.mp there) _ rfl
  | scriptRepo id =>
      obtain ⟨row, there, member⟩ := List.mem_flatMap.mp here
      rcases List.mem_cons.mp member with rfl | credential
      · exact consistent.repoProjects id row (Option.mem_toList.mp there) _ rfl
      · obtain ⟨credentialId, held, rfl⟩ :=
          Option.map_eq_some_iff.mp (Option.mem_toList.mp credential)
        exact consistent.repoCredentials id row (Option.mem_toList.mp there) credentialId held
  | scriptVersion id =>
      obtain ⟨row, there, rfl⟩ := List.mem_map.mp here
      exact consistent.versionRepos id row (Option.mem_toList.mp there) _ rfl
  | test id =>
      obtain ⟨row, there, rfl⟩ := List.mem_map.mp here
      exact consistent.testProjects id row (Option.mem_toList.mp there) _ rfl
  | plan id =>
      obtain ⟨row, there, member⟩ := List.mem_flatMap.mp here
      rcases List.mem_cons.mp member with rfl | other
      · exact consistent.planTests id row (Option.mem_toList.mp there) _ rfl
      · rw [List.mem_singleton.mp other]
        exact consistent.planRepos id row (Option.mem_toList.mp there) _ rfl
  | rule id =>
      obtain ⟨row, there, rfl⟩ := List.mem_map.mp here
      exact consistent.ruleTests id row (Option.mem_toList.mp there) _ rfl
  | _ => cases here

theorem distinct_of_unique {ρ α : Type} {table : Dict Uuid ρ} {key : ρ → α} (lock : Uuid → RowLock)
    (entry : α → UniqueKey) (unique : Unique d)
    (entries : ∀ id row, table.get? id = some row →
      entryOf (lock id) (rowAt (lock id) d) = some (entry (key row)))
    (injective : ∀ id id', lock id = lock id' → id = id') : Distinct table key := by
  intro id id' row row' there there' same
  have here' := entries id' row' there'
  rw [← same] at here'
  exact injective id id' (unique _ _ _ (entries id row there) here')

theorem refers_of_closed {κ ρ κ' ρ' : Type} [DecidableEq κ] [DecidableEq κ'] {table : Dict κ ρ}
    {column : ρ → Option κ'} {table' : Dict κ' ρ'} (lock : κ → RowLock) (target : κ' → RowLock)
    (closed : Closed d)
    (refers : ∀ id row, table.get? id = some row → ∀ other, column row = some other →
      target other ∈ references (lock id) (rowAt (lock id) d))
    (present : ∀ other, Present (target other) (rowAt (target other) d) →
      (table'.get? other).isSome = true) : Refers table column table' :=
  fun id row there other same =>
    present other (closed (lock id) (target other) (refers id row there other same))

theorem distinct_credentialNames (unique : Unique d) :
    Distinct d.credentials fun row => (row.organizationId, row.name) := by
  refine distinct_of_unique .credential (fun key => .credentialName key.1 key.2) unique ?_
    fun id id' same => RowLock.credential.inj same
  exact fun id row there => Option.map_eq_some_iff.mpr ⟨row, there, rfl⟩

/-- What is unique and closed, table by table. -/
theorem consistent_of (unique : Unique d) (closed : Closed d) : Consistent d where
  projectKeys := by
    refine distinct_of_unique .project (fun key => .projectKey key.1 key.2) unique ?_
      fun id id' same => RowLock.project.inj same
    exact fun id row there => Option.map_eq_some_iff.mpr ⟨row, there, rfl⟩
  poolNames := by
    refine distinct_of_unique .pool (fun key => .poolName key.1 key.2) unique ?_
      fun id id' same => RowLock.pool.inj same
    exact fun id row there => Option.map_eq_some_iff.mpr ⟨row, there, rfl⟩
  credentialNames := distinct_credentialNames unique
  scriptVersions := by
    refine distinct_of_unique .scriptVersion
      (fun key => .scriptVersion key.1 key.2.1 key.2.2) unique ?_
      fun id id' same => RowLock.scriptVersion.inj same
    exact fun id row there => Option.map_eq_some_iff.mpr ⟨row, there, rfl⟩
  policyVersions := by
    refine distinct_of_unique .targetPolicy (fun key => .policyVersion key.1 key.2) unique ?_
      fun id id' same => RowLock.targetPolicy.inj same
    exact fun id row there => Option.map_eq_some_iff.mpr ⟨row, there, rfl⟩
  historyFamilies := by
    refine refers_of_closed .history .family closed ?_ fun _ present => present
    rintro id row there other ⟨⟩
    exact List.mem_map.mpr ⟨row, Option.mem_toList.mpr there, rfl⟩
  repoProjects := by
    refine refers_of_closed .scriptRepo .project closed ?_ fun _ present => present
    rintro id row there other ⟨⟩
    exact List.mem_flatMap.mpr ⟨row, Option.mem_toList.mpr there, List.mem_cons_self⟩
  repoCredentials := by
    refine refers_of_closed .scriptRepo .credential closed ?_ fun _ present => present
    intro id row there other held
    have member : RowLock.credential other ∈ (row.credentialId.map RowLock.credential).toList := by
      rw [held]
      exact List.mem_singleton_self _
    exact List.mem_flatMap.mpr
      ⟨row, Option.mem_toList.mpr there, List.mem_cons_of_mem _ member⟩
  versionRepos := by
    refine refers_of_closed .scriptVersion .scriptRepo closed ?_ fun _ present => present
    rintro id row there other ⟨⟩
    exact List.mem_map.mpr ⟨row, Option.mem_toList.mpr there, rfl⟩
  testProjects := by
    refine refers_of_closed .test .project closed ?_ fun _ present => present
    rintro id row there other ⟨⟩
    exact List.mem_map.mpr ⟨row, Option.mem_toList.mpr there, rfl⟩
  planTests := by
    refine refers_of_closed .plan .test closed ?_ fun _ present => present
    rintro id row there other ⟨⟩
    exact List.mem_flatMap.mpr ⟨row, Option.mem_toList.mpr there, List.mem_cons_self⟩
  planRepos := by
    refine refers_of_closed .plan .scriptRepo closed ?_ fun _ present => present
    rintro id row there other ⟨⟩
    exact List.mem_flatMap.mpr ⟨row, Option.mem_toList.mpr there,
      List.mem_cons_of_mem _ (List.mem_singleton_self _)⟩
  ruleTests := by
    refine refers_of_closed .rule .test closed ?_ fun _ present => present
    rintro id row there other ⟨⟩
    exact List.mem_map.mpr ⟨row, Option.mem_toList.mpr there, rfl⟩

end

open Sql.Server

/-- Whatever the programs of the transactions are, and however they interleave, what is
committed satisfies the constraints throughout, and so does what each session sees. -/
theorem consistent_of_run {ε α : Type} {sys : Sql.System postgres ε α}
    {condition : Sql.Server sys → Sql.Event sys → Prop} {d : Database} {e : Environment}
    {s : Sql.Server sys} (inPlace : ∀ lock, InPlace lock (rowAt lock d)) (consistent : Consistent d)
    (run : Run condition { committed := d, environment := e } s) :
    Consistent s.committed ∧
      ∀ id session, s.sessions id = some session → Consistent (s.view session) := by
  have uniques : indexes.Invariant s := Sql.Indexes.of_run inPlace consistent.unique run
  have closeds : foreignKeys.Invariant s := Sql.ForeignKeys.of_run inPlace consistent.closed run
  refine ⟨consistent_of uniques.unique closeds.closed, fun id session found => ?_⟩
  exact consistent_of (uniques.views id session found).1 (closeds.views id session found).1

/-! ## A credential in use -/

open History (plain Anyhow)

/-- A script repository, and a credential that it does not use. -/
def oneRepository : Database where
  users := History.oneProject.users
  projects := History.oneProject.projects
  credentials := Dict.ofList [(4, {
    id := 4
    organizationId := 2
    name := "deploy"
    kind := .gitToken
    ciphertext := []
    keyRef := "local:v1"
    createdBy := 1
    createdAt := 0 })]
  scriptRepos := Dict.ofList [(5, {
    id := 5
    organizationId := 2
    projectId := 3
    name := "checkout"
    repoUrl := "https://git.example.com/checkout"
    defaultRef := "main"
    planPath := "plan.jmx"
    credentialId := none
    createdBy := 1
    createdAt := 0
    updatedAt := 0 })]

def sampleServer : ServiceServer plain where
  committed := oneRepository
  environment := History.sampleServer.environment

theorem name_unset (value : String) (given : Patch.unset = .value value) :
    1 ≤ value.length ∧ value.length ≤ 255 := by
  cases given

theorem planPath_unset (value : String) (given : Patch.unset = .value value) :
    1 ≤ value.length := by
  cases given

theorem defaultRef_unset (value : String) (given : Patch.unset = .value value) :
    value.length ≤ 255 := by
  cases given

/-- The repository is given the credential. -/
def assigning : Request := History.asAda (.updateScriptRepo 5 {
  credentialId := .value 4
  name_length := name_unset
  planPath_length := planPath_unset
  defaultRef_length := defaultRef_unset })

/-- While one assigns the credential, another finds it unused; its deletion waits, and
fails. -/
def assigningAndDeleting : List (Sql.Event (services plain)) :=
  [.start 0 assigning, .start 1 (History.asAda (.deleteCredential 4)), .advance 0, .advance 0,
    .advance 1, .advance 1, .advance 0, .advance 0, .advance 0, .commit 0, .advance 1, .rollback 1]

theorem get?_single {κ ρ : Type} [DecidableEq κ] {key id : κ} {row found : ρ}
    (there : (Dict.ofList [(key, row)]).get? id = some found) : id = key ∧ found = row :=
  Prod.mk.inj (List.mem_singleton.mp (Dict.mem_of_get?_ofList there))

theorem inPlace_oneRepository (lock : RowLock) : InPlace lock (rowAt lock oneRepository) := by
  cases lock with
  | entry key => trivial
  | project id =>
      intro found there
      obtain ⟨rfl, rfl⟩ := get?_single there
      rfl
  | credential id =>
      intro found there
      obtain ⟨rfl, rfl⟩ := get?_single there
      rfl
  | scriptRepo id =>
      intro found there
      obtain ⟨rfl, rfl⟩ := get?_single there
      rfl
  | _ =>
      intro found there
      cases there

theorem distinct_single {κ ρ α : Type} [DecidableEq κ] {key : κ} {row : ρ} {by_ : ρ → α} :
    Distinct (Dict.ofList [(key, row)]) by_ :=
  fun _ _ _ _ there there' _ => (get?_single there).1.trans (get?_single there').1.symm

theorem distinct_empty {κ ρ α : Type} [DecidableEq κ] {by_ : ρ → α} :
    Distinct (Dict.empty : Dict κ ρ) by_ := by
  intro id id' row row' there
  cases there

theorem refers_empty {κ ρ κ' ρ' : Type} [DecidableEq κ] [DecidableEq κ'] {column : ρ → Option κ'}
    {table' : Dict κ' ρ'} : Refers (Dict.empty : Dict κ ρ) column table' := by
  intro id row there
  cases there

theorem consistent_oneRepository : Consistent oneRepository where
  projectKeys := distinct_single
  poolNames := distinct_empty
  credentialNames := distinct_single
  scriptVersions := distinct_empty
  policyVersions := distinct_empty
  historyFamilies := refers_empty
  repoProjects := by
    intro id row there other same
    obtain ⟨rfl, rfl⟩ := get?_single there
    cases same
    rfl
  repoCredentials := by
    intro id row there other same
    obtain ⟨rfl, rfl⟩ := get?_single there
    cases same
  versionRepos := refers_empty
  testProjects := refers_empty
  planTests := refers_empty
  planRepos := refers_empty
  ruleTests := refers_empty

theorem consistent_assigningAndDeleting : ∃ s : ServiceServer plain, Run Anyhow sampleServer s ∧
    s.returned.length = 1 ∧ (s.committed.scriptRepos.get? 5).bind ScriptRepo.credentialId = some 4 ∧
      Consistent s.committed := by
  have reached : (sampleServer.events Anyhow assigningAndDeleting).map (fun s =>
      (s.returned.length, (s.committed.scriptRepos.get? 5).bind ScriptRepo.credentialId)) =
        some (1, some 4) := by decide +kernel
  obtain ⟨s, ended, same⟩ := Option.map_eq_some_iff.mp reached
  obtain ⟨returned, assigned⟩ := Prod.mk.inj same
  have run : Run Anyhow sampleServer s := run_of_events .refl ended
  exact ⟨s, run, returned, assigned,
    (consistent_of_run inPlace_oneRepository consistent_oneRepository run).1⟩

end Plimsoll.Integrity
