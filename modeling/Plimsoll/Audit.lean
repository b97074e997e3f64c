import Plimsoll.Database.Tables
import Plimsoll.Services

/-!
What happens to an entity, and what the audit log says of it.

Every transaction that commits has written new versions of some rows, and some
audit rows. The audit log matches what happened where the two go together.
-/

namespace Plimsoll.Audit

open Python Contracts
open Database (Write RowLock Setting Statement Keyed)

/-! ## Entities -/

/-- What audit rows are about. -/
inductive Entity where
  | project
  | pool
  | credential
  | scriptRepo
  | test
  | targetPolicy
  | scriptVersion
deriving DecidableEq

namespace Entity

/-- A row of an entity. -/
abbrev Row : Entity → Type
  | .project => Project
  | .pool => GeneratorPool
  | .credential => Credential
  | .scriptRepo => ScriptRepo
  | .test => PerformanceTest
  | .targetPolicy => TargetPolicyRow
  | .scriptVersion => ScriptVersion

/-- The table of an entity. -/
def table : (e : Entity) → Database → Dict Uuid e.Row
  | .project, d => d.projects
  | .pool, d => d.pools
  | .credential, d => d.credentials
  | .scriptRepo, d => d.scriptRepos
  | .test, d => d.tests
  | .targetPolicy, d => d.targetPolicies
  | .scriptVersion, d => d.scriptVersions

def idOf : (e : Entity) → e.Row → Uuid
  | .project => Project.id
  | .pool => GeneratorPool.id
  | .credential => Credential.id
  | .scriptRepo => ScriptRepo.id
  | .test => PerformanceTest.id
  | .targetPolicy => TargetPolicyRow.id
  | .scriptVersion => ScriptVersion.id

/-- A row is archived; some entities cannot be. -/
def archived : (e : Entity) → e.Row → Bool
  | .project, row => row.status = .archived
  | .pool, row => row.status = .archived
  | .scriptRepo, row => row.status = .archived
  | .test, row => row.status = .archived
  | .credential, _ => false
  | .targetPolicy, _ => false
  | .scriptVersion, _ => false

/-- `entity_type`. -/
def type : Entity → String
  | .project => "project"
  | .pool => "generator_pool"
  | .credential => "credential"
  | .scriptRepo => "script_repo"
  | .test => "performance_test"
  | .targetPolicy => "target_policy"
  | .scriptVersion => "script_version"

/-- What an action begins with. -/
def word : Entity → String
  | .project => "project"
  | .pool => "pool"
  | .credential => "credential"
  | .scriptRepo => "script_repo"
  | .test => "test"
  | .targetPolicy => "target_policy"
  | .scriptVersion => "script_version"

theorem type_injective {e e' : Entity} (same : e.type = e'.type) : e = e' := by
  revert same
  cases e <;> cases e' <;> decide

end Entity

/-! ## Changes -/

/-- What happens to an entity. -/
inductive Event where
  | created
  | updated
  | deleted
deriving DecidableEq

/-- Something has happened to an entity. -/
structure Change where
  entity : Entity
  id : Uuid
  event : Event
deriving DecidableEq

/-- What an audit row says. -/
structure Mark where
  action : String
  entityType : String
  entityId : Uuid
deriving DecidableEq

/-- The action of a change. A policy is only ever replaced by its next version, and
a version of a script is pinned. -/
def Change.action (c : Change) : String :=
  match c.entity, c.event with
  | .targetPolicy, .created => "target_policy.updated"
  | .scriptVersion, .created => "script_version.pinned"
  | e, .created => e.word ++ ".created"
  | e, .updated => e.word ++ ".updated"
  | e, .deleted => e.word ++ ".deleted"

/-- What the audit row of a change has to say. -/
def Change.mark (c : Change) : Mark := ⟨c.action, c.entity.type, c.id⟩

/-- What the audit row of a deletion says. -/
def deletion (e : Entity) (id : Uuid) : Mark := (Change.mk e id .deleted).mark

theorem mark_eq_deletion_iff {c : Change} {e : Entity} {id : Uuid} :
    c.mark = deletion e id ↔ c = ⟨e, id, .deleted⟩ := by
  constructor
  · intro same
    obtain ⟨action, type, sameId⟩ := Mark.mk.inj same
    obtain ⟨entity, id', event⟩ := c
    obtain rfl : entity = e := Entity.type_injective type
    obtain rfl : id' = id := sameId
    have isDeleted : event = .deleted := by
      revert action
      clear same type
      cases entity <;> cases event <;> simp [Change.action, Entity.word]
    rw [isDeleted]
  · rintro rfl
    rfl

/-- What an audit row says. -/
def markOf (row : AuditLog) : Mark := ⟨row.action, row.entityType, row.entityId⟩

/-- The audit log, in the order it was written. -/
def trail (d : Database) : List Mark := d.auditLogs.items.map fun item => markOf item.2

/-! ## Writes -/

/-- What a transaction makes of an entity: the new version of its row, or none. -/
structure Version where
  entity : Entity
  id : Uuid
  row : Option entity.Row

/-- The version that a write writes. -/
def version? : Write → Option Version
  | .project row => some ⟨.project, row.id, some row⟩
  | .pool row => some ⟨.pool, row.id, some row⟩
  | .credential row => some ⟨.credential, row.id, some row⟩
  | .deleteCredential id => some ⟨.credential, id, none⟩
  | .scriptRepo row => some ⟨.scriptRepo, row.id, some row⟩
  | .test row => some ⟨.test, row.id, some row⟩
  | .targetPolicy row => some ⟨.targetPolicy, row.id, some row⟩
  | .scriptVersion row => some ⟨.scriptVersion, row.id, some row⟩
  | _ => none

/-- The audit row that a write writes. -/
def auditRow? : Write → Option AuditLog
  | .audit row => some row
  | _ => none

/-- What happens where a version replaces what was there. -/
def Version.event (d : Database) (v : Version) : Event :=
  match (v.entity.table d).get? v.id, v.row with
  | none, some _ => .created
  | some old, some row => if v.entity.archived row && !v.entity.archived old then .deleted else .updated
  | _, none => .deleted

def Version.change (d : Database) (v : Version) : Change := ⟨v.entity, v.id, v.event d⟩

variable {dep : Deployment}

/-- What a commit changes. -/
def changes (c : Sql.Commit (services dep)) : List Change :=
  (c.writes.filterMap version?).map (Version.change c.before)

/-- The audit log matches what happened: it has grown by what tells of the changes
that were committed, those of each transaction by its own; and no entity is said to be
deleted twice. -/
structure Matches (d₀ : Database) (done : List (Sql.Commit (services dep))) (d : Database) :
    Prop where
  all : trail d = trail d₀ ++ (done.flatMap changes).map Change.mark
  each : ∀ c ∈ done, trail c.after = trail c.before ++ (changes c).map Change.mark
  deletedOnce : ∀ e id, (trail d).count (deletion e id) ≤ 1

/-! ## Databases -/

/-- An entity that cannot be deleted again. -/
def Gone (e : Entity) (id : Uuid) (d : Database) : Prop :=
  ∀ row, (e.table d).get? id = some row → e.archived row = true

/-- Rows stand under their identifiers, and what the audit log says to be deleted is
so, and was said to be once. -/
structure Sound (d : Database) : Prop where
  keyed : ∀ e : Entity, Keyed e.idOf (e.table d)
  gone : ∀ e id, deletion e id ∈ trail d → Gone e id d
  once : ∀ e id, (trail d).count (deletion e id) ≤ 1

/-! ## Conditions on steps -/

/-- The statement that a program is about to execute. -/
def statement? {α : Type} : Transaction α → Option Statement
  | .execute st _ => some st
  | _ => none

/-- The entity that a statement inserts. -/
def inserts (c : Setting) : Statement → Option (Entity × Uuid)
  | .insertProject row => some (.project, (row c.now).id)
  | .insertPool row => some (.pool, (row c.now).id)
  | .insertCredential row => some (.credential, (row c.now).id)
  | .insertScriptRepo row => some (.scriptRepo, (row c.now).id)
  | .insertTest row => some (.test, (row c.now).id)
  | .insertPolicy row => some (.targetPolicy, (row c.now).id)
  | .insertScriptVersion row => some (.scriptVersion, (row c.now).id)
  | _ => none

/-- The credential that a statement deletes. -/
def deletes : Statement → Option Uuid
  | .deleteCredential id => some id
  | _ => none

-- not by going through all the identifiers there are
instance decidableDeletes {p : Uuid → Prop} [DecidablePred p] (st : Statement) :
    Decidable (∀ id ∈ deletes st, p id) :=
  Option.decidableForallMem _

/-- An identifier that was drawn is not one the audit log says to be deleted. -/
def DrawnNew (s : ServiceServer dep) : Sql.Event (services dep) → Prop
  | .advance i => ∀ session ∈ s.sessions i, ∀ st ∈ statement? session.program,
      ∀ entity ∈ inserts session.setting st,
        deletion entity.1 entity.2 ∉ trail (s.view session)
  | _ => True

/-- A credential that is to be deleted is there when its `DELETE` runs. -/
def StillThere (s : ServiceServer dep) : Sql.Event (services dep) → Prop
  | .advance i => ∀ session ∈ s.sessions i, ∀ st ∈ statement? session.program,
      ∀ id ∈ deletes st,
        (Database.byKey session.setting (s.view session).credentials id).isSome = true
  | _ => True

instance (s : ServiceServer dep) (e : Sql.Event (services dep)) : Decidable (DrawnNew s e) :=
  match e with
  | .advance _ => inferInstanceAs (Decidable (∀ session ∈ _, ∀ st ∈ _, ∀ entity ∈ _, _ ∉ _))
  | .start _ _ => inferInstanceAs (Decidable True)
  | .commit _ => inferInstanceAs (Decidable True)
  | .rollback _ => inferInstanceAs (Decidable True)

instance (s : ServiceServer dep) (e : Sql.Event (services dep)) : Decidable (StillThere s e) :=
  match e with
  | .advance _ => inferInstanceAs (Decidable (∀ session ∈ _, ∀ st ∈ _, ∀ id ∈ deletes st, _ = _))
  | .start _ _ => inferInstanceAs (Decidable True)
  | .commit _ => inferInstanceAs (Decidable True)
  | .rollback _ => inferInstanceAs (Decidable True)

end Plimsoll.Audit
