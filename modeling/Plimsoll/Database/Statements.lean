import Plimsoll.Database

/-!
What the statements of the repositories do: one lemma for each that says what it
answers and how it leaves the database.
-/

namespace Plimsoll

open Python Contracts

namespace Database

variable {c : Setting} {d : Database}

section

variable {κ ρ : Type} [DecidableEq κ] [Tenant ρ] {table : Dict κ ρ} {key : κ} {row : ρ}

theorem byKey_eq_some_iff : byKey c table key = some row ↔ table.get? key = some row ∧ c.Sees row := by
  rw [byKey, Option.filter_eq_some_iff, decide_eq_true_eq]

variable {references : Bool} {write : Write}

/-- A row is inserted only where the policy allows it and its key is free. -/
theorem insert_ok (inserted : (insert c table key row references write).1 = .ok ()) :
    (insert c table key row references write).2 = [write] ∧ c.Sees row ∧
      table.get? key = none ∧ references = true := by
  unfold insert at inserted ⊢
  split at inserted
  · cases inserted
  · rename_i seen
    split at inserted
    · cases inserted
    · rename_i free
      rw [not_or, Option.not_isSome_iff_eq_none, Bool.not_eq_false] at free
      rw [if_neg seen, if_neg (by simp [free.1, free.2])]
      exact ⟨rfl, not_not.mp seen, free.1, free.2⟩

/-- What is inserted where the policy allows it and nothing stands against it. -/
theorem insert_free (sees : c.Sees row) (free : table.get? key = none)
    (referenced : references = true) :
    insert c table key row references write = (.ok (), [write]) := by
  rw [insert, if_neg (not_not.mpr sees), free, referenced]
  rfl

theorem mem_visible {row : ρ} : row ∈ visible c table ↔ ∃ key, table.get? key = some row ∧ c.Sees row := by
  rw [visible, List.mem_filter, List.mem_map, decide_eq_true_eq]
  constructor
  · rintro ⟨⟨⟨key, row'⟩, member, rfl⟩, sees⟩
    exact ⟨key, Dict.get?_eq_some_iff.mpr member, sees⟩
  · rintro ⟨key, found, sees⟩
    exact ⟨⟨(key, row), Dict.get?_eq_some_iff.mp found, rfl⟩, sees⟩

end

section

variable {ρ : Type} {row stored : ρ} {entries : List UniqueKey}
  {inserted : Except Fault Unit × List Write}

theorem returning_ok (answer : (returning row entries inserted).1 = .ok stored) :
    stored = row ∧ inserted.1 = .ok () ∧
      (returning row entries inserted).2 = inserted.2 ++ entries.map Write.entry := by
  obtain ⟨result, writes⟩ := inserted
  cases result with
  | error fault => cases answer
  | ok _ =>
      cases answer
      exact ⟨rfl, rfl, rfl⟩

/-- An insertion that nothing stands against. -/
theorem returning_insert {κ σ : Type} [DecidableEq κ] [Tenant σ] {table : Dict κ σ} {key : κ}
    {row : σ} {references : Bool} {write : Write} {result : ρ} (sees : c.Sees row)
    (free : table.get? key = none) (referenced : references = true) :
    returning result entries (insert c table key row references write) =
      (.ok result, write :: entries.map Write.entry) := by
  rw [insert_free sees free referenced]
  rfl

/-- An update finds no row and writes nothing, or writes what it makes of the row. -/
theorem updating_ok {found result : Option ρ} {update : ρ → Except Fault ρ}
    {writes : ρ → List Write} (answer : (updating found update writes).1 = .ok result) :
    (found = none ∧ result = none ∧ (updating found update writes).2 = []) ∨
      ∃ old new, found = some old ∧ update old = .ok new ∧ result = some new ∧
        (updating found update writes).2 = writes new := by
  unfold updating at answer ⊢
  cases found with
  | none =>
      cases answer
      exact Or.inl ⟨rfl, rfl, rfl⟩
  | some old =>
      cases made : update old with
      | error fault => simp [made] at answer
      | ok new =>
          simp only [made, Except.ok.injEq] at answer
          refine Or.inr ⟨old, new, rfl, made, answer.symm, ?_⟩
          dsimp only
          rw [made]

/-- What is archived was there, and not archived. -/
theorem archiving_cases {found : Option ρ} {archived : ρ → Bool} {write : ρ → Write} :
    archiving found archived write = (false, []) ∨
      ∃ old, found = some old ∧ archived old = false ∧
        archiving found archived write = (true, [write old]) := by
  unfold archiving
  cases there : found.filter fun row => !archived row with
  | none => exact Or.inl rfl
  | some old =>
      obtain ⟨rfl, live⟩ := Option.filter_eq_some_iff.mp there
      exact Or.inr ⟨old, rfl, by simpa using live, rfl⟩

end

/-- What an update makes of a row, where it makes anything of it. -/
theorem updatedProject_ok {now : Timestamp} {old new : Project} {changes : ProjectChanges}
    (made : updatedProject now old changes = .ok new) :
    assigned old.name changes.name = .ok new.name ∧ assigned old.tags changes.tags = .ok new.tags ∧
      new = { old with
        name := new.name
        tags := new.tags
        description := assignedNullable old.description changes.description
        environment := assignedNullable old.environment changes.environment
        updatedAt := now } := by
  obtain ⟨name, named, made⟩ := of_bind_eq_ok made
  obtain ⟨tags, tagged, made⟩ := of_bind_eq_ok made
  cases made
  exact ⟨named, tagged, rfl⟩

theorem updatedPool_ok {now : Timestamp} {old new : GeneratorPool} {changes : PoolChanges}
    (made : d.updatedPool now old changes = .ok new) :
    assigned old.name changes.name = .ok new.name ∧
      assigned old.maxGenerators changes.maxGenerators = .ok new.maxGenerators ∧
        assigned old.maxVusPerGenerator changes.maxVusPerGenerator = .ok new.maxVusPerGenerator ∧
          new = { old with
            name := new.name
            maxGenerators := new.maxGenerators
            maxVusPerGenerator := new.maxVusPerGenerator
            config := assignedNullable old.config changes.config
            region := assignedNullable old.region changes.region
            updatedAt := now } := by
  obtain ⟨name, named, made⟩ := of_bind_eq_ok made
  obtain ⟨maxGenerators, generators, made⟩ := of_bind_eq_ok made
  obtain ⟨maxVusPerGenerator, vus, made⟩ := of_bind_eq_ok made
  split at made
  · cases made
  · cases made
    exact ⟨named, generators, vus, rfl⟩

theorem updated_ok {now : Timestamp} {old new : ScriptRepo} {changes : ScriptRepoChanges}
    (made : d.updated now old changes = .ok new) :
    assigned old.name changes.name = .ok new.name ∧
      assigned old.planPath changes.planPath = .ok new.planPath ∧
        assigned old.defaultRef changes.defaultRef = .ok new.defaultRef ∧
          References d.credentials new.credentialId = true ∧
            new = { old with
              name := new.name
              planPath := new.planPath
              defaultRef := new.defaultRef
              credentialId := assignedNullable old.credentialId changes.credentialId
              updatedAt := now } := by
  obtain ⟨name, named, made⟩ := of_bind_eq_ok made
  obtain ⟨planPath, placed, made⟩ := of_bind_eq_ok made
  obtain ⟨defaultRef, ref, made⟩ := of_bind_eq_ok made
  dsimp only at made
  split at made
  · rename_i refers
    cases made
    exact ⟨named, placed, ref, refers, rfl⟩
  · cases made

theorem updatedTest_ok {now : Timestamp} {old new : PerformanceTest} {changes : TestChanges}
    (made : updatedTest now old changes = .ok new) :
    assigned old.name changes.name = .ok new.name ∧ assigned old.tags changes.tags = .ok new.tags ∧
      new = { old with
        name := new.name
        tags := new.tags
        description := assignedNullable old.description changes.description
        configuration := assignedNullable old.configuration changes.configuration
        version := old.version + 1
        updatedAt := now } := by
  obtain ⟨name, named, made⟩ := of_bind_eq_ok made
  obtain ⟨tags, tagged, made⟩ := of_bind_eq_ok made
  cases made
  exact ⟨named, tagged, rfl⟩

theorem findByHash_eq_some {tokenHash : String} {row : RefreshTokenFamily}
    (found : d.findByHash c tokenHash = some row) :
    ∃ id, d.families.get? id = some row ∧ row.currentHash = tokenHash ∧ c.Sees row := by
  rw [findByHash] at found
  have member := List.mem_of_find?_eq_some found
  have holds := List.find?_some found
  rw [List.mem_map] at member
  obtain ⟨⟨id, row'⟩, inItems, rfl⟩ := member
  rw [decide_eq_true_eq] at holds
  exact ⟨id, Dict.get?_eq_some_iff.mpr inItems, holds.1, holds.2⟩

theorem findByHash_eq_none {tokenHash : String}
    (absent : ∀ id row, d.families.get? id = some row → row.currentHash ≠ tokenHash) :
    d.findByHash c tokenHash = none := by
  cases found : d.findByHash c tokenHash with
  | none => rfl
  | some row =>
      obtain ⟨id, at_, same, -⟩ := findByHash_eq_some found
      exact absurd same (absent id row at_)

/-- The organisation of a token that is current nowhere is found in the history. -/
theorem organizationForToken_of_history {tokenHash : String} {entry : RefreshTokenHistory}
    (absent : ∀ id row, d.families.get? id = some row → row.currentHash ≠ tokenHash)
    (inHistory : d.history.get? tokenHash = some entry) :
    d.organizationForToken tokenHash = some entry.organizationId := by
  have nowhere : (d.families.items.map Prod.snd).filter (fun row => row.currentHash = tokenHash) =
      [] := by
    rw [List.filter_eq_nil_iff]
    intro row member same
    obtain ⟨⟨id, row'⟩, inItems, rfl⟩ := List.mem_map.mp member
    exact absent id row' (Dict.get?_eq_some_iff.mpr inItems) (of_decide_eq_true same)
  rw [organizationForToken, nowhere, inHistory]
  rfl

/-- A family is written, and its current hash put into the history. -/
def adopt (d : Database) (row : RefreshTokenFamily) : Database :=
  { d with
    families := d.families.set row.id row
    history := d.history.set row.currentHash
      { tokenHash := row.currentHash, familyId := row.id, organizationId := row.organizationId } }

theorem adopt_families (d : Database) (row : RefreshTokenFamily) (id : Uuid) :
    (d.adopt row).families.get? id = if row.id = id then some row else d.families.get? id :=
  Dict.get?_set ..

theorem adopt_history (d : Database) (row : RefreshTokenFamily) (tokenHash : String) :
    (d.adopt row).history.get? tokenHash =
      if row.currentHash = tokenHash then
        some { tokenHash := row.currentHash, familyId := row.id, organizationId := row.organizationId }
      else d.history.get? tokenHash :=
  Dict.get?_set ..

/-- A family is marked as revoked. -/
def revoke (d : Database) (row : RefreshTokenFamily) (at_ : Timestamp) : Database :=
  { d with families := d.families.set row.id { row with revokedAt := some at_ } }

end Database

namespace Transaction

open Database (Statement Fault)

variable {v v' : Sql.View postgres} {α : Type}

/-! ## The interpreter -/

theorem run_tokenUrlsafe : tokenUrlsafe.run v =
    (.ok (v.environment.tokens v.environment.tokensDrawn),
      { v with environment := (v.environment.answer .tokenUrlsafe).2 }) := rfl

theorem run_uuid4 : uuid4.run v =
    (.ok (v.environment.uuids v.environment.uuidsDrawn),
      { v with environment := (v.environment.answer .uuid4).2 }) := rfl

theorem run_now : now.run v =
    (.ok (v.environment.clock v.environment.clockRead),
      { v with environment := (v.environment.answer .now).2 }) := rfl

/-! ## Any statement -/

/-- A statement that cannot fail. -/
theorem run_statement {s : Statement} {answer : s.Answer} {writes : List Database.Write}
    (executed : Database.execute s v.setting v.database = (answer, writes)) :
    (Sql.Program.execute s pure : Transaction s.Answer).run v =
      (.ok answer, ⟨Database.rebind s v.setting, postgres.applyAll writes v.database,
        v.environment⟩) := by
  have executed' : postgres.execute s v.setting v.database = (answer, writes) := executed
  rw [Sql.Program.run_execute, executed']
  rfl

/-! ## Reads -/

theorem run_getProfile {userId : Uuid} : (getProfile userId).run v =
    (.ok ((Database.byKey v.setting v.database.users userId).map User.profile), v) := rfl

theorem run_findByHash {tokenHash : String} : (findByHash tokenHash).run v =
    (.ok (v.database.findByHash v.setting tokenHash), v) := rfl

theorem run_organizationForToken {tokenHash : String} : (organizationForToken tokenHash).run v =
    (.ok (v.database.organizationForToken tokenHash), v) := rfl

theorem run_getProject {id : Uuid} : (getProject id).run v =
    (.ok (Database.byKey v.setting v.database.projects id), v) := rfl

theorem run_getCredential {id : Uuid} : (getCredential id).run v =
    (.ok ((Database.byKey v.setting v.database.credentials id).map Credential.summary), v) := rfl

theorem run_getScriptRepo {id : Uuid} : (getScriptRepo id).run v =
    (.ok (Database.byKey v.setting v.database.scriptRepos id), v) := rfl

/-! ## Writes -/

theorem run_bindSessionToOrg {org : Uuid} : (bindSessionToOrg org).run v =
    (.ok (), { v with setting := { v.setting with org := some org } }) := rfl

theorem run_revokeFamilyContaining {tokenHash : String} :
    ∃ d, (revokeFamilyContaining tokenHash).run v = (.ok (), { v with database := d }) :=
  ⟨_, rfl⟩

/-- A row that is there is given the new hash. -/
theorem run_replaceHash {familyId : Uuid} {tokenHash : String} {row : RefreshTokenFamily}
    (there : Database.byKey v.setting v.database.families familyId = some row) :
    (replaceHash familyId tokenHash).run v =
      (.ok (), { v with database := { v.database with
        families := v.database.families.set row.id { row with currentHash := tokenHash } } }) := by
  change (Except.ok (), (⟨v.setting, postgres.applyAll (Database.execute
    (.replaceHash familyId tokenHash) v.setting v.database).2 v.database, v.environment⟩ :
      Sql.View postgres)) = _
  simp only [Database.execute, there, Option.map_some, Option.toList_some]
  rfl

/-- A statement that may fail has not failed. -/
theorem checked_ok {s : Statement} {answer : s.Answer → Except Fault α} {a : α}
    (ran : (Sql.Program.execute s fun x => checked (answer x) : Transaction α).run v = (.ok a, v')) :
    answer (Database.execute s v.setting v.database).1 = .ok a ∧
      v' = { setting := Database.rebind s v.setting
             database := postgres.applyAll (Database.execute s v.setting v.database).2 v.database
             environment := v.environment } := by
  rw [Sql.Program.run_execute] at ran
  cases outcome : answer (Database.execute s v.setting v.database).1 with
  | error fault =>
      change (checked (answer _)).run _ = _ at ran
      rw [outcome] at ran
      cases ran
  | ok b =>
      change (checked (answer _)).run _ = _ at ran
      rw [outcome] at ran
      cases ran
      exact ⟨rfl, rfl⟩

/-- A statement that may fail raises nothing but what its fault is raised as. -/
theorem checked_error {s : Statement} {answer : s.Answer → Except Fault α} {exc : Raised}
    (ran : (Sql.Program.execute s fun x => checked (answer x) : Transaction α).run v =
      (.error exc, v')) :
    (∃ fault, exc = Fault.raised fault) ∧ v'.environment = v.environment := by
  rw [Sql.Program.run_execute] at ran
  cases outcome : answer (Database.execute s v.setting v.database).1 with
  | error fault =>
      change (checked (answer _)).run _ = _ at ran
      rw [outcome] at ran
      cases ran
      exact ⟨⟨fault, rfl⟩, rfl⟩
  | ok b =>
      change (checked (answer _)).run _ = _ at ran
      rw [outcome] at ran
      cases ran

/-- The family whose history has the hash is marked, if the policy shows both. -/
theorem run_revokeFamilyContaining_eq {tokenHash : String} :
    (revokeFamilyContaining tokenHash).run v =
      (.ok (), { v with database :=
        match v.database.familyContaining v.setting tokenHash with
        | none => v.database
        | some row => v.database.revoke row v.setting.now }) := by
  change (Except.ok (), (⟨v.setting, postgres.applyAll (Database.execute
    (.revokeFamilyContaining tokenHash) v.setting v.database).2 v.database, v.environment⟩ :
      Sql.View postgres)) = _
  simp only [Database.execute]
  cases v.database.familyContaining v.setting tokenHash with
  | none => rfl
  | some row => rfl

/-- A hash that is new is recorded for a family that is there. -/
theorem run_recordHistory {row : RefreshTokenHistory} (sees : v.setting.Sees row)
    (free : v.database.history.get? row.tokenHash = none)
    (there : (v.database.families.get? row.familyId).isSome = true) :
    (recordHistory row).run v =
      (.ok (), { v with database := { v.database with
        history := v.database.history.set row.tokenHash row } }) := by
  have inserted : Database.insert v.setting v.database.history row.tokenHash row
      (v.database.families.get? row.familyId).isSome (.history row) = (.ok (), [.history row]) :=
    Database.insert_free sees free there
  rw [recordHistory, Sql.Program.run_execute]
  change (checked (Database.insert _ _ _ _ _ _).1).run (⟨_, postgres.applyAll
    (Database.insert _ _ _ _ _ _).2 _, _⟩ : Sql.View postgres) = _
  rw [inserted]
  rfl

theorem insertFamily_ok {row : RefreshTokenFamily} (ran : (insertFamily row).run v = (.ok (), v')) :
    v.setting.Sees row ∧ v.database.families.get? row.id = none ∧
      v' = { v with database := { v.database with
        families := v.database.families.set row.id row } } := by
  obtain ⟨inserted, rfl⟩ := checked_ok ran
  obtain ⟨writes, sees, free, -⟩ := Database.insert_ok inserted
  refine ⟨sees, free, ?_⟩
  change (⟨v.setting, postgres.applyAll _ v.database, v.environment⟩ : Sql.View postgres) = _
  rw [show (Database.execute (.insertFamily row) v.setting v.database).2 = _ from writes]
  rfl

theorem recordHistory_ok {row : RefreshTokenHistory}
    (ran : (recordHistory row).run v = (.ok (), v')) :
    v.setting.Sees row ∧ v.database.history.get? row.tokenHash = none ∧
      v' = { v with database := { v.database with
        history := v.database.history.set row.tokenHash row } } := by
  obtain ⟨inserted, rfl⟩ := checked_ok ran
  obtain ⟨writes, sees, free, -⟩ := Database.insert_ok inserted
  refine ⟨sees, free, ?_⟩
  change (⟨v.setting, postgres.applyAll _ v.database, v.environment⟩ : Sql.View postgres) = _
  rw [show (Database.execute (.recordHistory row) v.setting v.database).2 = _ from writes]
  rfl

theorem insertAudit_ok {row : AuditLog} (ran : (insertAudit row).run v = (.ok (), v')) :
    v' = { v with database := { v.database with
      auditLogs := v.database.auditLogs.set row.id row } } := by
  obtain ⟨inserted, rfl⟩ := checked_ok ran
  obtain ⟨writes, -⟩ := Database.insert_ok inserted
  change (⟨v.setting, postgres.applyAll _ v.database, v.environment⟩ : Sql.View postgres) = _
  rw [show (Database.execute (.insertAudit row) v.setting v.database).2 = _ from writes]
  rfl

theorem insertScriptRepo_ok {row : Timestamp → ScriptRepo} {stored : ScriptRepo}
    (ran : (insertScriptRepo row).run v = (.ok stored, v')) :
    stored = row v.setting.now ∧ v' = { v with database := { v.database with
      scriptRepos := v.database.scriptRepos.set stored.id stored } } := by
  obtain ⟨answer, rfl⟩ := checked_ok ran
  obtain ⟨rfl, inserted, writes⟩ := Database.returning_ok answer
  obtain ⟨written, -⟩ := Database.insert_ok inserted
  refine ⟨rfl, ?_⟩
  rw [written] at writes
  change (⟨v.setting, postgres.applyAll _ v.database, v.environment⟩ : Sql.View postgres) = _
  rw [show (Database.execute (.insertScriptRepo row) v.setting v.database).2 = _ from writes]
  rfl

/-- An update writes the row with its columns assigned, or finds no row. -/
theorem updateScriptRepo_ok {id : Uuid} {changes : Database.ScriptRepoChanges}
    {result : Option ScriptRepo} (ran : (updateScriptRepo id changes).run v = (.ok result, v')) :
    v'.database = v.database ∨ ∃ old new, v.database.scriptRepos.get? id = some old ∧
      v.database.updated v.setting.now old changes = .ok new ∧
        v'.database = { v.database with
          scriptRepos := v.database.scriptRepos.set new.id new } := by
  obtain ⟨answer, rfl⟩ := checked_ok ran
  rcases Database.updating_ok answer with ⟨-, -, writes⟩ | ⟨old, new, found, made, -, writes⟩
  · refine Or.inl ?_
    change postgres.applyAll _ v.database = _
    rw [show (Database.execute (.updateScriptRepo id changes) v.setting v.database).2 = _
      from writes]
    rfl
  · obtain ⟨there, -⟩ := Database.byKey_eq_some_iff.mp found
    refine Or.inr ⟨old, new, there, made, ?_⟩
    change postgres.applyAll _ v.database = _
    rw [show (Database.execute (.updateScriptRepo id changes) v.setting v.database).2 = _
      from writes]
    rfl

/-- Archiving writes the row with another status, or nothing. -/
theorem run_archiveScriptRepo {id : Uuid} :
    ∃ archived d, (archiveScriptRepo id).run v = (.ok archived, { v with database := d }) ∧
      (d = v.database ∨ ∃ old, v.database.scriptRepos.get? id = some old ∧
        d = { v.database with
          scriptRepos := v.database.scriptRepos.set old.id
            { old with status := .archived, updatedAt := v.setting.now } }) := by
  rcases @Database.archiving_cases _ (Database.byKey v.setting v.database.scriptRepos id)
      (fun row => row.status = .archived)
      (fun row => .scriptRepo { row with status := .archived, updatedAt := v.setting.now }) with
    same | ⟨old, found, -, same⟩
  · exact ⟨_, _, run_statement (s := .archiveScriptRepo id) same, Or.inl rfl⟩
  · exact ⟨_, _, run_statement (s := .archiveScriptRepo id) same,
      Or.inr ⟨old, (Database.byKey_eq_some_iff.mp found).1, rfl⟩⟩

end Transaction

/-! ## Sessions -/

section

variable {α : Type} {org : Option Uuid} {body : Transaction α} {w : World}

/-- What a session's transaction begins with. -/
def World.view (w : World) (org : Option Uuid) : Sql.View postgres :=
  ⟨Database.Setting.of org w.environment, w.database, w.environment⟩

theorem sessionForOrg_ok {a : α} {v : Sql.View postgres}
    (ran : body.run (w.view org) = (.ok a, v)) :
    sessionForOrg org body w = (.ok a, { database := v.database, environment := v.environment }) := by
  rw [sessionForOrg, Sql.transaction_ok ran]

/-- An exception that leaves a session undoes what it wrote. -/
theorem sessionForOrg_error {exc : Raised} {v : Sql.View postgres}
    (ran : body.run (w.view org) = (.error exc, v)) :
    sessionForOrg org body w =
      (.error exc, { database := w.database, environment := v.environment }) := by
  rw [sessionForOrg, Sql.transaction_error ran]

/-- What a body that returns keeps of the database, its session keeps. -/
theorem ensures_sessionForOrg {P : Database → Prop}
    (keeps : ∀ v a v', P v.database → body.run v = (.ok a, v') → P v'.database) :
    Action.Ensures (fun w => P w.database) (sessionForOrg org body) fun _ => True := by
  intro w holds
  refine ⟨?_, fun _ _ => trivial⟩
  cases ran : body.run (w.view org) with
  | mk outcome v =>
      cases outcome with
      | ok a =>
          rw [sessionForOrg_ok ran]
          exact keeps _ a v holds ran
      | error exc =>
          rw [sessionForOrg_error ran]
          exact holds

end

end Plimsoll
