import Plimsoll.Audit.Balance

/-!
What each statement of a transaction does to its balance.
-/

namespace Plimsoll.Audit

open Python Contracts Transaction
open Database (Write Setting Statement Fault)
open ScriptRepos (record refuse requireProject)

variable {α β : Type} {c : Setting}

/-! ## Programs -/

/-- A program that goes from one balance to another, which may depend on what it
returns. -/
def Yields (p : Transaction α) (c : Setting) (change : Option Change) (mark : Option Mark)
    (change' : α → Option Change) (mark' : α → Option Mark) : Prop :=
  ∀ d writes, Balance d writes change mark →
    p.Ensures rely (fun a c' d writes => c' = c ∧ Balance d writes (change' a) (mark' a)) c d writes

/-- A program that changes nothing and writes no audit row. -/
def Keeps (p : Transaction α) (c : Setting) : Prop :=
  ∀ change mark, Yields p c change mark (fun _ => change) fun _ => mark

/-- A program that ends with an audit row that tells of its change, or with neither. -/
def Settles (p : Transaction α) (c : Setting) (change : Option Change) (mark : Option Mark) : Prop :=
  ∀ d writes, Balance d writes change mark →
    p.Ensures rely (fun _ c' d writes => c' = c ∧
      ∃ change, Balance d writes change (change.map Change.mark)) c d writes

section

variable {change : Option Change} {mark : Option Mark} {change' : α → Option Change}
  {mark' : α → Option Mark} {p : Transaction α} {f : α → Transaction β}

theorem Yields.pure (a : α) :
    Yields (pure a : Transaction α) c (change' a) (mark' a) change' mark' :=
  fun _ _ balance _ stable => ⟨rfl, balance.stable stable⟩

theorem Yields.raise (exc : Raised) :
    Yields (raise exc : Transaction α) c change mark change' mark' :=
  fun _ _ _ => trivial

theorem Yields.bind {change'' : β → Option Change} {mark'' : β → Option Mark}
    (first : Yields p c change mark change' mark')
    (rest : ∀ a, Yields (f a) c (change' a) (mark' a) change'' mark'') :
    Yields (p >>= f) c change mark change'' mark'' := by
  intro d writes balance
  refine Sql.Program.Ensures.bind (Sql.Program.Ensures.weaken (first d writes balance) ?_)
  rintro a c' d writes ⟨rfl, balance⟩
  exact rest a d writes balance

theorem Yields.mapError {g : Raised → Raised} (yields : Yields p c change mark change' mark') :
    Yields (p.mapError g) c change mark change' mark' :=
  fun d writes balance => Sql.Program.Ensures.mapError (yields d writes balance)

theorem Keeps.pure (a : α) : Keeps (pure a : Transaction α) c :=
  fun _ _ _ _ balance _ stable => ⟨rfl, balance.stable stable⟩

theorem Keeps.raise (exc : Raised) : Keeps (raise exc : Transaction α) c :=
  fun _ _ => Yields.raise exc

theorem Keeps.bind (first : Keeps p c) (rest : ∀ a, Keeps (f a) c) : Keeps (p >>= f) c :=
  fun change mark => (first change mark).bind fun a => rest a change mark

theorem Settles.raise (exc : Raised) : Settles (raise exc : Transaction α) c change mark :=
  fun _ _ _ => trivial

theorem Settles.of_yields (yields : Yields p c change mark change' mark')
    (tells : ∀ a, mark' a = (change' a).map Change.mark) : Settles p c change mark := by
  intro d writes balance
  refine Sql.Program.Ensures.weaken (yields d writes balance) ?_
  rintro a c' d writes ⟨same, balance⟩
  exact ⟨same, change' a, tells a ▸ balance⟩

theorem Settles.of_keeps (keeps : Keeps p c) : Settles p c none none :=
  .of_yields (keeps none none) fun _ => rfl

theorem Settles.bind (first : Yields p c change mark change' mark')
    (rest : ∀ a, Settles (f a) c (change' a) (mark' a)) : Settles (p >>= f) c change mark := by
  intro d writes balance
  refine Sql.Program.Ensures.bind (Sql.Program.Ensures.weaken (first d writes balance) ?_)
  rintro a c' d writes ⟨rfl, balance⟩
  exact rest a d writes balance

/-- What only looks at the database settles nothing else. -/
theorem Settles.keeping (first : Keeps p c) (rest : ∀ a, Settles (f a) c change mark) :
    Settles (p >>= f) c change mark :=
  Settles.bind (first change mark) rest

/-- What is done behind a settled program. -/
theorem Settles.andThen (first : Settles p c change mark) (rest : ∀ a, Keeps (f a) c) :
    Settles (p >>= f) c change mark := by
  intro d writes balance
  refine Sql.Program.Ensures.bind (Sql.Program.Ensures.weaken (first d writes balance) ?_)
  rintro a c' d writes ⟨rfl, change, balance⟩
  refine Sql.Program.Ensures.weaken (rest a change _ d writes balance) ?_
  rintro b c' d writes ⟨same, balance⟩
  exact ⟨same, change, balance⟩

end

/-! ## Statements that are about no entity -/

/-- A statement that reads. -/
theorem keeps_read {s : Statement} (same : Database.rebind s c = c)
    (silent : ∀ d, (Database.execute s c d).2 = []) :
    Keeps (Sql.Program.execute s pure : Transaction s.Answer) c := by
  intro change mark d writes balance d' stable _ d'' later
  refine ⟨same, ?_⟩
  have quiet : Quiet (Database.execute s c (postgres.applyAll writes d')).2 := by
    rw [silent]
    exact ⟨rfl, rfl⟩
  exact ((balance.stable stable).quiet quiet).stable later

/-- A statement that writes rows of no entity. -/
theorem keeps_quiet {s : Statement} (same : Database.rebind s c = c)
    (quiet : ∀ d, Quiet (Database.execute s c d).2) :
    Keeps (Sql.Program.execute s pure : Transaction s.Answer) c := by
  intro change mark d writes balance d' stable _ d'' later
  exact ⟨same, ((balance.stable stable).quiet (quiet _)).stable later⟩

theorem keeps_checked_quiet {s : Statement} {result : s.Answer → Except Fault α}
    (same : Database.rebind s c = c) (quiet : ∀ d, Quiet (Database.execute s c d).2) :
    Keeps (Sql.Program.execute s fun answer => checked (result answer) : Transaction α) c := by
  intro change mark d writes balance d' stable _
  have after := (balance.stable stable).quiet (quiet (postgres.applyAll writes d'))
  cases outcome : result (Database.execute s c (postgres.applyAll writes d')).1 with
  | error fault =>
      change (checked (result _)).Ensures _ _ _ _ _
      rw [outcome]
      trivial
  | ok a =>
      change (checked (result _)).Ensures _ _ _ _ _
      rw [outcome]
      exact fun d'' later => ⟨same, after.stable later⟩

theorem keeps_uuid4 : Keeps uuid4 c :=
  fun _ _ _ _ balance _ _ stable => ⟨rfl, balance.stable stable⟩

theorem keeps_nonce : Keeps nonce c :=
  fun _ _ _ _ balance _ _ stable => ⟨rfl, balance.stable stable⟩

/-! ## Statements that are about an entity -/

section

variable {e : Entity} {id : Uuid}

/-- An insertion, from what it writes where it succeeds. -/
theorem yields_insert {s : Statement} {result : s.Answer → Except Fault α} {idOf : α → Uuid}
    (same : Database.rebind s c = c)
    (wrote : ∀ d a, result (Database.execute s c d).1 = .ok a → ∃ row : e.Row,
      (e.table d).get? (idOf a) = none ∧ inserts c s = some (e, idOf a) ∧
        (Database.execute s c d).2.filterMap version? = [⟨e, idOf a, some row⟩] ∧
          (Database.execute s c d).2.filterMap auditRow? = []) :
    Yields (Sql.Program.execute s fun answer => checked (result answer) : Transaction α) c none none
      (fun a => some ⟨e, idOf a, .created⟩) fun _ => none := by
  intro d writes balance d' stable allowed
  have balance := balance.stable stable
  cases outcome : result (Database.execute s c (postgres.applyAll writes d')).1 with
  | error fault =>
      change (checked (result _)).Ensures _ _ _ _ _
      rw [outcome]
      trivial
  | ok a =>
      obtain ⟨row, free, inserted, version, silent⟩ := wrote _ a outcome
      rw [balance.table_eq] at free
      have lawful : Version.Lawful d' ⟨e, idOf a, some row⟩ := by
        refine ⟨fun old row found => ?_, fun _ => ?_, fun impossible => ?_⟩
        · rw [free] at found
          cases found
        · rw [← balance.trail_eq]
          exact allowed.1 (e, idOf a) inserted
        · cases impossible
      have after := balance.changing version silent lawful
      have created : Version.change d' ⟨e, idOf a, some row⟩ = ⟨e, idOf a, .created⟩ := by
        simp only [Version.change, Version.event, free]
      rw [created] at after
      change (checked (result _)).Ensures _ _ _ _ _
      rw [outcome]
      exact fun d'' later => ⟨same, after.stable later⟩

/-- An update, from the row it finds and the row it writes. -/
theorem yields_update {s : Statement} {result : s.Answer → Except Fault (Option e.Row)}
    (same : Database.rebind s c = c)
    (wrote : ∀ d found, result (Database.execute s c d).1 = .ok found →
      found = none ∧ (Database.execute s c d).2 = [] ∨
        ∃ old new, found = some new ∧ (e.table d).get? id = some old ∧
          e.idOf new = e.idOf old ∧ e.archived new = e.archived old ∧
            (Database.execute s c d).2.filterMap version? = [⟨e, e.idOf new, some new⟩] ∧
              (Database.execute s c d).2.filterMap auditRow? = []) :
    Yields (Sql.Program.execute s fun answer => checked (result answer) :
        Transaction (Option e.Row)) c none none
      (fun found => found.map fun _ => ⟨e, id, .updated⟩) fun _ => none := by
  intro d writes balance d' stable _
  have balance := balance.stable stable
  cases outcome : result (Database.execute s c (postgres.applyAll writes d')).1 with
  | error fault =>
      change (checked (result _)).Ensures _ _ _ _ _
      rw [outcome]
      trivial
  | ok found =>
      change (checked (result _)).Ensures _ _ _ _ _
      rw [outcome]
      rcases wrote _ found outcome with
        ⟨rfl, nothing⟩ | ⟨old, new, rfl, there, sameId, kept, version, silent⟩
      · have after := balance.quiet quiet_nil
        rw [nothing]
        exact fun d'' later => ⟨same, after.stable later⟩
      · rw [balance.table_eq] at there
        have key : e.idOf new = id := sameId.trans (balance.sound.keyed e id old there)
        rw [key] at version
        have lawful : Version.Lawful d' ⟨e, id, some new⟩ := by
          refine ⟨fun old' row found written archived => ?_, fun absent => ?_, fun impossible => ?_⟩
          · obtain rfl := Option.some.inj (there.symm.trans found)
            obtain rfl := Option.some.inj written
            exact kept.trans archived
          · rw [there] at absent
            cases absent
          · cases impossible
        have after := balance.changing version silent lawful
        have updated : Version.change d' ⟨e, id, some new⟩ = ⟨e, id, .updated⟩ := by
          simp only [Version.change, Version.event, there, kept, Bool.and_not_self,
            Bool.false_eq_true, if_false]
        rw [updated] at after
        exact fun d'' later => ⟨same, after.stable later⟩

/-- An archiving statement, from the row it finds and the row it writes. -/
theorem yields_archive {s : Statement} {result : s.Answer → Bool} (same : Database.rebind s c = c)
    (wrote : ∀ d, result (Database.execute s c d).1 = false ∧ (Database.execute s c d).2 = [] ∨
      ∃ old new, result (Database.execute s c d).1 = true ∧ (e.table d).get? id = some old ∧
        e.idOf new = e.idOf old ∧ e.archived old = false ∧ e.archived new = true ∧
          (Database.execute s c d).2.filterMap version? = [⟨e, e.idOf new, some new⟩] ∧
            (Database.execute s c d).2.filterMap auditRow? = []) :
    Yields (Sql.Program.execute s fun answer => pure (result answer) : Transaction Bool) c none none
      (fun done => if done then some ⟨e, id, .deleted⟩ else none) fun _ => none := by
  intro d writes balance d' stable _
  have balance := balance.stable stable
  intro d'' later
  refine ⟨same, Balance.stable ?_ later⟩
  rcases wrote (postgres.applyAll writes d') with
    ⟨answer, nothing⟩ | ⟨old, new, answer, there, sameId, live, archived, version, silent⟩
  · change Balance d' (writes ++ (Database.execute s c (postgres.applyAll writes d')).2)
      (if result (Database.execute s c (postgres.applyAll writes d')).1 then _ else none) none
    rw [answer, nothing]
    exact balance.quiet quiet_nil
  · change Balance d' (writes ++ (Database.execute s c (postgres.applyAll writes d')).2)
      (if result (Database.execute s c (postgres.applyAll writes d')).1 then _ else none) none
    rw [answer, if_pos rfl]
    rw [balance.table_eq] at there
    have key : e.idOf new = id := sameId.trans (balance.sound.keyed e id old there)
    rw [key] at version
    have lawful : Version.Lawful d' ⟨e, id, some new⟩ := by
      refine ⟨fun old' row found written _ => ?_, fun absent => ?_, fun impossible => ?_⟩
      · obtain rfl := Option.some.inj written
        exact archived
      · rw [there] at absent
        cases absent
      · cases impossible
    have after := balance.changing version silent lawful
    have deleted : Version.change d' ⟨e, id, some new⟩ = ⟨e, id, .deleted⟩ := by
      simp only [Version.change, Version.event, there, live, archived, Bool.not_false,
        Bool.and_self, if_true]
    rw [deleted] at after
    exact after

end

/-- An audit row. -/
theorem yields_record {principal : AccessClaims} {action entityType : String} {entityId : Uuid}
    {metadata : Option (List (String × Detail))} {change : Option Change} :
    Yields (record principal action entityType entityId metadata) c change none (fun _ => change)
      fun _ => some ⟨action, entityType, entityId⟩ := by
  intro d writes balance id d' stable _
  have balance := balance.stable stable
  cases outcome : (Database.execute (.insertAudit {
      id, action, entityType, entityId, metadata
      organizationId := principal.organizationId
      userId := principal.userId }) c (postgres.applyAll writes d')).1 with
  | error fault => trivial
  | ok _ =>
      obtain ⟨wrote, -, free, -⟩ := Database.insert_ok outcome
      rw [balance.auditLogs_eq] at free
      change (checked (.ok ())).Ensures _ _ _ _ (writes ++ (Database.insert _ _ _ _ _ _).2)
      rw [wrote]
      exact fun d'' later => ⟨rfl, (balance.recording free).stable later⟩

/-! ## The statements of the repositories -/

theorem quiet_entries (entries : List Database.UniqueKey) : Quiet (entries.map Write.entry) := by
  constructor
  · rw [List.filterMap_map]
    exact List.filterMap_eq_nil_iff.mpr fun _ _ => rfl
  · rw [List.filterMap_map]
    exact List.filterMap_eq_nil_iff.mpr fun _ _ => rfl

/-- What an insertion that has succeeded has found and written. -/
theorem inserted_ok {ρ σ : Type} [Tenant ρ] {table : Dict Uuid ρ} {key : Uuid} {row : ρ}
    {references : Bool} {write : Write} {version : Version} {result a : σ}
    {entries : List Database.UniqueKey} (ofVersion : version? write = some version)
    (noAudit : auditRow? write = none)
    (ok : (Database.returning result entries
      (Database.insert c table key row references write)).1 = .ok a) :
    a = result ∧ table.get? key = none ∧
      (Database.returning result entries
        (Database.insert c table key row references write)).2.filterMap version? = [version] ∧
      (Database.returning result entries
        (Database.insert c table key row references write)).2.filterMap auditRow? = [] := by
  obtain ⟨rfl, inserted, wrote⟩ := Database.returning_ok ok
  obtain ⟨one, -, free, -⟩ := Database.insert_ok inserted
  rw [wrote, one]
  refine ⟨rfl, free, ?_, ?_⟩
  · rw [List.filterMap_append, (quiet_entries entries).1, List.filterMap_cons, ofVersion]
    rfl
  · rw [List.filterMap_append, (quiet_entries entries).2, List.filterMap_cons, noAudit]
    rfl

theorem yields_insertProject {row : Timestamp → Project} :
    Yields (insertProject row) c none none (fun a => some ⟨.project, a.id, .created⟩)
      fun _ => none :=
  yields_insert rfl fun d a ok => by
    obtain ⟨rfl, free, version, silent⟩ := inserted_ok rfl rfl ok
    exact ⟨_, free, rfl, version, silent⟩

theorem yields_insertPool {row : Timestamp → GeneratorPool} :
    Yields (insertPool row) c none none (fun a => some ⟨.pool, a.id, .created⟩) fun _ => none :=
  yields_insert rfl fun d a ok => by
    obtain ⟨rfl, free, version, silent⟩ := inserted_ok rfl rfl ok
    exact ⟨_, free, rfl, version, silent⟩

theorem yields_insertCredential {row : Timestamp → Credential} :
    Yields (insertCredential row) c none none (fun a => some ⟨.credential, a.id, .created⟩)
      fun _ => none :=
  yields_insert rfl fun d a ok => by
    obtain ⟨rfl, free, version, silent⟩ := inserted_ok rfl rfl ok
    exact ⟨_, free, rfl, version, silent⟩

theorem yields_insertScriptRepo {row : Timestamp → ScriptRepo} :
    Yields (insertScriptRepo row) c none none (fun a => some ⟨.scriptRepo, a.id, .created⟩)
      fun _ => none :=
  yields_insert rfl fun d a ok => by
    obtain ⟨rfl, free, version, silent⟩ := inserted_ok rfl rfl ok
    exact ⟨_, free, rfl, version, silent⟩

theorem yields_insertTest {row : Timestamp → PerformanceTest} :
    Yields (insertTest row) c none none (fun a => some ⟨.test, a.id, .created⟩) fun _ => none :=
  yields_insert rfl fun d a ok => by
    obtain ⟨rfl, free, version, silent⟩ := inserted_ok rfl rfl ok
    exact ⟨_, free, rfl, version, silent⟩

theorem yields_insertScriptVersion {row : Timestamp → ScriptVersion} :
    Yields (insertScriptVersion row) c none none (fun a => some ⟨.scriptVersion, a.id, .created⟩)
      fun _ => none :=
  yields_insert rfl fun d a ok => by
    obtain ⟨rfl, free, version, silent⟩ := inserted_ok rfl rfl ok
    exact ⟨_, free, rfl, version, silent⟩

theorem yields_insertPolicy {row : Timestamp → TargetPolicyRow} :
    Yields (Sql.Program.execute (Statement.insertPolicy row) checked : Transaction TargetPolicyRow)
      c none none (fun a => some ⟨.targetPolicy, a.id, .created⟩) fun _ => none :=
  yields_insert rfl fun d a ok => by
    obtain ⟨rfl, free, version, silent⟩ := inserted_ok rfl rfl ok
    exact ⟨_, free, rfl, version, silent⟩

/-- What an update that has succeeded has found and written. -/
theorem updated_ok {ρ : Type} {table : Dict Uuid ρ} {id : Uuid} {there found : Option ρ}
    {update : ρ → Except Fault ρ} {writes : ρ → List Write}
    (within : ∀ row, there = some row → table.get? id = some row)
    (ok : (Database.updating there update writes).1 = .ok found) :
    found = none ∧ (Database.updating there update writes).2 = [] ∨
      ∃ old new, found = some new ∧ table.get? id = some old ∧ update old = .ok new ∧
        (Database.updating there update writes).2 = writes new := by
  rcases Database.updating_ok ok with ⟨-, rfl, nothing⟩ | ⟨old, new, is, made, rfl, wrote⟩
  · exact Or.inl ⟨rfl, nothing⟩
  · exact Or.inr ⟨old, new, rfl, within old is, made, wrote⟩

theorem get?_of_byKey {ρ : Type} [Tenant ρ] {table : Dict Uuid ρ} {id : Uuid} (row : ρ)
    (found : Database.byKey c table id = some row) : table.get? id = some row :=
  (Database.byKey_eq_some_iff.mp found).1

/-- An update keeps the identifier and the status of its row. -/
theorem updatedProject_ok {now : Timestamp} {old new : Project} {changes : Database.ProjectChanges}
    (made : Database.updatedProject now old changes = .ok new) :
    new.id = old.id ∧ new.status = old.status := by
  obtain ⟨name, -, made⟩ := of_bind_eq_ok made
  obtain ⟨tags, -, made⟩ := of_bind_eq_ok made
  cases made
  exact ⟨rfl, rfl⟩

theorem updatedPool_ok {d : Database} {now : Timestamp} {old new : GeneratorPool}
    {changes : Database.PoolChanges} (made : d.updatedPool now old changes = .ok new) :
    new.id = old.id ∧ new.status = old.status := by
  obtain ⟨name, -, made⟩ := of_bind_eq_ok made
  obtain ⟨maxGenerators, -, made⟩ := of_bind_eq_ok made
  obtain ⟨maxVusPerGenerator, -, made⟩ := of_bind_eq_ok made
  split at made
  · cases made
  · cases made
    exact ⟨rfl, rfl⟩

theorem updatedScriptRepo_ok {d : Database} {now : Timestamp} {old new : ScriptRepo}
    {changes : Database.ScriptRepoChanges} (made : d.updated now old changes = .ok new) :
    new.id = old.id ∧ new.status = old.status := by
  obtain ⟨name, -, made⟩ := of_bind_eq_ok made
  obtain ⟨planPath, -, made⟩ := of_bind_eq_ok made
  obtain ⟨defaultRef, -, made⟩ := of_bind_eq_ok made
  dsimp only at made
  split at made
  · cases made
    exact ⟨rfl, rfl⟩
  · cases made

theorem updatedTest_ok {now : Timestamp} {old new : PerformanceTest} {changes : Database.TestChanges}
    (made : Database.updatedTest now old changes = .ok new) :
    new.id = old.id ∧ new.status = old.status := by
  obtain ⟨name, -, made⟩ := of_bind_eq_ok made
  obtain ⟨tags, -, made⟩ := of_bind_eq_ok made
  cases made
  exact ⟨rfl, rfl⟩

/-- An update that keeps the identifier and the status of its row. -/
theorem yields_updating {e : Entity} {id : Uuid} {s : Statement}
    {result : s.Answer → Except Fault (Option e.Row)} {there : Database → Option e.Row}
    {update : Database → e.Row → Except Fault e.Row} {writes : e.Row → List Write}
    (same : Database.rebind s c = c)
    (executed : ∀ d, (result (Database.execute s c d).1, (Database.execute s c d).2) =
      Database.updating (there d) (update d) writes)
    (within : ∀ d row, there d = some row → (e.table d).get? id = some row)
    (kept : ∀ d old new, update d old = .ok new →
      e.idOf new = e.idOf old ∧ e.archived new = e.archived old)
    (version : ∀ row, (writes row).filterMap version? = [⟨e, e.idOf row, some row⟩])
    (silent : ∀ row, (writes row).filterMap auditRow? = []) :
    Yields (Sql.Program.execute s fun answer => checked (result answer) :
        Transaction (Option e.Row)) c none none
      (fun found => found.map fun _ => ⟨e, id, .updated⟩) fun _ => none := by
  refine yields_update same fun d found ok => ?_
  have answered : result (Database.execute s c d).1 =
    (Database.updating (there d) (update d) writes).1 := congrArg Prod.fst (executed d)
  have wrote : (Database.execute s c d).2 =
    (Database.updating (there d) (update d) writes).2 := congrArg Prod.snd (executed d)
  rw [answered] at ok
  rw [wrote]
  rcases updated_ok (within d) ok with nothing | ⟨old, new, rfl, is, made, wrote⟩
  · exact Or.inl nothing
  · obtain ⟨sameId, sameStatus⟩ := kept d old new made
    refine Or.inr ⟨old, new, rfl, is, sameId, sameStatus, ?_, ?_⟩
    · rw [wrote, version]
    · rw [wrote, silent]

theorem yields_updateProject {id : Uuid} {changes : Database.ProjectChanges} :
    Yields (updateProject id changes) c none none
      (fun found => found.map fun _ => ⟨.project, id, .updated⟩) fun _ => none := by
  refine yields_updating (e := .project) rfl (fun _ => rfl) (fun _ => get?_of_byKey) ?_
    (fun _ => rfl) fun _ => rfl
  intro d old new made
  obtain ⟨sameId, sameStatus⟩ := updatedProject_ok made
  exact ⟨sameId, by simp only [Entity.archived, sameStatus]⟩

theorem yields_updatePool {id : Uuid} {changes : Database.PoolChanges} :
    Yields (updatePool id changes) c none none
      (fun found => found.map fun _ => ⟨.pool, id, .updated⟩) fun _ => none := by
  refine yields_updating (e := .pool) rfl (fun _ => rfl) (fun _ => get?_of_byKey) ?_
    (fun _ => rfl) fun _ => rfl
  intro d old new made
  obtain ⟨sameId, sameStatus⟩ := updatedPool_ok made
  exact ⟨sameId, by simp only [Entity.archived, sameStatus]⟩

theorem yields_updateScriptRepo {id : Uuid} {changes : Database.ScriptRepoChanges} :
    Yields (updateScriptRepo id changes) c none none
      (fun found => found.map fun _ => ⟨.scriptRepo, id, .updated⟩) fun _ => none := by
  refine yields_updating (e := .scriptRepo) rfl (fun _ => rfl) (fun _ => get?_of_byKey) ?_
    (fun _ => rfl) fun _ => rfl
  intro d old new made
  obtain ⟨sameId, sameStatus⟩ := updatedScriptRepo_ok made
  exact ⟨sameId, by simp only [Entity.archived, sameStatus]⟩

theorem yields_updateDocument {id : Uuid} {expectedVersion : Int} {changes : Database.TestChanges} :
    Yields (updateDocument id expectedVersion changes) c none none
      (fun found => found.map fun _ => ⟨.test, id, .updated⟩) fun _ => none := by
  refine yields_updating (e := .test) rfl (fun _ => rfl) ?_ ?_ (fun _ => rfl) fun _ => rfl
  · intro d row found
    exact get?_of_byKey row (Option.filter_eq_some_iff.mp found).1
  · intro d old new made
    obtain ⟨sameId, sameStatus⟩ := updatedTest_ok made
    exact ⟨sameId, by simp only [Entity.archived, sameStatus]⟩

/-- An archiving statement that keeps the identifier of its row. -/
theorem yields_archiving {e : Entity} {id : Uuid} {s : Statement} {result : s.Answer → Bool}
    {there : Database → Option e.Row} {change : e.Row → e.Row} {write : e.Row → Write}
    (same : Database.rebind s c = c)
    (executed : ∀ d, (result (Database.execute s c d).1, (Database.execute s c d).2) =
      Database.archiving (there d) e.archived fun row => write (change row))
    (within : ∀ d row, there d = some row → (e.table d).get? id = some row)
    (sameId : ∀ row, e.idOf (change row) = e.idOf row)
    (archived : ∀ row, e.archived (change row) = true)
    (version : ∀ row, version? (write row) = some ⟨e, e.idOf row, some row⟩)
    (silent : ∀ row, auditRow? (write row) = none) :
    Yields (Sql.Program.execute s fun answer => pure (result answer) : Transaction Bool) c none none
      (fun done => if done then some ⟨e, id, .deleted⟩ else none) fun _ => none := by
  refine yields_archive same fun d => ?_
  have answered : result (Database.execute s c d).1 = (Database.archiving (there d) e.archived
    fun row => write (change row)).1 := congrArg Prod.fst (executed d)
  have wrote : (Database.execute s c d).2 = (Database.archiving (there d) e.archived
    fun row => write (change row)).2 := congrArg Prod.snd (executed d)
  rw [answered, wrote]
  rcases @Database.archiving_cases _ (there d) e.archived fun row => write (change row) with
    nothing | ⟨old, found, live, done⟩
  · rw [nothing]
    exact Or.inl ⟨rfl, rfl⟩
  · rw [done]
    refine Or.inr ⟨old, change old, rfl, within d old found, sameId old, live, archived old, ?_, ?_⟩
    · rw [List.filterMap_cons, version]
      rfl
    · rw [List.filterMap_cons, silent]
      rfl

theorem yields_archiveProject {id : Uuid} :
    Yields (archiveProject id) c none none
      (fun done => if done then some ⟨.project, id, .deleted⟩ else none) fun _ => none :=
  yields_archiving (e := .project) rfl (fun _ => rfl) (fun _ => get?_of_byKey) (fun _ => rfl)
    (fun _ => rfl) (fun _ => rfl) fun _ => rfl

theorem yields_archivePool {id : Uuid} :
    Yields (archivePool id) c none none
      (fun done => if done then some ⟨.pool, id, .deleted⟩ else none) fun _ => none :=
  yields_archiving (e := .pool) rfl (fun _ => rfl) (fun _ => get?_of_byKey) (fun _ => rfl)
    (fun _ => rfl) (fun _ => rfl) fun _ => rfl

theorem yields_archiveScriptRepo {id : Uuid} :
    Yields (archiveScriptRepo id) c none none
      (fun done => if done then some ⟨.scriptRepo, id, .deleted⟩ else none) fun _ => none :=
  yields_archiving (e := .scriptRepo) rfl (fun _ => rfl) (fun _ => get?_of_byKey) (fun _ => rfl)
    (fun _ => rfl) (fun _ => rfl) fun _ => rfl

theorem yields_archiveTest {id : Uuid} :
    Yields (archiveTest id) c none none
      (fun done => if done then some ⟨.test, id, .deleted⟩ else none) fun _ => none :=
  yields_archiving (e := .test) rfl (fun _ => rfl) (fun _ => get?_of_byKey) (fun _ => rfl)
    (fun _ => rfl) (fun _ => rfl) fun _ => rfl

/-- The deletion of a credential that is there. -/
theorem yields_deleteCredential {id : Uuid} :
    Yields (deleteCredential id) c none none (fun _ => some ⟨.credential, id, .deleted⟩)
      fun _ => none := by
  intro d writes balance d' stable allowed
  have balance := balance.stable stable
  obtain ⟨row, found⟩ := Option.isSome_iff_exists.mp (allowed.2 id rfl)
  have there := get?_of_byKey row found
  have same : (postgres.applyAll writes d').credentials = d'.credentials :=
    balance.table_eq (e := .credential)
  rw [same] at there
  have key : row.id = id := balance.sound.keyed .credential id row there
  by_cases referenced : Database.exists_ (postgres.applyAll writes d').scriptRepos
      (fun repo => repo.credentialId = some row.id) = true
  · have executed : postgres.execute (Statement.deleteCredential id) c
        (postgres.applyAll writes d') = (.error .integrity, []) := by
      change Database.execute (.deleteCredential id) _ _ = _
      simp only [Database.execute, found]
      rw [if_pos referenced]
    rw [executed]
    trivial
  · have executed : postgres.execute (Statement.deleteCredential id) c
        (postgres.applyAll writes d') = (.ok true, [.deleteCredential id]) := by
      change Database.execute (.deleteCredential id) _ _ = _
      simp only [Database.execute, found]
      rw [if_neg referenced, key]
    rw [executed]
    have lawful : Version.Lawful d' ⟨.credential, id, none⟩ := by
      refine ⟨fun _ _ _ impossible => ?_, fun absent => ?_, fun _ => ⟨row, there, rfl⟩⟩
      · cases impossible
      · exact absurd (there.symm.trans absent) (by simp)
    have version : [Write.deleteCredential id].filterMap version? = [⟨.credential, id, none⟩] := rfl
    have silent : [Write.deleteCredential id].filterMap auditRow? = [] := rfl
    have after := balance.changing version silent lawful
    have deleted : Version.change d' ⟨.credential, id, none⟩ = ⟨.credential, id, .deleted⟩ := by
      simp only [Version.change, Version.event]
    rw [deleted] at after
    exact fun d'' later => ⟨rfl, after.stable later⟩

end Plimsoll.Audit
