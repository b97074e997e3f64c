import Plimsoll.Patches.Validity

/-!
The operations that are no partial updates keep the invariant, whatever becomes of
them.
-/

namespace Plimsoll.Patches

open Python Contracts Transaction
open Database (Setting Statement Write byKey exists_)
open Sql (View)
open Sql.Program (Behind)
open ScriptRepos (record requireProject)
open PerformanceTests (planSpecs)

variable {jsonb : Json → Bool} {v : View postgres} {d : Database} {α β : Type}

/-- The program leaves a valid database where it returns. -/
def Preserves (jsonb : Json → Bool) (p : Transaction α) (v : View postgres) : Prop :=
  p.Behind (driver jsonb) (fun _ => True) (fun _ v' => Valid v'.database) v

theorem anything (exc : Raised) : (fun _ => True : Raised → Prop) exc := trivial

/-! ## Rows written -/

section

variable {ρ : Type} {key : ρ → Uuid} {table : Dict Uuid ρ} {row : ρ} {k : Uuid}

/-- A row that is alone of its kind is so behind its own write. -/
theorem alone_self {P Q : ρ → Prop}
    (was : ∀ id other, table.get? id = some other → P other → Q other → id = k) :
    ∀ id other, (table.set k row).get? id = some other → P other → Q other → id = k := by
  intro id other found owner same
  rw [Dict.get?_set] at found
  split at found
  · rename_i here
    exact here.symm
  · exact was id other found owner same

/-- Where no row is like this, none is found that is. -/
theorem alone_of_exists {like : ρ → Bool} (none_ : exists_ table like = false) (id : Uuid)
    (other : ρ) (found : table.get? id = some other) : like other = false := by
  cases alike : like other with
  | false => rfl
  | true =>
      have there : exists_ table like = true :=
        List.any_eq_true.mpr ⟨(id, other), Dict.get?_eq_some_iff.mp found, alike⟩
      rw [none_] at there
      cases there

end

/-! ## Steps -/

/-- An audit row at the end. -/
theorem preserves_record {principal : AccessClaims} {action entityType : String} {entityId : Uuid}
    {metadata : Option (List (String × Detail))} {a : α} (valid : Valid v.database) :
    Preserves jsonb (record principal action entityType entityId metadata >>= fun _ => pure a) v :=
  Behind.bind (behind_record_any anything fun auditLogs => valid.auditLogs auditLogs)

/-- An archive: the look, the statement and the audit row. -/
theorem preserves_archive {looked : Transaction β} {archiving : Transaction Bool}
    {principal : AccessClaims} {action entityType : String} {id : Uuid}
    (look : looked.Behind (driver jsonb) (fun _ => True)
      (fun _ v' => Preserves jsonb archiving v') v) :
    Preserves jsonb (looked >>= fun _ => archiving >>= fun done =>
      if done = true then record principal action entityType id none else pure ()) v := by
  refine Behind.bind (look.weaken fun _ v' archives => Behind.bind (archives.weaken ?_))
  intro done v'' valid
  split
  · exact behind_record_any anything fun auditLogs => valid.auditLogs auditLogs
  · exact valid

/-- The statement of an archive. -/
theorem preserves_archiving {ρ : Type} {s : Statement} {found : Option ρ} {archived : ρ → Bool}
    {write : ρ → Write} {answer : s.Answer → Bool} (valid : Valid v.database)
    (executed : (Database.execute s v.setting v.database).2 =
      (Database.archiving found archived write).2)
    (each : ∀ old, found = some old → Valid ((write old).apply v.database)) :
    Preserves jsonb (Sql.Program.execute s fun x => pure (answer x) : Transaction Bool) v := by
  rw [Preserves, Behind]
  split
  · change Valid (postgres.applyAll (Database.execute s v.setting v.database).2 v.database)
    rw [executed]
    rcases Database.archiving_cases with none_ | ⟨old, there, -, some_⟩
    · rw [none_]
      exact valid
    · rw [some_]
      exact each old there
  · trivial

/-- An insertion puts its row under a key that was free. -/
theorem behind_returning {ρ σ : Type} [Tenant ρ] {s : Statement} {table : Dict Uuid ρ} {key : Uuid}
    {row : ρ} {references : Bool} {write : Write} {result : σ} {entries : List Database.UniqueKey}
    {answer : s.Answer → Except Database.Fault σ} {post : σ → View postgres → Prop}
    (executed : (answer (Database.execute s v.setting v.database).1,
        (Database.execute s v.setting v.database).2) =
      Database.returning result entries (Database.insert v.setting table key row references write))
    (bound : Database.rebind s v.setting = v.setting)
    (after : table.get? key = none → references = true →
      post result ⟨v.setting, write.apply v.database, v.environment⟩) :
    (Sql.Program.execute s fun x => checked (answer x) : Transaction σ).Behind (driver jsonb)
      (fun _ => True) post v := by
  refine behind_any anything fun a inserted => ?_
  have answered := congrArg Prod.fst executed
  have written := congrArg Prod.snd executed
  dsimp only at answered written
  rw [answered] at inserted
  obtain ⟨rfl, created, writes⟩ := Database.returning_ok inserted
  obtain ⟨single, -, free, referenced⟩ := Database.insert_ok created
  rw [writes, single] at written
  rw [View.executed]
  change post a ⟨Database.rebind s v.setting, postgres.applyAll (Database.execute s _ _).2 _, _⟩
  rw [written, bound]
  have indexed : ∀ (entries : List Database.UniqueKey) (d : Database),
      postgres.applyAll (entries.map Write.entry) d = d := by
    intro entries
    induction entries with
    | nil => exact fun _ => rfl
    | cons entry rest ih => exact fun d => ih d
  rw [List.singleton_append, Sql.Interface.applyAll_cons, indexed]
  exact after free referenced

/-! ## Projects and pools -/

section

variable {principal : AccessClaims} {id : Uuid}

theorem preserves_createProject {body : ProjectCreate} (valid : Valid v.database) :
    Preserves jsonb (Projects.create principal body) v := by
  refine Behind.bind (behind_uuid4 (Behind.bind (behind_mapError anything ?_)))
  refine behind_returning rfl rfl fun free references => preserves_record ?_
  refine valid.setProject ⟨⟨body, rfl, rfl, rfl, rfl, rfl⟩, alone_self ?_⟩ ?_
  · intro id other found owner same
    rw [Bool.and_eq_true, Bool.not_eq_true'] at references
    exact absurd ⟨owner, same⟩ (of_decide_eq_false (alone_of_exists references.2 id other found))
  · intro old found
    rw [free] at found
    cases found

theorem preserves_archiveProject (valid : Valid v.database) :
    Preserves jsonb (Projects.archive principal id) v := by
  refine preserves_archive (behind_requireProject (fun _ => trivial) fun row _ => ?_)
  refine preserves_archiving valid rfl fun old found => ?_
  obtain ⟨there, -⟩ := Database.byKey_eq_some_iff.mp found
  obtain ⟨keyed, created, alone⟩ := valid.projects id old there
  have there : v.database.projects.get? old.id = some old := keyed ▸ there
  refine valid.setProject ⟨created, alone_self alone⟩ fun old' found => ?_
  obtain rfl := Option.some.inj (there.symm.trans found)
  rfl

theorem preserves_createPool {body : PoolCreate} (valid : Valid v.database) :
    Preserves jsonb (Pools.create principal body) v := by
  refine Behind.bind (behind_uuid4 (Behind.bind (behind_mapError anything ?_)))
  refine behind_returning rfl rfl fun free references => preserves_record ?_
  refine valid.setPool ⟨⟨body, rfl, rfl, rfl, rfl, rfl, rfl⟩, alone_self ?_⟩ ?_
  · intro id other found owner same
    rw [Bool.not_eq_true'] at references
    exact absurd ⟨owner, same⟩ (of_decide_eq_false (alone_of_exists references id other found))
  · intro old found
    rw [free] at found
    cases found

theorem preserves_archivePool (valid : Valid v.database) :
    Preserves jsonb (Pools.archive principal id) v := by
  refine preserves_archive (behind_requirePool (fun _ => trivial) fun row _ => ?_)
  refine preserves_archiving valid rfl fun old found => ?_
  obtain ⟨there, -⟩ := Database.byKey_eq_some_iff.mp found
  obtain ⟨keyed, created, alone⟩ := valid.pools id old there
  have there : v.database.pools.get? old.id = some old := keyed ▸ there
  refine valid.setPool ⟨created, alone_self alone⟩ fun old' found => ?_
  obtain rfl := Option.some.inj (there.symm.trans found)
  rfl

/-! ## Credentials and policies -/

theorem preserves_createCredential {keys : Credentials.KeyProvider} {body : CredentialCreate}
    (valid : Valid v.database) : Preserves jsonb (Credentials.create keys principal body) v := by
  have encrypts : (Credentials.encrypt keys body.secret.toUTF8.toList).Behind (driver jsonb)
      (fun _ => True) (fun _ v' => Valid v'.database) v := by
    cases keys with
    | none => trivial
    | some cipher => exact valid
  refine Behind.bind (encrypts.weaken fun encrypted v' valid => ?_)
  obtain ⟨ciphertext, keyRef⟩ := encrypted
  refine Behind.bind (behind_uuid4 (Behind.bind (behind_mapError anything ?_)))
  exact behind_returning rfl rfl fun free _ => preserves_record (valid.setCredential free)

theorem preserves_deleteCredential (valid : Valid v.database) :
    Preserves jsonb (Credentials.delete principal id) v := by
  refine Behind.bind (behind_read rfl rfl rfl ?_)
  cases (byKey v.setting v.database.credentials id).map Credential.summary with
  | none => trivial
  | some summary =>
      refine Behind.bind (behind_read rfl rfl rfl ?_)
      split
      · trivial
      · refine Behind.bind (behind_any anything fun deleted answer => ?_)
        refine behind_record_any anything fun auditLogs => Valid.auditLogs ?_ auditLogs
        change Valid (postgres.applyAll (Database.execute _ _ _).2 v.database)
        change (Database.execute _ _ _).1 = _ at answer
        rw [Database.execute] at answer ⊢
        cases found : byKey v.setting v.database.credentials id with
        | none => exact valid
        | some row =>
            rw [found] at answer
            dsimp only at answer ⊢
            split at answer
            · cases answer
            · rename_i unused
              rw [if_neg unused]
              refine valid.popCredential fun key repo found refers => ?_
              rw [Bool.not_eq_true] at unused
              exact absurd refers (of_decide_eq_false (alone_of_exists unused key repo found))

theorem preserves_replace {ucd : Unicode} {allowlist : List String} (valid : Valid v.database) :
    Preserves jsonb (TargetPolicy.replace ucd principal allowlist) v := by
  rw [TargetPolicy.replace]
  split
  · trivial
  · refine Behind.bind (behind_uuid4 (Behind.bind ?_))
    refine Behind.execute rfl (behind_returning rfl rfl fun _ _ => preserves_record ?_)
    exact ⟨valid.projects, valid.pools, valid.scriptRepos, valid.tests, valid.plans, valid.rules⟩

/-! ## Script repositories and versions -/

theorem preserves_createScriptRepo {body : ScriptRepoCreate}
    (bound : v.setting.org = some principal.organizationId) (valid : Valid v.database) :
    Preserves jsonb (ScriptRepos.create principal id body) v := by
  refine Behind.bind (behind_requireProject (fun _ => trivial) fun project named => ?_)
  refine Behind.bind (behind_requireCredential (fun _ => trivial) fun seen => ?_)
  refine Behind.bind (behind_uuid4 (Behind.bind ?_))
  refine behind_returning rfl rfl fun free _ => preserves_record ?_
  refine valid.setScriptRepo ⟨⟨body, rfl, rfl, rfl, rfl, rfl⟩, ?_, ?_⟩ fun old found => ?_
  · exact (isSome_byKey bound).mp (by rw [named]; rfl)
  · exact fun k refers => (isSome_byKey bound).mp (seen k refers)
  · rw [free] at found
    cases found

theorem preserves_archiveScriptRepo (valid : Valid v.database) :
    Preserves jsonb (ScriptRepos.archive principal id) v := by
  refine preserves_archive (behind_requireRepo (fun _ => trivial) fun row _ => ?_)
  refine preserves_archiving valid rfl fun old found => ?_
  obtain ⟨there, -⟩ := Database.byKey_eq_some_iff.mp found
  obtain ⟨keyed, creatable⟩ := valid.scriptRepos id old there
  have there : v.database.scriptRepos.get? old.id = some old := keyed ▸ there
  refine valid.setScriptRepo creatable fun old' found => ?_
  obtain rfl := Option.some.inj (there.symm.trans found)
  rfl

theorem preserves_pinVersion {planPath ref : String} {candidate : ScriptVersions.PinCandidate}
    (valid : Valid v.database) :
    Preserves jsonb (ScriptVersions.pinVersion principal id planPath ref candidate) v := by
  refine Behind.bind (behind_read rfl rfl rfl ?_)
  split
  · exact valid
  · refine Behind.bind (behind_uuid4 (Behind.bind ?_))
    refine behind_returning rfl rfl fun _ _ => preserves_record ?_
    exact ⟨valid.projects, valid.pools, valid.scriptRepos, valid.tests, valid.plans, valid.rules⟩

/-! ## Performance tests -/

/-- A collection that is left alone. -/
theorem replaced_unset {σ ρ : Type} {specs : Uuid → Uuid → Dict Uuid ρ → List σ} {org testId : Uuid}
    {table : Dict Uuid ρ} : Replaced .unset specs org testId table table :=
  ⟨rfl, fun _ _ _ => rfl⟩

/-- A test that has been inserted is given its plans and rules. -/
theorem preserves_fillTest {c : Setting} {e : Environment} {body : TestCreate}
    {row : PerformanceTest} {metadata : Option (List (String × Detail))}
    (bound : c.org = some principal.organizationId)
    (fresh : Fresh e d (body.plans.length + body.slaRules.length + 1)) (valid : Valid d)
    (created : row.name = body.name ∧ row.description = body.description ∧
      row.configuration = some body.configuration ∧ row.tags = body.tags)
    (owner : row.organizationId = principal.organizationId)
    (project : Has principal.organizationId d.projects row.projectId)
    (pool : Has principal.organizationId d.pools body.configuration.generatorPoolId)
    (repos : ∀ plan ∈ body.plans, Has principal.organizationId d.scriptRepos plan.scriptRepoId) :
    Preserves jsonb (PerformanceTests.replacePlans principal.organizationId row.id body.plans >>=
        fun _ => PerformanceTests.replaceSlaRules principal.organizationId row.id body.slaRules >>=
        fun _ => record principal "test.created" "performance_test" row.id metadata >>=
        fun _ => PerformanceTests.document row)
      ⟨c, { d with tests := d.tests.set row.id row }, e⟩ := by
  refine @behind_patchBoth _ _ _ _ row.id bound _ (.value body.plans) (.value body.slaRules) _ _ ?_
    valid.plans valid.rules ⟨fresh.distinct, fresh.new⟩ ?_ ?_ ?_ ?_
  · change ((d.tests.set row.id row).get? row.id).isSome = true
    rw [Dict.get?_set_self]
    rfl
  · rintro plans ⟨⟩
    exact repos
  · exact fun _ _ _ _ _ => trivial
  · exact fun _ _ _ _ _ => trivial
  intro plans rules e' plansKeyed rulesKeyed replacedPlans replacedRules _
  refine Behind.bind (behind_record_any anything fun auditLogs => behind_document bound ?_)
  refine Valid.auditLogs (valid.setTest _ ⟨⟨body, created.1, created.2.1, created.2.2.1,
    created.2.2.2, ?_, ?_⟩, ?_, ?_, ?_⟩ plansKeyed rulesKeyed replacedPlans replacedRules) auditLogs
  · rw [owner]
    exact replacedPlans.1
  · rw [owner]
    exact replacedRules.1
  · rw [owner]
    exact project
  · intro configuration same
    obtain rfl := Option.some.inj (created.2.2.1.symm.trans same)
    rw [owner]
    exact pool
  · rw [owner]
    intro plan member
    have planned : planSpecs principal.organizationId row.id plans = body.plans := replacedPlans.1
    rw [planned] at member
    exact repos plan member

theorem preserves_createTest {body : TestCreate}
    (bound : v.setting.org = some principal.organizationId)
    (fresh : Fresh v.environment v.database (body.plans.length + body.slaRules.length + 2))
    (valid : Valid v.database) : Preserves jsonb (PerformanceTests.create principal id body) v := by
  refine Behind.bind (behind_requireProject (fun _ => trivial) fun project named => ?_)
  refine Behind.bind (behind_checkReferences bound (fun _ => trivial) fun pool repos => ?_)
  refine Behind.bind (behind_uuid4 (Behind.bind ?_))
  refine behind_returning rfl rfl fun _ _ => ?_
  have fresh₁ := fresh.fewer (show 1 + (body.plans.length + body.slaRules.length + 1) ≤ _ by omega)
  exact preserves_fillTest bound (fresh₁.later (later_drawn _)) valid ⟨rfl, rfl, rfl, rfl⟩ rfl
    ((isSome_byKey bound).mp (by rw [named]; rfl)) pool repos

theorem preserves_archiveTest (bound : v.setting.org = some principal.organizationId)
    (valid : Valid v.database) : Preserves jsonb (PerformanceTests.archive principal id) v := by
  refine preserves_archive (behind_requireTest bound (fun _ => trivial) fun row _ => ?_)
  refine preserves_archiving valid rfl fun old found => ?_
  obtain ⟨there, -⟩ := Database.byKey_eq_some_iff.mp found
  obtain ⟨-, creatable⟩ := valid.tests id old there
  exact valid.setTest old.organizationId creatable valid.plans valid.rules replaced_unset
    replaced_unset

end

end Plimsoll.Patches
