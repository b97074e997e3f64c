import Plimsoll.Endpoints
import Plimsoll.Tenants.Statements

/-!
What the operations of the services execute: only statements that are guarded, by
what they have looked up in the same transaction.
-/

namespace Plimsoll.Tenants

open Python Contracts Transaction
open Database (Write Setting Statement)
open Sql (Program View)
open Sql.Program (Admitted)
open ScriptRepos (record refuse requireProject requireCredential)

variable {owner : Uuid → Uuid} {org other : Uuid} {v v' : View postgres} {α β : Type}

/-! ## Steps -/

/-- Rows of the table are not deleted. -/
def Table.grows : Table → Bool
  | .credentials => false
  | .plans => false
  | .rules => false
  | _ => true

theorem isSome_apply {t : Table} (grows : t.grows = true) {d : Database} {id : Uuid} (write : Write)
    (there : ((t.dict d).get? id).isSome = true) :
    ((t.dict (write.apply d)).get? id).isSome = true := by
  rcases dict_apply_cases d write t with ⟨k, row, writes, same⟩ | same
  · rw [same]
    cases row with
    | some new =>
        rw [put, Dict.get?_set]
        split
        · rfl
        · exact there
    | none =>
        -- only tables that do not grow have rows deleted
        cases write <;> cases writes <;> cases grows
  · rw [same]
    exact there

theorem isSome_applyAll {t : Table} (grows : t.grows = true) {id : Uuid} (writes : List Write)
    {d : Database} (there : ((t.dict d).get? id).isSome = true) :
    ((t.dict (postgres.applyAll writes d)).get? id).isSome = true := by
  induction writes generalizing d with
  | nil => exact there
  | cons write rest ih => exact ih (isSome_apply grows write there)

theorem rebind_org {s : Statement} (guarded : Guarded s v) :
    (Database.rebind s v.setting).org = v.setting.org := by
  cases s with
  | setCurrentOrg org => cases guarded
  | _ => rfl

theorem Stands.executed {s : Statement} (stands : Stands owner org v) (guarded : Guarded s v) :
    Stands owner org (v.executed s) where
  bound := (rebind_org guarded).trans stands.bound
  drawn := stands.drawn
  separated := (properAll_execute stands guarded).separated stands.separated

theorem uuids_answer (q : Question) (e : Environment) : (e.answer q).2.uuids = e.uuids := by
  cases q <;> rfl

theorem Stands.asked (stands : Stands owner org v) (q : Question) : Stands owner org (v.asked q) where
  bound := stands.bound
  drawn n := by
    change owner ((v.environment.answer q).2.uuids n) = org
    rw [uuids_answer]
    exact stands.drawn n
  separated := stands.separated

/-- What stands under an identifier of the organisation, it sees. -/
theorem Stands.seen_iff (stands : Stands owner org v) (t : Table) {id : Uuid} :
    Seen v (t.dict v.database) id ↔ owner id = org ∧ ((t.dict v.database).get? id).isSome = true := by
  constructor
  · exact stands.seen t
  · intro ⟨mine, there⟩
    rw [Seen, ← stands.separated.get?_eq stands.bound t mine]
    exact there

/-- A later state of a transaction: what was seen in a table that grows still is. -/
structure Onward (owner : Uuid → Uuid) (org : Uuid) (v v' : View postgres) : Prop where
  stands : Stands owner org v'
  seen : ∀ t : Table, t.grows = true → ∀ id, Seen v (t.dict v.database) id →
    Seen v' (t.dict v'.database) id

theorem Stands.onward (stands : Stands owner org v) : Onward owner org v v :=
  ⟨stands, fun _ _ _ seen => seen⟩

theorem Onward.executed {s : Statement} (onward : Onward owner org v v') (guarded : Guarded s v') :
    Onward owner org v (v'.executed s) where
  stands := onward.stands.executed guarded
  seen t grows id seen := by
    obtain ⟨mine, there⟩ := (onward.stands.seen_iff t).mp (onward.seen t grows id seen)
    exact ((onward.stands.executed guarded).seen_iff t).mpr ⟨mine, isSome_applyAll grows _ there⟩

theorem Onward.asked (onward : Onward owner org v v') (q : Question) :
    Onward owner org v (v'.asked q) :=
  ⟨onward.stands.asked q, onward.seen⟩

/-! ## Programs -/

/-- What the program returns, it returns in a later state. -/
theorem Stands.admitted (stands : Stands owner org v) {p : Transaction α}
    {post : α → View postgres → Prop} (admitted : p.Admitted Guarded post v) :
    p.Admitted Guarded (fun a v' => Onward owner org v v' ∧ post a v') v :=
  Admitted.keeping (fun _ u (onward : Onward owner org v u) guarded => onward.executed guarded)
    (fun q _ onward => onward.asked q) admitted stands.onward

/-- A sequence in a transaction of the organisation. -/
theorem Stands.bind (stands : Stands owner org v) {p : Transaction α} {f : α → Transaction β}
    {middle : α → View postgres → Prop} {post : β → View postgres → Prop}
    (first : p.Admitted Guarded middle v)
    (later : ∀ a v', Onward owner org v v' → middle a v' → (f a).Admitted Guarded post v') :
    (p >>= f).Admitted Guarded post v :=
  Admitted.bind ((stands.admitted first).weaken fun a v' ⟨onward, returned⟩ =>
    later a v' onward returned)

/-- A program whose statements are guarded whatever it finds. -/
def Safe (p : Transaction α) : Prop := ∀ v, p.Admitted Guarded (fun _ _ => True) v

theorem safe_finished (outcome : Except Raised α) : Safe (.finished outcome) := by
  intro v
  cases outcome <;> trivial

theorem safe_pure (a : α) : Safe (pure a : Transaction α) := fun _ => trivial

theorem safe_raise (exc : Raised) : Safe (raise exc : Transaction α) := fun _ => trivial

theorem safe_checked (answer : Except Database.Fault α) : Safe (checked answer) := by
  cases answer with
  | ok a => exact safe_pure a
  | error fault => exact safe_raise fault.raised

theorem safe_execute {s : Statement} {next : s.Answer → Transaction α} (free : ∀ v, Guarded s v)
    (later : ∀ answer, Safe (next answer)) : Safe (.execute s next) :=
  fun v => ⟨free v, later _ _⟩

theorem safe_ask {q : Question} {next : q.Reply → Transaction α} (later : ∀ answer, Safe (next answer)) :
    Safe (.ask q next) :=
  fun _ => later _ _

theorem Safe.bind {p : Transaction α} {f : α → Transaction β} (first : Safe p)
    (later : ∀ a, Safe (f a)) : Safe (p >>= f) :=
  fun v => Admitted.bind (Admitted.weaken (first v) fun a v' _ => later a v')

theorem Safe.mapError {p : Transaction α} (safe : Safe p) (f : Raised → Raised) : Safe (p.mapError f) :=
  fun v => Admitted.mapError (safe v)

theorem Safe.attempt {p : Transaction α} (safe : Safe p) : Safe p.attempt :=
  fun v => Admitted.attempt (safe v)

/-! ## What the services share -/

theorem safe_record {principal : AccessClaims} {action entityType : String} {entityId : Uuid}
    {metadata : Option (List (String × Detail))} :
    Safe (record principal action entityType entityId metadata) :=
  fun _ => ⟨⟨_, rfl⟩, safe_checked _ _⟩

theorem safe_refuse {code : ErrorCode} {message : String} {details : List (String × Detail)} :
    Safe (refuse code message details : Transaction α) :=
  safe_raise _

/-- A statement, and what follows with its answer. -/
theorem admitted_execute {s : Statement} {f : s.Answer → Transaction α}
    {post : α → View postgres → Prop} (guarded : Guarded s v)
    (later : ∀ answer, (Database.execute s v.setting v.database).1 = answer →
      (f answer).Admitted Guarded post (v.executed s)) :
    (Program.execute s pure >>= f).Admitted Guarded post v :=
  ⟨guarded, later _ rfl⟩

theorem admitted_answer {s : Statement} (guarded : Guarded s v) :
    (Program.execute s pure : Transaction s.Answer).Admitted Guarded (fun _ _ => True) v :=
  ⟨guarded, trivial⟩

theorem seen_of_eq {ρ : Type} [Tenant ρ] {table : Dict Uuid ρ} {id : Uuid} {row : ρ}
    (found : Database.byKey v.setting table id = some row) : Seen v table id := by
  rw [Seen, found]
  rfl

theorem admitted_requireProject {id : Uuid} :
    (requireProject id).Admitted Guarded (fun _ v => Seen v v.database.projects id) v := by
  refine admitted_execute trivial fun answer found => ?_
  cases answer with
  | none => trivial
  | some project => exact seen_of_eq found

theorem admitted_require {id : Uuid} :
    (ScriptRepos.require id).Admitted Guarded (fun _ v => Seen v v.database.scriptRepos id) v := by
  refine admitted_execute trivial fun answer found => ?_
  cases answer with
  | none => trivial
  | some row => exact seen_of_eq found

theorem admitted_requireCredential {credentialId : Option Uuid} {details : Uuid → List (String × Detail)} :
    (requireCredential credentialId details).Admitted Guarded
      (fun _ v => ∀ k ∈ credentialId, Seen v v.database.credentials k) v := by
  cases credentialId with
  | none => exact fun _ none_ => nomatch none_
  | some id =>
      refine admitted_execute trivial fun answer found => ?_
      cases answer with
      | none => trivial
      | some summary =>
          obtain ⟨row, found, -⟩ := Option.map_eq_some_iff.mp found
          exact fun k same => Option.some.inj same ▸ seen_of_eq found

theorem Safe.of_admitted {p : Transaction α} {post : α → View postgres → Prop}
    (admitted : ∀ v, p.Admitted Guarded post v) : Safe p :=
  fun v => (admitted v).weaken fun _ _ _ => trivial

theorem safe_requireProject {id : Uuid} : Safe (requireProject id) :=
  Safe.of_admitted fun _ => admitted_requireProject

theorem safe_require {id : Uuid} : Safe (ScriptRepos.require id) :=
  Safe.of_admitted fun _ => admitted_require

/-! ## Projects, pools, credentials and policies -/

section

variable {principal : AccessClaims} {id : Uuid}

theorem safe_createProject {body : ProjectCreate} : Safe (Projects.create principal body) :=
  fun _ => ⟨⟨_, rfl⟩, ((safe_checked _).mapError _).bind (fun _ => safe_record.bind fun _ => safe_pure _) _⟩

theorem safe_updateProject {body : ProjectUpdate} : Safe (Projects.update principal id body) := by
  refine safe_requireProject.bind fun current => ?_
  split
  · exact safe_pure current
  · refine Safe.bind (safe_execute (fun _ => trivial) fun _ => safe_checked _) fun row => ?_
    refine safe_record.bind fun _ => ?_
    cases row with
    | none => exact safe_raise _
    | some row => exact safe_pure row

theorem safe_archiveProject : Safe (Projects.archive principal id) := by
  refine safe_requireProject.bind fun _ => Safe.bind (safe_execute (fun _ => trivial) safe_pure) fun archived => ?_
  cases archived with
  | false => exact safe_pure ()
  | true => exact safe_record

theorem safe_requirePool : Safe (Pools.require id) := by
  refine Safe.bind (safe_execute (fun _ => trivial) safe_pure) fun row => ?_
  cases row with
  | none => exact safe_refuse
  | some row => exact safe_pure row

theorem safe_poolResponse {row : Option GeneratorPool} : Safe (Pools.response row) := by
  cases row with
  | none => exact safe_raise _
  | some row =>
      rw [Pools.response]
      split
      · exact safe_raise _
      · exact safe_pure _

theorem safe_createPool {body : PoolCreate} : Safe (Pools.create principal body) :=
  fun _ => ⟨⟨_, rfl⟩, ((safe_checked _).mapError _).bind (fun _ => safe_record.bind fun _ => safe_pure _) _⟩

theorem safe_updatePool {body : PoolUpdate} : Safe (Pools.update principal id body) := by
  refine safe_requirePool.bind fun current => ?_
  split
  · exact safe_pure (some current)
  · refine Safe.bind (safe_execute (fun _ => trivial) fun _ => safe_checked _) fun row => ?_
    exact safe_record.bind fun _ => safe_pure row

theorem safe_archivePool : Safe (Pools.archive principal id) := by
  refine safe_requirePool.bind fun _ => Safe.bind (safe_execute (fun _ => trivial) safe_pure) fun archived => ?_
  cases archived with
  | false => exact safe_pure ()
  | true => exact safe_record

theorem safe_capacityFor : Safe (Pools.capacityFor id) := by
  refine Safe.bind (safe_execute (fun _ => trivial) fun _ => safe_checked _) fun total => ?_
  cases total with
  | none => exact safe_refuse
  | some total => exact safe_execute (fun _ => trivial) fun held => safe_pure (total - held)

theorem safe_encrypt {keys : Credentials.KeyProvider} {plaintext : List UInt8} :
    Safe (Credentials.encrypt keys plaintext) := by
  cases keys with
  | none => exact safe_raise _
  | some cipher => exact safe_ask fun drawn => safe_pure _

theorem safe_createCredential {keys : Credentials.KeyProvider} {body : CredentialCreate} :
    Safe (Credentials.create keys principal body) := by
  refine safe_encrypt.bind fun (ciphertext, keyRef) _ => ?_
  exact ⟨⟨_, rfl⟩,
    ((safe_checked _).mapError _).bind (fun _ => safe_record.bind fun _ => safe_pure _) _⟩

theorem safe_deleteCredential : Safe (Credentials.delete principal id) := by
  refine Safe.bind (safe_execute (fun _ => trivial) safe_pure) fun row => ?_
  cases row with
  | none => exact safe_refuse
  | some row =>
      refine Safe.bind (safe_execute (fun _ => trivial) safe_pure) fun inUse => ?_
      split
      · exact safe_refuse
      · exact Safe.bind (safe_execute (fun _ => trivial) fun _ => safe_checked _) fun _ => safe_record

theorem safe_replace {ucd : Unicode} {allowlist : List String} :
    Safe (TargetPolicy.replace ucd principal allowlist) := by
  rw [TargetPolicy.replace]
  split
  · exact safe_raise _
  · exact fun _ => ⟨trivial, ⟨_, rfl⟩, (safe_checked _).bind (fun _ => safe_record.bind fun _ => safe_pure _) _⟩

/-! ## Script repositories and versions -/

theorem admitted_createScriptRepo (stands : Stands owner org v) {body : ScriptRepoCreate} :
    (ScriptRepos.create principal id body).Admitted Guarded (fun _ _ => True) v := by
  refine stands.bind admitted_requireProject fun project v₁ onward named => ?_
  refine onward.stands.bind admitted_requireCredential fun _ v₂ later credential => ?_
  have named := later.seen .projects rfl id named
  exact ⟨⟨⟨_, rfl⟩, named, credential⟩,
    (safe_checked _).bind (fun _ => safe_record.bind fun _ => safe_pure _) _⟩

theorem admitted_updateScriptRepo (stands : Stands owner org v) {body : ScriptRepoUpdate} :
    (ScriptRepos.update principal id body).Admitted Guarded (fun _ _ => True) v := by
  refine stands.bind admitted_require fun current v₁ onward _ => ?_
  split
  · trivial
  · refine onward.stands.bind admitted_requireCredential fun _ v₂ _ credential => ?_
    refine ⟨fun k changed => credential k ?_, (safe_checked _).bind (fun row => ?_) _⟩
    · have changed : body.credentialId = .value k := changed
      rw [ScriptRepos.newCredential, changed]
      rfl
    · refine safe_record.bind fun _ => ?_
      cases row with
      | none => exact safe_raise _
      | some row => exact safe_pure row

theorem safe_archiveScriptRepo : Safe (ScriptRepos.archive principal id) := by
  refine safe_require.bind fun _ => Safe.bind (safe_execute (fun _ => trivial) safe_pure) fun archived => ?_
  cases archived with
  | false => exact safe_pure ()
  | true => exact safe_record

/-- A version is pinned of a repository that has been seen. -/
theorem admitted_pinVersion (stands : Stands owner org v) {planPath ref : String}
    {candidate : ScriptVersions.PinCandidate} (seen : Seen v v.database.scriptRepos id) :
    (ScriptVersions.pinVersion principal id planPath ref candidate).Admitted Guarded
      (fun _ _ => True) v := by
  refine stands.bind (admitted_answer trivial) fun found v₁ onward _ => ?_
  cases found with
  | some existing => trivial
  | none =>
      have seen := onward.seen .scriptRepos rfl id seen
      exact ⟨⟨⟨_, rfl⟩, seen⟩, (safe_checked _).bind (fun _ => safe_record.bind fun _ => safe_pure _) _⟩

/-! ## Performance tests -/

open PerformanceTests (missingRepos checkReferences document insertAll replacePlans replaceSlaRules
  value? checkUpdate whenGiven finishUpdate)

theorem admitted_missingRepos (stands : Stands owner org v) {plans : List TestPlanSpec} :
    (missingRepos plans).Admitted Guarded (fun missing v => missing = [] →
      ∀ plan ∈ plans, Seen v v.database.scriptRepos plan.scriptRepoId) v := by
  induction plans generalizing v with
  | nil => exact fun _ _ member => nomatch member
  | cons plan rest ih =>
      have first : (getScriptRepo plan.scriptRepoId).Admitted Guarded (fun found v =>
          found.isNone = false → Seen v v.database.scriptRepos plan.scriptRepoId) v :=
        ⟨trivial, fun some_ => Option.isNone_eq_false_iff.mp some_⟩
      refine stands.bind first fun found v₁ onward seen => ?_
      refine onward.stands.bind (ih onward.stands) fun missing v₂ later others => ?_
      change (if found.isNone then _ :: missing else missing) = [] → _
      split
      · exact fun impossible => nomatch impossible
      · rename_i there
        intro none_
        refine List.forall_mem_cons.mpr ⟨?_, others none_⟩
        exact later.seen .scriptRepos rfl _ (seen (Bool.eq_false_iff.mpr there))

theorem admitted_checkReferences (stands : Stands owner org v) {configuration : WorkloadSpec}
    {plans : List TestPlanSpec} :
    (checkReferences configuration plans).Admitted Guarded
      (fun _ v => ∀ plan ∈ plans, Seen v v.database.scriptRepos plan.scriptRepoId) v := by
  refine stands.bind (admitted_answer trivial) fun pool v₁ onward _ => ?_
  refine onward.stands.bind (admitted_missingRepos onward.stands) fun missing v₂ _ seen => ?_
  split
  · rename_i none_
    refine seen ?_
    have rest := (List.append_eq_nil_iff.mp none_).2
    split at rest
    · assumption
    · cases rest
  · trivial

theorem safe_document {row : PerformanceTest} : Safe (document row) :=
  Safe.bind (safe_execute (fun _ => trivial) safe_pure) fun _ =>
    Safe.bind (safe_execute (fun _ => trivial) safe_pure) fun _ => safe_pure _

theorem Onward.trans {v'' : View postgres} (first : Onward owner org v v')
    (later : Onward owner org v' v'') : Onward owner org v v'' :=
  ⟨later.stands, fun t grows id seen => later.seen t grows id (first.seen t grows id seen)⟩

/-- Insertions one after the other, each under an identifier of its own. -/
theorem admitted_insertAll {σ : Type} {insert : Uuid → σ → Transaction Unit} {specs : List σ}
    (stands : Stands owner org v)
    (each : ∀ spec ∈ specs, ∀ id v', Onward owner org v v' → Drawn v' id →
      (insert id spec).Admitted Guarded (fun _ _ => True) v') :
    (insertAll insert specs).Admitted Guarded (fun _ _ => True) v := by
  induction specs generalizing v with
  | nil => trivial
  | cons spec rest ih =>
      have drawn : uuid4.Admitted Guarded (fun id v' => Drawn v' id) v := ⟨_, rfl⟩
      refine stands.bind drawn fun id v₁ onward drawn => ?_
      refine onward.stands.bind (each spec List.mem_cons_self id v₁ onward drawn) fun _ v₂ later _ => ?_
      exact ih later.stands fun other member id v' further =>
        each other (List.mem_cons_of_mem spec member) id v' ((onward.trans later).trans further)

theorem admitted_replacePlans (stands : Stands owner org v) {plans : List TestPlanSpec}
    (test : Seen v v.database.tests id)
    (repos : ∀ plan ∈ plans, Seen v v.database.scriptRepos plan.scriptRepoId) {by_ : Uuid} :
    (replacePlans by_ id plans).Admitted Guarded (fun _ _ => True) v := by
  refine stands.bind (admitted_answer trivial) fun _ v₁ onward _ => ?_
  refine admitted_insertAll onward.stands fun plan member k v₂ later drawn => ?_
  have since := onward.trans later
  exact ⟨⟨drawn, since.seen .tests rfl _ test, since.seen .scriptRepos rfl _ (repos plan member)⟩,
    safe_checked _ _⟩

theorem admitted_replaceSlaRules (stands : Stands owner org v) {rules : List SlaRuleSpec}
    (test : Seen v v.database.tests id) {by_ : Uuid} :
    (replaceSlaRules by_ id rules).Admitted Guarded (fun _ _ => True) v := by
  refine stands.bind (admitted_answer trivial) fun _ v₁ onward _ => ?_
  refine admitted_insertAll onward.stands fun rule member k v₂ later drawn => ?_
  exact ⟨⟨drawn, (onward.trans later).seen .tests rfl _ test⟩, safe_checked _ _⟩

/-- A test that was inserted is seen. -/
theorem admitted_insertTest {row : Timestamp → PerformanceTest} (drawn : Drawn v (row v.setting.now).id)
    (named : Seen v v.database.projects (row v.setting.now).projectId) :
    (insertTest row).Admitted Guarded (fun test v => Seen v v.database.tests test.id) v := by
  refine ⟨⟨drawn, named⟩, ?_⟩
  change (checked (Database.execute (.insertTest row) v.setting v.database).1).Admitted Guarded _ _
  cases answer : (Database.execute (.insertTest row) v.setting v.database).1 with
  | error fault => trivial
  | ok test =>
      obtain ⟨rfl, inserted, writes⟩ := Database.returning_ok answer
      obtain ⟨written, sees, -⟩ := Database.insert_ok inserted
      rw [written] at writes
      refine seen_of_eq (Database.byKey_eq_some_iff.mpr ⟨?_, sees⟩)
      change (postgres.applyAll _ v.database).tests.get? _ = _
      rw [show (postgres.execute (.insertTest row) v.setting v.database).2 = _ from writes]
      change (v.database.tests.set _ _).get? _ = _
      rw [Dict.get?_set, if_pos rfl]

theorem admitted_createTest (stands : Stands owner org v) {body : TestCreate} :
    (PerformanceTests.create principal id body).Admitted Guarded (fun _ _ => True) v := by
  refine stands.bind admitted_requireProject fun project v₁ onward₁ named => ?_
  refine onward₁.stands.bind (admitted_checkReferences onward₁.stands) fun _ v₂ onward₂ repos => ?_
  have drawn : uuid4.Admitted Guarded (fun id v' => Drawn v' id) v₂ := ⟨_, rfl⟩
  refine onward₂.stands.bind drawn fun k v₃ onward₃ drawn => ?_
  have named := (onward₂.trans onward₃).seen .projects rfl id named
  refine onward₃.stands.bind (admitted_insertTest drawn named) fun row v₄ onward₄ test => ?_
  have plans : ∀ plan ∈ body.plans, Seen v₄ v₄.database.scriptRepos plan.scriptRepoId :=
    fun plan member => (onward₃.trans onward₄).seen .scriptRepos rfl _ (repos plan member)
  refine onward₄.stands.bind (admitted_replacePlans onward₄.stands test plans) fun _ v₅ onward₅ _ => ?_
  refine onward₅.stands.bind (admitted_replaceSlaRules onward₅.stands
    (onward₅.seen .tests rfl _ test)) fun _ v₆ _ _ => ?_
  exact safe_record.bind (fun _ => safe_document) _

/-- A test that is required is seen. -/
theorem admitted_requireTest (stands : Stands owner org v) :
    (PerformanceTests.require id).Admitted Guarded (fun _ v => Seen v v.database.tests id) v := by
  have first : (getTest id).Admitted Guarded (fun found v =>
      found.isSome = true → Seen v v.database.tests id) v := ⟨trivial, fun some_ => some_⟩
  refine stands.bind first fun found v₁ onward seen => ?_
  cases found with
  | none => trivial
  | some row =>
      refine (onward.stands.admitted (safe_document v₁)).weaken fun _ v₂ ⟨later, _⟩ => ?_
      exact later.seen .tests rfl id (seen rfl)

theorem safe_modelValidate {configuration : Option WorkloadSpec} :
    Safe (PerformanceTests.modelValidate configuration) := by
  cases configuration with
  | none => exact safe_raise _
  | some configuration => exact safe_pure configuration

/-- The plans that an update brings are of repositories that it has seen. -/
theorem admitted_checkUpdate (stands : Stands owner org v) {body : TestUpdate}
    {current : PerformanceTests.TestDocument} :
    (checkUpdate body current).Admitted Guarded (fun _ v => ∀ plans ∈ value? body.plans,
      ∀ plan ∈ plans, Seen v v.database.scriptRepos plan.scriptRepoId) v := by
  rw [checkUpdate]
  split
  · have safe : Safe (PerformanceTests.configurationOr body current) := by
      rw [PerformanceTests.configurationOr]
      split
      · exact safe_pure _
      · exact safe_modelValidate
    refine stands.bind (safe v) fun configuration v₁ onward _ => ?_
    refine (admitted_checkReferences onward.stands).weaken fun _ v₂ seen plans given => ?_
    rwa [given] at seen
  · rename_i nothing
    intro plans given
    rw [given] at nothing
    exact absurd (Or.inr rfl) nothing

theorem admitted_updateTest (stands : Stands owner org v) {body : TestUpdate} :
    (PerformanceTests.update principal id body).Admitted Guarded (fun _ _ => True) v := by
  refine stands.bind (admitted_requireTest stands) fun current v₁ onward₁ test => ?_
  refine onward₁.stands.bind (admitted_checkUpdate onward₁.stands) fun _ v₂ onward₂ repos => ?_
  refine onward₂.stands.bind ⟨trivial, safe_checked _ _⟩ fun row v₃ onward₃ _ => ?_
  cases row with
  | none => trivial
  | some row =>
      have test := (onward₂.trans onward₃).seen .tests rfl id test
      have plans : (whenGiven (value? body.plans)
          (replacePlans principal.organizationId id)).Admitted Guarded (fun _ _ => True) v₃ := by
        cases given : value? body.plans with
        | none => trivial
        | some plans =>
            exact admitted_replacePlans onward₃.stands test fun plan member =>
              onward₃.seen .scriptRepos rfl _ (repos plans given plan member)
      refine onward₃.stands.bind plans fun _ v₄ onward₄ _ => ?_
      have rules : (whenGiven (value? body.slaRules)
          (replaceSlaRules principal.organizationId id)).Admitted Guarded (fun _ _ => True) v₄ := by
        cases value? body.slaRules with
        | none => trivial
        | some rules =>
            exact admitted_replaceSlaRules onward₄.stands (onward₄.seen .tests rfl id test)
      refine onward₄.stands.bind rules fun _ v₅ _ _ => ?_
      exact safe_record.bind (fun _ => safe_document) _

theorem safe_requireTest : Safe (PerformanceTests.require id) := by
  refine Safe.bind (safe_execute (fun _ => trivial) safe_pure) fun row => ?_
  cases row with
  | none => exact safe_refuse
  | some row => exact safe_document

theorem safe_archiveTest : Safe (PerformanceTests.archive principal id) := by
  refine safe_requireTest.bind fun _ =>
    Safe.bind (safe_execute (fun _ => trivial) safe_pure) fun archived => ?_
  cases archived with
  | false => exact safe_pure ()
  | true => exact safe_record

theorem safe_testResponse {document : PerformanceTests.TestDocument} :
    Safe (PerformanceTests.response document) :=
  safe_modelValidate.bind fun _ => safe_pure document

end

/-! ## Lists -/

section

open Pagination (presentAll pageOf Listing)

variable {ρ τ : Type} {interp : Interpreter} {driver : Pagination.Driver} {listing : Listing ρ}
  {present : ρ → Transaction τ} {limit : Nat} {cursor : Option String} {id : Uuid}

theorem safe_presentAll (each : ∀ row, Safe (present row)) (rows : List ρ) :
    Safe (presentAll present rows) := by
  induction rows with
  | nil => exact safe_pure []
  | cons row rest ih => exact (each row).bind fun item => ih.bind fun items => safe_pure (item :: items)

theorem safe_pageOf (each : ∀ row, Safe (present row)) {rows : List ρ} {timestamp : ρ → Datetime}
    {id : ρ → Uuid} : Safe (pageOf interp rows limit present timestamp id) :=
  (safe_finished _).bind fun _ => (safe_presentAll each _).bind fun _ => safe_pure _

theorem safe_fetch (listed : ∀ limit after, Safe (listing.listPage limit after)) :
    Safe (listing.fetch interp driver limit cursor) :=
  (safe_finished _).bind fun _ => (safe_finished _).bind fun after => listed (limit + 1) after

theorem safe_page (listed : ∀ limit after, Safe (listing.listPage limit after))
    (each : ∀ row, Safe (present row)) : Safe (listing.page interp driver present limit cursor) :=
  (safe_fetch listed).bind fun _ => safe_pageOf each

theorem safe_listProjects : Safe (Pagination.listProjects interp driver limit cursor) :=
  safe_page (fun _ _ => safe_execute (fun _ => trivial) safe_pure) safe_pure

theorem safe_listPools : Safe (Pagination.listPools interp driver limit cursor) :=
  safe_page (fun _ _ => safe_execute (fun _ => trivial) safe_pure) fun _ => safe_poolResponse

theorem safe_listCredentials : Safe (Pagination.listCredentials interp driver limit cursor) :=
  safe_page (fun _ _ => safe_execute (fun _ => trivial) safe_pure) safe_pure

theorem safe_listScriptRepos : Safe (Pagination.listScriptRepos interp driver id limit cursor) :=
  safe_page (fun _ _ => safe_execute (fun _ => trivial) safe_pure) safe_pure

theorem safe_listVersions : Safe (Pagination.listVersions interp driver id limit cursor) :=
  safe_require.bind fun _ =>
    safe_page (fun _ _ => safe_execute (fun _ => trivial) safe_pure) safe_pure

theorem safe_listTests : Safe (Pagination.listTests interp driver id limit cursor) := by
  refine Safe.bind (safe_fetch fun _ _ => safe_execute (fun _ => trivial) safe_pure) fun rows => ?_
  refine (safe_presentAll (fun _ => safe_requireTest) _).bind fun read => ?_
  refine safe_pageOf fun row => ?_
  split
  · exact safe_raise _
  · exact safe_testResponse

end

/-! ## What is read for Git -/

section

open Endpoints (Host accessFor values planInputs freeCapacity preflightInput reading)

variable {W : Type} {host : Host W} {id : Uuid}

theorem safe_accessFor {row : ScriptRepo} : Safe (accessFor host row) := by
  rw [accessFor]
  split
  · exact safe_pure _
  · refine Safe.bind (safe_execute (fun _ => trivial) safe_pure) fun material => ?_
    cases material with
    | none => exact safe_refuse
    | some material => exact (safe_finished _).bind fun secret => safe_pure _

theorem safe_values {decode : List UInt8 → String} (material : List SecretMaterial) :
    Safe (values host decode material) := by
  induction material with
  | nil => exact safe_pure []
  | cons row rest ih => exact (safe_finished _).bind fun _ => ih.bind fun _ => safe_pure _

theorem safe_planInputs (plans : List TestPlanSpec) : Safe (planInputs host plans) := by
  induction plans with
  | nil => exact safe_pure []
  | cons plan rest ih =>
      exact safe_require.bind fun row => safe_accessFor.bind fun access => ih.bind fun _ => safe_pure _

theorem safe_freeCapacity : Safe (freeCapacity id) := by
  refine safe_capacityFor.attempt.bind fun free => ?_
  split
  · exact safe_pure _
  · exact safe_pure _
  · exact safe_raise _

theorem safe_currentPolicy : Safe currentPolicy :=
  safe_execute (fun _ => trivial) safe_pure

theorem safe_variableMaterial : Safe variableMaterial :=
  safe_execute (fun _ => trivial) safe_pure

theorem safe_preflightInput : Safe (preflightInput host id) := by
  refine safe_requireTest.bind fun document => safe_modelValidate.bind fun configuration => ?_
  refine (safe_planInputs document.plans).bind fun plans => safe_currentPolicy.bind fun policy => ?_
  refine safe_freeCapacity.bind fun free => safe_variableMaterial.bind fun material => ?_
  exact (safe_values material).bind fun items => safe_pure _

theorem safe_getPool : Safe (Endpoints.getPool id) :=
  safe_requirePool.bind fun _ => safe_poolResponse

theorem safe_getVersion : Safe (Endpoints.getVersion id) := by
  refine Safe.bind (safe_execute (fun _ => trivial) safe_pure) fun row => ?_
  cases row with
  | none => exact safe_refuse
  | some row => exact safe_pure row

theorem safe_getTest : Safe (Endpoints.getTest id) :=
  safe_requireTest.bind fun _ => safe_testResponse

/-- What is read of a repository for Git tells that it has been seen. -/
theorem admitted_reading (stands : Stands owner org v) :
    (reading host id).Admitted Guarded (fun _ v => Seen v v.database.scriptRepos id) v := by
  refine stands.bind admitted_require fun row v₁ onward seen => ?_
  refine onward.stands.bind (safe_accessFor v₁) fun access v₂ later _ => ?_
  exact later.seen .scriptRepos rfl id seen

end

end Plimsoll.Tenants
