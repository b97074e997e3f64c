import Plimsoll.Integrity
import Plimsoll.Tenancy

/-!
What the services look up before they write, and what follows for every run.
-/

namespace Plimsoll.Tenancy

open Python Contracts Transaction
open Database (RowLock Setting Statement)
open History (InPlace rowAt evolution)
open Sql (Program)
open Sql.Program (Only Owes)
open ScriptRepos (record refuse requireProject requireCredential)
open PerformanceTests (missingRepos checkReferences document insertAll replacePlans replaceSlaRules)

variable {α β σ : Type} {c : Setting} {d : Database} {principal : AccessClaims} {id : Uuid}

/-! ## Programs that owe nothing -/

/-- The transaction stays bound to its organisation. -/
def Steady (s : Statement) : Prop := ∀ c, Database.rebind s c = c

/-- Nothing is owed before the statement. -/
def Free (s : Statement) : Prop := Steady s ∧ ∀ c d, Owed s c d

theorem only_pure {P : Statement → Prop} (a : α) : Only P (pure a : Transaction α) := trivial

theorem only_raise {P : Statement → Prop} (exc : Raised) : Only P (raise exc : Transaction α) :=
  trivial

theorem only_checked {P : Statement → Prop} (answer : Except Database.Fault α) :
    Only P (checked answer) := by
  cases answer <;> trivial

section

variable {P : Statement → Prop} {s : Statement}

theorem only_statement (holds : P s) : Only P (Program.execute s pure : Transaction s.Answer) :=
  ⟨holds, fun _ => trivial⟩

theorem only_fallible {result : s.Answer → Except Database.Fault α} (holds : P s) :
    Only P (Program.execute s fun answer => checked (result answer) : Transaction α) :=
  ⟨holds, fun _ => only_checked _⟩

theorem only_uuid4 : Only P uuid4 := fun _ => trivial

end

theorem Only.steady {p : Transaction α} (only : Only Free p) : Only Steady p :=
  only.mono fun _ free => free.1

theorem only_requireProject : Only Free (requireProject id) := by
  refine Only.bind (only_statement ⟨fun _ => rfl, fun _ _ => trivial⟩) fun found => ?_
  cases found with
  | none => exact only_raise _
  | some project => exact only_pure project

theorem only_requirePool : Only Free (Pools.require id) := by
  refine Only.bind (only_statement ⟨fun _ => rfl, fun _ _ => trivial⟩) fun found => ?_
  cases found with
  | none => exact only_raise _
  | some row => exact only_pure row

theorem only_requireRepo : Only Free (ScriptRepos.require id) := by
  refine Only.bind (only_statement ⟨fun _ => rfl, fun _ _ => trivial⟩) fun found => ?_
  cases found with
  | none => exact only_raise _
  | some row => exact only_pure row

theorem only_requireCredential {credentialId : Option Uuid}
    {details : Uuid → List (String × Detail)} :
    Only Free (requireCredential credentialId details) := by
  cases credentialId with
  | none => exact only_pure ()
  | some credentialId =>
      refine Only.bind (only_statement ⟨fun _ => rfl, fun _ _ => trivial⟩) fun found => ?_
      cases found with
      | none => exact only_raise _
      | some summary => exact only_pure ()

theorem only_record {action entityType : String} {entityId : Uuid}
    {metadata : Option (List (String × Detail))} :
    Only Free (record principal action entityType entityId metadata) :=
  only_uuid4.bind fun _ => only_fallible ⟨fun _ => rfl, fun _ _ => trivial⟩

theorem only_missingRepos {plans : List TestPlanSpec} : Only Free (missingRepos plans) := by
  induction plans with
  | nil => exact only_pure []
  | cons plan rest ih =>
      exact Only.bind (only_statement ⟨fun _ => rfl, fun _ _ => trivial⟩) fun _ =>
        ih.bind fun _ => only_pure _

theorem only_checkReferences {configuration : WorkloadSpec} {plans : List TestPlanSpec} :
    Only Free (checkReferences configuration plans) := by
  refine Only.bind (only_statement ⟨fun _ => rfl, fun _ _ => trivial⟩) fun pool => ?_
  refine only_missingRepos.bind fun missing => ?_
  split
  · exact only_pure ()
  · exact only_raise _

theorem only_document {row : PerformanceTest} : Only Free (document row) :=
  Only.bind (only_statement ⟨fun _ => rfl, fun _ _ => trivial⟩) fun _ =>
    Only.bind (only_statement ⟨fun _ => rfl, fun _ _ => trivial⟩) fun _ => only_pure _

theorem only_requireTest : Only Free (PerformanceTests.require id) := by
  refine Only.bind (only_statement ⟨fun _ => rfl, fun _ _ => trivial⟩) fun found => ?_
  cases found with
  | none => exact only_raise _
  | some row => exact only_document

theorem only_modelValidate {configuration : Option WorkloadSpec} :
    Only Free (PerformanceTests.modelValidate configuration) := by
  cases configuration with
  | none => exact only_raise _
  | some configuration => exact only_pure configuration

theorem only_configurationOr {body : TestUpdate} {current : PerformanceTests.TestDocument} :
    Only Free (PerformanceTests.configurationOr body current) := by
  unfold PerformanceTests.configurationOr
  split
  · exact only_pure _
  · exact only_modelValidate

theorem only_checkUpdate {body : TestUpdate} {current : PerformanceTests.TestDocument} :
    Only Free (PerformanceTests.checkUpdate body current) := by
  unfold PerformanceTests.checkUpdate
  split
  · exact only_configurationOr.bind fun _ => only_checkReferences
  · exact only_pure ()

theorem only_testResponse {document : PerformanceTests.TestDocument} :
    Only Free (PerformanceTests.response document) :=
  only_modelValidate.bind fun _ => only_pure _

theorem only_poolResponse {row : Option GeneratorPool} : Only Free (Pools.response row) := by
  cases row with
  | none => exact only_raise _
  | some row =>
      unfold Pools.response
      split
      · rename_i none_
        cases none_
      · rename_i some_
        cases some_
        split
        · exact only_raise _
        · exact only_pure _

theorem only_encrypt {keys : Credentials.KeyProvider} {plaintext : List UInt8} :
    Only Free (Credentials.encrypt keys plaintext) := by
  cases keys with
  | none => exact only_raise _
  | some cipher => exact fun _ => only_pure _

/-! ### Operations -/

theorem only_createProject {body : ProjectCreate} : Only Free (Projects.create principal body) :=
  only_uuid4.bind fun _ => ((only_fallible ⟨fun _ => rfl, fun _ _ => trivial⟩).mapError _).bind
    fun _ => only_record.bind fun _ => only_pure _

theorem only_updateProject {body : ProjectUpdate} :
    Only Free (Projects.update principal id body) := by
  refine only_requireProject.bind fun current => ?_
  split
  · exact only_pure current
  · refine Only.bind (only_fallible ⟨fun _ => rfl, fun _ _ => trivial⟩) fun row => ?_
    refine only_record.bind fun _ => ?_
    cases row with
    | none => exact only_raise _
    | some row => exact only_pure row

theorem only_archiveProject : Only Free (Projects.archive principal id) := by
  refine only_requireProject.bind fun _ => ?_
  refine Only.bind (only_statement ⟨fun _ => rfl, fun _ _ => trivial⟩) fun done => ?_
  cases done with
  | false => exact only_pure ()
  | true => exact only_record

theorem only_createPool {body : PoolCreate} : Only Free (Pools.create principal body) :=
  only_uuid4.bind fun _ => ((only_fallible ⟨fun _ => rfl, fun _ _ => trivial⟩).mapError _).bind
    fun _ => only_record.bind fun _ => only_pure _

theorem only_updatePool {body : PoolUpdate} : Only Free (Pools.update principal id body) := by
  refine only_requirePool.bind fun current => ?_
  split
  · exact only_pure _
  · exact Only.bind (only_fallible ⟨fun _ => rfl, fun _ _ => trivial⟩) fun row =>
      only_record.bind fun _ => only_pure _

theorem only_archivePool : Only Free (Pools.archive principal id) := by
  refine only_requirePool.bind fun _ => ?_
  refine Only.bind (only_statement ⟨fun _ => rfl, fun _ _ => trivial⟩) fun done => ?_
  cases done with
  | false => exact only_pure ()
  | true => exact only_record

theorem only_createCredential {keys : Credentials.KeyProvider} {body : CredentialCreate} :
    Only Free (Credentials.create keys principal body) :=
  only_encrypt.bind fun _ => only_uuid4.bind fun _ =>
    ((only_fallible ⟨fun _ => rfl, fun _ _ => trivial⟩).mapError _).bind fun _ =>
      only_record.bind fun _ => only_pure _

theorem only_deleteCredential : Only Free (Credentials.delete principal id) := by
  refine Only.bind (only_statement ⟨fun _ => rfl, fun _ _ => trivial⟩) fun found => ?_
  cases found with
  | none => exact only_raise _
  | some row =>
      refine Only.bind (only_statement ⟨fun _ => rfl, fun _ _ => trivial⟩) fun inUse => ?_
      split
      · exact only_raise _
      · exact Only.bind (only_fallible ⟨fun _ => rfl, fun _ _ => trivial⟩) fun _ => only_record

theorem only_updateScriptRepo {body : ScriptRepoUpdate} :
    Only Free (ScriptRepos.update principal id body) := by
  refine only_requireRepo.bind fun current => ?_
  split
  · exact only_pure current
  · refine only_requireCredential.bind fun _ => ?_
    refine Only.bind (only_fallible ⟨fun _ => rfl, fun _ _ => trivial⟩) fun row => ?_
    refine only_record.bind fun _ => ?_
    cases row with
    | none => exact only_raise _
    | some row => exact only_pure row

theorem only_archiveScriptRepo : Only Free (ScriptRepos.archive principal id) := by
  refine only_requireRepo.bind fun _ => ?_
  refine Only.bind (only_statement ⟨fun _ => rfl, fun _ _ => trivial⟩) fun done => ?_
  cases done with
  | false => exact only_pure ()
  | true => exact only_record

theorem only_archiveTest : Only Free (PerformanceTests.archive principal id) := by
  refine only_requireTest.bind fun _ => ?_
  refine Only.bind (only_statement ⟨fun _ => rfl, fun _ _ => trivial⟩) fun done => ?_
  cases done with
  | false => exact only_pure ()
  | true => exact only_record

theorem only_replace {ucd : Unicode} {allowlist : List String} :
    Only Free (TargetPolicy.replace ucd principal allowlist) := by
  unfold TargetPolicy.replace
  split
  · exact only_raise _
  · refine only_uuid4.bind fun id => Only.bind ?_ fun row =>
      only_record.bind fun _ => only_pure _
    exact ⟨⟨fun _ => rfl, fun _ _ => trivial⟩, fun _ =>
      only_fallible ⟨fun _ => rfl, fun _ _ => trivial⟩⟩

/-! ### Operations that owe something -/

theorem steady_createScriptRepo {projectId : Uuid} {body : ScriptRepoCreate} :
    Only Steady (ScriptRepos.create principal projectId body) :=
  (Only.steady only_requireProject).bind fun _ => (Only.steady only_requireCredential).bind fun _ =>
    only_uuid4.bind fun _ => Only.bind (only_fallible fun _ => rfl) fun _ =>
      (Only.steady only_record).bind fun _ => only_pure _

theorem steady_replaceAll {delete : Transaction Unit} {insert : Uuid → σ → Transaction Unit}
    (deletes : Only Steady delete) (inserts : ∀ id spec, Only Steady (insert id spec))
    (specs : List σ) : Only Steady (PerformanceTests.replaceAll delete insert specs) := by
  refine deletes.bind fun _ => ?_
  induction specs with
  | nil => exact only_pure ()
  | cons spec rest ih => exact only_uuid4.bind fun id => (inserts id spec).bind fun _ => ih

theorem steady_replacePlans {org testId : Uuid} {plans : List TestPlanSpec} :
    Only Steady (replacePlans org testId plans) :=
  steady_replaceAll (only_statement fun _ => rfl) (fun _ _ => only_fallible fun _ => rfl) plans

theorem steady_replaceSlaRules {org testId : Uuid} {rules : List SlaRuleSpec} :
    Only Steady (replaceSlaRules org testId rules) :=
  steady_replaceAll (only_statement fun _ => rfl) (fun _ _ => only_fallible fun _ => rfl) rules

theorem steady_whenGiven {value : Option σ} {action : σ → Transaction Unit}
    (steady : ∀ value, Only Steady (action value)) :
    Only Steady (PerformanceTests.whenGiven value action) := by
  cases value with
  | none => exact only_pure ()
  | some value => exact steady value

theorem steady_createTest {projectId : Uuid} {body : TestCreate} :
    Only Steady (PerformanceTests.create principal projectId body) :=
  (Only.steady only_requireProject).bind fun _ => (Only.steady only_checkReferences).bind fun _ =>
    only_uuid4.bind fun _ => Only.bind (only_fallible fun _ => rfl) fun _ =>
      steady_replacePlans.bind fun _ => steady_replaceSlaRules.bind fun _ =>
        (Only.steady only_record).bind fun _ => Only.steady only_document

theorem steady_updateTest {body : TestUpdate} :
    Only Steady (PerformanceTests.update principal id body) := by
  refine (Only.steady only_requireTest).bind fun current => ?_
  refine (Only.steady only_checkUpdate).bind fun _ => ?_
  refine Only.bind (only_fallible fun _ => rfl) fun row => ?_
  cases row with
  | none => exact only_raise _
  | some row =>
      exact (steady_whenGiven fun _ => steady_replacePlans).bind fun _ =>
        (steady_whenGiven fun _ => steady_replaceSlaRules).bind fun _ =>
          (Only.steady only_record).bind fun _ => Only.steady only_document

theorem steady_pinVersion {repoId : Uuid} {planPath ref : String}
    {candidate : ScriptVersions.PinCandidate} :
    Only Steady (ScriptVersions.pinVersion principal repoId planPath ref candidate) := by
  refine Only.bind (only_statement fun _ => rfl) fun found => ?_
  cases found with
  | some existing => exact only_pure _
  | none =>
      exact only_uuid4.bind fun _ => Only.bind (only_fallible fun _ => rfl) fun _ =>
        (Only.steady only_record).bind fun _ => only_pure _

/-! ## What is looked up -/

/-- A program that owes nothing, and keeps its setting. -/
theorem owes_free {p : Transaction α} (only : Only Free p) :
    p.Owes duties (fun _ c' _ => c' = c) c d :=
  only.owes fun _ d free => ⟨free.2 _ d, free.1 _⟩

/-- A lookup, and what it finds. -/
theorem owes_lookup {s : Statement} {post : s.Answer → Database → Prop} (free : Free s)
    (reads : ∀ c d, (Database.execute s c d).2 = [])
    (found : ∀ d', evolution.Onward d d' → post (Database.execute s c d').1 d')
    (stays : ∀ answer d₁ d₂, evolution.Onward d₁ d₂ → post answer d₁ → post answer d₂) :
    (Program.execute s pure : Transaction s.Answer).Owes duties
      (fun answer c' d' => c' = c ∧ post answer d') c d := by
  intro d' sound onward
  refine ⟨free.2 c d', fun d'' _ later => ⟨free.1 c, stays _ _ _ later ?_⟩⟩
  have same : postgres.applyAll (postgres.execute s c d').2 d' = d' := by
    rw [show (postgres.execute s c d').2 = [] from reads c d']
    rfl
  rw [same]
  exact found d' onward

section

variable (sound : evolution.Sound d)
include sound

theorem owes_requireProject :
    (requireProject id).Owes duties (fun _ c' d' => c' = c ∧ Own c d'.projects id) c d := by
  have first := @owes_lookup c d (.getProject id)
    (fun found d' => found.isSome = true → Own c d'.projects id)
    ⟨fun _ => rfl, fun _ _ => trivial⟩ (fun _ _ => rfl)
    (fun d' _ there => Option.isSome_iff_exists.mp there)
    fun _ _ _ onward own there => own_projects (own there) onward
  refine first.andThen sound fun found c' d' _ _ made => ?_
  obtain ⟨rfl, own⟩ := made
  cases found with
  | none => trivial
  | some project => exact fun _ _ onward => ⟨rfl, own_projects (own rfl) onward⟩

theorem owes_requireTest : (PerformanceTests.require id).Owes duties
    (fun _ c' d' => c' = c ∧ Own c d'.tests id) c d := by
  have first := @owes_lookup c d (.getTest id)
    (fun found d' => found.isSome = true → Own c d'.tests id)
    ⟨fun _ => rfl, fun _ _ => trivial⟩ (fun _ _ => rfl)
    (fun d' _ there => Option.isSome_iff_exists.mp there)
    fun _ _ _ onward own there => own_tests (own there) onward
  refine first.andThen sound fun found c' d' _ _ made => ?_
  obtain ⟨rfl, own⟩ := made
  cases found with
  | none => trivial
  | some row =>
      refine (owes_free only_document).onward.weaken fun _ _ _ _ made => ?_
      exact ⟨made.1, own_tests (own rfl) made.2⟩

/-- Where no repository is missing, all of them are seen. -/
theorem owes_missingRepos {plans : List TestPlanSpec} :
    (missingRepos plans).Owes duties (fun missing c' d' => c' = c ∧ (missing = [] →
      ∀ plan ∈ plans, Own c d'.scriptRepos plan.scriptRepoId)) c d := by
  induction plans generalizing d with
  | nil =>
      refine fun _ _ _ => ⟨rfl, fun _ plan member => ?_⟩
      cases member
  | cons plan rest ih =>
      have first := @owes_lookup c d (.getScriptRepo plan.scriptRepoId)
        (fun found d' => found.isSome = true → Own c d'.scriptRepos plan.scriptRepoId)
        ⟨fun _ => rfl, fun _ _ => trivial⟩ (fun _ _ => rfl)
        (fun d' _ there => Option.isSome_iff_exists.mp there)
        fun _ _ _ onward own there => own_scriptRepos (own there) onward
      refine first.andThen sound fun found c' d' sound' _ made => ?_
      obtain ⟨rfl, own⟩ := made
      refine (ih sound').andThen sound' fun missing c' d'' _ onward made => ?_
      obtain ⟨rfl, others⟩ := made
      refine fun d₃ _ last => ⟨rfl, ?_⟩
      split
      · intro impossible
        cases impossible
      · rename_i there
        intro none_ spec member
        rcases List.mem_cons.mp member with rfl | inRest
        · rw [Bool.not_eq_true, Option.isNone_eq_false_iff] at there
          exact own_scriptRepos (own there) (onward.trans last)
        · exact own_scriptRepos (others none_ spec inRest) last

theorem owes_checkReferences {configuration : WorkloadSpec} {plans : List TestPlanSpec} :
    (checkReferences configuration plans).Owes duties (fun _ c' d' => c' = c ∧
      Own c d'.pools configuration.generatorPoolId ∧
        ∀ plan ∈ plans, Own c d'.scriptRepos plan.scriptRepoId) c d := by
  have first := @owes_lookup c d (.getPool configuration.generatorPoolId)
    (fun found d' => found.isSome = true → Own c d'.pools configuration.generatorPoolId)
    ⟨fun _ => rfl, fun _ _ => trivial⟩ (fun _ _ => rfl)
    (fun d' _ there => Option.isSome_iff_exists.mp there)
    fun _ _ _ onward own there => own_pools (own there) onward
  refine first.andThen sound fun pool c' d' sound' _ made => ?_
  obtain ⟨rfl, own⟩ := made
  refine (owes_missingRepos sound').andThen sound' fun missing c' d'' _ onward made => ?_
  obtain ⟨rfl, others⟩ := made
  split
  · rename_i none_
    obtain ⟨here, rest⟩ := List.append_eq_nil_iff.mp none_
    have pool : pool.isSome = true := by
      cases pool with
      | none => cases here
      | some row => rfl
    have missing : missing = [] := by
      by_contra some_
      rw [if_neg some_] at rest
      cases rest
    refine fun d₃ _ last => ⟨rfl, own_pools (own pool) (onward.trans last), ?_⟩
    exact fun plan member => own_scriptRepos (others missing plan member) last
  · trivial

/-! ### What is written -/

omit sound in
/-- A statement that may fail. -/
theorem owes_fallible {s : Statement} {result : s.Answer → Except Database.Fault α}
    (steady : Steady s) (owed : ∀ d', evolution.Onward d d' → Owed s c d') :
    (Program.execute s fun answer => checked (result answer) : Transaction α).Owes duties
      (fun _ c' _ => c' = c) c d := by
  intro d' _ onward
  refine ⟨owed d' onward, ?_⟩
  change (checked (result (Database.execute s c d').1)).Owes duties _ (Database.rebind s c) _
  rw [steady c]
  cases result (Database.execute s c d').1 with
  | error fault => trivial
  | ok a => exact fun _ _ _ => rfl

/-- A statement that may fail, and what follows. -/
theorem owes_then {s : Statement} {result : s.Answer → Except Database.Fault α}
    {f : α → Transaction β} {post : β → Setting → Database → Prop} (steady : Steady s)
    (owed : ∀ d', evolution.Onward d d' → Owed s c d')
    (later : ∀ a d', evolution.Sound d' → evolution.Onward d d' →
      (f a).Owes duties post c d') :
    ((Program.execute s fun answer => checked (result answer)) >>= f).Owes duties post c d := by
  refine (owes_fallible steady owed).andThen sound fun a c' d' sound' onward same => ?_
  subst same
  exact later a d' sound' onward

omit sound in
theorem owes_uuid4 {f : Uuid → Transaction α} {post : α → Setting → Database → Prop}
    (later : ∀ id, (f id).Owes duties post c d) : (uuid4 >>= f).Owes duties post c d :=
  later

/-- Insertions one after the other, where what they owe stays so. -/
theorem owes_insertAll {insert : Uuid → σ → Transaction Unit} {specs : List σ}
    (each : ∀ spec ∈ specs, ∀ id d', evolution.Onward d d' →
      (insert id spec).Owes duties (fun _ c' _ => c' = c) c d') :
    (insertAll insert specs).Owes duties (fun _ c' _ => c' = c) c d := by
  induction specs generalizing d with
  | nil => exact fun _ _ _ => rfl
  | cons spec rest ih =>
      intro id
      have first := each spec List.mem_cons_self id d .refl
      refine first.andThen sound fun _ c' d' sound' onward same => ?_
      subst same
      exact ih sound' fun other member id d'' later =>
        each other (List.mem_cons_of_mem _ member) id d'' (onward.trans later)

theorem owes_replacePlans {org : Uuid} {plans : List TestPlanSpec} (test : Own c d.tests id)
    (repos : ∀ plan ∈ plans, Own c d.scriptRepos plan.scriptRepoId) :
    (replacePlans org id plans).Owes duties (fun _ c' _ => c' = c) c d := by
  have deletes : Only Free (deletePlans id) := only_statement ⟨fun _ => rfl, fun _ _ => trivial⟩
  refine (owes_free deletes).andThen sound fun _ c' d' sound' onward same => ?_
  subst same
  refine owes_insertAll sound' fun plan member k d'' later => owes_fallible (fun _ => rfl) ?_
  intro d₃ last
  have since := (onward.trans later).trans last
  exact ⟨own_tests test since, own_scriptRepos (repos plan member) since⟩

theorem owes_replaceSlaRules {org : Uuid} {rules : List SlaRuleSpec} (test : Own c d.tests id) :
    (replaceSlaRules org id rules).Owes duties (fun _ c' _ => c' = c) c d := by
  have deletes : Only Free (deleteRules id) := only_statement ⟨fun _ => rfl, fun _ _ => trivial⟩
  refine (owes_free deletes).andThen sound fun _ c' d' sound' onward same => ?_
  subst same
  refine owes_insertAll sound' fun rule member k d'' later => owes_fallible (fun _ => rfl) ?_
  exact fun d₃ last => own_tests test ((onward.trans later).trans last)

omit sound in
/-- A test that was inserted is seen. -/
theorem owes_insertTest {row : Timestamp → PerformanceTest}
    (owed : ∀ d', evolution.Onward d d' → Owed (.insertTest row) c d') :
    (insertTest row).Owes duties (fun test c' d' => c' = c ∧ Own c d'.tests test.id) c d := by
  intro d' _ onward
  refine ⟨owed d' onward, ?_⟩
  change (checked (Database.execute (.insertTest row) c d').1).Owes duties _ c _
  cases answer : (Database.execute (.insertTest row) c d').1 with
  | error fault => trivial
  | ok test =>
      obtain ⟨rfl, inserted, writes⟩ := Database.returning_ok answer
      obtain ⟨written, sees, -⟩ := Database.insert_ok inserted
      rw [written] at writes
      refine fun d'' _ later => ⟨rfl, own_tests ⟨row c.now, ?_⟩ later⟩
      rw [show (postgres.execute (.insertTest row) c d').2 = _ from writes]
      exact Database.byKey_eq_some_iff.mpr ⟨Dict.get?_set_self _ _ _, sees⟩

/-! ### Operations -/

theorem owes_createScriptRepo {projectId : Uuid} {body : ScriptRepoCreate} :
    (ScriptRepos.create principal projectId body).Owes duties (fun _ c' _ => c' = c) c d := by
  refine (owes_requireProject sound).andThen sound fun _ c' d₁ sound₁ _ made => ?_
  obtain ⟨rfl, own⟩ := made
  refine (owes_free only_requireCredential).andThen sound₁ fun _ c' d₂ sound₂ onward₂ same => ?_
  subst same
  refine owes_uuid4 fun k => owes_then sound₂ (fun _ => rfl) (fun d' later => ?_) ?_
  · exact own_projects own (onward₂.trans later)
  · exact fun row d₃ _ _ => owes_free (only_record.bind fun _ => only_pure row)

theorem owes_createTest {projectId : Uuid} {body : TestCreate} :
    (PerformanceTests.create principal projectId body).Owes duties (fun _ c' _ => c' = c) c d := by
  refine (owes_requireProject sound).andThen sound fun _ c' d₁ sound₁ _ made => ?_
  obtain ⟨rfl, project⟩ := made
  refine (owes_checkReferences sound₁).andThen sound₁ fun _ c' d₂ sound₂ onward₂ made => ?_
  obtain ⟨rfl, pool, repos⟩ := made
  refine owes_uuid4 fun k => (owes_insertTest fun d' later => ?_).andThen sound₂ ?_
  · refine ⟨own_projects project (onward₂.trans later), fun configuration given => ?_⟩
    cases given
    exact own_pools pool later
  · intro test c' d₃ sound₃ onward₃ made
    obtain ⟨rfl, there⟩ := made
    have plans : ∀ plan ∈ body.plans, Own c' d₃.scriptRepos plan.scriptRepoId :=
      fun plan member => own_scriptRepos (repos plan member) onward₃
    refine (owes_replacePlans sound₃ there plans).andThen sound₃ ?_
    intro _ c₄ d₄ sound₄ onward₄ same
    subst same
    refine (owes_replaceSlaRules sound₄ (own_tests there onward₄)).andThen sound₄ ?_
    intro _ c₅ d₅ sound₅ _ same
    subst same
    exact owes_free (only_record.bind fun _ => only_document)

omit sound in
theorem owes_whenGiven {value : Option σ} {action : σ → Transaction Unit}
    (each : ∀ given, value = some given → (action given).Owes duties (fun _ c' _ => c' = c) c d) :
    (PerformanceTests.whenGiven value action).Owes duties (fun _ c' _ => c' = c) c d := by
  cases value with
  | none => exact fun _ _ _ => rfl
  | some given => exact each given rfl

/-- What an update names has been looked up. -/
theorem owes_checkUpdate {body : TestUpdate} {current : PerformanceTests.TestDocument} :
    (PerformanceTests.checkUpdate body current).Owes duties (fun _ c' d' => c' = c ∧
      (∀ configuration, body.configuration = .value configuration →
        Own c d'.pools configuration.generatorPoolId) ∧
      ∀ plans, PerformanceTests.value? body.plans = some plans →
        ∀ plan ∈ plans, Own c d'.scriptRepos plan.scriptRepoId) c d := by
  unfold PerformanceTests.checkUpdate
  split
  · have configured : (PerformanceTests.configurationOr body current).Owes duties
        (fun configuration c' _ => c' = c ∧ ∀ given, body.configuration = .value given →
          given = configuration) c d := by
      unfold PerformanceTests.configurationOr
      split
      · rename_i configuration some_
        refine fun _ _ _ => ⟨rfl, fun given same => ?_⟩
        rw [same] at some_
        exact Option.some.inj some_
      · rename_i none_
        refine (owes_free only_modelValidate).weaken fun _ _ _ _ same => ⟨same, ?_⟩
        intro given same
        rw [same] at none_
        cases none_
    refine configured.andThen sound fun configuration c' d₁ sound₁ _ made => ?_
    obtain ⟨rfl, which⟩ := made
    refine (owes_checkReferences sound₁).weaken fun _ c' d₂ _ made => ?_
    obtain ⟨rfl, pool, repos⟩ := made
    refine ⟨rfl, fun given same => which given same ▸ pool, fun plans some_ => ?_⟩
    rw [some_] at repos
    exact repos
  · rename_i neither
    rw [not_or, Bool.not_eq_true, Bool.not_eq_true] at neither
    refine fun _ _ _ => ⟨rfl, fun given same => ?_, fun plans some_ => ?_⟩
    · rw [same] at neither
      cases neither.1
    · rw [some_] at neither
      cases neither.2

theorem owes_updateTest {body : TestUpdate} :
    (PerformanceTests.update principal id body).Owes duties (fun _ c' _ => c' = c) c d := by
  refine (owes_requireTest sound).andThen sound fun current c' d₁ sound₁ _ made => ?_
  obtain ⟨rfl, test⟩ := made
  refine (owes_checkUpdate sound₁).andThen sound₁ fun _ c' d₂ sound₂ onward₂ made => ?_
  obtain ⟨rfl, pool, repos⟩ := made
  have there := own_tests test onward₂
  refine owes_then sound₂ (fun _ => rfl) (fun d' later configuration same => ?_) ?_
  · exact own_pools (pool configuration same) later
  · intro row d₃ sound₃ onward₃
    have there := own_tests there onward₃
    cases row with
    | none => trivial
    | some row =>
        refine (owes_whenGiven fun plans given => ?_).andThen sound₃ ?_
        · exact owes_replacePlans sound₃ there fun plan member =>
            own_scriptRepos (repos plans given plan member) onward₃
        · intro _ c' d₄ sound₄ onward₄ same
          subst same
          refine (owes_whenGiven fun rules _ =>
            owes_replaceSlaRules sound₄ (own_tests there onward₄)).andThen sound₄ ?_
          intro _ c' d₅ sound₅ _ same
          subst same
          exact owes_free (only_record.bind fun _ => only_document)

/-- A pin, where its repository is the organisation's. -/
theorem owes_pinVersion {repoId : Uuid} {planPath ref : String}
    {candidate : ScriptVersions.PinCandidate} (own : Own c d.scriptRepos repoId) :
    (ScriptVersions.pinVersion principal repoId planPath ref candidate).Owes duties
      (fun _ c' _ => c' = c) c d := by
  have first : Only Free (versionByCommit repoId candidate.sha planPath) :=
    only_statement ⟨fun _ => rfl, fun _ _ => trivial⟩
  refine (owes_free first).andThen sound fun found c' d₁ sound₁ onward₁ same => ?_
  subst same
  cases found with
  | some existing => exact fun _ _ _ => rfl
  | none =>
      refine owes_uuid4 fun k => owes_then sound₁ (fun _ => rfl) (fun d' later => ?_) ?_
      · exact own_scriptRepos own (onward₁.trans later)
      · exact fun created d₂ _ _ => owes_free (only_record.bind fun _ => only_pure _)

end

/-! ## Requests -/

variable {dep : Deployment}

/-- The repository that an operation pins a version of. -/
def pinned : Operation → Option Uuid
  | .pinVersion repoId _ _ _ => some repoId
  | _ => none

/-- A pin begins where its repository has been looked up. -/
def LookedUp (request : Request) (d : Database) : Prop :=
  ∀ repoId ∈ pinned request.operation, (d.scriptRepos.get? repoId).map ScriptRepo.organizationId =
    some request.principal.organizationId

theorem steady_perform (request : Request) : Only Steady (request.perform dep) := by
  obtain ⟨principal, operation⟩ := request
  cases operation with
  | createProject body => exact (Only.steady only_createProject).bind fun _ => only_pure _
  | updateProject id body => exact (Only.steady only_updateProject).bind fun _ => only_pure _
  | archiveProject id => exact (Only.steady only_archiveProject).bind fun _ => only_pure _
  | createPool body =>
      exact (Only.steady only_createPool).bind fun _ =>
        (Only.steady only_poolResponse).bind fun _ => only_pure _
  | updatePool id body =>
      exact (Only.steady only_updatePool).bind fun _ =>
        (Only.steady only_poolResponse).bind fun _ => only_pure _
  | archivePool id => exact (Only.steady only_archivePool).bind fun _ => only_pure _
  | createCredential body => exact (Only.steady only_createCredential).bind fun _ => only_pure _
  | deleteCredential id => exact (Only.steady only_deleteCredential).bind fun _ => only_pure _
  | createScriptRepo projectId body => exact steady_createScriptRepo.bind fun _ => only_pure _
  | updateScriptRepo id body => exact (Only.steady only_updateScriptRepo).bind fun _ => only_pure _
  | archiveScriptRepo id => exact (Only.steady only_archiveScriptRepo).bind fun _ => only_pure _
  | createTest projectId body =>
      exact steady_createTest.bind fun _ =>
        (Only.steady only_testResponse).bind fun _ => only_pure _
  | updateTest id body =>
      exact steady_updateTest.bind fun _ =>
        (Only.steady only_testResponse).bind fun _ => only_pure _
  | archiveTest id => exact (Only.steady only_archiveTest).bind fun _ => only_pure _
  | replaceTargetPolicy allowlist => exact (Only.steady only_replace).bind fun _ => only_pure _
  | pinVersion repoId planPath ref candidate =>
      exact steady_pinVersion.bind fun _ => only_pure _

/-- Every request meets its duties. -/
theorem met_services : duties.Met (services dep) LookedUp := by
  intro request e d sound looked
  have all {p : Transaction Answer} {c : Setting} (only : Only Free p) :
      p.Owes duties (fun _ _ _ => True) c d :=
    (owes_free only).weaken fun _ _ _ _ _ => trivial
  have rest {α : Type} {p : Transaction α} {f : α → Transaction Answer} {c : Setting}
      (first : p.Owes duties (fun _ c' _ => c' = c) c d) (later : ∀ a, Only Free (f a)) :
      (p >>= f).Owes duties (fun _ _ _ => True) c d := by
    refine first.andThen sound fun a c' d' _ _ _ => ?_
    exact (owes_free (later a)).weaken fun _ _ _ _ _ => trivial
  obtain ⟨principal, operation⟩ := request
  cases operation with
  | createProject body => exact all (only_createProject.bind fun _ => only_pure _)
  | updateProject id body => exact all (only_updateProject.bind fun _ => only_pure _)
  | archiveProject id => exact all (only_archiveProject.bind fun _ => only_pure _)
  | createPool body =>
      exact all (only_createPool.bind fun _ => only_poolResponse.bind fun _ => only_pure _)
  | updatePool id body =>
      exact all (only_updatePool.bind fun _ => only_poolResponse.bind fun _ => only_pure _)
  | archivePool id => exact all (only_archivePool.bind fun _ => only_pure _)
  | createCredential body => exact all (only_createCredential.bind fun _ => only_pure _)
  | deleteCredential id => exact all (only_deleteCredential.bind fun _ => only_pure _)
  | createScriptRepo projectId body => exact rest (owes_createScriptRepo sound) fun _ => only_pure _
  | updateScriptRepo id body => exact all (only_updateScriptRepo.bind fun _ => only_pure _)
  | archiveScriptRepo id => exact all (only_archiveScriptRepo.bind fun _ => only_pure _)
  | createTest projectId body =>
      exact rest (owes_createTest sound) fun _ => only_testResponse.bind fun _ => only_pure _
  | updateTest id body =>
      exact rest (owes_updateTest sound) fun _ => only_testResponse.bind fun _ => only_pure _
  | archiveTest id => exact all (only_archiveTest.bind fun _ => only_pure _)
  | replaceTargetPolicy allowlist => exact all (only_replace.bind fun _ => only_pure _)
  | pinVersion repoId planPath ref candidate =>
      obtain ⟨repo, there, owner⟩ := Option.map_eq_some_iff.mp (looked repoId rfl)
      have own : Own (Setting.of (some principal.organizationId) e) d.scriptRepos repoId :=
        ⟨repo, Database.byKey_eq_some_iff.mpr ⟨there, congrArg some owner.symm⟩⟩
      exact rest (owes_pinVersion sound own) fun _ => only_pure _

theorem met_binding : binding.Met (services dep) fun _ _ => True := by
  intro request e d _ _
  refine ((steady_perform request).owes fun s d steady => ?_).weaken fun _ _ _ _ _ => trivial
  exact ⟨steady _, steady _⟩

open Sql.Server

/-- A row is none, or the organisation's. -/
def Of (org : Uuid) (lock : RowLock) (row : History.Row lock) : Prop :=
  ∀ owner, orgOf lock row = some owner → owner = org

/-- The commits of a run change rows of their own organisation. -/
theorem changes_of_chronicle {condition : ServiceServer dep → Sql.Event (services dep) → Prop}
    {d : Database} {e : Environment} {done : List (Sql.Commit (services dep))}
    {s : ServiceServer dep} (inPlace : ∀ lock, InPlace lock (rowAt lock d))
    (chronicle : Chronicle condition { committed := d, environment := e } done s) :
    ∀ c ∈ done, confinement.Changes c.job c.before c.after :=
  (Sql.Confinement.of_chronicle met_binding (fun _ _ => rfl)
    (fun _ e _ => by cases e <;> trivial) inPlace chronicle).2

/-- So the rows of an organisation that no commit is for stay as they were. -/
theorem untouched_of_chronicle {condition : ServiceServer dep → Sql.Event (services dep) → Prop}
    {d : Database} {e : Environment} {done : List (Sql.Commit (services dep))}
    {s : ServiceServer dep} (inPlace : ∀ lock, InPlace lock (rowAt lock d))
    (chronicle : Chronicle condition { committed := d, environment := e } done s) {org : Uuid}
    (others : ∀ c ∈ done, c.job.principal.organizationId ≠ org) (lock : RowLock)
    (here : orgOf lock (rowAt lock d) = some org ∨ orgOf lock (rowAt lock s.committed) = some org) :
    rowAt lock s.committed = rowAt lock d := by
  refine Sql.Confinement.untouched (F := fun lock r => orgOf lock r = some org) chronicle
    (changes_of_chronicle inPlace chronicle) (fun c member lock r owner mine => ?_) lock here
  exact others c member (mine org owner).symm

/-- Every row that a commit has changed was, where it was there, and is, where it is there,
of the organisation that the request came from; and where no committed request came from an
organisation, its rows are as they were at first, with none beside them. -/
theorem isolated_of_chronicle {condition : ServiceServer dep → Sql.Event (services dep) → Prop}
    {d : Database} {e : Environment} {done : List (Sql.Commit (services dep))}
    {s : ServiceServer dep} (inPlace : ∀ lock, InPlace lock (rowAt lock d))
    (chronicle : Chronicle condition { committed := d, environment := e } done s) :
    (∀ c ∈ done, ∀ lock, rowAt lock c.after = rowAt lock c.before ∨
      Of c.job.principal.organizationId lock (rowAt lock c.before) ∧
        Of c.job.principal.organizationId lock (rowAt lock c.after)) ∧
    ∀ org, (∀ c ∈ done, c.job.principal.organizationId ≠ org) → ∀ lock,
      orgOf lock (rowAt lock d) = some org ∨ orgOf lock (rowAt lock s.committed) = some org →
        rowAt lock s.committed = rowAt lock d := by
  refine ⟨changes_of_chronicle inPlace chronicle, fun org others lock here => ?_⟩
  exact untouched_of_chronicle inPlace chronicle others lock here

/-- A column is null, or it leads to a row of the same organisation. -/
def RefersWithin {ρ ρ' : Type} [Tenant ρ] [Tenant ρ'] (table : Dict Uuid ρ)
    (column : ρ → Option Uuid) (table' : Dict Uuid ρ') : Prop :=
  ∀ id row, table.get? id = some row → ∀ other, column row = some other →
    ∃ row', table'.get? other = some row' ∧
      Tenant.organizationId row' = Tenant.organizationId row

/-- What the rows of an organisation refer to, of what is never deleted, is its own. The
pool of a test is named in its configuration only, where no foreign key leads to it. -/
structure Enclosed (d : Database) : Prop where
  repoProjects : RefersWithin d.scriptRepos (fun row => some row.projectId) d.projects
  versionRepos : RefersWithin d.scriptVersions (fun row => some row.scriptRepoId) d.scriptRepos
  testProjects : RefersWithin d.tests (fun row => some row.projectId) d.projects
  testPools :
    RefersWithin d.tests (fun row => row.configuration.map WorkloadSpec.generatorPoolId) d.pools
  planTests : RefersWithin d.plans (fun row => some row.performanceTestId) d.tests
  planRepos : RefersWithin d.plans (fun row => some row.spec.scriptRepoId) d.scriptRepos
  ruleTests : RefersWithin d.rules (fun row => some row.performanceTestId) d.tests

section

variable {ρ ρ' : Type} [Tenant ρ] [Tenant ρ'] {table : Dict Uuid ρ} {column : ρ → Option Uuid}
  {table' : Dict Uuid ρ'}

theorem RefersWithin.org (within : RefersWithin table column table') {row : ρ} {other : Uuid}
    (there : table.get? id = some row) (same : column row = some other) :
    (table'.get? other).map Tenant.organizationId = some (Tenant.organizationId row) := by
  obtain ⟨row', there', owner⟩ := within id row there other same
  exact Option.map_eq_some_iff.mpr ⟨row', there', owner⟩

theorem refersWithin_of (linked : links.Linked d) (lock target : Uuid → RowLock)
    (demanded : ∀ id row, table.get? id = some row → ∀ other, column row = some other →
      (target other, Tenant.organizationId row) ∈ demands (lock id) (rowAt (lock id) d))
    (reads : ∀ other, orgOf (target other) (rowAt (target other) d) =
      (table'.get? other).map Tenant.organizationId) : RefersWithin table column table' := by
  intro id row there other same
  have here : orgOf (target other) (rowAt (target other) d) = some (Tenant.organizationId row) :=
    linked (lock id) (target other) _ (demanded id row there other same)
  exact Option.map_eq_some_iff.mp ((reads other).symm.trans here)

end

theorem Enclosed.linked (enclosed : Enclosed d) : links.Linked d := by
  intro lock target org demanded
  cases lock with
  | scriptRepo id =>
      obtain ⟨row, there, same⟩ := List.mem_map.mp demanded
      cases same
      exact enclosed.repoProjects.org (Option.mem_toList.mp there) rfl
  | scriptVersion id =>
      obtain ⟨row, there, same⟩ := List.mem_map.mp demanded
      cases same
      exact enclosed.versionRepos.org (Option.mem_toList.mp there) rfl
  | test id =>
      obtain ⟨row, there, member⟩ := List.mem_flatMap.mp demanded
      rcases List.mem_cons.mp member with same | pool
      · cases same
        exact enclosed.testProjects.org (Option.mem_toList.mp there) rfl
      · obtain ⟨configuration, given, same⟩ := List.mem_map.mp pool
        cases same
        refine enclosed.testPools.org (Option.mem_toList.mp there) ?_
        exact Option.map_eq_some_iff.mpr ⟨configuration, Option.mem_toList.mp given, rfl⟩
  | plan id =>
      obtain ⟨row, there, member⟩ := List.mem_flatMap.mp demanded
      rcases List.mem_cons.mp member with same | other
      · cases same
        exact enclosed.planTests.org (Option.mem_toList.mp there) rfl
      · cases List.mem_singleton.mp other
        exact enclosed.planRepos.org (Option.mem_toList.mp there) rfl
  | rule id =>
      obtain ⟨row, there, same⟩ := List.mem_map.mp demanded
      cases same
      exact enclosed.ruleTests.org (Option.mem_toList.mp there) rfl
  | _ => cases demanded

theorem enclosed_of (linked : links.Linked d) : Enclosed d where
  repoProjects := by
    refine refersWithin_of linked .scriptRepo .project ?_ fun _ => rfl
    rintro id row there other ⟨⟩
    exact List.mem_map.mpr ⟨row, Option.mem_toList.mpr there, rfl⟩
  versionRepos := by
    refine refersWithin_of linked .scriptVersion .scriptRepo ?_ fun _ => rfl
    rintro id row there other ⟨⟩
    exact List.mem_map.mpr ⟨row, Option.mem_toList.mpr there, rfl⟩
  testProjects := by
    refine refersWithin_of linked .test .project ?_ fun _ => rfl
    rintro id row there other ⟨⟩
    exact List.mem_flatMap.mpr ⟨row, Option.mem_toList.mpr there, List.mem_cons_self⟩
  testPools := by
    refine refersWithin_of linked .test .pool ?_ fun _ => rfl
    intro id row there other same
    obtain ⟨configuration, given, rfl⟩ := Option.map_eq_some_iff.mp same
    refine List.mem_flatMap.mpr ⟨row, Option.mem_toList.mpr there, List.mem_cons_of_mem _ ?_⟩
    exact List.mem_map.mpr ⟨configuration, Option.mem_toList.mpr given, rfl⟩
  planTests := by
    refine refersWithin_of linked .plan .test ?_ fun _ => rfl
    rintro id row there other ⟨⟩
    exact List.mem_flatMap.mpr ⟨row, Option.mem_toList.mpr there, List.mem_cons_self⟩
  planRepos := by
    refine refersWithin_of linked .plan .scriptRepo ?_ fun _ => rfl
    rintro id row there other ⟨⟩
    exact List.mem_flatMap.mpr ⟨row, Option.mem_toList.mpr there,
      List.mem_cons_of_mem _ (List.mem_singleton_self _)⟩
  ruleTests := by
    refine refersWithin_of linked .rule .test ?_ fun _ => rfl
    rintro id row there other ⟨⟩
    exact List.mem_map.mpr ⟨row, Option.mem_toList.mpr there, rfl⟩

/-- However requests interleave, no reference leads out of its organisation, in what is
committed and in what each session sees. -/
theorem enclosed_of_run {condition : ServiceServer dep → Sql.Event (services dep) → Prop}
    {d : Database} {e : Environment} {s : ServiceServer dep}
    (inPlace : ∀ lock, InPlace lock (rowAt lock d)) (enclosed : Enclosed d)
    (holds : ∀ s e, condition s e → Sql.Duties.Begins LookedUp s e)
    (run : Run condition { committed := d, environment := e } s) :
    Enclosed s.committed ∧
      ∀ id session, s.sessions id = some session → Enclosed (s.view session) := by
  have inv : links.Invariant s :=
    Sql.Links.of_run met_services holds inPlace enclosed.linked run
  exact ⟨enclosed_of inv.committed, fun id session found =>
    enclosed_of (inv.views id session found)⟩

/-! ## Two organisations -/

open History (plain Anyhow)
open Integrity (oneRepository get?_single)

/-- A version of the repository is pinned. -/
def pinning : Request := History.asAda (.pinVersion 5 "plan.jmx" "main" ⟨"c0ffee", "", {}⟩)

/-- Somebody of another organisation, with an identifier that is not theirs. -/
def intruding : Request where
  principal := ⟨7, 8, "ORG_ADMIN"⟩
  operation := .archiveScriptRepo 5

/-- A version is pinned beside a request from elsewhere, which finds nothing. -/
def pinningBeside : List (Sql.Event (services plain)) :=
  [.start 0 pinning, .start 1 intruding, .advance 1, .advance 0, .advance 0, .advance 0,
    .advance 0, .advance 0, .commit 0, .rollback 1]

theorem enclosed_oneRepository : Enclosed oneRepository where
  repoProjects := by
    intro id row there other same
    obtain ⟨rfl, rfl⟩ := get?_single there
    cases same
    exact ⟨_, rfl, rfl⟩
  versionRepos := by
    intro id row there
    cases there
  testProjects := by
    intro id row there
    cases there
  testPools := by
    intro id row there
    cases there
  planTests := by
    intro id row there
    cases there
  planRepos := by
    intro id row there
    cases there
  ruleTests := by
    intro id row there
    cases there

instance (s : ServiceServer plain) (e : Sql.Event (services plain)) :
    Decidable (Sql.Duties.Begins LookedUp s e) :=
  match e with
  | .start _ _ => Option.decidableForallMem _
  | .advance _ => inferInstanceAs (Decidable True)
  | .commit _ => inferInstanceAs (Decidable True)
  | .rollback _ => inferInstanceAs (Decidable True)

theorem enclosed_pinningBeside : ∃ s : ServiceServer plain,
    Run (Sql.Duties.Begins LookedUp) Integrity.sampleServer s ∧
      s.committed.scriptVersions.items.length = 1 ∧ Enclosed s.committed := by
  have reached : (Integrity.sampleServer.events (Sql.Duties.Begins LookedUp) pinningBeside).map
      (fun s => s.committed.scriptVersions.items.length) = some 1 := by decide +kernel
  obtain ⟨s, ended, pinned⟩ := Option.map_eq_some_iff.mp reached
  have run : Run (Sql.Duties.Begins LookedUp) Integrity.sampleServer s := run_of_events .refl ended
  exact ⟨s, run, pinned, (enclosed_of_run Integrity.inPlace_oneRepository enclosed_oneRepository
    (fun _ _ holds => holds) run).1⟩

theorem isolated_pinningBeside : ∃ (done : List (Sql.Commit (services plain)))
    (s : ServiceServer plain), Chronicle Anyhow Integrity.sampleServer done s ∧
      s.committed.scriptVersions.items.length = 1 ∧ ∀ c ∈ done, ∀ lock,
        rowAt lock c.after = rowAt lock c.before ∨
          Of c.job.principal.organizationId lock (rowAt lock c.before) ∧
            Of c.job.principal.organizationId lock (rowAt lock c.after) := by
  have reached : (Integrity.sampleServer.events Anyhow pinningBeside).map
      (fun s => s.committed.scriptVersions.items.length) = some 1 := by decide +kernel
  obtain ⟨s, ended, pinned⟩ := Option.map_eq_some_iff.mp reached
  have run : Run Anyhow Integrity.sampleServer s := run_of_events .refl ended
  obtain ⟨done, chronicle⟩ := run.chronicle
  exact ⟨done, s, chronicle, pinned,
    (isolated_of_chronicle Integrity.inPlace_oneRepository chronicle).1⟩

end Plimsoll.Tenancy
