import Plimsoll.Audit.Statements

/-!
The audit log matches what happened, in every run in which nobody deletes a
credential that another has just deleted.
-/

namespace Plimsoll.Audit

open Python Contracts Transaction
open Database (Write Setting Statement Fault)
open ScriptRepos (record refuse requireProject)

variable {α β σ : Type} {c : Setting} {dep : Deployment} {principal : AccessClaims} {id : Uuid}

/-! ## What only looks -/

theorem keeps_refuse {code : ErrorCode} {message : String} {details : List (String × Detail)} :
    Keeps (refuse code message details : Transaction α) c :=
  .raise _

theorem keeps_requireProject : Keeps (requireProject id) c := by
  refine .bind (keeps_read rfl fun _ => rfl) fun found => ?_
  cases found with
  | none => exact keeps_refuse
  | some project => exact .pure project

theorem keeps_requirePool : Keeps (Pools.require id) c := by
  refine .bind (keeps_read rfl fun _ => rfl) fun found => ?_
  cases found with
  | none => exact keeps_refuse
  | some row => exact .pure row

theorem keeps_requireRepo : Keeps (ScriptRepos.require id) c := by
  refine .bind (keeps_read rfl fun _ => rfl) fun found => ?_
  cases found with
  | none => exact keeps_refuse
  | some row => exact .pure row

theorem keeps_requireCredential {credentialId : Option Uuid}
    {details : Uuid → List (String × Detail)} :
    Keeps (ScriptRepos.requireCredential credentialId details) c := by
  cases credentialId with
  | none => exact .pure ()
  | some credentialId =>
      refine .bind (keeps_read rfl fun _ => rfl) fun found => ?_
      cases found with
      | none => exact keeps_refuse
      | some row => exact .pure ()

theorem keeps_missingRepos {plans : List TestPlanSpec} :
    Keeps (PerformanceTests.missingRepos plans) c := by
  induction plans with
  | nil => exact .pure []
  | cons plan rest ih =>
      exact .bind (keeps_read rfl fun _ => rfl) fun _ => .bind ih fun _ => .pure _

theorem keeps_checkReferences {configuration : WorkloadSpec} {plans : List TestPlanSpec} :
    Keeps (PerformanceTests.checkReferences configuration plans) c := by
  refine .bind (keeps_read rfl fun _ => rfl) fun pool => .bind keeps_missingRepos fun missing => ?_
  split
  · exact .pure ()
  · exact keeps_refuse

theorem keeps_document {row : PerformanceTest} : Keeps (PerformanceTests.document row) c :=
  .bind (keeps_read rfl fun _ => rfl) fun _ => .bind (keeps_read rfl fun _ => rfl) fun _ => .pure _

theorem keeps_requireTest : Keeps (PerformanceTests.require id) c := by
  refine .bind (keeps_read rfl fun _ => rfl) fun found => ?_
  cases found with
  | none => exact keeps_refuse
  | some row => exact keeps_document

theorem keeps_modelValidate {configuration : Option WorkloadSpec} :
    Keeps (PerformanceTests.modelValidate configuration) c := by
  cases configuration with
  | none => exact .raise _
  | some configuration => exact .pure configuration

theorem keeps_checkUpdate {body : TestUpdate} {current : PerformanceTests.TestDocument} :
    Keeps (PerformanceTests.checkUpdate body current) c := by
  unfold PerformanceTests.checkUpdate
  split
  · refine .bind ?_ fun configuration => keeps_checkReferences
    unfold PerformanceTests.configurationOr
    split
    · exact .pure _
    · exact keeps_modelValidate
  · exact .pure ()

theorem keeps_testResponse {document : PerformanceTests.TestDocument} :
    Keeps (PerformanceTests.response document) c :=
  .bind keeps_modelValidate fun _ => .pure _

theorem keeps_poolResponse {row : Option GeneratorPool} : Keeps (Pools.response row) c := by
  cases row with
  | none => exact .raise _
  | some row =>
      unfold Pools.response
      split
      · rename_i none_
        cases none_
      · rename_i some_
        cases some_
        split
        · exact .raise _
        · exact .pure _

theorem keeps_encrypt {keys : Credentials.KeyProvider} {plaintext : List UInt8} :
    Keeps (Credentials.encrypt keys plaintext) c := by
  cases keys with
  | none => exact .raise _
  | some cipher => exact .bind keeps_nonce fun _ => .pure _

/-! ## What is part of a test -/

theorem quiet_map {writes : List Write} (version : ∀ w ∈ writes, version? w = none)
    (silent : ∀ w ∈ writes, auditRow? w = none) : Quiet writes :=
  ⟨List.filterMap_eq_nil_iff.mpr version, List.filterMap_eq_nil_iff.mpr silent⟩

theorem quiet_insert {ρ : Type} [Tenant ρ] {table : Dict Uuid ρ} {key : Uuid} {row : ρ}
    {references : Bool} {write : Write} (version : version? write = none)
    (silent : auditRow? write = none) :
    Quiet (Database.insert c table key row references write).2 := by
  have one : Quiet [write] := by
    refine quiet_map (fun w member => ?_) fun w member => ?_
    · rw [List.mem_singleton.mp member]
      exact version
    · rw [List.mem_singleton.mp member]
      exact silent
  unfold Database.insert
  split
  · exact ⟨rfl, rfl⟩
  · split
    · exact ⟨rfl, rfl⟩
    · exact one

/-- A collection that is replaced, row by row. -/
theorem keeps_replaceAll {delete : Transaction Unit} {insert : Uuid → σ → Transaction Unit}
    (deleting : Keeps delete c) (inserting : ∀ id spec, Keeps (insert id spec) c)
    (specs : List σ) : Keeps (PerformanceTests.replaceAll delete insert specs) c := by
  refine .bind deleting fun _ => ?_
  induction specs with
  | nil => exact .pure ()
  | cons spec rest ih =>
      exact .bind keeps_uuid4 fun id => .bind (inserting id spec) fun _ => ih

theorem keeps_replacePlans {org testId : Uuid} (plans : List TestPlanSpec) :
    Keeps (PerformanceTests.replacePlans org testId plans) c := by
  refine keeps_replaceAll (keeps_quiet rfl fun d => ?_) (fun id spec => ?_) plans
  · refine quiet_map (fun w member => ?_) fun w member => ?_
    all_goals
      obtain ⟨row, -, rfl⟩ := List.mem_map.mp member
      rfl
  · exact keeps_checked_quiet rfl fun d => quiet_insert rfl rfl

theorem keeps_replaceSlaRules {org testId : Uuid} (rules : List SlaRuleSpec) :
    Keeps (PerformanceTests.replaceSlaRules org testId rules) c := by
  refine keeps_replaceAll (keeps_quiet rfl fun d => ?_) (fun id spec => ?_) rules
  · refine quiet_map (fun w member => ?_) fun w member => ?_
    all_goals
      obtain ⟨row, -, rfl⟩ := List.mem_map.mp member
      rfl
  · exact keeps_checked_quiet rfl fun d => quiet_insert rfl rfl

theorem keeps_whenGiven {value : Option σ} {action : σ → Transaction Unit}
    (keeps : ∀ value, Keeps (action value) c) :
    Keeps (PerformanceTests.whenGiven value action) c := by
  cases value with
  | none => exact .pure ()
  | some value => exact keeps value

/-! ## Operations -/

section

variable {f : Unit → Transaction α} {change : Change} {action entityType : String}
  {metadata : Option (List (String × Detail))}

/-- The audit row that tells of a change. -/
theorem settles_record (tells : change.mark = ⟨action, entityType, id⟩) :
    Settles (record principal action entityType id metadata) c (some change) none :=
  .of_yields yields_record fun _ => (congrArg some tells).symm

theorem settles_record_bind (tells : change.mark = ⟨action, entityType, id⟩)
    (rest : ∀ a, Keeps (f a) c) :
    Settles (record principal action entityType id metadata >>= f) c (some change) none :=
  (settles_record tells).andThen rest

end

attribute [simp] Change.mark Change.action Entity.word Entity.type

theorem settles_createProject {body : ProjectCreate} :
    Settles (Projects.create principal body) c none none := by
  refine .keeping keeps_uuid4 fun id => .bind yields_insertProject.mapError fun row => ?_
  exact settles_record_bind (by simp) fun _ => .pure row

theorem settles_updateProject {body : ProjectUpdate} :
    Settles (Projects.update principal id body) c none none := by
  refine .keeping keeps_requireProject fun current => ?_
  split
  · exact .of_keeps (.pure current)
  · refine .bind yields_updateProject fun found => ?_
    cases found with
    | none => exact .bind yields_record fun _ => .raise _
    | some row => exact settles_record_bind (by simp) fun _ => .pure row

theorem settles_archiveProject : Settles (Projects.archive principal id) c none none := by
  refine .keeping keeps_requireProject fun _ => .bind yields_archiveProject fun done => ?_
  cases done with
  | false => exact .of_keeps (.pure ())
  | true => exact settles_record (by simp)

theorem settles_createPool {body : PoolCreate} :
    Settles (Pools.create principal body) c none none := by
  refine .keeping keeps_uuid4 fun id => .bind yields_insertPool.mapError fun row => ?_
  exact settles_record_bind (by simp) fun _ => .pure row

/-- An update of a pool, with the response. -/
theorem settles_updatePool {body : PoolUpdate} :
    Settles (Pools.update principal id body >>= Pools.response) c none none := by
  rw [Pools.update, Sql.Program.bind_assoc]
  refine .keeping keeps_requirePool fun current => ?_
  split
  · exact .of_keeps (.bind (.pure _) fun _ => keeps_poolResponse)
  · rw [Sql.Program.bind_assoc]
    refine .bind yields_updatePool fun found => ?_
    rw [Sql.Program.bind_assoc]
    cases found with
    | none => exact .bind yields_record fun _ => .raise _
    | some row => exact settles_record_bind (by simp) fun _ => .bind (.pure _) fun _ => keeps_poolResponse

theorem settles_archivePool : Settles (Pools.archive principal id) c none none := by
  refine .keeping keeps_requirePool fun _ => .bind yields_archivePool fun done => ?_
  cases done with
  | false => exact .of_keeps (.pure ())
  | true => exact settles_record (by simp)

theorem settles_createCredential {keys : Credentials.KeyProvider} {body : CredentialCreate} :
    Settles (Credentials.create keys principal body) c none none := by
  refine .keeping keeps_encrypt fun encrypted => .keeping keeps_uuid4 fun id => ?_
  refine .bind yields_insertCredential.mapError fun row => ?_
  exact settles_record_bind (by simp) fun _ => .pure row

theorem settles_deleteCredential : Settles (Credentials.delete principal id) c none none := by
  refine .keeping (keeps_read rfl fun _ => rfl) fun found => ?_
  cases found with
  | none => exact .raise _
  | some row =>
      refine .keeping (keeps_read rfl fun _ => rfl) fun inUse => ?_
      split
      · exact .raise _
      · exact .bind yields_deleteCredential fun _ => settles_record (by simp)

theorem settles_createScriptRepo {projectId : Uuid} {body : ScriptRepoCreate} :
    Settles (ScriptRepos.create principal projectId body) c none none := by
  refine .keeping keeps_requireProject fun _ => .keeping keeps_requireCredential fun _ => ?_
  refine .keeping keeps_uuid4 fun id => .bind yields_insertScriptRepo fun row => ?_
  exact settles_record_bind (by simp) fun _ => .pure row

theorem settles_updateScriptRepo {body : ScriptRepoUpdate} :
    Settles (ScriptRepos.update principal id body) c none none := by
  refine .keeping keeps_requireRepo fun current => ?_
  split
  · exact .of_keeps (.pure current)
  · refine .keeping keeps_requireCredential fun _ => .bind yields_updateScriptRepo fun found => ?_
    cases found with
    | none => exact .bind yields_record fun _ => .raise _
    | some row => exact settles_record_bind (by simp) fun _ => .pure row

theorem settles_archiveScriptRepo : Settles (ScriptRepos.archive principal id) c none none := by
  refine .keeping keeps_requireRepo fun _ => .bind yields_archiveScriptRepo fun done => ?_
  cases done with
  | false => exact .of_keeps (.pure ())
  | true => exact settles_record (by simp)

theorem settles_createTest {projectId : Uuid} {body : TestCreate} :
    Settles (PerformanceTests.create principal projectId body) c none none := by
  refine .keeping keeps_requireProject fun _ => .keeping keeps_checkReferences fun _ => ?_
  refine .keeping keeps_uuid4 fun id => .bind yields_insertTest fun row => ?_
  refine .keeping (keeps_replacePlans _) fun _ => .keeping (keeps_replaceSlaRules _) fun _ => ?_
  exact settles_record_bind (by simp) fun _ => keeps_document

theorem settles_updateTest {body : TestUpdate} :
    Settles (PerformanceTests.update principal id body) c none none := by
  refine .keeping keeps_requireTest fun current => .keeping keeps_checkUpdate fun _ => ?_
  refine .bind yields_updateDocument fun found => ?_
  cases found with
  | none => exact .raise _
  | some row =>
      refine .keeping (keeps_whenGiven keeps_replacePlans) fun _ => ?_
      refine .keeping (keeps_whenGiven keeps_replaceSlaRules) fun _ => ?_
      exact settles_record_bind (by simp) fun _ => keeps_document

theorem settles_archiveTest : Settles (PerformanceTests.archive principal id) c none none := by
  refine .keeping keeps_requireTest fun _ => .bind yields_archiveTest fun done => ?_
  cases done with
  | false => exact .of_keeps (.pure ())
  | true => exact settles_record (by simp)

theorem settles_replace {ucd : Unicode} {allowlist : List String} :
    Settles (TargetPolicy.replace ucd principal allowlist) c none none := by
  unfold TargetPolicy.replace
  split
  · exact .raise _
  · refine .keeping keeps_uuid4 fun id => ?_
    rw [insertNextPolicy, Sql.Program.execute_bind]
    refine .keeping (p := Sql.Program.execute Statement.nextPolicyVersion pure)
      (keeps_read rfl fun _ => rfl) fun version => .bind yields_insertPolicy fun row => ?_
    exact settles_record_bind (by simp) fun _ => .pure row

theorem settles_pinVersion {repoId : Uuid} {planPath ref : String}
    {candidate : ScriptVersions.PinCandidate} :
    Settles (ScriptVersions.pinVersion principal repoId planPath ref candidate) c none none := by
  refine .keeping (keeps_read rfl fun _ => rfl) fun found => ?_
  cases found with
  | some existing => exact .of_keeps (.pure _)
  | none =>
      refine .keeping keeps_uuid4 fun id => .bind yields_insertScriptVersion fun created => ?_
      exact settles_record_bind (by simp) fun _ => .pure _

/-- Every request ends with an audit row that tells of its change, or with neither. -/
theorem settles_perform {request : Request} : Settles (request.perform dep) c none none := by
  obtain ⟨principal, operation⟩ := request
  cases operation with
  | createProject body => exact settles_createProject.andThen fun _ => .pure _
  | updateProject id body => exact settles_updateProject.andThen fun _ => .pure _
  | archiveProject id => exact settles_archiveProject.andThen fun _ => .pure _
  | createPool body =>
      exact settles_createPool.andThen fun _ => .bind keeps_poolResponse fun _ => .pure _
  | updatePool id body =>
      change Settles (Pools.update principal id body >>= fun row => Pools.response row >>= _) _ _ _
      rw [← Sql.Program.bind_assoc]
      exact settles_updatePool.andThen fun _ => .pure _
  | archivePool id => exact settles_archivePool.andThen fun _ => .pure _
  | createCredential body => exact settles_createCredential.andThen fun _ => .pure _
  | deleteCredential id => exact settles_deleteCredential.andThen fun _ => .pure _
  | createScriptRepo projectId body => exact settles_createScriptRepo.andThen fun _ => .pure _
  | updateScriptRepo id body => exact settles_updateScriptRepo.andThen fun _ => .pure _
  | archiveScriptRepo id => exact settles_archiveScriptRepo.andThen fun _ => .pure _
  | createTest projectId body =>
      exact settles_createTest.andThen fun _ => .bind keeps_testResponse fun _ => .pure _
  | updateTest id body =>
      exact settles_updateTest.andThen fun _ => .bind keeps_testResponse fun _ => .pure _
  | archiveTest id => exact settles_archiveTest.andThen fun _ => .pure _
  | replaceTargetPolicy allowlist => exact settles_replace.andThen fun _ => .pure _
  | pinVersion repoId planPath ref candidate =>
      exact settles_pinVersion.andThen fun _ => .pure _

/-! ## Runs -/

theorem Sound.balance {d : Database} (sound : Sound d) : Balance d [] none none :=
  ⟨sound, ⟨none, rfl, rfl, fun _ impossible => nomatch impossible⟩,
    ⟨none, rfl, rfl, fun _ impossible => nomatch impossible⟩⟩

/-- What is committed with a balance matches its audit row. -/
theorem changes_of_balance {d : Database} {writes : List Write} {change : Option Change}
    {mark : Option Mark} (balance : Balance d writes change mark) :
    (writes.filterMap version?).map (Version.change d) = change.toList := by
  obtain ⟨version, wrote, rfl, -⟩ := balance.version
  rw [wrote]
  cases version <;> rfl

/-- The requests promise each other a sound database, and end in balance. -/
def assurance (dep : Deployment) (d₀ : Database) (sound : Sound d₀) :
    Sql.Assurance (services dep) where
  toReliance := rely
  initial := d₀
  made _ _ d writes := ∃ change : Option Change, Balance d writes change (change.map Change.mark)
  evolves_of_made := by
    rintro job a d writes - ⟨change, balance⟩ -
    exact balance.sound_applyAll
  same_of_made := by
    rintro job a d writes lock - ⟨change, balance⟩ unlocked
    exact balance.same_applyAll unlocked
  ensures request e d evolved := by
    refine Sql.Program.Ensures.weaken (settles_perform d [] (evolved sound).balance) ?_
    rintro a c d writes ⟨-, change, balance⟩
    exact ⟨change, balance⟩

/-- Identifiers are drawn anew, and what a `DELETE` is to delete is still there. -/
def Orderly (s : ServiceServer dep) (e : Sql.Event (services dep)) : Prop :=
  DrawnNew s e ∧ StillThere s e

instance (s : ServiceServer dep) (e : Sql.Event (services dep)) : Decidable (Orderly s e) :=
  inferInstanceAs (Decidable (_ ∧ _))

theorem condition_of_orderly {d₀ : Database} {sound : Sound d₀} (s : ServiceServer dep)
    (e : Sql.Event (services dep)) (orderly : Orderly s e) :
    (assurance dep d₀ sound).Condition s e := by
  cases e with
  | start i job => trivial
  | commit i => trivial
  | rollback i => trivial
  | advance i =>
      intro session found st next shape
      have next? : statement? session.program = some st := by
        rw [shape]
        rfl
      exact ⟨orderly.1 session found st next?, orderly.2 session found st next?⟩

/-- A commit in balance goes on matching. -/
theorem Matches.commit {d₀ : Database} {done : List (Sql.Commit (services dep))}
    {c : Sql.Commit (services dep)} {change : Option Change} (before : Matches d₀ done c.before)
    (balance : Balance c.before c.writes change (change.map Change.mark)) :
    Matches d₀ (done ++ [c]) c.after := by
  have changed : changes c = change.toList := changes_of_balance balance
  have grown : trail c.after = trail c.before ++ (changes c).map Change.mark := by
    rw [changed]
    refine balance.trail_applyAll.trans ?_
    cases change <;> rfl
  refine ⟨?_, ?_, balance.sound_applyAll.once⟩
  · rw [grown, before.all, List.flatMap_append, List.flatMap_singleton, List.map_append,
      List.append_assoc]
  · intro other member
    rcases List.mem_append.mp member with earlier | here
    · exact before.each other earlier
    · obtain rfl := List.mem_singleton.mp here
      exact grown

/-- However requests run side by side, the audit log matches what was committed, as
long as no credential is deleted that another has deleted meanwhile. -/
theorem matches_of_orderly {d₀ : Database} {e : Environment}
    {done : List (Sql.Commit (services dep))} {s : ServiceServer dep} (sound : Sound d₀)
    (chronicle : Sql.Server.Chronicle Orderly { committed := d₀, environment := e } done s) :
    Matches d₀ done s.committed := by
  have met : ∀ s e, Orderly s e → (assurance dep d₀ sound).Condition s e := condition_of_orderly
  refine Sql.Assurance.of_chronicle (P := Matches d₀) met chronicle ?_ ?_
  · exact ⟨(List.append_nil _).symm, fun _ impossible => (nomatch impossible), sound.once⟩
  · rintro done c - ⟨change, balance⟩ before
    exact before.commit balance

/-! ### Two deletions of a credential -/

def sampleDeployment : Deployment where
  ucd := .basic
  keys := none

def sampleCredential : Credential where
  id := 5
  organizationId := 1
  name := "deploy key"
  kind := .gitSshKey
  ciphertext := []
  keyRef := "local:v1"
  createdBy := 3
  createdAt := 0

def sampleDatabase : Database where
  credentials := Dict.ofList [(5, sampleCredential)]

theorem sampleDatabase_sound : Sound sampleDatabase where
  keyed e id row found := by
    cases e with
    | credential =>
        have member := Dict.get?_eq_some_iff.mp found
        cases List.mem_singleton.mp member
        rfl
    | _ => cases found
  gone _ _ impossible := nomatch impossible
  once _ _ := Nat.zero_le 1

def sampleServer : ServiceServer sampleDeployment where
  committed := sampleDatabase
  environment := {
    tokens := fun _ => ""
    uuids := fun k => BitVec.ofNat 128 (100 + k)
    clock := fun k => k }

def sampleDelete : Request where
  principal := ⟨3, 1, "ENGINEER"⟩
  operation := .deleteCredential 5

/-- One deletion, then another, which finds nothing. -/
def inTurn : List (Sql.Event (services sampleDeployment)) :=
  [.start 0 sampleDelete] ++ List.replicate 5 (.advance 0) ++ [.commit 0] ++
    [.start 1 sampleDelete, .advance 1, .rollback 1]

theorem matches_inTurn : ∃ done s,
    Sql.Server.Chronicle Orderly sampleServer done s ∧ done.length = 1 ∧
      Matches sampleDatabase done s.committed := by
  cases ended : sampleServer.events Orderly inTurn with
  | none =>
      have some_ : (sampleServer.events Orderly inTurn).isSome = true := by decide +kernel
      rw [ended] at some_
      cases some_
  | some s =>
      obtain ⟨done, chronicle⟩ := (Sql.Server.run_of_events .refl ended).chronicle
      refine ⟨done, s, chronicle, ?_, matches_of_orderly sampleDatabase_sound chronicle⟩
      have answers : (sampleServer.events Orderly inTurn).map (fun s => s.returned.length) =
        some 1 := by decide +kernel
      rw [ended] at answers
      have one : s.returned.length = 1 := Option.some.inj answers
      rw [chronicle.returned] at one
      simpa [sampleServer] using one

/-- Both deletions find the credential before either has deleted it. -/
def racing : List (Sql.Event (services sampleDeployment)) :=
  [.start 0 sampleDelete, .start 1 sampleDelete] ++ List.replicate 2 (.advance 0) ++
    List.replicate 2 (.advance 1) ++ List.replicate 3 (.advance 0) ++ [.commit 0] ++
      List.replicate 3 (.advance 1) ++ [.commit 1]

/-- The credential is deleted once, and twice said to be. -/
theorem not_matches_racing : ∃ done s,
    Sql.Server.Chronicle DrawnNew sampleServer done s ∧ Sound sampleServer.committed ∧
      (trail s.committed).count (deletion .credential 5) = 2 ∧
        ¬ Matches sampleDatabase done s.committed := by
  cases ended : sampleServer.events DrawnNew racing with
  | none =>
      have some_ : (sampleServer.events DrawnNew racing).isSome = true := by decide +kernel
      rw [ended] at some_
      cases some_
  | some s =>
      obtain ⟨done, chronicle⟩ := (Sql.Server.run_of_events .refl ended).chronicle
      have twice : (sampleServer.events DrawnNew racing).map
        (fun s => (trail s.committed).count (deletion .credential 5)) = some 2 := by decide +kernel
      rw [ended] at twice
      have twice : (trail s.committed).count (deletion .credential 5) = 2 := Option.some.inj twice
      refine ⟨done, s, chronicle, sampleDatabase_sound, twice, fun matching => ?_⟩
      have once := matching.deletedOnce .credential 5
      rw [twice] at once
      omega

end Plimsoll.Audit
