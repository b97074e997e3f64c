import Plimsoll.Audit
import Plimsoll.Sql.Refusal

/-!
Constraints that a statement would violate, and what its operation makes of it.

Three of the operations that can meet a constraint translate the error of the
database, and three look first at what they refer to. What is left are the writes
that come behind such a look, the renaming of a pool, and the next version of a
policy: their errors are passed on as they are.
-/

namespace Plimsoll.Conflicts

open Python Contracts Transaction
open Audit (statement?)
open Database (Setting Statement byKey visible exists_ assigned assignedNullable References)
open ScriptRepos (record refuse requireProject)

/-! ## Clashes -/

/-- The operation is about a project, a pool, a credential, a script repository or the
target policy. -/
def concerned : Operation → Bool
  | .createTest _ _ => false
  | .updateTest _ _ => false
  | .archiveTest _ => false
  | .pinVersion _ _ _ _ => false
  | _ => true

/-- The operation looks a credential up in order to refer to it. -/
def refers : Operation → Bool
  | .createScriptRepo _ _ => true
  | .updateScriptRepo _ _ => true
  | _ => false

/-- The statement would violate a unique constraint or the foreign key of the script
repositories; or, where it is the look before the write, it sees that the write would. -/
def clashes (op : Operation) : Statement → Setting → Database → Bool
  | .insertProject row, c, d =>
      let row := row c.now
      c.Sees row ∧ exists_ d.projects fun other =>
        other.organizationId = row.organizationId ∧ other.projectKey = row.projectKey
  | .insertPool row, c, d =>
      let row := row c.now
      c.Sees row ∧ exists_ d.pools fun other =>
        other.organizationId = row.organizationId ∧ other.name = row.name
  | .updatePool id changes, c, d =>
      match byKey c d.pools id with
      | none => false
      | some row =>
          match assigned row.name changes.name with
          | .error _ => false
          | .ok name => exists_ d.pools fun other =>
              other.id ≠ row.id ∧ other.organizationId = row.organizationId ∧ other.name = name
  | .insertCredential row, c, d =>
      let row := row c.now
      c.Sees row ∧ exists_ d.credentials fun other =>
        other.organizationId = row.organizationId ∧ other.name = row.name
  | .insertPolicy row, c, d =>
      let row := row c.now
      c.Sees row ∧ exists_ d.targetPolicies fun other =>
        other.organizationId = row.organizationId ∧ other.version = row.version
  | .referencingRepos id, c, d =>
      (visible c d.scriptRepos).any fun repo => repo.credentialId = some id
  | .deleteCredential id, c, d =>
      match byKey c d.credentials id with
      | none => false
      | some row => exists_ d.scriptRepos fun repo => repo.credentialId = some row.id
  | .getCredential id, _, d => refers op && !References d.credentials (some id)
  | .insertScriptRepo row, c, d =>
      let row := row c.now
      c.Sees row ∧ !References d.credentials row.credentialId
  | .updateScriptRepo id changes, c, d =>
      match byKey c d.scriptRepos id with
      | none => false
      | some row => !References d.credentials (assignedNullable row.credentialId changes.credentialId)
  | _, _, _ => false

/-- What a clash is documented to be answered with: `CONFLICT` for a unique constraint,
`RESOURCE_IN_USE` and `VALIDATION_FAILED` for the sides of the foreign key. -/
def code : Statement → ErrorCode
  | .referencingRepos _ => .resourceInUse
  | .deleteCredential _ => .resourceInUse
  | .getCredential _ => .validationFailed
  | .insertScriptRepo _ => .validationFailed
  | .updateScriptRepo _ _ => .validationFailed
  | _ => .conflict

/-- The code answers a clash of this statement itself. -/
def answered : Statement → Bool
  | .insertProject _ => true
  | .insertPool _ => true
  | .insertCredential _ => true
  | .referencingRepos _ => true
  | .getCredential _ => true
  | _ => false

variable {dep : Deployment}

/-- The session that meets a constraint, and the statement with which it does. -/
def clash (s : ServiceServer dep) : Sql.Event (services dep) → Option (Nat × Statement)
  | .advance i => do
      let session ← s.sessions i
      let st ← statement? session.program
      if concerned session.job.operation ∧
          clashes session.job.operation st session.setting (s.view session) then
        some (i, st)
      else none
  | _ => none

/-- Where the step meets a constraint, its operation fails with the documented error;
and it leaves nothing, then or later. -/
def Documented (t : Sql.Step (services dep)) : Prop :=
  ∀ i st, clash t.before t.event = some (i, st) →
    (∃ error, t.after.HasRaised i (.plimsollError error) ∧ error.code = code st) ∧
      t.after.committed = t.before.committed ∧
        ∀ later, Sql.Server.Run (fun _ e => e ≠ .rollback i) t.after later →
          later.step (.commit i) = none ∧
            ∀ ended, later.step (.rollback i) = some ended → ended.committed = later.committed

/-- The event does not meet a constraint with the renaming of a pool, the next version
of a policy, or a write to credentials or script repositories behind the look. -/
def Spared (s : ServiceServer dep) (e : Sql.Event (services dep)) : Prop :=
  ∀ met ∈ clash s e, answered met.2 = true

instance (s : ServiceServer dep) (e : Sql.Event (services dep)) : Decidable (Spared s e) :=
  inferInstanceAs (Decidable (∀ met ∈ clash s e, _ = _))

/-! ## What the operations do -/

/-- The answers with which a constraint is reported. -/
def stops (op : Operation) : (st : Statement) → st.Answer → Prop
  | .insertProject _, answer => answer = .error .integrity
  | .insertPool _, answer => answer = .error .integrity
  | .updatePool _ _, answer => answer = .error .integrity
  | .insertCredential _, answer => answer = .error .integrity
  | .insertPolicy _, answer => answer = .error .integrity
  | .referencingRepos _, answer => answer ≠ []
  | .deleteCredential _, answer => answer = .error .integrity
  | .getCredential _, answer => refers op = true ∧ answer = none
  | .insertScriptRepo _, answer => answer = .error .integrity
  | .updateScriptRepo _ _, answer => answer = .error .integrity
  | _, _ => False

/-- What an operation makes of them. -/
def raised (st : Statement) (exc : Raised) : Prop :=
  if answered st = true then ∃ error, exc = .plimsollError error ∧ error.code = code st
  else exc = .integrityError

/-- A column that is not null takes no null. -/
theorem assigned_error {α : Type} {old : α} {patch : Patch α} {fault : Database.Fault}
    (failed : assigned old patch = .error fault) : fault = .integrity := by
  cases patch <;> cases failed
  rfl

/-- A pool does not take the name of another. -/
theorem updatedPool_taken {d : Database} {now : Timestamp} {row : GeneratorPool}
    {changes : Database.PoolChanges} {name : String} (named : assigned row.name changes.name = .ok name)
    (taken : exists_ d.pools (fun other =>
      other.id ≠ row.id ∧ other.organizationId = row.organizationId ∧ other.name = name) = true) :
    d.updatedPool now row changes = .error .integrity := by
  rw [Database.updatedPool, named]
  cases generators : assigned row.maxGenerators changes.maxGenerators with
  | error fault =>
      obtain rfl := assigned_error generators
      rfl
  | ok maxGenerators =>
      cases vus : assigned row.maxVusPerGenerator changes.maxVusPerGenerator with
      | error fault =>
          obtain rfl := assigned_error vus
          rfl
      | ok maxVusPerGenerator => exact if_pos taken

/-- A script repository does not refer to what is not there. -/
theorem updated_dangling {d : Database} {now : Timestamp} {row : ScriptRepo}
    {changes : Database.ScriptRepoChanges}
    (dangling : References d.credentials (assignedNullable row.credentialId changes.credentialId) =
      false) : d.updated now row changes = .error .integrity := by
  rw [Database.updated]
  cases named : assigned row.name changes.name with
  | error fault =>
      obtain rfl := assigned_error named
      rfl
  | ok name =>
      cases placed : assigned row.planPath changes.planPath with
      | error fault =>
          obtain rfl := assigned_error placed
          rfl
      | ok planPath =>
          cases ref : assigned row.defaultRef changes.defaultRef with
          | error fault =>
              obtain rfl := assigned_error ref
              rfl
          | ok defaultRef => exact if_neg (by rw [dangling]; exact Bool.false_ne_true)

/-- A clash is reported. -/
theorem stops_of_clashes {op : Operation} {st : Statement} {c : Setting} {d : Database}
    (clash : clashes op st c d = true) : stops op st (Database.execute st c d).1 := by
  have inserting : ∀ {ρ σ : Type} [Tenant ρ] {table : Dict Uuid ρ} {key : Uuid} {row : ρ}
      {references : Bool} {write : Database.Write} {result : σ} {entries : List Database.UniqueKey},
      c.Sees row → references = false → (Database.returning result entries
        (Database.insert c table key row references write)).1 = .error .integrity := by
    intro ρ σ _ table key row references write result entries sees referenced
    rw [Database.insert, if_neg (not_not.mpr sees), if_pos (Or.inr referenced)]
    rfl
  cases st with
  | insertProject row =>
      obtain ⟨sees, taken⟩ := of_decide_eq_true clash
      exact inserting sees (by rw [taken, Bool.not_true, Bool.and_false])
  | insertPool row =>
      obtain ⟨sees, taken⟩ := of_decide_eq_true clash
      exact inserting sees (by rw [taken]; rfl)
  | insertCredential row =>
      obtain ⟨sees, taken⟩ := of_decide_eq_true clash
      exact inserting sees (by rw [taken, Bool.not_true, Bool.and_false])
  | insertPolicy row =>
      obtain ⟨sees, taken⟩ := of_decide_eq_true clash
      exact inserting sees (by rw [taken, Bool.not_true, Bool.and_false])
  | insertScriptRepo row =>
      obtain ⟨sees, dangling⟩ := of_decide_eq_true clash
      rw [Bool.not_eq_true'] at dangling
      exact inserting sees (by rw [dangling, Bool.and_false, Bool.false_and])
  | updatePool id changes =>
      rw [clashes] at clash
      change (Database.updating _ _ _).1 = _
      cases found : byKey c d.pools id with
      | none => simp [found] at clash
      | some row =>
          cases named : assigned row.name changes.name with
          | error fault => simp [found, named] at clash
          | ok name =>
              simp only [found, named] at clash
              simp only [Database.updating, updatedPool_taken named clash]
  | referencingRepos id =>
      obtain ⟨repo, seen, refers⟩ := List.any_eq_true.mp clash
      intro nothing
      have listed : repo.name ∈ (Database.execute (.referencingRepos id) c d).1 :=
        mem_sorted.mpr (List.mem_map_of_mem (List.mem_filter.mpr ⟨seen, refers⟩))
      rw [nothing] at listed
      cases listed
  | deleteCredential id =>
      rw [clashes] at clash
      cases found : byKey c d.credentials id with
      | none => simp [found] at clash
      | some row =>
          simp only [found] at clash
          change (Database.execute (.deleteCredential id) c d).1 = _
          simp only [Database.execute, found]
          rw [if_pos clash]
  | getCredential id =>
      obtain ⟨look, absent⟩ := Bool.and_eq_true_iff.mp clash
      refine ⟨look, ?_⟩
      have missing : d.credentials.get? id = none := by simpa [References] using absent
      change (byKey c d.credentials id).map Credential.summary = none
      rw [byKey, missing]
      rfl
  | updateScriptRepo id changes =>
      rw [clashes] at clash
      change (Database.updating _ _ _).1 = _
      cases found : byKey c d.scriptRepos id with
      | none => simp [found] at clash
      | some row =>
          simp only [found, Bool.not_eq_true'] at clash
          simp only [Database.updating, updated_dangling clash]
  | _ => exact absurd clash Bool.false_ne_true

/-- The answers with which a concerned operation meets a constraint. -/
def Met (request : Request) (st : Statement) (answer : st.Answer) : Prop :=
  concerned request.operation = true ∧ stops request.operation st answer

/-- A program raises what is said where it meets a constraint. -/
abbrev Refuses {α : Type} (request : Request) (p : Transaction α) : Prop :=
  Sql.Program.Refuses (Met request) raised p

section

variable {α β : Type} {request : Request} {s : Statement}

theorem refuses_pure (a : α) : Refuses request (pure a) := trivial

theorem refuses_raise (exc : Raised) : Refuses request (raise exc : Transaction α) := trivial

theorem refuses_checked (result : Except Database.Fault α) : Refuses request (checked result) := by
  cases result <;> trivial

/-- A statement that meets no constraint. -/
theorem refuses_read (never : ∀ answer, ¬ stops request.operation s answer) :
    Refuses request (Sql.Program.execute s pure : Transaction s.Answer) :=
  ⟨fun answer met => absurd met.2 (never answer), fun _ => trivial⟩

theorem refuses_write {result : s.Answer → Except Database.Fault α}
    (never : ∀ answer, ¬ stops request.operation s answer) :
    Refuses request (Sql.Program.execute s fun answer => checked (result answer) : Transaction α) :=
  ⟨fun answer met => absurd met.2 (never answer), fun _ => refuses_checked _⟩

/-- A statement whose error is passed on. -/
theorem refuses_untranslated {result : s.Answer → Except Database.Fault α}
    (passed : answered s = false)
    (fails : ∀ answer, stops request.operation s answer → result answer = .error .integrity) :
    Refuses request (Sql.Program.execute s fun answer => checked (result answer) : Transaction α) := by
  refine ⟨fun answer met => ⟨.integrityError, ?_, ?_⟩, fun _ => refuses_checked _⟩
  · change checked (result answer) = _
    rw [fails answer met.2]
    rfl
  · rw [raised, if_neg (by rw [passed]; exact Bool.false_ne_true)]

/-- A statement whose error is translated. -/
theorem refuses_translated {result : s.Answer → Except Database.Fault α} {error : PlimsollError}
    (translated : answered s = true) (documented : error.code = code s)
    (fails : ∀ answer, stops request.operation s answer → result answer = .error .integrity) :
    Refuses request ((Sql.Program.execute s fun answer => checked (result answer) :
      Transaction α).mapError (onIntegrityError error)) := by
  refine ⟨fun answer met => ⟨.plimsollError error, ?_, ?_⟩, fun answer => ?_⟩
  · change (checked (result answer)).mapError _ = _
    rw [fails answer met.2]
    rfl
  · rw [raised, if_pos translated]
    exact ⟨error, rfl, documented⟩
  · change Sql.Program.Refuses _ _ ((checked (result answer)).mapError _)
    cases result answer <;> trivial

theorem refuses_record {principal : AccessClaims} {action entityType : String} {id : Uuid}
    {metadata : Option (List (String × Detail))} :
    Refuses request (record principal action entityType id metadata) :=
  .bind (fun _ => trivial) fun _ => refuses_write fun _ impossible => impossible

theorem refuses_requireProject {id : Uuid} : Refuses request (requireProject id) := by
  refine .bind (refuses_read fun _ impossible => impossible) fun found => ?_
  cases found with
  | none => exact refuses_raise _
  | some project => exact refuses_pure project

theorem refuses_requirePool {id : Uuid} : Refuses request (Pools.require id) := by
  refine .bind (refuses_read fun _ impossible => impossible) fun found => ?_
  cases found with
  | none => exact refuses_raise _
  | some row => exact refuses_pure row

theorem refuses_requireRepo {id : Uuid} : Refuses request (ScriptRepos.require id) := by
  refine .bind (refuses_read fun _ impossible => impossible) fun found => ?_
  cases found with
  | none => exact refuses_raise _
  | some row => exact refuses_pure row

/-- A credential that is not there is refused. -/
theorem refuses_requireCredential {credentialId : Option Uuid}
    {details : Uuid → List (String × Detail)} :
    Refuses request (ScriptRepos.requireCredential credentialId details) := by
  cases credentialId with
  | none => exact refuses_pure ()
  | some id =>
      refine ⟨fun answer met => ?_, fun answer => ?_⟩
      · obtain ⟨-, rfl⟩ := met.2
        exact ⟨_, rfl, _, rfl, rfl⟩
      · cases answer <;> trivial

/-! ### Operations -/

variable {principal : AccessClaims} {id : Uuid}

theorem refuses_createProject {body : ProjectCreate} :
    Refuses request (Projects.create principal body) := by
  refine .bind (fun _ => trivial) fun id => .bind ?_ fun row => ?_
  · exact refuses_translated rfl rfl fun _ stopped => stopped
  · exact .bind refuses_record fun _ => refuses_pure row

theorem refuses_updateProject {body : ProjectUpdate} :
    Refuses request (Projects.update principal id body) := by
  refine .bind refuses_requireProject fun current => ?_
  split
  · exact refuses_pure current
  · refine .bind (refuses_write fun _ impossible => impossible) fun row => ?_
    refine .bind refuses_record fun _ => ?_
    cases row with
    | none => exact refuses_raise _
    | some row => exact refuses_pure row

/-- An archive: the look, the statement and the audit row. -/
theorem refuses_archive {looked : Transaction β} {archiving : Transaction Bool}
    {action entityType : String} (look : Refuses request looked)
    (archives : Refuses request archiving) :
    Refuses request (looked >>= fun _ => archiving >>= fun done =>
      if done = true then record principal action entityType id none else pure ()) := by
  refine .bind look fun _ => .bind archives fun done => ?_
  split
  · exact refuses_record
  · exact refuses_pure ()

theorem refuses_createPool {body : PoolCreate} :
    Refuses request (Pools.create principal body) := by
  refine .bind (fun _ => trivial) fun id => .bind ?_ fun row => ?_
  · exact refuses_translated rfl rfl fun _ stopped => stopped
  · exact .bind refuses_record fun _ => refuses_pure row

theorem refuses_updatePool {body : PoolUpdate} :
    Refuses request (Pools.update principal id body) := by
  refine .bind refuses_requirePool fun current => ?_
  split
  · exact refuses_pure _
  · refine .bind (refuses_untranslated rfl fun _ stopped => stopped) fun row => ?_
    exact .bind refuses_record fun _ => refuses_pure row

theorem refuses_poolResponse {row : Option GeneratorPool} : Refuses request (Pools.response row) := by
  unfold Pools.response
  split
  · exact refuses_raise _
  · split
    · exact refuses_raise _
    · exact refuses_pure _

theorem refuses_createCredential {keys : Credentials.KeyProvider} {body : CredentialCreate} :
    Refuses request (Credentials.create keys principal body) := by
  refine .bind ?_ fun encrypted => ?_
  · cases keys with
    | none => exact refuses_raise _
    | some cipher => exact fun _ => trivial
  · refine .bind (fun _ => trivial) fun id => .bind ?_ fun row => ?_
    · exact refuses_translated rfl rfl fun _ stopped => stopped
    · exact .bind refuses_record fun _ => refuses_pure row

/-- A deletion does not look the credential up in order to refer to it. -/
theorem refuses_deleteCredential (deletes : refers request.operation = false) :
    Refuses request (Credentials.delete principal id) := by
  refine .bind (refuses_read fun _ stopped => ?_) fun found => ?_
  · exact Bool.false_ne_true (deletes.symm.trans stopped.1)
  · cases found with
    | none => exact refuses_raise _
    | some row =>
        refine ⟨fun inUse met => ?_, fun inUse => ?_⟩
        · let error : PlimsollError := {
            code := .resourceInUse
            message := "This credential is still used by a script repository."
            details := [("scriptRepos", .texts inUse)] }
          exact ⟨.plimsollError error, if_pos met.2, error, rfl, rfl⟩
        · change Refuses request (if inUse ≠ [] then _ else _)
          split
          · exact refuses_raise _
          · exact .bind (refuses_untranslated rfl fun _ stopped => stopped) fun _ => refuses_record

theorem refuses_createScriptRepo {projectId : Uuid} {body : ScriptRepoCreate} :
    Refuses request (ScriptRepos.create principal projectId body) := by
  refine .bind refuses_requireProject fun _ => .bind refuses_requireCredential fun _ => ?_
  refine .bind (fun _ => trivial) fun id => .bind ?_ fun row => ?_
  · exact refuses_untranslated rfl fun _ stopped => stopped
  · exact .bind refuses_record fun _ => refuses_pure row

theorem refuses_updateScriptRepo {body : ScriptRepoUpdate} :
    Refuses request (ScriptRepos.update principal id body) := by
  refine .bind refuses_requireRepo fun current => ?_
  split
  · exact refuses_pure current
  · refine .bind refuses_requireCredential fun _ => .bind ?_ fun row => ?_
    · exact refuses_untranslated rfl fun _ stopped => stopped
    · refine .bind refuses_record fun _ => ?_
      cases row with
      | none => exact refuses_raise _
      | some row => exact refuses_pure row

theorem refuses_replace {ucd : Unicode} {allowlist : List String} :
    Refuses request (TargetPolicy.replace ucd principal allowlist) := by
  unfold TargetPolicy.replace
  split
  · exact refuses_raise _
  · refine .bind (fun _ => trivial) fun id => .bind ?_ fun row => ?_
    · refine ⟨fun _ met => met.2.elim, fun version => ?_⟩
      exact refuses_untranslated rfl fun _ stopped => stopped
    · exact .bind refuses_record fun _ => refuses_pure row

end

/-- Every request does. -/
theorem refuses_perform (request : Request) : Refuses request (request.perform dep) := by
  obtain ⟨principal, operation⟩ := request
  cases operation with
  | createProject body => exact .bind refuses_createProject fun _ => refuses_pure _
  | updateProject id body => exact .bind refuses_updateProject fun _ => refuses_pure _
  | archiveProject id =>
      refine .bind (refuses_archive refuses_requireProject ?_) fun _ => refuses_pure _
      exact refuses_read fun _ impossible => impossible
  | createPool body =>
      exact .bind refuses_createPool fun _ => .bind refuses_poolResponse fun _ => refuses_pure _
  | updatePool id body =>
      exact .bind refuses_updatePool fun _ => .bind refuses_poolResponse fun _ => refuses_pure _
  | archivePool id =>
      refine .bind (refuses_archive refuses_requirePool ?_) fun _ => refuses_pure _
      exact refuses_read fun _ impossible => impossible
  | createCredential body => exact .bind refuses_createCredential fun _ => refuses_pure _
  | deleteCredential id => exact .bind (refuses_deleteCredential rfl) fun _ => refuses_pure _
  | createScriptRepo projectId body => exact .bind refuses_createScriptRepo fun _ => refuses_pure _
  | updateScriptRepo id body => exact .bind refuses_updateScriptRepo fun _ => refuses_pure _
  | archiveScriptRepo id =>
      refine .bind (refuses_archive refuses_requireRepo ?_) fun _ => refuses_pure _
      exact refuses_read fun _ impossible => impossible
  | replaceTargetPolicy allowlist => exact .bind refuses_replace fun _ => refuses_pure _
  | _ =>
      refine Sql.Program.refuses_of_never (fun _ _ met => ?_) _
      exact Bool.false_ne_true met.1

/-! ## Runs -/

/-- An event that meets a constraint is the next request of its session. -/
theorem clash_eq_some {s : ServiceServer dep} {e : Sql.Event (services dep)} {i : Nat}
    {st : Statement} (met : clash s e = some (i, st)) :
    e = .advance i ∧ ∃ session, s.sessions i = some session ∧
      statement? session.program = some st ∧ concerned session.job.operation = true ∧
        clashes session.job.operation st session.setting (s.view session) = true := by
  cases e with
  | start j job => cases met
  | commit j => cases met
  | rollback j => cases met
  | advance j =>
      obtain ⟨session, found, met⟩ := Option.bind_eq_some_iff.mp met
      obtain ⟨st', executing, met⟩ := Option.bind_eq_some_iff.mp met
      split at met
      · rename_i both
        cases met
        exact ⟨rfl, session, found, executing, both⟩
      · cases met

/-- What a step that meets a constraint makes of its session. -/
theorem hasRaised_of_clash {t : Sql.Step (services dep)} {i : Nat} {st : Statement}
    (refusing : t.before.Refusing Met fun _ => raised)
    (met : clash t.before t.event = some (i, st))
    (stepped : t.before.step t.event = some t.after) :
    ∃ exc, raised st exc ∧ t.after.HasRaised i exc ∧ t.after.committed = t.before.committed := by
  obtain ⟨event, session, found, executing, isConcerned, clashing⟩ := clash_eq_some met
  rw [event] at stepped
  cases shape : session.program with
  | finished outcome =>
      rw [shape] at executing
      cases executing
  | ask q next =>
      rw [shape] at executing
      cases executing
  | execute st' next =>
      rw [shape] at executing
      obtain rfl := Option.some.inj executing
      exact refusing.stopped found shape ⟨isConcerned, stops_of_clashes clashing⟩ stepped

theorem documented_iff_spared {t : Sql.Step (services dep)}
    (refusing : t.before.Refusing Met fun _ => raised)
    (stepped : t.before.step t.event = some t.after) :
    Documented t ↔ Spared t.before t.event := by
  constructor
  · rintro documented ⟨i, st⟩ met
    obtain ⟨exc, said, ⟨session, found, shape⟩, -⟩ := hasRaised_of_clash refusing met stepped
    obtain ⟨⟨error, ⟨session', found', shape'⟩, -⟩, -⟩ := documented i st met
    obtain rfl := Option.some.inj (found.symm.trans found')
    rw [shape] at shape'
    cases shape'
    by_contra passed
    rw [raised, if_neg passed] at said
    cases said
  · intro spared i st met
    obtain ⟨exc, said, hasRaised, same⟩ := hasRaised_of_clash refusing met stepped
    rw [raised, if_pos (spared (i, st) met)] at said
    obtain ⟨error, rfl, documented⟩ := said
    exact ⟨⟨error, hasRaised, documented⟩, same, fun later => hasRaised.leaves_nothing⟩

theorem refusing_of_trace {d₀ : Database} {e : Environment}
    {steps : List (Sql.Step (services dep))} {s : ServiceServer dep}
    (trace : Sql.Server.Trace { committed := d₀, environment := e } steps s) :
    s.Refusing Met (fun _ => raised) ∧ ∀ t ∈ steps,
      t.before.Refusing Met (fun _ => raised) ∧ t.before.step t.event = some t.after := by
  refine trace.invariant ?_ fun s₁ s₂ e refusing stepped => refusing.step refuses_perform stepped
  intro i session found
  cases found

/-- In every run, each constraint that is met surfaces as the documented error, and
leaves nothing, exactly if none is met by a write whose error is passed on. -/
theorem documented_iff {d₀ : Database} {e : Environment} {steps : List (Sql.Step (services dep))}
    {s : ServiceServer dep}
    (trace : Sql.Server.Trace { committed := d₀, environment := e } steps s) :
    (∀ t ∈ steps, Documented t) ↔ ∀ t ∈ steps, Spared t.before t.event := by
  have all := (refusing_of_trace trace).2
  exact forall₂_congr fun t member => documented_iff_spared (all t member).1 (all t member).2

/-! ### Names of pools -/

def sampleDeployment : Deployment where
  ucd := .basic
  keys := none

def sampleServer : ServiceServer sampleDeployment where
  committed := {}
  environment := {
    tokens := fun _ => ""
    uuids := fun k => BitVec.ofNat 128 (100 + k)
    clock := fun k => k }

def sampleCreate (name : String) (length : 1 ≤ name.length ∧ name.length ≤ 255) : Request where
  principal := ⟨3, 1, "ADMIN"⟩
  operation := .createPool {
    name
    runtime := .docker
    maxGenerators := 1
    maxVusPerGenerator := 1
    name_length := length
    region_length := by intro value impossible; cases impossible
    maxGenerators_ge := le_rfl
    maxVusPerGenerator_ge := le_rfl }

/-- The second pool, renamed to the name of the first. -/
def sampleRename : Request where
  principal := ⟨3, 1, "ADMIN"⟩
  operation := .updatePool 102 {
    name := .value "eu"
    name_length := by rintro value ⟨⟩; decide
    region_length := by intro value impossible; cases impossible
    maxGenerators_ge := by intro value impossible; cases impossible
    maxVusPerGenerator_ge := by intro value impossible; cases impossible }

/-- Two pools of one name are created side by side. -/
def creatingTwice : List (Sql.Event (services sampleDeployment)) :=
  [.start 0 (sampleCreate "eu" (by decide)), .start 1 (sampleCreate "eu" (by decide)), .advance 0, .advance 1] ++
    List.replicate 3 (.advance 0) ++ [.commit 0, .advance 1, .rollback 1]

theorem documented_creatingTwice : ∃ steps s, Sql.Server.Trace sampleServer steps s ∧
    s.committed.pools.items.length = 1 ∧ ∀ t ∈ steps, Documented t := by
  cases ended : sampleServer.events Spared creatingTwice with
  | none =>
      have some_ : (sampleServer.events Spared creatingTwice).isSome = true := by decide +kernel
      rw [ended] at some_
      cases some_
  | some s =>
      obtain ⟨steps, trace, spared⟩ :=
        Sql.Server.trace_of_events .refl (fun _ impossible => (nomatch impossible)) ended
      have pools : (sampleServer.events Spared creatingTwice).map
        (fun s => s.committed.pools.items.length) = some 1 := by decide +kernel
      rw [ended] at pools
      exact ⟨steps, s, trace, Option.some.inj pools, (documented_iff trace).mpr spared⟩

/-- Two pools are created, and the second is about to be renamed. -/
def beforeRename : List (Sql.Event (services sampleDeployment)) :=
  [.start 0 (sampleCreate "eu" (by decide))] ++ List.replicate 4 (.advance 0) ++ [.commit 0] ++
    [.start 1 (sampleCreate "us" (by decide))] ++ List.replicate 4 (.advance 1) ++ [.commit 1] ++
      [.start 2 sampleRename, .advance 2]

/-- The renaming meets the constraint, and fails with the error of the database. -/
theorem not_documented_rename : ∃ steps s, Sql.Server.Trace sampleServer steps s ∧
    s.HasRaised 2 .integrityError ∧ ¬ ∀ t ∈ steps, Documented t := by
  cases ended : sampleServer.events Spared beforeRename with
  | none =>
      have some_ : (sampleServer.events Spared beforeRename).isSome = true := by decide +kernel
      rw [ended] at some_
      cases some_
  | some s =>
      obtain ⟨steps, trace, -⟩ :=
        Sql.Server.trace_of_events .refl (fun _ impossible => (nomatch impossible)) ended
      have next : (sampleServer.events Spared beforeRename).map (fun s =>
        ((clash s (.advance 2)).map fun met => (met.1, answered met.2),
          (s.step (.advance 2)).isSome)) = some (some (2, false), true) := by decide +kernel
      rw [ended] at next
      obtain ⟨meets, steps?⟩ := Prod.mk.inj (Option.some.inj next)
      obtain ⟨⟨i, st⟩, met, is⟩ := Option.map_eq_some_iff.mp meets
      obtain ⟨rfl, passed⟩ := Prod.mk.inj is
      obtain ⟨s', stepped⟩ := Option.isSome_iff_exists.mp steps?
      have refusing := (refusing_of_trace trace).1
      let t : Sql.Step (services sampleDeployment) := ⟨s, .advance 2, s'⟩
      obtain ⟨exc, said, hasRaised, -⟩ := hasRaised_of_clash (t := t) refusing met stepped
      rw [raised, if_neg (by rw [passed]; exact Bool.false_ne_true)] at said
      subst said
      refine ⟨_, s', trace.step stepped, hasRaised, fun documented => ?_⟩
      have spared := (documented_iff_spared (t := t) refusing stepped).mp
        (documented t (List.mem_append_right _ (List.mem_singleton_self t)))
      exact Bool.false_ne_true (passed.symm.trans (spared (2, st) met))

end Plimsoll.Conflicts
