import Plimsoll.Access
import Plimsoll.Endpoints
import Plimsoll.Sql.Passive

/-!
What is read behind the guards.

Every endpoint that a viewer may call only reads. Of calls that are served one after the
other, the tables are what those of administrators make of them, and every call is answered
on these tables.
-/

namespace Plimsoll.Access

open Python Contracts Transaction
open Endpoints (Host Made Response serve)
open Pagination (presentAll pageOf Listing)
open Sql.Program (Passive passive_finished passive_pure passive_raise)

/-- The permission that an endpoint requires. -/
def guardOf : Endpoints.Call → Permission
  | .request operation _ => required operation
  | .listProjects .. | .getProject _ => .projectRead
  | .listPools .. | .getPool _ => .projectRead
  | .listCredentials .. => .scriptRead
  | .listScriptRepos .. | .getScriptRepo _ => .scriptRead
  | .verifyScriptRepo _ | .pinVersion .. => .scriptWrite
  | .listVersions .. | .getVersion _ => .scriptRead
  | .listTests .. | .getTest _ => .testRead
  | .validateTest _ => .testWrite
  | .getTargetPolicy => .projectRead

/-! ## Endpoints that read -/

section

variable {ρ τ : Type} {interp : Interpreter} {driver : Pagination.Driver} {listing : Listing ρ}
  {present : ρ → Transaction τ} {limit : Nat} {cursor : Option String} {id : Uuid}

/-- A row that is looked up, or else an exception. -/
theorem passive_lookup {lookup : Transaction (Option ρ)} {next : Option ρ → Transaction τ}
    (passive : lookup.Passive) {exc : Raised} (absent : next none = raise exc)
    (found : ∀ row, (next (some row)).Passive) : (lookup >>= next).Passive := by
  refine passive.bind fun answer => ?_
  cases answer with
  | none =>
      rw [absent]
      exact passive_raise exc
  | some row => exact found row

theorem passive_requireProject : (ScriptRepos.requireProject id).Passive :=
  passive_lookup (fun _ => rfl) rfl passive_pure

theorem passive_requireRepo : (ScriptRepos.require id).Passive :=
  passive_lookup (fun _ => rfl) rfl passive_pure

theorem passive_requirePool : (Pools.require id).Passive :=
  passive_lookup (fun _ => rfl) rfl passive_pure

theorem passive_poolResponse {row : Option GeneratorPool} : (Pools.response row).Passive := by
  cases row with
  | none => exact passive_raise _
  | some row =>
      rw [Pools.response]
      split
      · exact passive_raise _
      · exact passive_pure _

theorem passive_getPool : (Endpoints.getPool id).Passive :=
  passive_requirePool.bind fun _ => passive_poolResponse

theorem passive_getVersion : (Endpoints.getVersion id).Passive :=
  passive_lookup (fun _ => rfl) rfl passive_pure

theorem passive_document {row : PerformanceTest} : (PerformanceTests.document row).Passive :=
  Passive.bind (fun _ => rfl) fun _ => Passive.bind (fun _ => rfl) fun _ => passive_pure _

theorem passive_requireTest : (PerformanceTests.require id).Passive :=
  passive_lookup (fun _ => rfl) rfl fun _ => passive_document

theorem passive_testResponse {document : PerformanceTests.TestDocument} :
    (PerformanceTests.response document).Passive := by
  have validated : (PerformanceTests.modelValidate document.row.configuration).Passive := by
    cases document.row.configuration with
    | none => exact passive_raise _
    | some configuration => exact passive_pure configuration
  exact validated.bind fun _ => passive_pure document

theorem passive_getTest : (Endpoints.getTest id).Passive :=
  passive_requireTest.bind fun _ => passive_testResponse

theorem passive_getTargetPolicy : Endpoints.getTargetPolicy.Passive := by
  refine Passive.bind (fun _ => rfl) fun row => ?_
  cases row with
  | none => exact passive_pure _
  | some row => exact passive_pure _

theorem passive_presentAll (each : ∀ row, (present row).Passive) (rows : List ρ) :
    (presentAll present rows).Passive := by
  induction rows with
  | nil => exact passive_pure []
  | cons row rest ih =>
      exact (each row).bind fun item => ih.bind fun items => passive_pure (item :: items)

theorem passive_pageOf (each : ∀ row, (present row).Passive) {rows : List ρ}
    {timestamp : ρ → Datetime} {id : ρ → Uuid} :
    (pageOf interp rows limit present timestamp id).Passive :=
  (passive_finished _).bind fun _ => (passive_presentAll each _).bind fun _ => passive_pure _

/-- What is fetched is what the statement of the collection answers. -/
theorem passive_fetch (listing : Listing ρ) : (listing.fetch interp driver limit cursor).Passive :=
  (passive_finished _).bind fun _ => (passive_finished _).bind fun after v =>
    congrArg Prod.snd (listing.answers (limit + 1) after v)

theorem passive_page (listing : Listing ρ) (each : ∀ row, (present row).Passive) :
    (listing.page interp driver present limit cursor).Passive :=
  (passive_fetch listing).bind fun _ => passive_pageOf each

theorem passive_listVersions : (Pagination.listVersions interp driver id limit cursor).Passive :=
  passive_requireRepo.bind fun _ => passive_page _ passive_pure

theorem passive_listTests : (Pagination.listTests interp driver id limit cursor).Passive := by
  refine (passive_fetch _).bind fun rows => ?_
  refine (passive_presentAll (fun _ => passive_requireTest) _).bind fun read => ?_
  refine passive_pageOf fun row => ?_
  split
  · exact passive_raise _
  · exact passive_testResponse

end

section

variable {W : Type} {host : Host W} {principal : AccessClaims} {git : W}

/-- A session that only reads leaves the world as it is. -/
theorem session_passive {α : Type} {body : Transaction α} (passive : body.Passive) (w : World) :
    (Endpoints.session principal body w).2 = w := by
  have same := Sql.transaction_passive passive
    (Database.Setting.of (some principal.organizationId) w.environment) w.database w.environment
  exact congrArg (fun ends : Database × Environment => World.mk ends.1 ends.2) same

/-- What a reader may call for only reads. -/
theorem perform_reading {call : Endpoints.Call} (reads : guardOf call ∈ readPermissions)
    (w : World) : (call.perform host principal git w).2 = w := by
  have scripts : Permission.scriptWrite ∉ readPermissions := by decide
  have tests : Permission.testWrite ∉ readPermissions := by decide
  cases call with
  | request operation alone => exact absurd reads (required_not_read operation)
  | verifyScriptRepo id => exact absurd reads scripts
  | pinVersion repoId ref => exact absurd reads scripts
  | validateTest id => exact absurd reads tests
  | listProjects limit cursor =>
      exact session_passive ((passive_page _ passive_pure).bind fun _ => passive_pure _) w
  | getProject id => exact session_passive (passive_requireProject.bind fun _ => passive_pure _) w
  | listPools limit cursor =>
      exact session_passive
        ((passive_page _ fun _ => passive_poolResponse).bind fun _ => passive_pure _) w
  | getPool id => exact session_passive (passive_getPool.bind fun _ => passive_pure _) w
  | listCredentials limit cursor =>
      exact session_passive ((passive_page _ passive_pure).bind fun _ => passive_pure _) w
  | listScriptRepos projectId limit cursor =>
      exact session_passive ((passive_page _ passive_pure).bind fun _ => passive_pure _) w
  | getScriptRepo id => exact session_passive (passive_requireRepo.bind fun _ => passive_pure _) w
  | listVersions repoId limit cursor =>
      exact session_passive (passive_listVersions.bind fun _ => passive_pure _) w
  | getVersion id => exact session_passive (passive_getVersion.bind fun _ => passive_pure _) w
  | listTests projectId limit cursor =>
      exact session_passive (passive_listTests.bind fun _ => passive_pure _) w
  | getTest id => exact session_passive (passive_getTest.bind fun _ => passive_pure _) w
  | getTargetPolicy =>
      exact session_passive (passive_getTargetPolicy.bind fun _ => passive_pure _) w

end

/-! ## Calls behind the guards -/

section

variable {W : Type} (host : Host W)

/-- The claims with which a call is made. -/
def claimed (made : Made W) : Claims :=
  ⟨made.principal.userId, made.principal.organizationId, .str made.principal.role⟩

/-- A call, behind the guard of its endpoint. -/
def guarded (made : Made W) : Action World Response := fun w =>
  match requires (guardOf made.call) (claimed made) with
  | .error exc => (.error exc, w)
  | .ok () => made.call.perform host made.principal made.git w

/-- Calls behind their guards, one after the other; each with what it is answered. -/
def serveGuarded :
    List (Made W) → Database → List (Made W × Except Raised Response) × Database
  | [], d => ([], d)
  | made :: rest, d =>
      let (response, w) := guarded host made ⟨d, made.environment⟩
      let (responses, d) := serveGuarded rest w.database
      ((made, response) :: responses, d)

/-- An administrator makes the call. -/
def byAdministrator (made : Made W) : Bool := made.principal.role = "ORG_ADMIN"

/-- The guard lets the call through. -/
def Granted (made : Made W) : Prop :=
  made.principal.role = "ORG_ADMIN" ∨
    made.principal.role = "VIEWER" ∧ guardOf made.call ∈ readPermissions

instance (made : Made W) : Decidable (Granted made) :=
  inferInstanceAs (Decidable (_ ∨ _ ∧ _))

/-- What the calls of administrators make of the tables, without any other. -/
def administered (calls : List (Made W)) (d : Database) : Database :=
  (serve host (calls.filter byAdministrator) d).2

variable {host}

theorem guarded_granted {made : Made W} (granted : Granted made) :
    guarded host made = made.call.perform host made.principal made.git := by
  have lets : requires (guardOf made.call) (claimed made) = .ok () :=
    (requires_eq _ _ _ _).trans (if_pos granted)
  funext w
  rw [guarded, lets]

theorem guarded_denied {made : Made W} (refused : ¬ Granted made) (w : World) :
    guarded host made w = (.error (.plimsollError (denied (guardOf made.call))), w) := by
  have stops : requires (guardOf made.call) (claimed made) =
      .error (.plimsollError (denied (guardOf made.call))) :=
    (requires_eq _ _ _ _).trans (if_neg refused)
  rw [guarded, stops]

/-- A call that no administrator makes leaves the world as it is. -/
theorem guarded_passive {made : Made W} (other : made.principal.role ≠ "ORG_ADMIN") (w : World) :
    (guarded host made w).2 = w := by
  by_cases granted : Granted made
  · have reads := (granted.resolve_left other).2
    rw [guarded_granted granted]
    exact perform_reading reads w
  · rw [guarded_denied granted]

/-- One call goes on to what the administrators' calls so far make of the tables. -/
theorem administered_cons (made : Made W) (rest : List (Made W)) (d : Database) :
    administered host (made :: rest) d =
      administered host rest (guarded host made ⟨d, made.environment⟩).2.database := by
  by_cases admin : made.principal.role = "ORG_ADMIN"
  · have kept : (made :: rest).filter byAdministrator = made :: rest.filter byAdministrator :=
      List.filter_cons_of_pos (decide_eq_true admin)
    rw [administered, kept, guarded_granted (Or.inl admin)]
    rfl
  · have left : (made :: rest).filter byAdministrator = rest.filter byAdministrator :=
      List.filter_cons_of_neg (ne_true_of_eq_false (decide_eq_false admin))
    rw [administered, left, guarded_passive admin]
    rfl

/-- Calls leave the tables that the administrators' calls among them leave. -/
theorem serveGuarded_database (calls : List (Made W)) (d : Database) :
    (serveGuarded host calls d).2 = administered host calls d := by
  induction calls generalizing d with
  | nil => rfl
  | cons made rest ih =>
      rw [administered_cons]
      exact ih _

/-- However administrators, viewers and others call one after the other, a call that is not
granted is denied, and any other is answered on the tables that the administrators' calls
before it have left. -/
theorem answered_by_role (host : Host W) (before : List (Made W)) (made : Made W)
    (later : List (Made W)) (d : Database) :
    (serveGuarded host (before ++ made :: later) d).1[before.length]? = some (made,
      if Granted made then
        (made.call.perform host made.principal made.git
          ⟨administered host before d, made.environment⟩).1
      else .error (.plimsollError (denied (guardOf made.call)))) ∧
    (serveGuarded host (before ++ made :: later) d).2 =
      administered host (before ++ made :: later) d := by
  refine ⟨?_, serveGuarded_database _ d⟩
  induction before generalizing d with
  | nil =>
      change some (made, (guarded host made ⟨d, made.environment⟩).1) = _
      by_cases granted : Granted made
      · rw [guarded_granted granted, if_pos granted]
        rfl
      · rw [guarded_denied granted, if_neg granted]
  | cons first rest ih =>
      rw [administered_cons]
      exact ih _

end

end Plimsoll.Access
