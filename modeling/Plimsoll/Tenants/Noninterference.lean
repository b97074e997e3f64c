import Plimsoll.Tenants.Operations

/-!
Noninterference: whatever other organisations call, an organisation is answered the
same and left with the same rows.
-/

namespace Plimsoll.Tenants

open Python Contracts Transaction
open Sql (View)
open Sql.Program (Admitted)
open Endpoints (Host)

variable {owner : Uuid → Uuid} {org other : Uuid} {v : View postgres} {w : World} {α β : Type}

/-! ## Runs -/

theorem Stands.on (stands : Stands owner org v) {d : Database} (separated : Separated owner d) :
    Stands owner org (v.on d) :=
  ⟨stands.bound, stands.drawn, separated⟩

/-- A transaction leaves the database as it is for the others. -/
theorem Stands.run_others (stands : Stands owner org v) {p : Transaction α}
    {post : α → View postgres → Prop} (admitted : p.Admitted Guarded post v) (differs : other ≠ org) :
    Stands owner org (p.run v).2 ∧ Alike other v.database (p.run v).2.database := by
  refine (Admitted.run_keeps (fun s u (kept : Stands owner org u ∧ Alike other v.database u.database)
    guarded => ?_) (fun q u kept => ?_) admitted ⟨stands, Alike.refl other v.database⟩).1
  · obtain ⟨stands, alike⟩ := kept
    exact ⟨stands.executed guarded,
      alike.trans ((properAll_execute stands guarded).others stands.separated differs)⟩
  · exact ⟨kept.1.asked q, kept.2⟩

/-- A transaction comes to the same wherever the rows of its organisation are the same. -/
theorem Stands.run_alike (stands : Stands owner org v) {p : Transaction α}
    {post : α → View postgres → Prop} (admitted : p.Admitted Guarded post v) {d : Database}
    (separated : Separated owner d) (alike : Alike org v.database d) :
    ∃ d', p.run (v.on d) = ((p.run v).1, (p.run v).2.on d') ∧ Separated owner d' ∧
      Alike org (p.run v).2.database d' := by
  have execute (s : Database.Statement) (u : View postgres) (d : Database)
      (both : Stands owner org u ∧ Separated owner d ∧ Alike org u.database d) (guarded : Guarded s u) :
      Database.execute s u.setting d = Database.execute s u.setting u.database ∧
        Stands owner org (u.executed s) ∧ Separated owner ((u.on d).executed s).database ∧
          Alike org (u.executed s).database ((u.on d).executed s).database := by
    obtain ⟨stands, separated, alike⟩ := both
    have same : Database.execute s u.setting d = Database.execute s u.setting u.database :=
      execute_alike stands separated alike guarded
    have proper := properAll_execute stands guarded
    have proper' : ProperAll owner org d (Database.execute s u.setting d).2 :=
      properAll_execute (stands.on separated) (guarded_on stands separated alike guarded)
    refine ⟨same, stands.executed guarded, proper'.separated separated, ?_⟩
    rw [same] at proper'
    change Alike org _ (postgres.applyAll (Database.execute s u.setting d).2 d)
    rw [same]
    exact proper.alike proper' stands.separated separated alike
  obtain ⟨d', ran, -, separated, alike⟩ := Admitted.run_alike execute
    (fun q u d both => ⟨both.1.asked q, both.2⟩) admitted ⟨stands, separated, alike⟩
  exact ⟨d', ran, separated, alike⟩

/-! ## Actions -/

/-- A world in which the organisation is called for. -/
structure Owned (owner : Uuid → Uuid) (org : Uuid) (w : World) : Prop where
  drawn : ∀ n, owner (w.environment.uuids n) = org
  separated : Separated owner w.database

/-- What an action of the organisation does: the same wherever its rows are the same,
and nothing to those of others. -/
structure Confined (owner : Uuid → Uuid) (org : Uuid) (action : Action World α)
    (post : α → Database → Prop) (w : World) : Prop where
  owned : Owned owner org (action w).2
  others : ∀ other, other ≠ org → Alike other w.database (action w).2.database
  same : ∀ d, Separated owner d → Alike org w.database d →
    ∃ d', action { w with database := d } = ((action w).1, { (action w).2 with database := d' }) ∧
      Separated owner d' ∧ Alike org (action w).2.database d'
  returned : ∀ a, (action w).1 = .ok a → post a (action w).2.database

theorem Owned.stands (owned : Owned owner org w) : Stands owner org (w.view (some org)) :=
  ⟨rfl, owned.drawn, owned.separated⟩

/-- A session of the organisation. -/
theorem confined_session {body : Transaction α} {post : α → Database → Prop} (owned : Owned owner org w)
    (admitted : body.Admitted Guarded (fun a v => post a v.database) (w.view (some org))) :
    Confined owner org (sessionForOrg (some org) body) post w := by
  have stands := owned.stands
  obtain ⟨kept, returned⟩ := Admitted.run_keeps
    (fun s u (stands : Stands owner org u) guarded => stands.executed guarded)
    (fun q u stands => stands.asked q) admitted stands
  have others (other : Uuid) (differs : other ≠ org) := (stands.run_others admitted differs).2
  have alike (d : Database) (separated : Separated owner d) (alike : Alike org w.database d) :=
    stands.run_alike admitted separated alike
  cases ran : body.run (w.view (some org)) with
  | mk outcome v =>
      rw [ran] at kept returned others alike
      cases outcome with
      | error exc =>
          refine ⟨?_, ?_, ?_, ?_⟩ <;> rw [sessionForOrg_error ran]
          · exact ⟨kept.drawn, owned.separated⟩
          · exact fun other _ => Alike.refl other w.database
          · intro d separated like
            obtain ⟨d', ran', -⟩ := alike d separated like
            have ran' : body.run (World.view ⟨d, w.environment⟩ (some org)) = (.error exc, v.on d') := ran'
            have undone := sessionForOrg_error ran'
            exact ⟨d, undone, separated, like⟩
          · exact fun _ impossible => nomatch impossible
      | ok a =>
          refine ⟨?_, ?_, ?_, ?_⟩ <;> rw [sessionForOrg_ok ran]
          · exact ⟨kept.drawn, kept.separated⟩
          · exact others
          · intro d separated like
            obtain ⟨d', ran', separated', like'⟩ := alike d separated like
            have ran' : body.run (World.view ⟨d, w.environment⟩ (some org)) = (.ok a, v.on d') := ran'
            exact ⟨d', sessionForOrg_ok ran', separated', like'⟩
          · exact returned

/-- What has come to an end outside of the database. -/
theorem confined_outside {outcome : Except Raised α} {post : α → Database → Prop}
    (owned : Owned owner org w) (holds : ∀ a, outcome = .ok a → post a w.database) :
    Confined owner org (Endpoints.outside outcome) post w where
  owned := owned
  others other _ := Alike.refl other w.database
  same d separated alike := ⟨d, rfl, separated, alike⟩
  returned := holds

theorem confined_outcome {outcome : Except Raised α} (owned : Owned owner org w) :
    Confined owner org (Endpoints.outside outcome) (fun _ _ => True) w :=
  confined_outside owned fun _ _ => trivial

theorem confined_pure {a : α} {post : α → Database → Prop} (owned : Owned owner org w)
    (holds : post a w.database) : Confined owner org (pure a) post w :=
  confined_outside owned fun _ same => Except.ok.inj same ▸ holds

theorem Confined.bind {action : Action World α} {next : α → Action World β}
    {middle : α → Database → Prop} {post : β → Database → Prop}
    (first : Confined owner org action middle w)
    (later : ∀ a w', Owned owner org w' → middle a w'.database → Confined owner org (next a) post w') :
    Confined owner org (action >>= next) post w := by
  obtain ⟨owned, others, same, returned⟩ := first
  cases ran : action w with
  | mk outcome w' =>
      rw [ran] at owned others same returned
      cases outcome with
      | error exc =>
          have whole : (action >>= next) w = (.error exc, w') := by rw [Action.bind_apply, ran]
          refine ⟨?_, ?_, ?_, ?_⟩ <;> rw [whole]
          · exact owned
          · exact others
          · intro d separated alike
            obtain ⟨d', ran', like⟩ := same d separated alike
            exact ⟨d', by rw [Action.bind_apply, ran'], like⟩
          · exact fun _ impossible => nomatch impossible
      | ok a =>
          have whole : (action >>= next) w = next a w' := by rw [Action.bind_apply, ran]
          obtain ⟨owned₂, others₂, same₂, returned₂⟩ := later a w' owned (returned a rfl)
          refine ⟨?_, ?_, ?_, ?_⟩ <;> rw [whole]
          · exact owned₂
          · exact fun other differs => (others other differs).trans (others₂ other differs)
          · intro d separated alike
            obtain ⟨d₁, ran₁, separated₁, alike₁⟩ := same d separated alike
            obtain ⟨d₂, ran₂, both⟩ := same₂ d₁ separated₁ alike₁
            exact ⟨d₂, by rw [Action.bind_apply, ran₁]; exact ran₂, both⟩
          · exact returned₂

/-! ## Calls -/

section

variable {W : Type} {host : Host W} {principal : AccessClaims}

theorem confined_safe {body : Transaction α} (owned : Owned owner principal.organizationId w)
    (safe : Safe body) :
    Confined owner principal.organizationId (Endpoints.session principal body) (fun _ _ => True) w :=
  confined_session owned (safe _)

/-- Every request of its own executes guarded statements. -/
theorem admitted_perform (stands : Stands owner org v) {dep : Deployment} {operation : Operation}
    (alone : Endpoints.alone operation = true) :
    (Request.perform dep ⟨principal, operation⟩).Admitted Guarded (fun _ _ => True) v := by
  cases operation with
  | createProject body => exact safe_createProject.bind (fun row => safe_pure _) v
  | updateProject id body => exact safe_updateProject.bind (fun row => safe_pure _) v
  | archiveProject id => exact safe_archiveProject.bind (fun _ => safe_pure _) v
  | createPool body =>
      exact safe_createPool.bind (fun row => safe_poolResponse.bind fun _ => safe_pure _) v
  | updatePool id body =>
      exact safe_updatePool.bind (fun row => safe_poolResponse.bind fun _ => safe_pure _) v
  | archivePool id => exact safe_archivePool.bind (fun _ => safe_pure _) v
  | createCredential body => exact safe_createCredential.bind (fun row => safe_pure _) v
  | deleteCredential id => exact safe_deleteCredential.bind (fun _ => safe_pure _) v
  | createScriptRepo projectId body =>
      exact stands.bind (admitted_createScriptRepo stands) fun _ _ _ _ => trivial
  | updateScriptRepo id body =>
      exact stands.bind (admitted_updateScriptRepo stands) fun _ _ _ _ => trivial
  | archiveScriptRepo id => exact safe_archiveScriptRepo.bind (fun _ => safe_pure _) v
  | createTest projectId body =>
      exact stands.bind (admitted_createTest stands) fun document v' _ _ =>
        safe_testResponse.bind (fun _ => safe_pure _) v'
  | updateTest id body =>
      exact stands.bind (admitted_updateTest stands) fun document v' _ _ =>
        safe_testResponse.bind (fun _ => safe_pure _) v'
  | archiveTest id => exact safe_archiveTest.bind (fun _ => safe_pure _) v
  | replaceTargetPolicy allowlist => exact safe_replace.bind (fun row => safe_pure _) v
  | pinVersion repoId planPath ref candidate => cases alone

/-- A repository of the organisation is there. -/
def HasRepo (owner : Uuid → Uuid) (org id : Uuid) (d : Database) : Prop :=
  owner id = org ∧ (d.scriptRepos.get? id).isSome = true

theorem confined_reading {id : Uuid} (owned : Owned owner principal.organizationId w) :
    Confined owner principal.organizationId (Endpoints.session principal (Endpoints.reading host id))
      (fun _ => HasRepo owner principal.organizationId id) w := by
  have stands := owned.stands
  refine confined_session owned ((stands.admitted (admitted_reading stands)).weaken ?_)
  exact fun _ v' ⟨onward, seen⟩ => onward.stands.seen .scriptRepos seen

theorem confined_verifyScriptRepo {id : Uuid} {git : W} (owned : Owned owner principal.organizationId w) :
    Confined owner principal.organizationId (Endpoints.verifyScriptRepo host principal id git)
      (fun _ _ => True) w := by
  refine (confined_reading owned).bind fun (row, access) w₁ owned _ => ?_
  refine (confined_outcome owned).bind fun report w₂ owned _ => ?_
  exact (confined_safe owned safe_record).bind fun _ w₃ owned _ => confined_pure owned trivial

theorem confined_pinVersion {id : Uuid} {ref : Option String} {git : W}
    (owned : Owned owner principal.organizationId w) :
    Confined owner principal.organizationId (Endpoints.pinVersion host principal id ref git)
      (fun _ _ => True) w := by
  refine (confined_reading owned).bind fun (row, access) w₁ owned there => ?_
  refine (confined_outside owned fun _ _ => there).bind fun candidate w₂ owned there => ?_
  exact confined_session owned
    (admitted_pinVersion owned.stands ((owned.stands.seen_iff .scriptRepos).mpr there))

theorem confined_validateTest {id : Uuid} {git : W} (owned : Owned owner principal.organizationId w) :
    Confined owner principal.organizationId (Endpoints.validateTest host principal id git)
      (fun _ _ => True) w := by
  refine (confined_safe owned safe_preflightInput).bind fun inputs w₁ owned _ => ?_
  refine (confined_outcome owned).bind fun report w₂ owned _ => ?_
  exact (confined_safe owned safe_record).bind fun _ w₃ owned _ => confined_pure owned trivial

theorem safe_getTargetPolicy : Safe Endpoints.getTargetPolicy := by
  refine safe_currentPolicy.bind fun row => ?_
  cases row with
  | none => exact safe_pure _
  | some row => exact safe_pure _

theorem confined_perform (owned : Owned owner principal.organizationId w) (call : Endpoints.Call)
    (git : W) : Confined owner principal.organizationId (call.perform host principal git)
      (fun _ _ => True) w := by
  cases call with
  | request operation alone =>
      have stands := owned.stands
      exact confined_session owned
        (stands.bind (admitted_perform stands alone) fun _ _ _ _ => trivial)
  | listProjects limit cursor => exact confined_safe owned (safe_listProjects.bind fun _ => safe_pure _)
  | getProject id => exact confined_safe owned (safe_requireProject.bind fun _ => safe_pure _)
  | listPools limit cursor => exact confined_safe owned (safe_listPools.bind fun _ => safe_pure _)
  | getPool id => exact confined_safe owned (safe_getPool.bind fun _ => safe_pure _)
  | listCredentials limit cursor =>
      exact confined_safe owned (safe_listCredentials.bind fun _ => safe_pure _)
  | listScriptRepos projectId limit cursor =>
      exact confined_safe owned (safe_listScriptRepos.bind fun _ => safe_pure _)
  | getScriptRepo id => exact confined_safe owned (safe_require.bind fun _ => safe_pure _)
  | verifyScriptRepo id =>
      exact (confined_verifyScriptRepo owned).bind fun _ _ owned _ => confined_pure owned trivial
  | pinVersion repoId ref =>
      exact (confined_pinVersion owned).bind fun _ _ owned _ => confined_pure owned trivial
  | listVersions repoId limit cursor =>
      exact confined_safe owned (safe_listVersions.bind fun _ => safe_pure _)
  | getVersion id => exact confined_safe owned (safe_getVersion.bind fun _ => safe_pure _)
  | listTests projectId limit cursor => exact confined_safe owned (safe_listTests.bind fun _ => safe_pure _)
  | getTest id => exact confined_safe owned (safe_getTest.bind fun _ => safe_pure _)
  | validateTest id =>
      exact (confined_validateTest owned).bind fun _ _ owned _ => confined_pure owned trivial
  | getTargetPolicy => exact confined_safe owned (safe_getTargetPolicy.bind fun _ => safe_pure _)

end

/-! ## Sequences of calls -/

section

open Endpoints (Made Response serve)

variable {W : Type} {host : Host W} {a b : Uuid} {d d' : Database} {calls : List (Made W)}

/-- What one organisation is answered. -/
def answersTo (org : Uuid) (answers : List (Uuid × Except Raised Response)) : List (Except Raised Response) :=
  (answers.filter fun answer => answer.1 = org).map Prod.snd

/-- Each call is made with identifiers of its organisation. -/
def DrawnFor (owner : Uuid → Uuid) (calls : List (Made W)) : Prop :=
  ∀ made ∈ calls, ∀ n, owner (made.environment.uuids n) = made.org

theorem serve_append (before after : List (Made W)) :
    (serve host (before ++ after) d).2 = (serve host after (serve host before d).2).2 := by
  induction before generalizing d with
  | nil => rfl
  | cons made rest ih => exact ih

/-- Calls leave a database in which the organisations are apart. -/
theorem serve_separated (separated : Separated owner d) (drawn : DrawnFor owner calls) :
    Separated owner (serve host calls d).2 := by
  induction calls generalizing d with
  | nil => exact separated
  | cons made rest ih =>
      obtain ⟨first, later⟩ := List.forall_mem_cons.mp drawn
      have owned : Owned owner made.org ⟨d, made.environment⟩ := ⟨first, separated⟩
      exact ih (confined_perform owned made.call made.git).owned.separated later

theorem answersTo_cons_own {answer : Except Raised Response} {answers : List (Uuid × Except Raised Response)} :
    answersTo a ((a, answer) :: answers) = answer :: answersTo a answers := by
  simp [answersTo]

theorem answersTo_cons_other {answer : Except Raised Response}
    {answers : List (Uuid × Except Raised Response)} (differs : b ≠ a) :
    answersTo a ((b, answer) :: answers) = answersTo a answers := by
  simp [answersTo, differs]

/-- Without the calls of another organisation, from a database that is alike. -/
theorem serve_without (differs : a ≠ b) (separated : Separated owner d) (separated' : Separated owner d')
    (drawn : DrawnFor owner calls) (alike : Alike a d d') :
    answersTo a (serve host calls d).1 =
        answersTo a (serve host (calls.filter fun made => made.org ≠ b) d').1 ∧
      Alike a (serve host calls d).2 (serve host (calls.filter fun made => made.org ≠ b) d').2 := by
  induction calls generalizing d d' with
  | nil => exact ⟨rfl, alike⟩
  | cons made rest ih =>
      obtain ⟨first, later⟩ := List.forall_mem_cons.mp drawn
      obtain ⟨owned, others, same, -⟩ : Confined owner made.org
          (made.call.perform host made.principal made.git) (fun _ _ => True) ⟨d, made.environment⟩ :=
        confined_perform ⟨first, separated⟩ made.call made.git
      obtain ⟨owned', others', -, -⟩ : Confined owner made.org
          (made.call.perform host made.principal made.git) (fun _ _ => True) ⟨d', made.environment⟩ :=
        confined_perform ⟨first, separated'⟩ made.call made.git
      by_cases removed : made.org = b
      · -- it leaves the rows of `a` as they are, and is answered to `b`
        rw [List.filter_cons_of_neg (by simpa using removed)]
        have ⟨answers, rows⟩ := ih owned.separated separated' later
          ((others a (removed ▸ differs)).symm.trans alike)
        refine ⟨?_, rows⟩
        exact (answersTo_cons_other (removed ▸ differs.symm)).trans answers
      · rw [List.filter_cons_of_pos (by simpa using removed)]
        by_cases own : made.org = a
        · obtain ⟨d₁, ran, separated₁, alike₁⟩ := same d' separated' (own ▸ alike)
          have ran : made.call.perform host made.principal made.git ⟨d', made.environment⟩ = _ := ran
          have ⟨answers, rows⟩ := ih owned.separated separated₁ later (own ▸ alike₁)
          rw [serve, serve, ran]
          refine ⟨?_, rows⟩
          rw [own, answersTo_cons_own, answersTo_cons_own, answers]
        · have ⟨answers, rows⟩ := ih owned.separated owned'.separated later
            (((others a (Ne.symm own)).symm.trans alike).trans (others' a (Ne.symm own)))
          refine ⟨?_, rows⟩
          rw [serve, serve]
          exact (answersTo_cons_other own).trans (answers.trans (answersTo_cons_other own).symm)

/-- What `a` is answered, and its rows at the end, are those of the run without the
calls of `b`, and no call of `a` changes a row of `b`. The identifiers that are drawn
for one organisation are not those that are drawn for another: each has an `owner`. -/
theorem noninterference (host : Host W) (differs : a ≠ b) (separated : Separated owner d)
    (drawn : DrawnFor owner calls) :
    answersTo a (serve host calls d).1 =
        answersTo a (serve host (calls.filter fun made => made.org ≠ b) d).1 ∧
      Alike a (serve host calls d).2 (serve host (calls.filter fun made => made.org ≠ b) d).2 ∧
      ∀ before made after, calls = before ++ made :: after → made.org = a →
        Alike b (serve host before d).2 (serve host (before ++ [made]) d).2 := by
  obtain ⟨answers, rows⟩ := serve_without differs separated separated drawn (Alike.refl a d)
  refine ⟨answers, rows, fun before made after split own => ?_⟩
  rw [serve_append]
  have drawn : DrawnFor owner (before ++ made :: after) := split ▸ drawn
  have earlier : DrawnFor owner before := fun m member => drawn m (List.mem_append_left _ member)
  have confined : Confined owner made.org (made.call.perform host made.principal made.git)
      (fun _ _ => True) ⟨(serve host before d).2, made.environment⟩ :=
    confined_perform ⟨drawn made (List.mem_append_right _ List.mem_cons_self),
      serve_separated separated earlier⟩ made.call made.git
  exact confined.others b (own ▸ differs.symm)

/-! ## Two organisations with the same key -/

/-- A database that has only users in it. -/
theorem separated_users {users : Dict Uuid User} (keyed : Database.Keyed User.id users)
    (owned : ∀ id user, users.get? id = some user → user.organizationId = owner id) :
    Separated owner { users } where
  keyed t := by
    cases t with
    | users => exact keyed
    | _ => exact fun _ _ impossible => nomatch impossible
  owned t := by
    cases t with
    | users => exact owned
    | _ => exact fun _ _ impossible => nomatch impossible
  credentials _ _ impossible := nomatch impossible
  repos _ _ impossible := nomatch impossible

/-- Even identifiers are of one organisation, odd ones of the other. -/
def parity (id : Uuid) : Uuid := BitVec.ofNat 128 (id.toNat % 2)

/-- The interpreter of an organisation. -/
def drawingFor (org : Nat) : Environment where
  tokens _ := ""
  uuids n := BitVec.ofNat 128 (2 * n + org)
  clock n := n

theorem parity_drawingFor {org : Nat} (bit : org < 2) (n : Nat) :
    parity ((drawingFor org).uuids n) = BitVec.ofNat 128 org := by
  have even : 2 ∣ 2 ^ 128 := by decide
  rw [parity, drawingFor, BitVec.toNat_ofNat, Nat.mod_mod_of_dvd _ even]
  congr 1
  omega

/-- A call of the administrator of an organisation. -/
def calling (org : Nat) (call : Endpoints.Call) : Endpoints.Made Unit where
  principal := ⟨BitVec.ofNat 128 (org + 10), BitVec.ofNat 128 org, "ADMIN"⟩
  call := call
  environment := drawingFor org
  git := ()

/-- The creation of a project under the key `WEB`. -/
def creatingWeb : Endpoints.Call :=
  .request (.createProject
    { name := "Web"
      projectKey := "WEB"
      name_length := by decide
      projectKey_length := by decide
      projectKey_pattern := by decide
      environment_length := by simp }) rfl

/-- Services whose Git host is down. -/
def offline : Host Unit where
  ucd := Unicode.basic
  keys := none
  interp := Interpreter.basic
  driver := Pagination.Driver.strict
  rt := {
    ucd := Unicode.basic
    sets := SetOrder.listed
    decode _ := ""
    decodeStrict _ := none
    decodeReplace _ := ""
    fromstring _ := .error "no element found: line 1, column 0"
    safeLoad _ := .ok .none
    sha256 _ := "" }
  git := {
    resolveRef _ _ w := (.error (.gitError "fatal: unable to access"), w)
    fetchPlan _ _ _ w := (.error (.gitError "fatal: unable to access"), w) }
  decrypt _ _ := .error .secretError

def twoAdmins : Dict Uuid User :=
  Dict.ofList [(10, ⟨10, 0, "ada@example.org", "Ada", "ADMIN", none, "ACTIVE"⟩),
    (11, ⟨11, 1, "eve@example.org", "Eve", "ADMIN", none, "ACTIVE"⟩)]

theorem noninterference_same_key :
    let calls := [calling 0 creatingWeb, calling 1 creatingWeb, calling 0 (.listProjects 20 none)]
    let alone := calls.filter fun made => made.org ≠ 1
    answersTo 0 (serve offline calls { users := twoAdmins }).1 =
        answersTo 0 (serve offline alone { users := twoAdmins }).1 ∧
      Alike 0 (serve offline calls { users := twoAdmins }).2
        (serve offline alone { users := twoAdmins }).2 ∧
      ∀ before made after, calls = before ++ made :: after → made.org = 0 →
        Alike 1 (serve offline before { users := twoAdmins }).2
          (serve offline (before ++ [made]) { users := twoAdmins }).2 := by
  have admins : ∀ id user, twoAdmins.get? id = some user → user.id = id ∧ user.organizationId = parity id := by
    intro id user found
    have member := Dict.get?_eq_some_iff.mp found
    rw [show twoAdmins.items = [(10, _), (11, _)] from rfl, List.mem_cons, List.mem_singleton] at member
    rcases member with same | same <;> cases same <;> exact ⟨rfl, rfl⟩
  refine noninterference offline (by decide)
    (separated_users (fun id user found => (admins id user found).1)
      fun id user found => (admins id user found).2) fun made member n => ?_
  simp only [List.mem_cons, List.not_mem_nil, or_false] at member
  rcases member with rfl | rfl | rfl
  · exact parity_drawingFor (by decide) n
  · exact parity_drawingFor (by decide) n
  · exact parity_drawingFor (by decide) n

end

end Plimsoll.Tenants
