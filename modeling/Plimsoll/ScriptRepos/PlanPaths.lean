import Plimsoll.Database.Statements
import Plimsoll.Python.PurePath
import Plimsoll.ScriptRepos

/-!
Where the stored plan paths lead.

A plan path is checked when a repository is created. An update stores whatever
it is given.
-/

namespace Plimsoll.ScriptRepos

open Python Contracts Transaction

/-! ## Runs -/

/-- A request that writes script repositories. -/
inductive Operation where
  | create (principal : AccessClaims) (projectId : Uuid) (body : ScriptRepoCreate)
  | update (principal : AccessClaims) (repoId : Uuid) (body : ScriptRepoUpdate)
  | archive (principal : AccessClaims) (repoId : Uuid)

/-- The world after a request, whatever it was answered. -/
def perform (w : World) : Operation → World
  | .create principal projectId body =>
      (sessionForOrg (some principal.organizationId) (create principal projectId body) w).2
  | .update principal repoId body =>
      (sessionForOrg (some principal.organizationId) (update principal repoId body) w).2
  | .archive principal repoId =>
      (sessionForOrg (some principal.organizationId) (archive principal repoId) w).2

/-- The world after several requests. -/
def performAll (w : World) (operations : List Operation) : World := operations.foldl perform w

/-! ## Paths -/

/-- A stored path is relative and has no `..`, and leads below every checkout it
is joined to. -/
structure StaysInside (planPath : String) : Prop where
  relative : startsWith planPath "/" = false
  noParent : ".." ∉ split planPath '/'
  descendant : ∀ root : PurePath, root.Descendant (root.join planPath)

/-- Every stored plan path stays inside the checkout. -/
def PlanPathsInside (d : Database) : Prop :=
  ∀ id row, d.scriptRepos.get? id = some row → StaysInside row.planPath

/-- The check of a plan path is enough. -/
theorem staysInside_of_check {planPath : String} (checked : insideTheRepository planPath = .ok planPath) :
    StaysInside planPath := by
  obtain ⟨relative, noParent⟩ := insideTheRepository_ok_iff.mp checked
  exact ⟨relative, noParent, fun _ => PurePath.descendant_join relative noParent⟩

/-- An update carries no plan path, or one that passes the check of `create`. -/
def ChecksPlanPath : Operation → Prop
  | .update _ _ body => ∀ planPath, body.planPath = .value planPath →
      insideTheRepository planPath = .ok planPath
  | _ => True

/-! ## What the operations write -/

variable {principal : AccessClaims} {v v' : Sql.View postgres}

theorem requireProject_ok {projectId : Uuid} {project : Project}
    (ran : (requireProject projectId).run v = (.ok project, v')) : v = v' := by
  rw [requireProject, Sql.Program.run_bind_ok run_getProject] at ran
  split at ran
  · cases ran
  · cases ran
    rfl

theorem require_ok {repoId : Uuid} {row : ScriptRepo}
    (ran : (require repoId).run v = (.ok row, v')) : v = v' := by
  rw [require, Sql.Program.run_bind_ok run_getScriptRepo] at ran
  split at ran
  · cases ran
  · cases ran
    rfl

theorem requireCredential_ok {credentialId : Option Uuid} {details : Uuid → List (String × Detail)}
    (ran : (requireCredential credentialId details).run v = (.ok (), v')) : v = v' := by
  unfold requireCredential at ran
  split at ran
  · cases ran
    rfl
  · rw [Sql.Program.run_bind_ok run_getCredential] at ran
    split at ran
    · cases ran
    · cases ran
      rfl

theorem record_ok {action entityType : String} {entityId : Uuid}
    {metadata : Option (List (String × Detail))}
    (ran : (record principal action entityType entityId metadata).run v = (.ok (), v')) :
    v'.database.scriptRepos = v.database.scriptRepos := by
  rw [record, Sql.Program.run_bind_ok run_uuid4] at ran
  obtain rfl := insertAudit_ok ran
  rfl

/-- A row of a repository whose path is inside is written. -/
theorem planPathsInside_set {d : Database} {row : ScriptRepo} (inside : PlanPathsInside d)
    (rowInside : StaysInside row.planPath) :
    PlanPathsInside { d with scriptRepos := d.scriptRepos.set row.id row } := by
  intro id found at_
  rw [Dict.get?_set] at at_
  split at at_
  · obtain rfl := Option.some.inj at_
    exact rowInside
  · exact inside id found at_

theorem create_ok {projectId : Uuid} {body : ScriptRepoCreate} {row : ScriptRepo}
    (inside : PlanPathsInside v.database)
    (ran : (create principal projectId body).run v = (.ok row, v')) :
    PlanPathsInside v'.database := by
  obtain ⟨_, _, required, ran⟩ := Sql.Program.bind_ok ran
  obtain rfl := requireProject_ok required
  obtain ⟨_, _, required, ran⟩ := Sql.Program.bind_ok ran
  obtain rfl := requireCredential_ok required
  rw [Sql.Program.run_bind_ok run_uuid4] at ran
  obtain ⟨_, _, inserted, ran⟩ := Sql.Program.bind_ok ran
  obtain ⟨rfl, rfl⟩ := insertScriptRepo_ok inserted
  obtain ⟨_, _, recorded, ran⟩ := Sql.Program.bind_ok ran
  cases ran
  rw [PlanPathsInside, record_ok recorded]
  exact planPathsInside_set inside (staysInside_of_check body.planPath_inside)

/-- A column keeps its value, or is given that of the patch. -/
theorem assigned_ok {α : Type} {old new : α} {patch : Patch α}
    (assigned : Database.assigned old patch = .ok new) : new = old ∨ patch = .value new := by
  cases patch with
  | unset => exact Or.inl (Except.ok.inj assigned).symm
  | null => cases assigned
  | value given => exact Or.inr (congrArg Patch.value (Except.ok.inj assigned))

/-- An update leaves the plan path alone, or stores the given one. -/
theorem updated_planPath {d : Database} {now : Timestamp} {old new : ScriptRepo}
    {body : ScriptRepoUpdate} (changed : d.updated now old (changesOf body) = .ok new) :
    new.planPath = old.planPath ∨ body.planPath = .value new.planPath := by
  unfold Database.updated at changed
  cases name : Database.assigned old.name (changesOf body).name with
  | error fault => simp [name, bind, Except.bind] at changed
  | ok newName =>
      cases path : Database.assigned old.planPath (changesOf body).planPath with
      | error fault => simp [name, path, bind, Except.bind] at changed
      | ok newPath =>
          cases ref : Database.assigned old.defaultRef (changesOf body).defaultRef with
          | error fault => simp [name, path, ref, bind, Except.bind] at changed
          | ok newRef =>
              simp only [name, path, ref, bind, Except.bind] at changed
              split at changed
              · cases changed
                exact assigned_ok path
              · cases changed

theorem update_ok {repoId : Uuid} {body : ScriptRepoUpdate} {row : ScriptRepo}
    (inside : PlanPathsInside v.database)
    (checks : ∀ planPath, body.planPath = .value planPath →
      insideTheRepository planPath = .ok planPath)
    (ran : (update principal repoId body).run v = (.ok row, v')) :
    PlanPathsInside v'.database := by
  obtain ⟨_, _, required, ran⟩ := Sql.Program.bind_ok ran
  obtain rfl := require_ok required
  split at ran
  · cases ran
    exact inside
  · obtain ⟨_, _, required, ran⟩ := Sql.Program.bind_ok ran
    obtain rfl := requireCredential_ok required
    obtain ⟨_, v₁, written, ran⟩ := Sql.Program.bind_ok ran
    obtain ⟨_, _, recorded, ran⟩ := Sql.Program.bind_ok ran
    have unchanged : v'.database.scriptRepos = v₁.database.scriptRepos := by
      split at ran
      · cases ran
      · cases ran
        exact record_ok recorded
    rw [PlanPathsInside, unchanged]
    rcases updateScriptRepo_ok written with same | ⟨old, new, there, changed, same⟩
    · rw [same]
      exact inside
    · rw [same]
      refine planPathsInside_set inside ?_
      rcases updated_planPath changed with kept | given
      · rw [kept]
        exact inside repoId old there
      · exact staysInside_of_check (checks _ given)

theorem archive_ok {repoId : Uuid} (inside : PlanPathsInside v.database)
    (ran : (archive principal repoId).run v = (.ok (), v')) : PlanPathsInside v'.database := by
  obtain ⟨_, _, required, ran⟩ := Sql.Program.bind_ok ran
  obtain rfl := require_ok required
  obtain ⟨archived, d, written, either⟩ := @run_archiveScriptRepo _ repoId
  rw [Sql.Program.run_bind_ok written] at ran
  have kept : PlanPathsInside d := by
    rcases either with rfl | ⟨old, there, rfl⟩
    · exact inside
    · exact @planPathsInside_set _
        { old with status := .archived, updatedAt := v.setting.now } inside
        (inside repoId old there)
  split at ran
  · rw [PlanPathsInside, record_ok ran]
    exact kept
  · cases ran
    exact kept

/-! ## Runs -/

/-- One request keeps the plan paths inside. -/
theorem planPathsInside_perform {w : World} {operation : Operation}
    (inside : PlanPathsInside w.database) (checks : ChecksPlanPath operation) :
    PlanPathsInside (perform w operation).database := by
  cases operation with
  | create principal projectId body =>
      exact (ensures_sessionForOrg (fun _ _ _ inside ran => create_ok inside ran) w inside).1
  | update principal repoId body =>
      exact (ensures_sessionForOrg (fun _ _ _ inside ran => update_ok inside checks ran) w inside).1
  | archive principal repoId =>
      exact (ensures_sessionForOrg (fun _ _ _ inside ran => archive_ok inside ran) w inside).1

/-- In every run whose updates check the plan paths they carry, every stored
plan path stays inside. -/
theorem planPathsInside_performAll {w : World} (empty : w.database.scriptRepos = Dict.empty)
    {operations : List Operation} (checks : ∀ operation ∈ operations, ChecksPlanPath operation) :
    PlanPathsInside (performAll w operations).database := by
  have start : PlanPathsInside w.database := by
    intro id row at_
    rw [empty] at at_
    cases at_
  clear empty
  induction operations generalizing w with
  | nil => exact start
  | cons operation rest ih =>
      exact ih (fun other member => checks other (List.mem_cons_of_mem _ member))
        (planPathsInside_perform start (checks operation List.mem_cons_self))

/-! ## Two runs -/

def ada : AccessClaims := ⟨1, 2, "ADMIN"⟩

/-- A project, and no repository yet. -/
def oneProject : World where
  database :=
    { users := Dict.ofList [(1,
        { id := 1, organizationId := 2, email := "ada@example.com", name := "Ada"
          orgRole := "ADMIN" })]
      projects := Dict.ofList [(3,
        { id := 3, organizationId := 2, name := "Shop", projectKey := "SHOP"
          createdBy := 1, createdAt := 0, updatedAt := 0 })] }
  environment :=
    { tokens := fun _ => ""
      uuids := fun n => BitVec.ofNat 128 (n + 7)
      clock := fun n => n }

theorem length_load : 1 ≤ "load".length ∧ "load".length ≤ 255 := by decide

theorem length_loadUrl : 1 ≤ "https://git.example.com/load.git".length := by decide +kernel

theorem supportedScheme_loadUrl : supportedScheme "https://git.example.com/load.git" =
    .ok "https://git.example.com/load.git" := by decide +kernel

def checkoutRepo : ScriptRepoCreate where
  name := "load"
  repoUrl := "https://git.example.com/load.git"
  planPath := "perf/checkout.jmx"
  name_length := length_load
  repoUrl_length := length_loadUrl
  repoUrl_scheme := supportedScheme_loadUrl
  planPath_length := by decide +kernel
  planPath_inside := by decide +kernel
  defaultRef_length := by decide +kernel

/-- An update of the plan path alone. -/
def movePlan (planPath : String) (nonempty : 1 ≤ planPath.length) : ScriptRepoUpdate where
  planPath := .value planPath
  name_length := fun _ impossible => by cases impossible
  planPath_length := fun _ same => by cases same; exact nonempty
  defaultRef_length := fun _ impossible => by cases impossible

theorem planPathsInside_moved :
    PlanPathsInside (performAll oneProject [.create ada 3 checkoutRepo,
      .update ada 7 (movePlan "perf/cart.jmx" (by decide +kernel)), .archive ada 7]).database := by
  refine planPathsInside_performAll rfl fun operation member => ?_
  simp only [List.mem_cons, List.not_mem_nil, or_false] at member
  rcases member with rfl | rfl | rfl
  · trivial
  · intro planPath same
    cases same
    decide +kernel
  · trivial

/-- An update stores a path that leads out of every checkout. -/
theorem update_stores_outside :
    ¬ ∀ w operations, w.database.scriptRepos = Dict.empty →
      PlanPathsInside (performAll w operations).database := by
  intro inside
  have stored : ∃ row, (performAll oneProject [.create ada 3 checkoutRepo,
      .update ada 7 (movePlan "../../etc/passwd" (by decide +kernel))]).database.scriptRepos.get? 7 =
        some row ∧ row.planPath = "../../etc/passwd" := ⟨_, rfl, rfl⟩
  obtain ⟨row, at_, path⟩ := stored
  have noParent := (inside _ _ rfl 7 row at_).noParent
  rw [path] at noParent
  exact noParent (by decide +kernel)

end Plimsoll.ScriptRepos
