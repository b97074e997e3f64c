import Plimsoll.ScriptVersions.Pinning
import Plimsoll.ScriptVersions.Readings
import Plimsoll.ScriptVersions.Responses

/-!
Three calls that reach one commit: a verification, a pin and a preflight.

Each runs in a process of its own and on a machine of its own. They agree on the plan
unless something in or around the manifest stops the verification, which alone reads it.
-/

namespace Plimsoll.ScriptVersions

open Python Jmx Contracts Verify
open Preflight (PlanInput PreflightInput PreflightReport)

/-! ## Calls -/

/-- A request that reaches a repository: its process, what stands around the checkout,
the ref it asks for, and the world it starts in. -/
structure Call (W : Type) where
  sets : SetOrder
  around : Surroundings
  ref : String
  world : W

section

variable {W : Type} (rt : Runtime) (remote : Remote W)

def Call.runtime (call : Call W) : Runtime := rt.visiting call.sets

def Call.git (call : Call W) : Git W := remote.on (call.runtime rt) call.around

/-- The ref resolves to the commit, and the fetch succeeds. -/
def Call.Reaches (access : GitAccess) (planPath sha : String) (call : Call W) : Prop :=
  ∃ w₁ worktree w₂, remote.resolveRef access call.ref call.world = (.ok { sha }, w₁) ∧
    remote.fetch access sha planPath w₁ = (.ok worktree, w₂)

/-- The files of a commit are the same whenever it is checked out, at a place whose name
the kernel takes. -/
def Serves (url : String) (commits : String → String → List (String × Posix.Tree)) : Prop :=
  ∀ access sha planPath w worktree w', access.url = url →
    remote.fetch access sha planPath w = (.ok worktree, w') →
      worktree.listing = commits sha planPath ∧ hasNull worktree.root = false

/-- `pin_version` behind its first transaction. -/
def pin (git : Git W) (access : GitAccess) (principal : AccessClaims) (repoId : Uuid)
    (planPath ref : String) : Action (W × World) (Nat × ScriptVersion) := fun start =>
  match resolveForPin rt git access planPath ref start.1 with
  | (.error exc, w) => (.error exc, w, start.2)
  | (.ok candidate, w) =>
      let ended := sessionForOrg (some principal.organizationId)
        (pinVersion principal repoId planPath ref candidate) start.2
      (ended.1, w, ended.2)

/-- The databases that pins of a repository lead to: at first it has no versions, and
nothing but a pin writes any. -/
inductive Reached (url : String) (repoId : Uuid) : Database → Prop
  | start {d : Database} :
      (∀ id row, d.scriptVersions.get? id = some row → row.scriptRepoId ≠ repoId) →
      Reached url repoId d
  | pinned {d : Database} (call : Call W) (access : GitAccess) (principal : AccessClaims)
      (planPath : String) (e : Environment) :
      Reached url repoId d → access.url = url →
      Reached url repoId (pin (call.runtime rt) (call.git rt remote) access principal repoId planPath
        call.ref (call.world, ⟨d, e⟩)).2.2.database
  | other {d d' : Database} :
      Reached url repoId d →
      (∀ id row, row.scriptRepoId = repoId →
        (d'.scriptVersions.get? id = some row → d.scriptVersions.get? id = some row)) →
      Reached url repoId d'

/-! ## What the calls have in common -/

variable (ints : IntField) (access : GitAccess) (planPath : String)

/-- Verification finds a plan. -/
def Verifies (verifying : Call W) : Prop :=
  ∃ report w, run (verifying.runtime rt) (verifying.git rt remote) access planPath verifying.ref
    verifying.world = (.ok report, w) ∧ report.plan.isSome = true

/-- A pin has something to pin. -/
def Resolves (pinning : Call W) : Prop :=
  ∃ candidate w, resolveForPin (pinning.runtime rt) (pinning.git rt remote) access planPath
    pinning.ref pinning.world = (.ok candidate, w)

/-- Preflight passes `PLAN_PARSES`. -/
def PlanParses (checking : Call W) (inputs : PreflightInput) : Prop :=
  ∃ report w, Preflight.run (checking.runtime rt) (checking.git rt remote) inputs checking.world =
    (.ok report, w) ∧ report.status "PLAN_PARSES" = some .pass

/-- The version that was pinned is stored, and is served with the commit and the plan of
the report. -/
def Serving (report : VerifyReport) (plan : PlanSummaryResponse) (version : ScriptVersion)
    (d : Database) : Prop :=
  (∃ id, d.scriptVersions.get? id = some version) ∧ report.commitSha = some version.commitSha ∧
    ∃ response summary, versionResponse rt ints version = .ok response ∧
      response.planSummary = some summary ∧ Alike summary plan

/-- Verification, pin and preflight say the same of the plan. -/
structure Agreement (verifying pinning checking : Call W) (inputs : PreflightInput)
    (principal : AccessClaims) (repoId : Uuid) (db : World) : Prop where
  verifies_iff : Verifies rt remote access planPath verifying ↔
    Resolves rt remote access planPath pinning
  resolves_iff : Resolves rt remote access planPath pinning ↔ PlanParses rt remote checking inputs
  served : ∀ report w plan, run (verifying.runtime rt) (verifying.git rt remote) access planPath
      verifying.ref verifying.world = (.ok report, w) → report.plan = some plan →
    ∀ status version after, pin (pinning.runtime rt) (pinning.git rt remote) access principal repoId
        planPath pinning.ref (pinning.world, db) = (.ok (status, version), after) →
      Serving rt ints report plan version after.2.database
  refused : ∀ report w, run (verifying.runtime rt) (verifying.git rt remote) access planPath
      verifying.ref verifying.world = (.ok report, w) → report.plan = none →
    ∃ error after, pin (pinning.runtime rt) (pinning.git rt remote) access principal repoId planPath
        pinning.ref (pinning.world, db) = (.error (.plimsollError error), after) ∧
      error.code = .validationFailed ∧ after.2.database = db.database

end
/-! ## The second transaction -/

section

variable {principal : AccessClaims} {repoId : Uuid} {planPath ref : String} {v v' : Sql.View postgres}

theorem insertScriptVersion_ok {row : Timestamp → ScriptVersion} {stored : ScriptVersion}
    (ran : (Transaction.insertScriptVersion row).run v = (.ok stored, v')) :
    stored = row v.setting.now ∧ v' = { v with database := { v.database with
      scriptVersions := v.database.scriptVersions.set stored.id stored } } := by
  obtain ⟨answer, rfl⟩ := Transaction.checked_ok ran
  obtain ⟨rfl, inserted, writes⟩ := Database.returning_ok answer
  obtain ⟨written, -⟩ := Database.insert_ok inserted
  refine ⟨rfl, ?_⟩
  rw [written] at writes
  change (⟨v.setting, postgres.applyAll _ v.database, v.environment⟩ : Sql.View postgres) = _
  rw [show (Database.execute (.insertScriptVersion row) v.setting v.database).2 = _ from writes]
  rfl

theorem record_ok {action entityType : String} {entityId : Uuid}
    {metadata : Option (List (String × Detail))}
    (ran : (ScriptRepos.record principal action entityType entityId metadata).run v = (.ok (), v')) :
    v'.database.scriptVersions = v.database.scriptVersions := by
  obtain ⟨id, v₁, drawn, ran⟩ := Sql.Program.bind_ok ran
  rw [Transaction.run_uuid4] at drawn
  cases drawn
  rw [Transaction.insertAudit_ok ran]

/-- A pin answers with a version of its commit: one that is there, or the one that it
makes of its candidate. -/
theorem pinVersion_ok {candidate : PinCandidate} {status : Nat} {version : ScriptVersion}
    (ran : (pinVersion principal repoId planPath ref candidate).run v = (.ok (status, version), v')) :
    version.scriptRepoId = repoId ∧ version.commitSha = candidate.sha ∧ version.planPath = planPath ∧
      (((∃ id, v.database.scriptVersions.get? id = some version) ∧
          v'.database.scriptVersions = v.database.scriptVersions) ∨
        (version.metadata = summaryAsMetadata candidate.summary ∧
          v'.database.scriptVersions = v.database.scriptVersions.set version.id version)) := by
  obtain ⟨existing, v₁, looked, ran⟩ := Sql.Program.bind_ok ran
  have lookup : (Transaction.versionByCommit repoId candidate.sha planPath).run v =
      (.ok ((Database.visible v.setting v.database.scriptVersions).find? fun row =>
        row.scriptRepoId = repoId ∧ row.commitSha = candidate.sha ∧ row.planPath = planPath), v) := rfl
  rw [lookup] at looked
  cases looked
  cases found : (Database.visible v.setting v.database.scriptVersions).find? fun row =>
      row.scriptRepoId = repoId ∧ row.commitSha = candidate.sha ∧ row.planPath = planPath with
  | some existing =>
      rw [found] at ran
      cases ran
      have names := List.find?_some found
      rw [decide_eq_true_eq] at names
      obtain ⟨id, there, -⟩ := Database.mem_visible.mp (List.mem_of_find?_eq_some found)
      exact ⟨names.1, names.2.1, names.2.2, Or.inl ⟨⟨id, there⟩, rfl⟩⟩
  | none =>
      rw [found] at ran
      obtain ⟨id, v₂, drawn, ran⟩ := Sql.Program.bind_ok ran
      rw [Transaction.run_uuid4] at drawn
      cases drawn
      obtain ⟨created, v₃, inserted, ran⟩ := Sql.Program.bind_ok ran
      obtain ⟨made, rfl⟩ := insertScriptVersion_ok inserted
      obtain ⟨_, v₄, recorded, ran⟩ := Sql.Program.bind_ok ran
      have kept := record_ok recorded
      cases ran
      rw [made] at kept ⊢
      exact ⟨rfl, rfl, rfl, Or.inr ⟨rfl, kept⟩⟩

end
/-! ## What is recorded -/

section

variable {rt : Runtime} {W : Type} {remote : Remote W} {url : String} {repoId : Uuid}
  {commits : String → String → List (String × Posix.Tree)} {planPath sha : String}

/-- A call that reaches the commit has opened a checkout of it. -/
theorem Call.Reaches.opens {call : Call W} {access : GitAccess}
    (reaches : call.Reaches remote access planPath sha) (serves : Serves remote url commits)
    (ofRepo : access.url = url) :
    ∃ w₁ worktree w₂, remote.resolveRef access call.ref call.world = (.ok { sha }, w₁) ∧
      remote.fetch access sha planPath w₁ = (.ok worktree, w₂) ∧
      worktree.listing = commits sha planPath ∧ hasNull worktree.root = false := by
  obtain ⟨w₁, worktree, w₂, resolved, fetched⟩ := reaches
  exact ⟨w₁, worktree, w₂, resolved, fetched, serves _ _ _ _ _ _ ofRepo fetched⟩

variable (rt) in
theorem resolveForPin_on {call : Call W} {access : GitAccess} {worktree : Worktree} {w₁ w₂ : W}
    (resolved : remote.resolveRef access call.ref call.world = (.ok { sha }, w₁))
    (fetched : remote.fetch access sha planPath w₁ = (.ok worktree, w₂)) :
    resolveForPin (call.runtime rt) (call.git rt remote) access planPath call.ref call.world =
      ((candidate (call.runtime rt) (worktree.checkoutOn (call.runtime rt) call.around) sha
        planPath).mapError unreadable, w₂) := by
  unfold resolveForPin Call.git Remote.on
  simp only [resolved, Action.bind_apply, fetched, Action.pure_apply]

/-- The versions of a repository hold what a process made of their commits' plans. -/
def Recorded (rt : Runtime) (commits : String → String → List (String × Posix.Tree)) (repoId : Uuid)
    (d : Database) : Prop :=
  ∀ id row, d.scriptVersions.get? id = some row → row.scriptRepoId = repoId →
    startsWith row.planPath "/" = false → ".." ∉ split row.planPath '/' →
      ∃ sets summary,
        summaryAt (rt.visiting sets) (commits row.commitSha row.planPath) row.planPath =
          some summary ∧
        row.metadata = summaryAsMetadata summary

/-- What a pin has a candidate of is the plan of its commit. -/
theorem summaryAt_of_resolveForPin {call : Call W} {access : GitAccess} {w : W}
    {made : PinCandidate} (serves : Serves remote url commits) (ofRepo : access.url = url)
    (relative : startsWith planPath "/" = false) (noParent : ".." ∉ split planPath '/')
    (ran : resolveForPin (call.runtime rt) (call.git rt remote) access planPath call.ref call.world =
      (.ok made, w)) :
    summaryAt (call.runtime rt) (commits made.sha planPath) planPath = some made.summary := by
  cases resolved : remote.resolveRef access call.ref call.world with
  | mk result w₁ =>
      cases result with
      | error exc => simp [resolveForPin, Call.git, Remote.on, resolved] at ran
      | ok resolution =>
          cases fetched : remote.fetch access resolution.sha planPath w₁ with
          | mk result w₂ =>
              cases result with
              | error exc =>
                  simp [resolveForPin, Call.git, Remote.on, resolved, Action.bind_apply, fetched] at ran
              | ok worktree =>
                  rw [resolveForPin_on rt resolved fetched, Prod.mk.injEq] at ran
                  obtain ⟨ran, -⟩ := ran
                  obtain ⟨listing, plainRoot⟩ := serves _ _ _ _ _ _ ofRepo fetched
                  have looks := seen (call.runtime rt) call.around plainRoot relative
                    noParent
                  rw [listing] at looks
                  cases tried : candidate (call.runtime rt)
                      (worktree.checkoutOn (call.runtime rt) call.around) resolution.sha planPath with
                  | error exc => rw [tried] at ran; cases ran
                  | ok again =>
                      rw [tried] at ran
                      cases ran
                      unfold candidate at tried
                      dsimp only at tried
                      obtain ⟨present, asked, tried⟩ := of_bind_eq_ok tried
                      cases content : planBytes (commits resolution.sha planPath) planPath with
                      | none =>
                          rw [(looks.absent content).1] at asked
                          cases asked
                          cases tried
                      | some bytes =>
                          obtain ⟨isFile, read, text⟩ := looks.there bytes content
                          rw [isFile] at asked
                          cases asked
                          obtain ⟨_, -, tried⟩ := of_bind_eq_ok tried
                          obtain ⟨summary, parsed, tried⟩ := of_bind_eq_ok tried
                          cases tried
                          rw [text] at parsed
                          change (parsePlan _ ((call.runtime rt).decode bytes)).mapError unparseable =
                            _ at parsed
                          rw [summaryAt, content, Option.bind_some]
                          cases done : parsePlan (call.runtime rt) ((call.runtime rt).decode bytes) with
                          | error exc => rw [done] at parsed; cases parsed
                          | ok other =>
                              rw [done] at parsed
                              cases parsed
                              rfl

/-- A pin that answers has gone through both its halves. -/
theorem pin_ok {git : Git W} {access : GitAccess} {principal : AccessClaims} {ref : String}
    {start after : W × World} {status : Nat} {version : ScriptVersion}
    (ran : pin rt git access principal repoId planPath ref start = (.ok (status, version), after)) :
    ∃ made w v, resolveForPin rt git access planPath ref start.1 = (.ok made, w) ∧
      (pinVersion principal repoId planPath ref made).run
        (start.2.view (some principal.organizationId)) = (.ok (status, version), v) ∧
      after.2.database = v.database := by
  unfold pin at ran
  cases resolved : resolveForPin rt git access planPath ref start.1 with
  | mk result w =>
      cases result with
      | error exc => simp [resolved] at ran
      | ok made =>
          cases second : (pinVersion principal repoId planPath ref made).run
              (start.2.view (some principal.organizationId)) with
          | mk outcome v =>
              cases outcome with
              | error exc => simp [resolved, sessionForOrg_error second] at ran
              | ok answer =>
                  simp only [resolved, sessionForOrg_ok second, Prod.mk.injEq, Except.ok.injEq] at ran
                  obtain ⟨rfl, rfl⟩ := ran
                  exact ⟨made, w, v, rfl, second, rfl⟩

/-- A pin that does not answer leaves the database alone. -/
theorem pin_error {git : Git W} {access : GitAccess} {principal : AccessClaims} {ref : String}
    {start after : W × World} {exc : Raised}
    (ran : pin rt git access principal repoId planPath ref start = (.error exc, after)) :
    after.2.database = start.2.database := by
  unfold pin at ran
  cases resolved : resolveForPin rt git access planPath ref start.1 with
  | mk result w =>
      cases result with
      | error exc =>
          simp only [resolved, Prod.mk.injEq] at ran
          rw [← ran.2]
      | ok made =>
          cases second : (pinVersion principal repoId planPath ref made).run
              (start.2.view (some principal.organizationId)) with
          | mk outcome v =>
              cases outcome with
              | ok answer => simp [resolved, sessionForOrg_ok second] at ran
              | error exc =>
                  simp only [resolved, sessionForOrg_error second, Prod.mk.injEq] at ran
                  rw [← ran.2]

/-- A pin records what its candidate says, or nothing new. -/
theorem Recorded.pin {d : Database} {call : Call W} {access : GitAccess} {principal : AccessClaims}
    {e : Environment} (serves : Serves remote url commits) (ofRepo : access.url = url)
    (recorded : Recorded rt commits repoId d) :
    Recorded rt commits repoId (pin (call.runtime rt) (call.git rt remote) access principal repoId
      planPath call.ref (call.world, ⟨d, e⟩)).2.2.database := by
  cases ran : ScriptVersions.pin (call.runtime rt) (call.git rt remote) access principal repoId
      planPath call.ref (call.world, ⟨d, e⟩) with
  | mk result after =>
      cases result with
      | error exc =>
          rw [pin_error ran]
          exact recorded
      | ok answer =>
          obtain ⟨status, version⟩ := answer
          obtain ⟨made, w, v, resolved, second, same⟩ := pin_ok ran
          obtain ⟨-, commitSha, path, stored⟩ := pinVersion_ok second
          dsimp only
          rw [same]
          intro id row there ofRepoId relative noParent
          rcases stored with ⟨-, kept⟩ | ⟨metadata, added⟩
          · rw [kept] at there
            exact recorded id row there ofRepoId relative noParent
          · rw [added, Dict.get?_set] at there
            split at there
            · obtain rfl := Option.some.inj there
              rw [path] at relative noParent
              refine ⟨call.sets, made.summary, ?_, metadata⟩
              rw [commitSha, path]
              exact summaryAt_of_resolveForPin serves ofRepo relative noParent resolved
            · exact recorded id row there ofRepoId relative noParent

theorem recorded_of_reached {d : Database} (serves : Serves remote url commits)
    (reached : Reached rt remote url repoId d) : Recorded rt commits repoId d := by
  induction reached with
  | start none => exact fun id row there ofRepo => absurd ofRepo (none id row there)
  | pinned call access principal planPath e _ ofRepo ih => exact ih.pin serves ofRepo
  | other _ kept ih =>
      exact fun id row there ofRepo => ih id row (kept id row ofRepo there) ofRepo

end

/-! ## The three calls -/

/-- Three calls that reach one commit, for a plan path that stays inside, and a plan that
parses or is refused as one that does not. -/
structure SameCommit {W : Type} (rt : Runtime) (remote : Remote W) (url : String)
    (commits : String → String → List (String × Posix.Tree)) (access : GitAccess)
    (planPath sha : String) (verifying pinning checking : Call W) (inputs : PreflightInput)
    (repoId : Uuid) (d : Database) : Prop where
  serves : Serves remote url commits
  ofRepo : access.url = url
  relative : startsWith planPath "/" = false
  noParent : ".." ∉ split planPath '/'
  verifies : verifying.Reaches remote access planPath sha
  pins : pinning.Reaches remote access planPath sha
  checks : checking.Reaches remote access planPath sha
  single : ∃ plan, inputs.plans = [plan] ∧ plan.access = access ∧ plan.planPath = planPath ∧
    plan.ref = checking.ref
  contract : ∀ bytes, planBytes (commits sha planPath) planPath = some bytes →
    ErrorContract.PlanContract (parsePlan rt (rt.decode bytes))
  reached : Reached rt remote url repoId d

/-- Where the plan parses, verification is answered: the manifest loads or is refused as
one that is invalid, and the system says of every file that is named whether it is there. -/
def ManifestAnswers {W : Type} (rt : Runtime) (remote : Remote W) (access : GitAccess)
    (planPath : String) (verifying : Call W) : Prop :=
  ∀ checkout summary, Opens (verifying.git rt remote) access planPath verifying.ref verifying.world
      checkout →
    Parses (verifying.runtime rt) checkout planPath summary →
      ErrorContract.Verifiable (verifying.runtime rt) checkout planPath

section

variable {rt : Runtime} {W : Type} {remote : Remote W} {url : String} {repoId : Uuid}
  {commits : String → String → List (String × Posix.Tree)} {access : GitAccess}
  {planPath sha : String} {verifying pinning checking : Call W} {inputs : PreflightInput}
  {principal : AccessClaims} {db : World} {ints : IntField}

theorem contract_visiting {text : String}
    (contract : ErrorContract.PlanContract (parsePlan rt text)) (sets : SetOrder) :
    ErrorContract.PlanContract (parsePlan (rt.visiting sets) text) := by
  rcases contract with ⟨summary, parsed⟩ | ⟨message, parsed⟩
  · exact Or.inl (parsePlan_ok_of_ok parsed sets)
  · exact Or.inr ⟨message, parsePlan_error_of_error parsed sets⟩

/-- The plan of a checkout parses to its summary at the commit. -/
theorem parses_iff {checkout : Checkout} {listing : List (String × Posix.Tree)}
    {summary : PlanSummary} (looks : Seen rt checkout planPath (planBytes listing planPath)) :
    Parses rt checkout planPath summary ↔ summaryAt rt listing planPath = some summary := by
  unfold summaryAt
  constructor
  · intro ⟨present, parsed⟩
    cases content : planBytes listing planPath with
    | none =>
        rw [(looks.absent content).1] at present
        cases present
    | some bytes =>
        rw [(looks.there bytes content).2.2] at parsed
        exact toOption_eq_some_iff.mpr parsed
  · intro accepted
    obtain ⟨bytes, content, parsed⟩ := Option.bind_eq_some_iff.mp accepted
    obtain ⟨isFile, -, text⟩ := looks.there bytes content
    refine ⟨isFile, ?_⟩
    rw [text]
    exact toOption_eq_some_iff.mp parsed

/-- What a verification opens, where its ref resolves and the commit is fetched. -/
theorem opens_checkoutOn (rt : Runtime) {worktree : Worktree} {w₁ w₂ : W}
    (resolved : remote.resolveRef access verifying.ref verifying.world = (.ok { sha }, w₁))
    (fetched : remote.fetch access sha planPath w₁ = (.ok worktree, w₂)) :
    Opens (verifying.git rt remote) access planPath verifying.ref verifying.world
      (worktree.checkoutOn (verifying.runtime rt) verifying.around) := by
  refine ⟨{ sha }, w₁, w₂, resolved, ?_⟩
  unfold Call.git Remote.on
  simp only [Action.bind_apply, fetched, Action.pure_apply]

/-- A verification that returns a report, on the checkout it opens. -/
theorem verifies_iff (rt : Runtime) {worktree : Worktree} {w₁ w₂ : W}
    (relative : startsWith planPath "/" = false) (noParent : ".." ∉ split planPath '/')
    (resolved : remote.resolveRef access verifying.ref verifying.world = (.ok { sha }, w₁))
    (fetched : remote.fetch access sha planPath w₁ = (.ok worktree, w₂))
    (plainRoot : hasNull worktree.root = false) :
    Verifies rt remote access planPath verifying ↔
      (summaryAt (verifying.runtime rt) worktree.listing planPath).isSome = true ∧
        ErrorContract.Verifiable (verifying.runtime rt)
          (worktree.checkoutOn (verifying.runtime rt) verifying.around) planPath := by
  have ran : run (verifying.runtime rt) (verifying.git rt remote) access planPath verifying.ref
      verifying.world = _ := run_on resolved fetched verifying.around
  have looks := seen (verifying.runtime rt) verifying.around plainRoot relative
    noParent
  have answers : (∃ report, inspect (verifying.runtime rt)
      (worktree.checkoutOn (verifying.runtime rt) verifying.around) { sha } planPath verifying.ref =
        .ok report) ↔ ErrorContract.Verifiable (verifying.runtime rt)
          (worktree.checkoutOn (verifying.runtime rt) verifying.around) planPath :=
    ErrorContract.inspect_ok_iff (view_errors _ _) { sha } verifying.ref
  unfold Verifies
  rw [ran, ← answers]
  constructor
  · intro ⟨report, w, returned, present⟩
    cases inspected : inspect (verifying.runtime rt)
        (worktree.checkoutOn (verifying.runtime rt) verifying.around) { sha } planPath verifying.ref with
    | error exc => rw [inspected] at returned; cases returned
    | ok verified =>
        rw [inspected] at returned
        cases returned
        rw [(inspect_plan looks inspected).2, Option.isSome_map] at present
        exact ⟨present, _, rfl⟩
  · intro ⟨present, verified, inspected⟩
    refine ⟨verified, w₂, ?_, ?_⟩
    · rw [inspected]
      rfl
    · rw [(inspect_plan looks inspected).2, Option.isSome_map]
      exact present

theorem resolves_iff {worktree : Worktree} {w₁ w₂ : W}
    (relative : startsWith planPath "/" = false) (noParent : ".." ∉ split planPath '/')
    (resolved : remote.resolveRef access pinning.ref pinning.world = (.ok { sha }, w₁))
    (fetched : remote.fetch access sha planPath w₁ = (.ok worktree, w₂))
    (plainRoot : hasNull worktree.root = false)
    (contract : ∀ bytes, planBytes worktree.listing planPath = some bytes →
      ErrorContract.PlanContract (parsePlan (pinning.runtime rt) ((pinning.runtime rt).decode bytes))) :
    Resolves rt remote access planPath pinning ↔
      (summaryAt (pinning.runtime rt) worktree.listing planPath).isSome = true := by
  have looks := seen (pinning.runtime rt) pinning.around plainRoot relative noParent
  unfold Resolves
  rw [resolveForPin_on rt resolved fetched]
  cases found : summaryAt (pinning.runtime rt) worktree.listing planPath with
  | some summary =>
      obtain ⟨checksum, made⟩ := candidate_of_summaryAt sha looks found
      exact iff_of_true ⟨_, w₂, by rw [made]; rfl⟩ rfl
  | none =>
      obtain ⟨error, refused, -⟩ := candidate_of_no_summaryAt sha looks contract found
      refine iff_of_false (fun ⟨made, w, returned⟩ => ?_) Bool.false_ne_true
      rw [refused] at returned
      cases returned

variable (rt) in
theorem planParses_iff {worktree : Worktree} {w₁ w₂ : W} {plan : PlanInput}
    (relative : startsWith planPath "/" = false) (noParent : ".." ∉ split planPath '/')
    (single : inputs.plans = [plan]) (ofAccess : plan.access = access)
    (ofPath : plan.planPath = planPath) (ofRef : plan.ref = checking.ref)
    (resolved : remote.resolveRef access checking.ref checking.world = (.ok { sha }, w₁))
    (fetched : remote.fetch access sha planPath w₁ = (.ok worktree, w₂))
    (plainRoot : hasNull worktree.root = false) :
    PlanParses rt remote checking inputs ↔
      (summaryAt (checking.runtime rt) worktree.listing planPath).isSome = true := by
  have looks := seen (checking.runtime rt) checking.around plainRoot relative noParent
  have resolves : (checking.git rt remote).resolveRef plan.access plan.ref checking.world =
      (.ok { sha }, w₁) := by
    rw [ofAccess, ofRef]
    exact resolved
  have reads : Preflight.readPlan (checking.runtime rt) (checking.git rt remote) plan sha w₁ =
      (((worktree.checkoutOn (checking.runtime rt) checking.around).files.readText
        (checking.runtime rt) (worktree.root.join planPath)).bind
          (parsePlan (checking.runtime rt)), w₂) := by
    unfold Preflight.readPlan Call.git Remote.on
    rw [ofAccess, ofPath]
    simp only [Action.bind_apply, fetched, Action.pure_apply]
    rfl
  unfold PlanParses
  cases outcome : ((worktree.checkoutOn (checking.runtime rt) checking.around).files.readText
      (checking.runtime rt) (worktree.root.join planPath)).bind (parsePlan (checking.runtime rt)) with
  | ok summary =>
      rw [outcome] at reads
      refine iff_of_true (run_single_ok single resolves reads) ?_
      unfold summaryAt
      cases content : planBytes worktree.listing planPath with
      | none =>
          obtain ⟨-, exc, text, -⟩ := looks.absent content
          rw [show (worktree.checkoutOn (checking.runtime rt) checking.around).files.readText
            (checking.runtime rt) (worktree.root.join planPath) = _ from text] at outcome
          cases outcome
      | some bytes =>
          obtain ⟨-, -, text⟩ := looks.there bytes content
          rw [show (worktree.checkoutOn (checking.runtime rt) checking.around).files.readText
            (checking.runtime rt) (worktree.root.join planPath) = _ from text] at outcome
          rw [Option.bind_some, show parsePlan _ _ = _ from outcome]
          rfl
  | error exc =>
      rw [outcome] at reads
      refine iff_of_false (fun ⟨report, w, ran, pass⟩ => ?_) ?_
      · exact run_single_error single resolves reads ran pass
      · unfold summaryAt
        cases content : planBytes worktree.listing planPath with
        | none => exact Bool.false_ne_true
        | some bytes =>
            obtain ⟨-, -, text⟩ := looks.there bytes content
            rw [show (worktree.checkoutOn (checking.runtime rt) checking.around).files.readText
              (checking.runtime rt) (worktree.root.join planPath) = _ from text] at outcome
            rw [Option.bind_some, show parsePlan _ _ = _ from outcome]
            exact Bool.false_ne_true

/-- What the API serves of a version whose metadata are those of a plan. -/
theorem versionResponse_of_metadata {version : ScriptVersion} {summary : PlanSummary}
    (written : version.metadata = summaryAsMetadata summary) :
    ∃ response, versionResponse rt ints version = .ok response ∧
      response.planSummary = some (summaryResponse summary) := by
  refine ⟨{
    id := version.id
    scriptRepoId := version.scriptRepoId
    commitSha := version.commitSha
    planPath := version.planPath
    checksum := version.checksum
    planSummary := some (summaryResponse summary)
    resolvedAt := version.resolvedAt }, ?_, rfl⟩
  have served : planSummary rt ints (Sql.jsonb version.metadata.document) =
      .ok (some (summaryResponse summary)) := by
    rw [written, planSummary_document, summaryAsMetadata, summaryResponse, List.map_map]
    rfl
  rw [versionResponse, served]
  rfl

section

variable (common : SameCommit rt remote url commits access planPath sha verifying pinning checking
  inputs repoId db.database)

include common

/-- A report names the commit, and the plan that the commit has. -/
theorem SameCommit.report_plan {report : VerifyReport} {w : W}
    (ran : run (verifying.runtime rt) (verifying.git rt remote) access planPath verifying.ref
      verifying.world = (.ok report, w)) :
    report.commitSha = some sha ∧ report.plan =
      (summaryAt (verifying.runtime rt) (commits sha planPath) planPath).map summaryResponse := by
  obtain ⟨w₁, worktree, w₂, resolved, fetched, listing, plainRoot⟩ :=
    common.verifies.opens common.serves common.ofRepo
  have looks := seen (verifying.runtime rt) verifying.around plainRoot
    common.relative common.noParent
  rw [listing] at looks
  have opened : run (verifying.runtime rt) (verifying.git rt remote) access planPath verifying.ref
      verifying.world = _ := run_on resolved fetched verifying.around
  rw [opened] at ran
  cases inspected : inspect (verifying.runtime rt)
      (worktree.checkoutOn (verifying.runtime rt) verifying.around) { sha } planPath verifying.ref with
  | error exc => rw [inspected] at ran; cases ran
  | ok again =>
      rw [inspected] at ran
      cases ran
      exact inspect_plan looks inspected

/-- A pin of the commit has the commit for its candidate. -/
theorem SameCommit.candidate_sha {made : PinCandidate} {w : W}
    (ran : resolveForPin (pinning.runtime rt) (pinning.git rt remote) access planPath pinning.ref
      pinning.world = (.ok made, w)) : made.sha = sha := by
  obtain ⟨w₁, worktree, w₂, resolved, fetched⟩ := common.pins
  rw [resolveForPin_on rt resolved fetched, Prod.mk.injEq] at ran
  obtain ⟨ran, -⟩ := ran
  cases tried : candidate (pinning.runtime rt)
      (worktree.checkoutOn (pinning.runtime rt) pinning.around) sha planPath with
  | error exc => rw [tried] at ran; cases ran
  | ok again =>
      rw [tried] at ran
      cases ran
      unfold candidate at tried
      obtain ⟨present, -, tried⟩ := of_bind_eq_ok tried
      cases present with
      | false => cases tried
      | true =>
          obtain ⟨_, -, tried⟩ := of_bind_eq_ok tried
          obtain ⟨_, -, tried⟩ := of_bind_eq_ok tried
          cases tried
          rfl

/-- The version that a pin answers with holds what some process made of the plan. -/
theorem SameCommit.serving {report : VerifyReport} {summary : PlanSummary} {status : Nat}
    {version : ScriptVersion} {after : W × World} (commit : report.commitSha = some sha)
    (found : summaryAt (verifying.runtime rt) (commits sha planPath) planPath = some summary)
    (ran : pin (pinning.runtime rt) (pinning.git rt remote) access principal repoId planPath
      pinning.ref (pinning.world, db) = (.ok (status, version), after)) :
    Serving rt ints report (summaryResponse summary) version after.2.database := by
  obtain ⟨made, w, v, resolved, second, same⟩ := pin_ok ran
  have ofCandidate := summaryAt_of_resolveForPin common.serves common.ofRepo common.relative
    common.noParent resolved
  obtain ⟨repo, versionSha, path, stored⟩ := pinVersion_ok second
  rw [common.candidate_sha resolved] at versionSha ofCandidate
  have metadata : ∃ sets other,
      summaryAt (rt.visiting sets) (commits sha planPath) planPath = some other ∧
        version.metadata = summaryAsMetadata other := by
    rcases stored with ⟨⟨id, there⟩, -⟩ | ⟨written, -⟩
    · have recorded := recorded_of_reached common.serves common.reached id version there repo
        (path ▸ common.relative) (path ▸ common.noParent)
      rwa [versionSha, path] at recorded
    · exact ⟨pinning.sets, made.summary, ofCandidate, written⟩
  obtain ⟨sets, other, foundOther, written⟩ := metadata
  obtain ⟨response, responded, serves⟩ :=
    versionResponse_of_metadata written
  refine ⟨?_, commit.trans (congrArg some versionSha.symm), response, _, responded, serves,
    alike_of_summaryAt foundOther found⟩
  rw [same]
  rcases stored with ⟨there, kept⟩ | ⟨-, added⟩
  · rw [kept]
    exact there
  · rw [added]
    exact ⟨version.id, Dict.get?_set_self _ _ _⟩

/-- Without a plan that parses a pin is refused, and writes nothing. -/
theorem SameCommit.refused
    (missing : summaryAt (verifying.runtime rt) (commits sha planPath) planPath = none) :
    ∃ error after, pin (pinning.runtime rt) (pinning.git rt remote) access principal repoId planPath
        pinning.ref (pinning.world, db) = (.error (.plimsollError error), after) ∧
      error.code = .validationFailed ∧ after.2.database = db.database := by
  obtain ⟨w₁, worktree, w₂, resolved, fetched, listing, plainRoot⟩ :=
    common.pins.opens common.serves common.ofRepo
  have looks := seen (pinning.runtime rt) pinning.around plainRoot common.relative
    common.noParent
  rw [listing] at looks
  have alike := summaryAt_isSome rt (commits sha planPath) planPath verifying.sets pinning.sets
  have missingToo : summaryAt (pinning.runtime rt) (commits sha planPath) planPath = none := by
    rw [show summaryAt (rt.visiting verifying.sets) _ _ = none from missing] at alike
    exact Option.isSome_eq_false_iff.mp alike.symm |> Option.isNone_iff_eq_none.mp
  obtain ⟨error, raised, code⟩ := candidate_of_no_summaryAt sha looks
    (fun bytes there => contract_visiting (common.contract bytes there) pinning.sets) missingToo
  have stopped := resolveForPin_on rt resolved fetched
  rw [raised] at stopped
  refine ⟨error, (w₂, db), ?_, code, rfl⟩
  unfold pin
  rw [stopped]
  rfl

/-- Three calls that reach one commit agree exactly if, where the plan parses, the
verification is not stopped by what stands in or around the manifest. -/
theorem agreement_iff :
    Agreement rt remote ints access planPath verifying pinning checking inputs principal repoId db ↔
      ManifestAnswers rt remote access planPath verifying := by
  obtain ⟨w₁, worktree, w₂, resolved, fetched, listing, plainRoot⟩ :=
    common.verifies.opens common.serves common.ofRepo
  obtain ⟨u₁, pinned, u₂, pinResolved, pinFetched, pinListing, pinRoot⟩ :=
    common.pins.opens common.serves common.ofRepo
  obtain ⟨x₁, checked, x₂, checkResolved, checkFetched, checkListing, checkRoot⟩ :=
    common.checks.opens common.serves common.ofRepo
  obtain ⟨plan, single, ofAccess, ofPath, ofRef⟩ := common.single
  have verifies := verifies_iff rt common.relative common.noParent resolved fetched plainRoot
  have resolves := resolves_iff common.relative common.noParent pinResolved pinFetched pinRoot fun bytes
    there => contract_visiting (common.contract bytes (pinListing ▸ there)) pinning.sets
  have parses := planParses_iff rt common.relative common.noParent single ofAccess ofPath ofRef
    checkResolved checkFetched checkRoot
  rw [listing] at verifies
  rw [pinListing] at resolves
  rw [checkListing] at parses
  have alikePin := Bool.eq_iff_iff.mp
    (summaryAt_isSome rt (commits sha planPath) planPath verifying.sets pinning.sets)
  have alikeCheck := Bool.eq_iff_iff.mp
    (summaryAt_isSome rt (commits sha planPath) planPath pinning.sets checking.sets)
  have opens := opens_checkoutOn rt resolved fetched
  have looks := seen (verifying.runtime rt) verifying.around plainRoot
    common.relative common.noParent
  rw [listing] at looks
  constructor
  · intro agreement checkout summary opensOther found
    obtain rfl := opens.unique opensOther
    have accepted : (summaryAt (verifying.runtime rt) (commits sha planPath) planPath).isSome =
        true := by
      rw [(parses_iff looks).mp found]
      rfl
    exact (verifies.mp (agreement.verifies_iff.mpr (resolves.mpr (alikePin.mp accepted)))).2
  · intro answers
    have whole : Verifies rt remote access planPath verifying ↔
        (summaryAt (verifying.runtime rt) (commits sha planPath) planPath).isSome = true := by
      rw [verifies, and_iff_left_iff_imp]
      intro accepted
      obtain ⟨summary, found⟩ := Option.isSome_iff_exists.mp accepted
      exact answers _ summary opens ((parses_iff looks).mpr found)
    refine ⟨whole.trans (alikePin.trans resolves.symm), resolves.trans (alikeCheck.trans parses.symm),
      ?_, ?_⟩
    · intro report w plan ran hasPlan status version after pinnedOk
      obtain ⟨commit, ofPlan⟩ := common.report_plan ran
      rw [hasPlan] at ofPlan
      obtain ⟨summary, found, rfl⟩ := Option.map_eq_some_iff.mp ofPlan.symm
      exact common.serving commit found pinnedOk
    · intro report w ran noPlan
      obtain ⟨-, ofPlan⟩ := common.report_plan ran
      rw [noPlan] at ofPlan
      exact common.refused (Option.map_eq_none_iff.mp ofPlan.symm)

end

end

/-! ## A manifest with a date that is none -/

/-- A manifest that stops the loader: there is no thirteenth month. -/
def datedManifestText : String := "version: 1\nreleased: 2024-13-01\n"

/-- The interpreter on ASCII files, the plan without elements and that manifest. -/
def dating : Runtime :=
  { plain with
    safeLoad := fun text => if text = datedManifestText then .error .valueError else .ok .none }

def datedWorktree : Worktree where
  root := PurePath.ofString "/tmp/plimsoll-git-0/checkout"
  listing := [("perf", .directory
    [("plan.jmx", .file (asciiBytes emptyPlanText)),
      ("plimsoll.yaml", .file (asciiBytes datedManifestText))])]
  absolute := Verify.passwdWorktree.absolute
  canonical := Verify.passwdWorktree.canonical

def datedSha : String := "1111111111111111111111111111111111111111"

def datedRemote : Remote Unit where
  resolveRef _ _ w := (.ok { sha := datedSha }, w)
  fetch _ _ _ w := (.ok datedWorktree, w)

def datedAccess : GitAccess := { url := "https://git.test/load.git" }

def datedCall : Call Unit where
  sets := SetOrder.listed
  around := around bare
  ref := "main"
  world := ()

def datedInputs : PreflightInput where
  requestedUsers := 1
  plans := [{
    repoName := "load"
    access := datedAccess
    planPath := "perf/plan.jmx"
    ref := "main"
    virtualUsers := 1 }]

theorem dating_parses : parsePlan dating (dating.decode (asciiBytes emptyPlanText)) = .ok {} := by
  decide +kernel

theorem dated_planBytes :
    planBytes datedWorktree.listing "perf/plan.jmx" = some (asciiBytes emptyPlanText) := by decide

theorem dated_common (db : World) (empty : db.database.scriptVersions = Dict.empty) :
    SameCommit dating datedRemote datedAccess.url (fun _ _ => datedWorktree.listing) datedAccess
      "perf/plan.jmx" datedSha datedCall datedCall datedCall datedInputs 2 db.database where
  serves := by
    intro access sha planPath w worktree w' _ fetched
    cases fetched
    exact ⟨rfl, by decide⟩
  ofRepo := rfl
  relative := by decide
  noParent := by decide
  verifies := ⟨(), datedWorktree, (), rfl, rfl⟩
  pins := ⟨(), datedWorktree, (), rfl, rfl⟩
  checks := ⟨(), datedWorktree, (), rfl, rfl⟩
  single := ⟨_, rfl, rfl, rfl, rfl⟩
  contract := by
    intro bytes there
    rw [dated_planBytes] at there
    cases there
    exact Or.inl ⟨_, dating_parses⟩
  reached := by
    refine .start fun id row there => ?_
    rw [empty] at there
    cases there

/-- Fields that read an `int` and nothing else. -/
def onlyInts : IntField where
  read
    | .int (.ofNat n) => .ok n
    | _ => Pydantic.failure "Input should be a valid integer"
  read_int _ := rfl

def emptyWorld : World where
  database := {}
  environment := { tokens := fun _ => "", uuids := fun k => BitVec.ofNat 128 k, clock := fun k => k }

theorem agreement_iff_dated :
    Agreement dating datedRemote onlyInts datedAccess "perf/plan.jmx" datedCall datedCall datedCall
        datedInputs ⟨3, 1, "MEMBER"⟩ 2 emptyWorld ↔
      ManifestAnswers dating datedRemote datedAccess "perf/plan.jmx" datedCall :=
  agreement_iff (dated_common emptyWorld rfl)

/-- A plan beside a manifest that cannot be loaded is pinned and not verified. -/
theorem dated_manifest_disagrees :
    ¬ ∀ (W : Type) (rt : Runtime) (remote : Remote W) (url : String)
        (commits : String → String → List (String × Posix.Tree)) (access : GitAccess)
        (planPath sha : String) (verifying pinning checking : Call W) (inputs : PreflightInput)
        (principal : AccessClaims) (repoId : Uuid) (db : World) (ints : IntField),
      SameCommit rt remote url commits access planPath sha verifying pinning checking inputs repoId
        db.database →
      Agreement rt remote ints access planPath verifying pinning checking inputs principal repoId
        db := by
  intro always
  have agreement := always Unit dating datedRemote _ _ _ _ _ _ _ _ _ ⟨3, 1, "MEMBER"⟩ _ _ onlyInts
    (dated_common emptyWorld rfl)
  have pinned : Resolves dating datedRemote datedAccess "perf/plan.jmx" datedCall := by
    refine (resolves_iff (by decide) (by decide) rfl rfl (by decide) ?_).mpr ?_
    · intro bytes there
      rw [dated_planBytes] at there
      cases there
      exact Or.inl ⟨_, dating_parses⟩
    · rw [summaryAt, dated_planBytes, Option.bind_some]
      exact congrArg Option.isSome (congrArg Except.toOption dating_parses)
  have verified := (verifies_iff dating (by decide) (by decide) rfl rfl (by decide)).mp
    (agreement.verifies_iff.mpr pinned)
  obtain ⟨found, search, reads⟩ := verified.2.manifest (by decide)
  have there : findManifest (datedWorktree.checkoutOn (datedCall.runtime dating) datedCall.around).files
      datedWorktree.root "perf/plan.jmx" =
        .ok (some (datedWorktree.root.join "perf/plimsoll.yaml")) :=
    (findManifestFrom_found (by decide)).trans (by decide)
  obtain ⟨text, read, readable⟩ := reads _ (Except.ok.inj (search.symm.trans there))
  have content : (datedWorktree.checkoutOn (datedCall.runtime dating) datedCall.around).files.readText
      (datedCall.runtime dating) (datedWorktree.root.join "perf/plimsoll.yaml") =
        .ok datedManifestText := by decide +kernel
  rw [content] at read
  obtain rfl := Except.ok.inj read
  rcases readable.loaded .valueError rfl with ⟨message, wrapped⟩ | ⟨message, wrapped⟩
  · cases wrapped
  · cases wrapped

end Plimsoll.ScriptVersions
