import Mathlib.Data.List.Find
import Plimsoll.Database.Locked
import Plimsoll.ScriptVersions

/-!
Pins that run side by side.

The second transaction of `pin_version` looks the commit up in one statement and
inserts the version in another. Between the two another pin of the same commit
can be committed; the insertion then runs into the unique constraint.
-/

namespace Plimsoll.ScriptVersions

open Python Contracts Transaction
open Database (Setting Statement UniqueKey)

/-- The second transaction of `pin_version`: the status it answers with, and the
version. -/
def pinVersion (principal : AccessClaims) (repoId : Uuid) (planPath ref : String)
    (candidate : PinCandidate) : Transaction (Nat × ScriptVersion) := do
  match ← versionByCommit repoId candidate.sha planPath with
  | some existing => return (200, existing)
  | none => do
      let id ← uuid4
      let created ← insertScriptVersion fun resolvedAt => {
        id, planPath, resolvedAt
        organizationId := principal.organizationId
        scriptRepoId := repoId
        commitSha := candidate.sha
        checksum := candidate.checksum
        metadata := summaryAsMetadata candidate.summary }
      ScriptRepos.record principal "script_version.pinned" "script_version" created.id
        (some [("commitSha", .text candidate.sha), ("ref", .text ref)])
      return (201, created)

/-! ## Requests for one commit -/

/-- A commit of a script repository, with the path of its plan. -/
structure Target where
  organizationId : Uuid
  repoId : Uuid
  sha : String
  planPath : String

/-- A request to pin the target: who makes it, and what it resolved to. -/
structure PinRequest (target : Target) where
  principal : AccessClaims
  ref : String
  candidate : PinCandidate
  ofOrganization : principal.organizationId = target.organizationId
  ofCommit : candidate.sha = target.sha

variable {target : Target}

/-- The version that a request inserts. -/
def PinRequest.version (request : PinRequest target) (id : Uuid) (resolvedAt : Timestamp) :
    ScriptVersion where
  id := id
  organizationId := request.principal.organizationId
  scriptRepoId := target.repoId
  commitSha := request.candidate.sha
  planPath := target.planPath
  checksum := request.candidate.checksum
  metadata := summaryAsMetadata request.candidate.summary
  resolvedAt := resolvedAt

/-- The audit row of the insertion. -/
def PinRequest.audit (request : PinRequest target) (id versionId : Uuid) : AuditLog where
  id := id
  organizationId := request.principal.organizationId
  userId := request.principal.userId
  action := "script_version.pinned"
  entityType := "script_version"
  entityId := versionId
  metadata := some [("commitSha", .text request.candidate.sha), ("ref", .text request.ref)]

variable (target)

/-- Second transactions of requests to pin the target, in any number. -/
def pins : Sql.System postgres Raised (Nat × ScriptVersion) where
  Job := PinRequest target
  setting request e := Setting.of (some request.principal.organizationId) e
  body request :=
    pinVersion request.principal target.repoId target.planPath request.ref request.candidate

abbrev PinServer := Sql.Server (pins target)

/-- A version is one of the target. -/
def Target.Names (row : ScriptVersion) : Prop :=
  row.scriptRepoId = target.repoId ∧ row.commitSha = target.sha ∧ row.planPath = target.planPath

instance (row : ScriptVersion) : Decidable (target.Names row) := inferInstanceAs (Decidable (_ ∧ _))

/-- The version of the target. -/
def Target.existing (d : Database) : Option ScriptVersion :=
  (d.scriptVersions.items.map Prod.snd).find? fun row => target.Names row

/-- The repository is there, and its versions are of its organisation. -/
structure Target.Ready (d : Database) : Prop where
  repo : ∃ row, d.scriptRepos.get? target.repoId = some row ∧
    row.organizationId = target.organizationId
  owned : ∀ id row, d.scriptVersions.get? id = some row → row.scriptRepoId = target.repoId →
    row.organizationId = target.organizationId

/-- A database with one more version and one more audit row. -/
def withPin (d : Database) (version : ScriptVersion) (audit : AuditLog) : Database :=
  { d with
    scriptVersions := d.scriptVersions.set version.id version
    auditLogs := d.auditLogs.set audit.id audit }

variable {target}

/-- What a request makes of the database when it answers: nothing, where the version
is there; else the version and an audit row. -/
def PinRequest.Effect (request : PinRequest target) (answer : Nat × ScriptVersion)
    (d d' : Database) : Prop :=
  (target.existing d = some answer.2 ∧ answer.1 = 200 ∧ d' = d) ∨
  (target.existing d = none ∧ answer.1 = 201 ∧ ∃ id auditId resolvedAt,
    answer.2 = request.version id resolvedAt ∧ d.scriptVersions.get? id = none ∧
      d.auditLogs.get? auditId = none ∧ d' = withPin d answer.2 (request.audit auditId id))

/-- Every request answers with the one version; at most one, the first, has
inserted it, with an audit row. -/
def Idempotent (d₀ : Database) (s : PinServer target) : Prop :=
  (∀ id session exc, s.sessions id = some session → session.program ≠ .finished (.error exc)) ∧
  ((s.returned = [] ∧ s.committed = d₀) ∨
    (∃ version, target.existing d₀ = some version ∧ s.committed = d₀ ∧
      ∀ r ∈ s.returned, r.2 = (200, version)) ∨
    ∃ (request : PinRequest target) (id auditId : Uuid) (resolvedAt : Timestamp)
      (rest : List (PinRequest target × Nat × ScriptVersion)),
      target.existing d₀ = none ∧
      d₀.scriptVersions.get? id = none ∧ d₀.auditLogs.get? auditId = none ∧
      s.committed = withPin d₀ (request.version id resolvedAt) (request.audit auditId id) ∧
      s.returned = (request, 201, request.version id resolvedAt) :: rest ∧
      ∀ r ∈ rest, r.2 = (200, request.version id resolvedAt))

/-! ## Conditions on steps -/

/-- A program is about to draw an identifier. -/
def drawing {α : Type} : Transaction α → Bool
  | .ask Question.uuid4 _ => true
  | _ => false

/-- A program is about to insert a version. -/
def inserting {α : Type} : Transaction α → Bool
  | .execute (Statement.insertScriptVersion _) _ => true
  | _ => false

/-- An identifier that a request draws is new. -/
def DrawnNew (s : PinServer target) : Sql.Event (pins target) → Prop
  | .advance i => ∀ session ∈ s.sessions i, drawing session.program = true →
      (s.view session).scriptVersions.get? (s.environment.uuids s.environment.uuidsDrawn) = none ∧
        (s.view session).auditLogs.get? (s.environment.uuids s.environment.uuidsDrawn) = none
  | _ => True

/-- When a request inserts the version, its lookup would still find nothing. -/
def StillMissing (s : PinServer target) : Sql.Event (pins target) → Prop
  | .advance i => ∀ session ∈ s.sessions i, inserting session.program = true →
      target.existing (s.view session) = none
  | _ => True

instance (s : PinServer target) (e : Sql.Event (pins target)) : Decidable (DrawnNew s e) :=
  match e with
  | .advance _ => inferInstanceAs (Decidable (∀ session ∈ _, _ → _ ∧ _))
  | .start _ _ => inferInstanceAs (Decidable True)
  | .commit _ => inferInstanceAs (Decidable True)
  | .rollback _ => inferInstanceAs (Decidable True)

instance (s : PinServer target) (e : Sql.Event (pins target)) : Decidable (StillMissing s e) :=
  match e with
  | .advance _ => inferInstanceAs (Decidable (∀ session ∈ _, _ → _ = _))
  | .start _ _ => inferInstanceAs (Decidable True)
  | .commit _ => inferInstanceAs (Decidable True)
  | .rollback _ => inferInstanceAs (Decidable True)

/-! ## The version of a target -/

section

variable {d d' d₀ : Database} {version : ScriptVersion}

theorem names_of_get? (missing : target.existing d = none) {id : Uuid}
    (there : d.scriptVersions.get? id = some version) : ¬ target.Names version := by
  have none_ := List.find?_eq_none.mp missing version
    (List.mem_map.mpr ⟨(id, version), Dict.get?_eq_some_iff.mp there, rfl⟩)
  intro names
  exact none_ (decide_eq_true names)

/-- The lookup finds the version of the target, whatever the organisation of the
others. -/
theorem lookup_eq {c : Setting} (ready : target.Ready d)
    (bound : c.org = some target.organizationId) :
    (Database.visible c d.scriptVersions).find? (fun row =>
      row.scriptRepoId = target.repoId ∧ row.commitSha = target.sha ∧
        row.planPath = target.planPath) = target.existing d := by
  rw [Database.visible, List.find?_filter, Target.existing]
  refine List.find?_congr ?_
  intro row member
  obtain ⟨⟨id, row'⟩, inItems, rfl⟩ := List.mem_map.mp member
  have owned := ready.owned id row' (Dict.get?_eq_some_iff.mpr inItems)
  simp only [decide_eq_true_eq]
  rw [decide_eq_decide]
  constructor
  · exact fun both => both.2
  · intro names
    refine ⟨?_, names⟩
    change c.org = some row'.organizationId
    rw [bound, owned names.1]

/-- The version that was pinned is the one of the target. -/
theorem existing_withPin (audit : AuditLog) (missing : target.existing d = none)
    (free : d.scriptVersions.get? version.id = none) (names : target.Names version) :
    target.existing (withPin d version audit) = some version := by
  rw [Target.existing, withPin, Dict.items_set_new free, List.map_append, List.find?_append]
  rw [Target.existing] at missing
  rw [missing, Option.none_or, List.map_cons, List.map_nil, List.find?_cons_of_pos]
  exact decide_eq_true names

/-- The target stays ready. -/
theorem Target.Ready.withPin {audit : AuditLog} (ready : target.Ready d)
    (owner : version.organizationId = target.organizationId) :
    target.Ready (withPin d version audit) where
  repo := ready.repo
  owned := by
    intro id row there ofRepo
    rw [ScriptVersions.withPin, Dict.get?_set] at there
    split at there
    · obtain rfl := Option.some.inj there
      exact owner
    · exact ready.owned id row there ofRepo

end

/-! ## One request -/

variable (target) in
/-- Requests leave the database as it is, or pin the missing version. -/
def Evolves (d d' : Database) : Prop :=
  d' = d ∨ (target.existing d = none ∧ ∃ version audit, target.Names version ∧
    version.organizationId = target.organizationId ∧ d.scriptVersions.get? version.id = none ∧
      d' = withPin d version audit)

section

variable {d d' d₁ d₂ d₃ : Database}

theorem Evolves.refl (d : Database) : Evolves target d d := Or.inl rfl

/-- A version that is there stays, and nothing else happens. -/
theorem Evolves.eq_of_existing {version : ScriptVersion} (evolves : Evolves target d d')
    (found : target.existing d = some version) : d' = d := by
  rcases evolves with same | ⟨missing, -⟩
  · exact same
  · rw [found] at missing
    cases missing

/-- Where the version is still missing, nothing has happened. -/
theorem Evolves.eq_of_missing (evolves : Evolves target d d') (missing : target.existing d' = none) :
    d' = d := by
  rcases evolves with same | ⟨before, version, audit, names, -, free, rfl⟩
  · exact same
  · rw [existing_withPin audit before free names] at missing
    cases missing

theorem Evolves.trans (first : Evolves target d₁ d₂) (second : Evolves target d₂ d₃) :
    Evolves target d₁ d₃ := by
  rcases second with rfl | ⟨missing, pin⟩
  · exact first
  · obtain rfl := first.eq_of_missing missing
    exact Or.inr ⟨missing, pin⟩

theorem Evolves.ready (evolves : Evolves target d d') (ready : target.Ready d) :
    target.Ready d' := by
  rcases evolves with rfl | ⟨-, version, audit, -, owner, -, rfl⟩
  · exact ready
  · exact ready.withPin owner

theorem PinRequest.names (request : PinRequest target) (id : Uuid) (resolvedAt : Timestamp) :
    target.Names (request.version id resolvedAt) := ⟨rfl, request.ofCommit, rfl⟩

theorem PinRequest.Effect.evolves {request : PinRequest target} {answer : Nat × ScriptVersion}
    (effect : request.Effect answer d d') : Evolves target d d' := by
  rcases effect with ⟨-, -, same⟩ | ⟨missing, -, id, auditId, resolvedAt, made, free, -, rfl⟩
  · exact Or.inl same
  · refine Or.inr ⟨missing, answer.2, _, ?_, ?_, ?_, rfl⟩
    · rw [made]
      exact request.names id resolvedAt
    · rw [made]
      exact request.ofOrganization
    · rw [made]
      exact free

end

variable (target) in
/-- What a request relies on: an entry of the unique index is its lock. -/
def rely : Sql.Rely postgres where
  lock := .entry (.scriptVersion target.repoId target.sha target.planPath)
  evolves := Evolves target
  evolves_refl := Evolves.refl
  evolves_trans _ _ _ := Evolves.trans
  allowed
    | .insertScriptVersion _, _, d => target.existing d = none
    | _, _, _ => True
  replies
    | d, .uuid4, id => d.scriptVersions.get? id = none ∧ d.auditLogs.get? id = none
    | _, _, _ => True

/-- The rest of a pin behind its lookup. -/
def PinRequest.afterLookup (request : PinRequest target) :
    Option ScriptVersion → Transaction (Nat × ScriptVersion)
  | some existing => return (200, existing)
  | none => do
      let id ← uuid4
      let created ← insertScriptVersion (request.version id)
      ScriptRepos.record request.principal "script_version.pinned" "script_version" created.id
        (some [("commitSha", .text request.candidate.sha), ("ref", .text request.ref)])
      return (201, created)

theorem pins_body (request : PinRequest target) :
    (pins target).body request =
      .execute (Statement.versionByCommit target.repoId request.candidate.sha target.planPath)
        request.afterLookup := rfl

/-- A version that is missing can be inserted. -/
theorem insertScriptVersion_eq {c : Setting} {d : Database} {request : PinRequest target} {id : Uuid}
    (ready : target.Ready d) (bound : c.org = some request.principal.organizationId)
    (missing : target.existing d = none) (free : d.scriptVersions.get? id = none) :
    Database.execute (.insertScriptVersion (request.version id)) c d =
      (.ok (request.version id c.now),
        [.scriptVersion (request.version id c.now),
          .entry (.scriptVersion target.repoId target.sha target.planPath)]) := by
  have unique : Database.exists_ d.scriptVersions (fun other =>
      other.scriptRepoId = target.repoId ∧ other.commitSha = request.candidate.sha ∧
        other.planPath = target.planPath) = false := by
    rw [Database.exists_, List.any_eq_false]
    intro item member taken
    rw [decide_eq_true_eq, request.ofCommit] at taken
    exact names_of_get? missing (Dict.get?_eq_some_iff.mpr member) taken
  obtain ⟨repo, there, -⟩ := ready.repo
  rw [← request.ofCommit]
  refine Database.returning_insert bound free ?_
  rw [Bool.and_eq_true, Bool.not_eq_true']
  exact ⟨Option.isSome_iff_exists.mpr ⟨repo, there⟩, unique⟩

/-- A request that inserts only what is missing answers with the version of the
target, and raises nothing. -/
theorem pins_keeps {c : Setting} {d : Database} {request : PinRequest target}
    (ready : target.Ready d) (bound : c.org = some request.principal.organizationId) :
    ((pins target).body request).Keeps (rely target) (fun _ => False)
      (Sql.Phase.Made request.Effect) c (.reading d) := by
  rw [pins_body]
  refine Sql.Program.Keeps.read (fun _ _ => rfl) ?_
  intro d₁ evolves₁
  have answered : (Database.execute (.versionByCommit target.repoId request.candidate.sha
      target.planPath) c d₁).1 = target.existing d₁ := by
    rw [request.ofCommit]
    exact lookup_eq (evolves₁.ready ready) (by rw [bound, request.ofOrganization])
  change (request.afterLookup (Database.execute (.versionByCommit target.repoId
    request.candidate.sha target.planPath) c d₁).1).Keeps _ _ _ c _
  rw [answered]
  cases found : target.existing d₁ with
  | some version =>
      intro d₂ evolves₂
      obtain rfl := Evolves.eq_of_existing evolves₂ found
      exact Or.inl ⟨found, rfl, rfl⟩
  | none =>
      intro d₂ id evolves₂ drawn d₃ evolves₃ missing
      obtain rfl := Evolves.eq_of_missing evolves₃ missing
      have ready₂ := Evolves.ready evolves₂ (evolves₁.ready ready)
      have inserted := insertScriptVersion_eq ready₂ bound missing drawn.1
      have executed : postgres.execute (Statement.insertScriptVersion (request.version id)) c d₃ =
        _ := inserted
      refine ⟨fun silent => ?_, fun _ => ⟨?_, ?_⟩⟩
      · rw [executed] at silent
        cases silent
      · rw [executed]
        exact List.mem_cons_of_mem _ (List.mem_singleton_self _)
      · rw [executed]
        refine Sql.Program.Keeps.bind ?_
        change (ScriptRepos.record _ _ _ _ _ >>= _).Keeps _ _ _ c (.owning d₃ _)
        refine Sql.Program.Keeps.bind (keeps_record bound ?_ ?_)
        · exact fun _ drawn' => drawn'.2
        · intro auditId free
          exact Or.inr ⟨missing, rfl, id, auditId, c.now, rfl, drawn.1, free, rfl⟩

/-! ## Any number of requests -/

section

variable {d₀ : Database}

/-- Requests to pin one target write under one lock. -/
def discipline (ready : target.Ready d₀) : Sql.Discipline (pins target) where
  toRely := rely target
  initial := d₀
  effect := PinRequest.Effect
  raises _ _ := False
  evolves_of_effect _ := PinRequest.Effect.evolves
  keeps _ _ _ _ evolves := pins_keeps (Evolves.ready evolves ready) rfl

theorem condition_of_stillMissing (ready : target.Ready d₀) (s : PinServer target)
    (e : Sql.Event (pins target)) (met : DrawnNew s e ∧ StillMissing s e) :
    (discipline ready).Condition s e := by
  cases e with
  | start i request => trivial
  | commit i => trivial
  | rollback i => trivial
  | advance i =>
      obtain ⟨isNew, missing⟩ := met
      intro session found
      constructor
      · intro st next shape
        cases st with
        | insertScriptVersion row => exact missing session found (by rw [shape]; rfl)
        | _ => trivial
      · intro q next shape
        cases q with
        | uuid4 => exact isNew session found (by rw [shape]; rfl)
        | _ => trivial

/-- What requests have answered that followed each other. -/
theorem answers_of_history {returned : List (PinRequest target × Nat × ScriptVersion)}
    {d : postgres.Database}
    (history : Sql.History (I := postgres) PinRequest.Effect d₀ returned d) :
    (returned = [] ∧ d = d₀) ∨
    (∃ version, target.existing d₀ = some version ∧ d = d₀ ∧ ∀ r ∈ returned, r.2 = (200, version)) ∨
    ∃ (request : PinRequest target) (id auditId : Uuid) (resolvedAt : Timestamp)
      (rest : List (PinRequest target × Nat × ScriptVersion)),
      target.existing d₀ = none ∧
      d₀.scriptVersions.get? id = none ∧ d₀.auditLogs.get? auditId = none ∧
      d = withPin d₀ (request.version id resolvedAt) (request.audit auditId id) ∧
      returned = (request, 201, request.version id resolvedAt) :: rest ∧
      ∀ r ∈ rest, r.2 = (200, request.version id resolvedAt) := by
  induction history with
  | nil => exact Or.inl ⟨rfl, rfl⟩
  | @snoc returned d d' request answer _ effect ih =>
      obtain ⟨status, row⟩ := answer
      rcases ih with ⟨rfl, rfl⟩ | ⟨version, found, rfl, all⟩ |
        ⟨first, id, auditId, resolvedAt, rest, missing, free, freeAudit, rfl, rfl, all⟩
      · rcases effect with ⟨found, rfl, rfl⟩ |
          ⟨missing, rfl, id, auditId, resolvedAt, rfl, free, freeAudit, rfl⟩
        · refine Or.inr (Or.inl ⟨row, found, rfl, ?_⟩)
          intro r member
          obtain rfl := List.mem_singleton.mp member
          rfl
        · refine Or.inr (Or.inr ⟨request, id, auditId, resolvedAt, [], missing, free, freeAudit, rfl,
            rfl, ?_⟩)
          intro r member
          cases member
      · rcases effect with ⟨found', rfl, rfl⟩ | ⟨missing, -⟩
        · refine Or.inr (Or.inl ⟨version, found, rfl, ?_⟩)
          intro r member
          rcases List.mem_append.mp member with before | here
          · exact all r before
          · obtain rfl := List.mem_singleton.mp here
            rw [found] at found'
            rw [Option.some.inj found']
        · rw [found] at missing
          cases missing
      · have found := existing_withPin (first.audit auditId id) missing free (first.names id resolvedAt)
        rcases effect with ⟨found', rfl, rfl⟩ | ⟨missing', -⟩
        · refine Or.inr (Or.inr ⟨first, id, auditId, resolvedAt, rest ++ [(request, 200, row)],
            missing, free, freeAudit, rfl, rfl, ?_⟩)
          intro r member
          rcases List.mem_append.mp member with before | here
          · exact all r before
          · obtain rfl := List.mem_singleton.mp here
            rw [found] at found'
            rw [Option.some.inj found']
        · rw [found] at missing'
          cases missing'

/-- Requests each of which inserts only what its lookup would still miss pin the
commit once, and all answer with the same version. -/
theorem idempotent_of_stillMissing {e : Environment} {s : PinServer target}
    (ready : target.Ready d₀)
    (run : Sql.Server.Run (fun s e => DrawnNew s e ∧ StillMissing s e)
      { committed := d₀, environment := e } s) :
    Idempotent d₀ s := by
  have inv := Sql.Discipline.invariant_of_run (condition_of_stillMissing ready) run
  refine ⟨?_, answers_of_history inv.history⟩
  intro id session exc found raised
  exact inv.raised found raised

end

/-! ## Two requests -/

/-- The commit `c0ffee` of the plan `plan.jmx`. -/
def sampleTarget : Target := ⟨1, 2, "c0ffee", "plan.jmx"⟩

theorem sampleTarget_organizationId : (1 : Uuid) = sampleTarget.organizationId := rfl

def sampleRequest : PinRequest sampleTarget where
  principal := ⟨3, 1, "MEMBER"⟩
  ref := "main"
  candidate := {
    sha := "c0ffee"
    checksum := "00"
    summary := ⟨[], [], [], [], [], []⟩ }
  ofOrganization := sampleTarget_organizationId
  ofCommit := rfl

def sampleRepo : ScriptRepo where
  id := 2
  organizationId := 1
  projectId := 4
  name := "repo"
  repoUrl := "https://example.org/repo.git"
  defaultRef := "main"
  planPath := "plan.jmx"
  credentialId := none
  createdBy := 3
  createdAt := 0
  updatedAt := 0

def sampleDatabase : Database where
  scriptRepos := Dict.ofList [(2, sampleRepo)]

theorem sampleDatabase_ready : sampleTarget.Ready sampleDatabase where
  repo := ⟨sampleRepo, rfl, rfl⟩
  owned := by
    intro id row there
    cases there

def sampleServer : PinServer sampleTarget where
  committed := sampleDatabase
  environment := {
    tokens := fun _ => ""
    uuids := fun k => BitVec.ofNat 128 (100 + k)
    clock := fun k => k }

/-- A request is served. -/
def served (i : Nat) : List (Sql.Event (pins sampleTarget)) :=
  .start i sampleRequest :: List.replicate 5 (.advance i) ++ [.commit i]

/-- The second request begins when the first is done. -/
def inTurn : List (Sql.Event (pins sampleTarget)) :=
  served 0 ++ [.start 1 sampleRequest, .advance 1, .commit 1]

/-- Both requests look the version up before either inserts it. -/
def together : List (Sql.Event (pins sampleTarget)) :=
  [.start 0 sampleRequest, .start 1 sampleRequest, .advance 0, .advance 1] ++
    List.replicate 4 (.advance 0) ++ [.commit 0, .advance 1, .advance 1]

theorem idempotent_inTurn : ∃ s : PinServer sampleTarget, Idempotent sampleDatabase s ∧
    s.returned.map (fun r => r.2.1) = [201, 200] := by
  cases ended : sampleServer.events (fun s e => DrawnNew s e ∧ StillMissing s e) inTurn with
  | none =>
      have some_ : (sampleServer.events (fun s e => DrawnNew s e ∧ StillMissing s e)
        inTurn).isSome = true := by decide +kernel
      rw [ended] at some_
      cases some_
  | some s =>
      refine ⟨s, idempotent_of_stillMissing sampleDatabase_ready
        (Sql.Server.run_of_events .refl ended), ?_⟩
      have answers : (sampleServer.events (fun s e => DrawnNew s e ∧ StillMissing s e)
        inTurn).map (fun s => s.returned.map fun r => r.2.1) = some [201, 200] := by decide +kernel
      rw [ended] at answers
      exact Option.some.inj answers

/-- A session that has ended in the error of a unique index. -/
def collided (session : Sql.Session (pins sampleTarget)) : Bool :=
  session.program matches .finished (.error .integrityError)

theorem program_of_collided {session : Sql.Session (pins sampleTarget)} (shape : collided session = true) :
    session.program = .finished (.error .integrityError) := by
  rw [collided] at shape
  split at shape
  · assumption
  · cases shape

/-- The later insertion runs into the unique constraint, and nobody handles it. -/
theorem together_collide : ∃ (s : PinServer sampleTarget) (session : Sql.Session (pins sampleTarget)),
    Sql.Server.Run DrawnNew sampleServer s ∧ s.sessions 1 = some session ∧
      session.program = .finished (.error .integrityError) ∧ ¬ Idempotent sampleDatabase s := by
  cases ended : sampleServer.events DrawnNew together with
  | none =>
      have some_ : (sampleServer.events DrawnNew together).isSome = true := by decide +kernel
      rw [ended] at some_
      cases some_
  | some s =>
      have raised : ((sampleServer.events DrawnNew together).bind fun s =>
          (s.sessions 1).map collided) = some true := by
        decide +kernel
      rw [ended] at raised
      cases found : s.sessions 1 with
      | none => simp [found] at raised
      | some session =>
          have shape : collided session = true := by simpa [found] using raised
          have program := program_of_collided shape
          refine ⟨s, session, Sql.Server.run_of_events .refl ended, found, program, ?_⟩
          exact fun idempotent => idempotent.1 1 session _ found program

end Plimsoll.ScriptVersions
