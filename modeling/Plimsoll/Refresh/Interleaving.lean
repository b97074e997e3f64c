import Plimsoll.Database.Statements
import Plimsoll.Refresh
import Plimsoll.Sql.ReadCommitted

/-!
Rotations that run side by side.

`rotate` looks the presented hash up in one statement and replaces the hash of
the family it found in another, which names the family and not the hash. A
second rotation of the same token can pass between the two.
-/

namespace Plimsoll.Refresh

open Python Contracts Transaction
open Database (Setting Statement Write)

/-! ## Jobs -/

/-- A transaction on refresh tokens, in the session of an organisation. -/
inductive Job where
  | issue (userId organizationId : Uuid)
  | rotate (raw : String) (organizationId : Uuid)
deriving DecidableEq

namespace Job

def organizationId : Job → Uuid
  | .issue _ organizationId => organizationId
  | .rotate _ organizationId => organizationId

/-- The token a rotation presents. -/
def presented : Job → Option String
  | .issue _ _ => none
  | .rotate raw _ => some raw

end Job

/-- What a job hands out: a token, its user and its organisation. -/
abbrev Granted := String × Uuid × Uuid

variable (dep : Deployment)

def Job.body : Job → Transaction Granted
  | .issue userId organizationId => do
      let raw ← issueFamily dep userId organizationId
      return (raw, userId, organizationId)
  | .rotate raw _ => Refresh.rotate dep raw

/-- Jobs in any number. -/
def rotations : Sql.System postgres Raised Granted where
  Job := Job
  setting job e := Setting.of (some job.organizationId) e
  body := Job.body dep

abbrev RefreshServer := Sql.Server (rotations dep)

/-! ## The claim and the condition -/

variable {dep}

/-- A token has been presented: some rotation was started with its hash. -/
def Presented (s : RefreshServer dep) (raw : String) : Prop :=
  ∃ job ∈ s.started, job.presented.map dep.sha256 = some (dep.sha256 raw)

/-- A token is the current one of the family it was issued in. -/
def Current (s : RefreshServer dep) (raw : String) : Prop :=
  ∃ entry row, s.committed.history.get? (dep.sha256 raw) = some entry ∧
    s.committed.families.get? entry.familyId = some row ∧ row.currentHash = dep.sha256 raw

/-- No token is consumed twice, and each token handed out for another is current
until it is presented itself. -/
structure ConsumedOnce (s : RefreshServer dep) : Prop where
  once : ∀ raw, s.returned.countP (fun r => r.1.presented = some raw) ≤ 1
  kept : ∀ r ∈ s.returned, r.1.presented.isSome = true → Presented s r.2.1 ∨ Current s r.2.1

/-- The family whose hash a session is about to replace, and the token it was
presented with. -/
def replacing (session : Sql.Session (rotations dep)) : Option (Uuid × String) :=
  match session.job, session.program with
  | .rotate raw _, .execute (Statement.replaceHash familyId _) _ => some (familyId, raw)
  | _, _ => none

/-- A rotation that replaces a family's hash finds the presented hash there. -/
def StillCarries (s : RefreshServer dep) : Sql.Event (rotations dep) → Prop
  | .advance id => ∀ session ∈ s.sessions id, ∀ target ∈ replacing session,
      ((s.view session).families.get? target.1).map RefreshTokenFamily.currentHash =
        some (dep.sha256 target.2)
  | _ => True

instance (s : RefreshServer dep) (e : Sql.Event (rotations dep)) : Decidable (StillCarries s e) :=
  match e with
  | .advance _ => inferInstanceAs (Decidable (∀ session ∈ _, ∀ target ∈ _, _ = _))
  | .start _ _ => inferInstanceAs (Decidable True)
  | .commit _ => inferInstanceAs (Decidable True)
  | .rollback _ => inferInstanceAs (Decidable True)

/-! ## Where a session stands -/

variable (dep)

/-- The end of a rotation, and of an issue: the new hash of a family is put into
the history. -/
def record (row : RefreshTokenFamily) (newRaw : String) : Transaction Granted := do
  recordHistory
    { tokenHash := dep.sha256 newRaw, familyId := row.id, organizationId := row.organizationId }
  return (newRaw, row.userId, row.organizationId)

/-- The rest of a rotation behind its look at the clock. -/
def afterNow (row : RefreshTokenFamily) (time : Timestamp) : Transaction Granted :=
  if row.expiresAt ≤ time then raise (.refreshRejected "Refresh token expired.")
  else replace dep row

/-- The rest of a rotation behind `find_by_hash`. -/
def afterFind (raw : String) : Option RefreshTokenFamily → Transaction Granted
  | none => do
      revokeFamilyContaining (dep.sha256 raw)
      raise (.refreshRejected "Unknown or already-consumed refresh token.")
  | some row =>
      if row.revokedAt.isSome then raise (.refreshRejected "This token family has been revoked.")
      else .ask Question.now (afterNow dep row)

/-- A family as it is issued. -/
def issued (userId organizationId : Uuid) (raw : String) (id : Uuid) (time : Timestamp) :
    RefreshTokenFamily where
  id := id
  organizationId := organizationId
  userId := userId
  currentHash := dep.sha256 raw
  expiresAt := time + dep.refreshTokenTtlSeconds * 1000000

theorem rotate_eq (raw : String) :
    rotate dep raw = .execute (Statement.findByHash (dep.sha256 raw)) (afterFind dep raw) := rfl

theorem replace_eq (row : RefreshTokenFamily) :
    replace dep row = .ask Question.tokenUrlsafe fun newRaw =>
      .execute (Statement.replaceHash row.id (dep.sha256 newRaw)) fun _ => record dep row newRaw :=
  rfl

theorem issue_eq (userId organizationId : Uuid) :
    Job.body dep (.issue userId organizationId) =
      .ask Question.tokenUrlsafe fun raw => .ask Question.uuid4 fun id => .ask Question.now fun time =>
        .execute (Statement.insertFamily (issued dep userId organizationId raw id time)) fun result =>
          checked result >>= fun _ =>
            record dep (issued dep userId organizationId raw id time) raw := by
  simp only [Job.body, issueFamily, Sql.Program.bind_assoc]
  rfl

theorem record_eq (row : RefreshTokenFamily) (newRaw : String) :
    record dep row newRaw =
      .execute (Statement.recordHistory ⟨dep.sha256 newRaw, row.id, row.organizationId⟩) fun result =>
        checked result >>= fun _ => pure (newRaw, row.userId, row.organizationId) := rfl

/-- The family that a rotation has found stands, and the session may write it. -/
structure Found (c : Setting) (d : Database) (row : RefreshTokenFamily) : Prop where
  sees : c.Sees row
  stands : ∃ current, d.families.get? row.id = some current ∧
    current.organizationId = row.organizationId

/-- What a job may make of a family: a new one, or the one that has the hash it
presents. -/
def Replaceable (d : Database) (row : RefreshTokenFamily) : Job → Prop
  | .issue _ _ => d.families.get? row.id = none
  | .rotate raw _ => ∃ old, d.families.get? row.id = some old ∧
      old.currentHash = dep.sha256 raw ∧ old.organizationId = row.organizationId

/-- Where a session stands, and the number of the token it has drawn and not yet
handed out. `d` is what is committed. -/
inductive Stage (tokens : Nat → String) (d : Database) :
    Option Nat → Sql.Session (rotations dep) → Prop
  | finding {raw : String} {org : Uuid} {c : Setting} :
      Stage tokens d none ⟨.rotate raw org, c, [], rotate dep raw⟩
  | rejecting {raw : String} {org : Uuid} {c : Setting} {exc : Raised} :
      Stage tokens d none ⟨.rotate raw org, c, [],
        .execute (Statement.revokeFamilyContaining (dep.sha256 raw)) fun _ => raise exc⟩
  | timing {raw : String} {org : Uuid} {c : Setting} {row : RefreshTokenFamily}
      (found : Found c d row) :
      Stage tokens d none ⟨.rotate raw org, c, [], .ask Question.now (afterNow dep row)⟩
  | drawing {raw : String} {org : Uuid} {c : Setting} {row : RefreshTokenFamily}
      (found : Found c d row) : Stage tokens d none ⟨.rotate raw org, c, [], replace dep row⟩
  | replacing {raw : String} {org : Uuid} {c : Setting} {row : RefreshTokenFamily} {k : Nat}
      (found : Found c d row) :
      Stage tokens d (some k) ⟨.rotate raw org, c, [],
        .execute (Statement.replaceHash row.id (dep.sha256 (tokens k))) fun _ =>
          record dep row (tokens k)⟩
  | starting {userId org : Uuid} {c : Setting} :
      Stage tokens d none ⟨.issue userId org, c, [], Job.body dep (.issue userId org)⟩
  | naming {userId org : Uuid} {c : Setting} {k : Nat} :
      Stage tokens d (some k) ⟨.issue userId org, c, [],
        .ask Question.uuid4 fun id => .ask Question.now fun time =>
          .execute (Statement.insertFamily (issued dep userId org (tokens k) id time)) fun result =>
            checked result >>= fun _ => record dep (issued dep userId org (tokens k) id time) (tokens k)⟩
  | dating {userId org : Uuid} {c : Setting} {k : Nat} {id : Uuid} :
      Stage tokens d (some k) ⟨.issue userId org, c, [],
        .ask Question.now fun time =>
          .execute (Statement.insertFamily (issued dep userId org (tokens k) id time)) fun result =>
            checked result >>= fun _ => record dep (issued dep userId org (tokens k) id time) (tokens k)⟩
  | inserting {userId org : Uuid} {c : Setting} {k : Nat} {row : RefreshTokenFamily}
      (hash : row.currentHash = dep.sha256 (tokens k)) :
      Stage tokens d (some k) ⟨.issue userId org, c, [],
        .execute (Statement.insertFamily row) fun result =>
          checked result >>= fun _ => record dep row (tokens k)⟩
  | recording {job : Job} {c : Setting} {k : Nat} {row new : RefreshTokenFamily}
      (hash : new.currentHash = dep.sha256 (tokens k)) (sameId : new.id = row.id)
      (sameOrg : new.organizationId = row.organizationId) (base : Replaceable dep d new job) :
      Stage tokens d (some k) ⟨job, c, [.family new], record dep row (tokens k)⟩
  | granting {job : Job} {c : Setting} {k : Nat} {new : RefreshTokenFamily} {userId org : Uuid}
      (hash : new.currentHash = dep.sha256 (tokens k)) (base : Replaceable dep d new job) :
      Stage tokens d (some k) ⟨job, c,
        [.family new, .history ⟨new.currentHash, new.id, new.organizationId⟩],
        .finished (.ok (tokens k, userId, org))⟩
  | failed {job : Job} {c : Setting} {pending : List Write} {exc : Raised} :
      Stage tokens d none ⟨job, c, pending, raise exc⟩

end Plimsoll.Refresh
