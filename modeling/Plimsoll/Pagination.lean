import Plimsoll.Contracts.Pagination
import Plimsoll.Services

/-!
Keyset paging over a timestamp and an identifier, and the endpoints that list a
collection: a cursor is decoded into a position, and one row that is fetched
beyond the limit turns into the next cursor.
-/

namespace Plimsoll.Pagination

open Python Contracts Transaction

/-- `Position`. -/
abbrev Position := Datetime × Uuid

/-- The refusal of a cursor. -/
def malformed : PlimsollError where
  code := .validationFailed
  message := "The cursor is malformed."

/-! ## `position_from` -/

/-- `payload[key]`. -/
def subscript (payload : Payload) (key : String) : Except Raised Json.Value :=
  match payload.lookup key with
  | some value => .ok value
  | none => .error .keyError

/-- `datetime.fromisoformat(value)`. -/
def fromisoformat (interp : Interpreter) : Json.Value → Except Raised Datetime
  | .str text =>
      match interp.fromisoformat text.toList with
      | some d => .ok d
      | none => .error .valueError
  | _ => .error .typeError

/-- `uuid.UUID(value)`; what is neither a string nor `None` has no `replace`. -/
def uuid (interp : Interpreter) : Json.Value → Except Raised Uuid
  | .null => .error .typeError
  | .str text =>
      match Python.Uuid.parse interp.ucd text.toList with
      | some id => .ok id
      | none => .error .valueError
  | _ => .error .attributeError

/-- What `json` raises, on its way up. -/
def raisedOf : Json.Failure → Raised
  | .valueError => .valueError
  | .recursionError => .recursionError

/-- `except (ValueError, KeyError, TypeError)`. -/
def caught : Raised → Raised
  | .valueError => .plimsollError malformed
  | .keyError => .plimsollError malformed
  | .typeError => .plimsollError malformed
  | exc => exc

variable (interp : Interpreter)

/-- The body of the `try` of `position_from`. -/
def positionOf (cursor : String) : Except Raised Position := do
  let payload ← (decodeCursor interp cursor).mapError raisedOf
  let stamp ← fromisoformat interp (← subscript payload "at")
  let id ← uuid interp (← subscript payload "id")
  return (stamp, id)

/-- `position_from`. -/
def positionFrom : Option String → Except Raised (Option Position)
  | none => .ok none
  | some cursor => ((positionOf interp cursor).mapError caught).map some

/-! ## `page_of` -/

variable {ρ τ : Type}

/-- The payload of a cursor. -/
def payloadOf (stamp : Datetime) (id : Uuid) : Payload :=
  [("at", .str (String.ofList stamp.isoformat)), ("id", .str (ScriptRepos.uuidText id))]

/-- `next_cursor` of `page_of`. -/
def nextCursor (rows : List ρ) (limit : Nat) (timestamp : ρ → Datetime) (id : ρ → Uuid) :
    Except Raised (Option String) :=
  match (rows.take limit).getLast? with
  | none => .ok none
  | some last =>
      if limit < rows.length then
        ((encodeCursor interp (payloadOf (timestamp last) (id last))).mapError raisedOf).map some
      else .ok none

/-- `[present(row) for row in visible]`. -/
def presentAll (present : ρ → Transaction τ) : List ρ → Transaction (List τ)
  | [] => return []
  | row :: rest => do
      let item ← present row
      let items ← presentAll present rest
      return item :: items

/-- `page_of`. -/
def pageOf (rows : List ρ) (limit : Nat) (present : ρ → Transaction τ) (timestamp : ρ → Datetime)
    (id : ρ → Uuid) : Transaction (Page τ) := do
  let nextCursor ← .finished (nextCursor interp rows limit timestamp id)
  let items ← presentAll present (rows.take limit)
  return { items, nextCursor }

/-! ## The driver -/

/-- How the driver sends a `datetime` as a `timestamptz`: an aware one as its
instant, if it has one in UTC. What it makes of a naive one is left open. -/
structure Driver where
  timestamptz : Datetime → Except Raised Timestamp
  aware : ∀ d : Datetime, d.utcoffset.isSome = true →
    timestamptz d = (d.instant.elim (.error .dataError) .ok)
  refusal : ∀ d exc, timestamptz d = .error exc → exc = .dataError

/-- A driver that refuses a naive one. -/
def Driver.strict : Driver where
  timestamptz d := d.instant.elim (.error .dataError) .ok
  aware _ _ := rfl
  refusal d exc refused := by
    cases placed : d.instant with
    | none =>
        rw [placed] at refused
        exact (Except.error.inj refused).symm
    | some t =>
        rw [placed] at refused
        cases refused

variable (driver : Driver)

/-- `after_at` and `after_id`, as they are sent. -/
def parameters : Option Position → Except Raised (Option Database.Position)
  | none => .ok none
  | some (stamp, id) => (driver.timestamptz stamp).map fun t => some (Database.position t id)

/-! ## Collections -/

/-- A collection that is listed: the statement of its `list_page`, its ordering
columns and the rows that are there to be listed. -/
structure Listing (ρ : Type) where
  listPage : Nat → Option Database.Position → Transaction (List ρ)
  timestamp : ρ → Timestamp
  id : ρ → Uuid
  rows : Sql.View postgres → List ρ
  answers : ∀ limit after v, (listPage limit after).run v =
    (.ok (Sql.page (fun row => Database.position (timestamp row) (id row)) limit after (rows v)), v)

namespace Listing

def projects : Listing Project where
  listPage := listProjects
  timestamp := Project.createdAt
  id := Project.id
  rows v := Database.visible v.setting v.database.projects
  answers _ _ _ := rfl

def pools : Listing GeneratorPool where
  listPage := listPools
  timestamp := GeneratorPool.createdAt
  id := GeneratorPool.id
  rows v := Database.visible v.setting v.database.pools
  answers _ _ _ := rfl

def credentials : Listing CredentialSummary where
  listPage := listCredentials
  timestamp := CredentialSummary.createdAt
  id := CredentialSummary.id
  rows v := (Database.visible v.setting v.database.credentials).map Credential.summary
  answers limit after v := by
    rw [Sql.page_map]
    rfl

def scriptRepos (projectId : Uuid) : Listing ScriptRepo where
  listPage := listScriptRepos projectId
  timestamp := ScriptRepo.createdAt
  id := ScriptRepo.id
  rows v := (Database.visible v.setting v.database.scriptRepos).filter fun row =>
    row.projectId = projectId
  answers _ _ _ := rfl

def scriptVersions (repoId : Uuid) : Listing ScriptVersion where
  listPage := listScriptVersions repoId
  timestamp := ScriptVersion.resolvedAt
  id := ScriptVersion.id
  rows v := (Database.visible v.setting v.database.scriptVersions).filter fun row =>
    row.scriptRepoId = repoId
  answers _ _ _ := rfl

def tests (projectId : Uuid) : Listing PerformanceTest where
  listPage := listTests projectId
  timestamp := PerformanceTest.createdAt
  id := PerformanceTest.id
  rows v := (Database.visible v.setting v.database.tests).filter fun row =>
    row.projectId = projectId
  answers _ _ _ := rfl

end Listing

/-! ## Endpoints -/

variable (listing : Listing ρ)

/-- `repo.list_page(session, limit=limit + 1, after=position_from(cursor))`. -/
def Listing.fetch (limit : Nat) (cursor : Option String) : Transaction (List ρ) := do
  let after ← .finished (positionFrom interp cursor)
  let after ← .finished (parameters driver after)
  listing.listPage (limit + 1) after

/-- The body of an endpoint that lists a collection. The driver hands out a
`timestamptz` in UTC. -/
def Listing.page (present : ρ → Transaction τ) (limit : Nat) (cursor : Option String) :
    Transaction (Page τ) := do
  let rows ← listing.fetch interp driver limit cursor
  pageOf interp rows limit present (fun row => Datetime.ofInstant (listing.timestamp row)) listing.id

/-- `list_projects`. -/
def listProjects (limit : Nat) (cursor : Option String) : Transaction (Page Project) :=
  Listing.projects.page interp driver pure limit cursor

/-- `list_pools`. -/
def listPools (limit : Nat) (cursor : Option String) : Transaction (Page PoolResponse) :=
  Listing.pools.page interp driver (fun row => Pools.response (some row)) limit cursor

/-- `list_credentials`. -/
def listCredentials (limit : Nat) (cursor : Option String) : Transaction (Page CredentialSummary) :=
  Listing.credentials.page interp driver pure limit cursor

/-- `list_script_repos`. -/
def listScriptRepos (projectId : Uuid) (limit : Nat) (cursor : Option String) :
    Transaction (Page ScriptRepo) :=
  (Listing.scriptRepos projectId).page interp driver pure limit cursor

/-- `list_versions`. -/
def listVersions (repoId : Uuid) (limit : Nat) (cursor : Option String) :
    Transaction (Page ScriptVersion) := do
  let _ ← ScriptRepos.require repoId
  (Listing.scriptVersions repoId).page interp driver pure limit cursor

/-- `list_tests`: the documents of the page are read before the page is made. -/
def listTests (projectId : Uuid) (limit : Nat) (cursor : Option String) :
    Transaction (Page PerformanceTests.TestDocument) := do
  let listing := Listing.tests projectId
  let rows ← listing.fetch interp driver limit cursor
  let read ← presentAll (fun row => PerformanceTests.require row.id) (rows.take limit)
  let documents := ((rows.take limit).map PerformanceTest.id).zip read
  let present (row : PerformanceTest) : Transaction PerformanceTests.TestDocument :=
    match documents.lookup row.id with
    | none => raise .keyError
    | some document => PerformanceTests.response document
  pageOf interp rows limit present (fun row => Datetime.ofInstant row.createdAt) PerformanceTest.id

end Plimsoll.Pagination
