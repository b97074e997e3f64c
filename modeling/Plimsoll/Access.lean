import Plimsoll.Effects.Services
import Plimsoll.Pagination.Cursors
import Plimsoll.Tenancy.Services

/-!
Who may change what.

A call bears a token. The guard of its endpoint reads the principal from it, and lets the
call through to the services only with the permission that the endpoint requires. However
calls run side by side, what is committed was called for with the token of an
administrator of the organisation.
-/

namespace Plimsoll.Access

open Python Contracts
open Database (RowLock)
open Effects (store effect nonceBytes)
open History (InPlace rowAt)
open Pagination (subscript uuid)
open ScriptRepos (uuidText)

/-! ## Tokens -/

/-- PyJWT, with HS256 and at a time; `none` is a `PyJWTError`. -/
structure Jwt where
  encode (payload : Payload) (secret : String) : String
  decode (token secret : String) (now : Timestamp) : Option Payload

/-- What the guards are deployed with. -/
structure Guards where
  interp : Interpreter
  jwt : Jwt
  jwtSecret : String
  accessTokenTtlSeconds : Int

/-- `AccessClaims`, as a token has them: the role is any value. -/
structure Claims where
  userId : Uuid
  organizationId : Uuid
  role : Json.Value

variable (guards : Guards)

/-- When a token expires that is issued now, in the seconds that PyJWT makes of it. -/
def expiry (now : Timestamp) : Int := (now + guards.accessTokenTtlSeconds * 1000000) / 1000000

/-- The payload of `issue_access_token`. -/
def payloadOf (principal : AccessClaims) (now : Timestamp) : Payload :=
  [("sub", .str (uuidText principal.userId)), ("org", .str (uuidText principal.organizationId)),
    ("role", .str principal.role), ("iat", .int (now / 1000000)), ("exp", .int (expiry guards now))]

/-- `issue_access_token`. -/
def issueAccessToken (principal : AccessClaims) (now : Timestamp) : String :=
  guards.jwt.encode (payloadOf guards principal now) guards.jwtSecret

/-- The claims of a payload. -/
def claimsOf (payload : Payload) : Except Raised Claims := do
  let userId ← uuid guards.interp (← subscript payload "sub")
  let organizationId ← uuid guards.interp (← subscript payload "org")
  let role ← subscript payload "role"
  return { userId, organizationId, role }

/-- How `decode_access_token` fails. -/
inductive TokenFailure where
  | tokenError
  | raised (exc : Raised)

/-- `except (KeyError, ValueError, TypeError)`. -/
def tokenFailure : Raised → TokenFailure
  | .keyError | .valueError | .typeError => .tokenError
  | exc => .raised exc

/-- `decode_access_token`. -/
def decodeAccessToken (token : String) (now : Timestamp) : Except TokenFailure Claims :=
  match guards.jwt.decode token guards.jwtSecret now with
  | none => .error .tokenError
  | some payload =>
      match claimsOf guards payload with
      | .ok claims => .ok claims
      | .error exc => .error (tokenFailure exc)

/-- The refusal of a call without a token. -/
def anonymous : PlimsollError where
  code := .unauthenticated
  message := "Authentication is required."

/-- The refusal of a token. -/
def invalid : PlimsollError where
  code := .unauthenticated
  message := "The access token is invalid or has expired."

/-- `current_principal`, of the header `Authorization`. -/
def currentPrincipal (authorization : Option String) (now : Timestamp) : Except Raised Claims :=
  let header := authorization.getD ""
  if startsWith header "Bearer " = false then .error (.plimsollError anonymous)
  else
    match decodeAccessToken guards (removePrefix header "Bearer ") now with
    | .ok claims => .ok claims
    | .error .tokenError => .error (.plimsollError invalid)
    | .error (.raised exc) => .error exc

/-! ## Permissions -/

/-- `Permission`. -/
inductive Permission where
  | projectRead
  | projectWrite
  | scriptRead
  | scriptWrite
  | testRead
  | testWrite
  | adminSystem
deriving DecidableEq

def Permission.text : Permission → String
  | .projectRead => "project.read"
  | .projectWrite => "project.write"
  | .scriptRead => "script.read"
  | .scriptWrite => "script.write"
  | .testRead => "test.read"
  | .testWrite => "test.write"
  | .adminSystem => "admin.system"

/-- `frozenset(Permission)`. -/
def allPermissions : List Permission :=
  [.projectRead, .projectWrite, .scriptRead, .scriptWrite, .testRead, .testWrite, .adminSystem]

/-- `READ_PERMISSIONS`. -/
def readPermissions : List Permission := [.projectRead, .scriptRead, .testRead]

/-- `ROLE_PERMISSIONS`. -/
def rolePermissions : List (String × List Permission) :=
  [("ORG_ADMIN", allPermissions), ("VIEWER", readPermissions)]

/-- `permissions_for`; a list or an object is no key. -/
def permissionsFor : Json.Value → Except Raised (List Permission)
  | .str role => .ok ((rolePermissions.lookup role).getD [])
  | .list _ | .dict _ => .error .typeError
  | _ => .ok []

/-- What a guard refuses. -/
def denied (permission : Permission) : PlimsollError where
  code := .permissionDenied
  message := "This action requires the " ++ permission.text ++ " permission."

/-- `requires`. -/
def requires (permission : Permission) (claims : Claims) : Except Raised Unit := do
  let held ← permissionsFor claims.role
  if permission ∈ held then .ok () else .error (.plimsollError (denied permission))

/-- The permission that the endpoint of an operation requires. -/
def required : Operation → Permission
  | .createProject _ | .updateProject .. | .archiveProject _ => .projectWrite
  | .createPool _ | .updatePool .. | .archivePool _ => .adminSystem
  | .createCredential _ | .deleteCredential _ => .adminSystem
  | .createScriptRepo .. | .updateScriptRepo .. | .archiveScriptRepo _ => .scriptWrite
  | .createTest .. | .updateTest .. | .archiveTest _ => .testWrite
  | .replaceTargetPolicy _ => .adminSystem
  | .pinVersion .. => .scriptWrite

/-! ## Calls -/

/-- A call to one of the endpoints that write. -/
structure Call where
  authorization : Option String
  receivedAt : Timestamp
  operation : Operation

/-- The request that a call is let through as; only a string is a role with permissions. -/
def admission (call : Call) : Except Raised Request := do
  let claims ← currentPrincipal guards call.authorization call.receivedAt
  requires (required call.operation) claims
  match claims.role with
  | .str role => .ok {
      principal := ⟨claims.userId, claims.organizationId, role⟩
      operation := call.operation }
  | _ => .error .typeError

/-- No reader may write. -/
theorem required_not_read (operation : Operation) : required operation ∉ readPermissions := by
  cases operation with
  | _ => simp [required, readPermissions]

theorem mem_allPermissions (permission : Permission) : permission ∈ allPermissions := by
  cases permission with
  | _ => decide

/-- An administrator is granted every permission, a viewer those to read, and any other none. -/
theorem requires_eq (permission : Permission) (userId organizationId : Uuid) (role : String) :
    requires permission ⟨userId, organizationId, .str role⟩ =
      if role = "ORG_ADMIN" ∨ role = "VIEWER" ∧ permission ∈ readPermissions then .ok ()
      else .error (.plimsollError (denied permission)) := by
  change (if permission ∈ (rolePermissions.lookup role).getD [] then _ else _) = _
  rw [rolePermissions]
  by_cases admin : role = "ORG_ADMIN"
  · rw [admin, List.lookup_cons_self, if_pos (Or.inl rfl)]
    exact if_pos (mem_allPermissions _)
  · rw [List.lookup_cons, beq_false_of_ne admin]
    by_cases viewer : role = "VIEWER"
    · rw [viewer, List.lookup_cons_self]
      by_cases reads : permission ∈ readPermissions
      · rw [if_pos (Or.inr ⟨rfl, reads⟩)]
        exact if_pos reads
      · have neither : ¬ ("VIEWER" = "ORG_ADMIN" ∨
            "VIEWER" = "VIEWER" ∧ permission ∈ readPermissions) :=
          not_or_intro (by decide) fun both => reads both.2
        rw [if_neg neither]
        exact if_neg reads
    · have neither : ¬ (role = "ORG_ADMIN" ∨ role = "VIEWER" ∧ permission ∈ readPermissions) :=
        not_or_intro admin fun both => viewer both.1
      rw [List.lookup_cons, beq_false_of_ne viewer, if_neg neither]
      exact if_neg List.not_mem_nil

/-- The permission that an endpoint requires is an administrator's only. -/
theorem requires_role (operation : Operation) (userId organizationId : Uuid) (role : String) :
    requires (required operation) ⟨userId, organizationId, .str role⟩ =
      if role = "ORG_ADMIN" then .ok ()
      else .error (.plimsollError (denied (required operation))) := by
  have only : role = "ORG_ADMIN" ∨ role = "VIEWER" ∧ required operation ∈ readPermissions ↔
      role = "ORG_ADMIN" :=
    or_iff_left fun both => required_not_read operation both.2
  rw [requires_eq]
  exact if_congr only rfl rfl

theorem administrator_of_requires {operation : Operation} {claims : Claims}
    (granted : requires (required operation) claims = .ok ()) : claims.role = .str "ORG_ADMIN" := by
  obtain ⟨userId, organizationId, role⟩ := claims
  cases role with
  | str role =>
      rw [requires_role] at granted
      by_cases admin : role = "ORG_ADMIN"
      · rw [admin]
      · rw [if_neg admin] at granted
        cases granted
  | _ => cases granted

/-- A call that is let through bears the token of an administrator. -/
theorem admission_ok {call : Call} {request : Request}
    (admitted : admission guards call = .ok request) :
    request.operation = call.operation ∧ request.principal.role = "ORG_ADMIN" ∧
      currentPrincipal guards call.authorization call.receivedAt =
        .ok ⟨request.principal.userId, request.principal.organizationId, .str "ORG_ADMIN"⟩ := by
  obtain ⟨claims, read, rest⟩ := of_bind_eq_ok admitted
  obtain ⟨⟨⟩, granted, rest⟩ := of_bind_eq_ok rest
  have administrator := administrator_of_requires granted
  obtain ⟨userId, organizationId, role⟩ := claims
  obtain rfl : role = .str "ORG_ADMIN" := administrator
  obtain rfl := Except.ok.inj rest
  exact ⟨rfl, rfl, read⟩

/-! ## Tokens that are borne -/

/-- PyJWT reads what it has signed, from the time of issue on until it expires. -/
def Jwt.Reads (jwt : Jwt) (payload : Payload) (secret : String) (iat exp : Int) : Prop :=
  ∀ now, iat * 1000000 ≤ now → jwt.decode (jwt.encode payload secret) secret now =
    if exp * 1000000 ≤ now then none else some payload

theorem uuid_uuidText (interp : Interpreter) (id : Uuid) :
    uuid interp (.str (uuidText id)) = .ok id := by
  rw [uuid, Pagination.toList_uuidText, Python.Uuid.parse_dashed]

/-- A payload is read as the principal that it was made of. -/
theorem claimsOf_payloadOf (principal : AccessClaims) (issuedAt : Timestamp) :
    claimsOf guards (payloadOf guards principal issuedAt) =
      .ok ⟨principal.userId, principal.organizationId, .str principal.role⟩ := by
  have sub : subscript (payloadOf guards principal issuedAt) "sub" =
      .ok (.str (uuidText principal.userId)) := rfl
  have org : subscript (payloadOf guards principal issuedAt) "org" =
      .ok (.str (uuidText principal.organizationId)) := rfl
  have role : subscript (payloadOf guards principal issuedAt) "role" =
      .ok (.str principal.role) := rfl
  rw [claimsOf, sub, ok_bind, uuid_uuidText, ok_bind, org, ok_bind, uuid_uuidText, ok_bind, role,
    ok_bind]
  rfl

/-- A token that was issued is its principal's until it expires. -/
theorem currentPrincipal_issued {principal : AccessClaims} {issuedAt now : Timestamp}
    (reads : guards.jwt.Reads (payloadOf guards principal issuedAt) guards.jwtSecret
      (issuedAt / 1000000) (expiry guards issuedAt)) (later : issuedAt ≤ now) :
    currentPrincipal guards (some ("Bearer " ++ issueAccessToken guards principal issuedAt)) now =
      if expiry guards issuedAt * 1000000 ≤ now then .error (.plimsollError invalid)
      else .ok ⟨principal.userId, principal.organizationId, .str principal.role⟩ := by
  have starts (token : String) : ¬ startsWith ("Bearer " ++ token) "Bearer " = false := by simp
  have since : issuedAt / 1000000 * 1000000 ≤ now :=
    (Int.ediv_mul_le issuedAt (by decide)).trans later
  have read : decodeAccessToken guards (issueAccessToken guards principal issuedAt) now =
      if expiry guards issuedAt * 1000000 ≤ now then .error .tokenError
      else .ok ⟨principal.userId, principal.organizationId, .str principal.role⟩ := by
    rw [decodeAccessToken, issueAccessToken, reads now since]
    by_cases expired : expiry guards issuedAt * 1000000 ≤ now
    · rw [if_pos expired, if_pos expired]
    · rw [if_neg expired, if_neg expired]
      simp only [claimsOf_payloadOf]
  unfold currentPrincipal
  simp only [Option.getD_some]
  rw [if_neg (starts _), removePrefix_append, read]
  by_cases expired : expiry guards issuedAt * 1000000 ≤ now
  · rw [if_pos expired, if_pos expired]
  · rw [if_neg expired, if_neg expired]

/-- Whoever has a role is let through as an administrator, or is refused. -/
theorem admission_of_principal {call : Call} {principal : AccessClaims}
    (read : currentPrincipal guards call.authorization call.receivedAt =
      .ok ⟨principal.userId, principal.organizationId, .str principal.role⟩) :
    admission guards call =
      if principal.role = "ORG_ADMIN" then .ok ⟨principal, call.operation⟩
      else .error (.plimsollError (denied (required call.operation))) := by
  rw [admission, read]
  change (requires (required call.operation) _ >>= _) = _
  rw [requires_role]
  by_cases admin : principal.role = "ORG_ADMIN"
  · rw [if_pos admin, if_pos admin]
    rfl
  · rw [if_neg admin, if_neg admin]
    rfl

/-- A call with a token that was issued is let through, until the token expires, for an
administrator; it is refused to any other role, whatever it calls for. -/
theorem admission_issued {principal : AccessClaims} {issuedAt now : Timestamp}
    (reads : guards.jwt.Reads (payloadOf guards principal issuedAt) guards.jwtSecret
      (issuedAt / 1000000) (expiry guards issuedAt)) (later : issuedAt ≤ now)
    (operation : Operation) :
    admission guards
        ⟨some ("Bearer " ++ issueAccessToken guards principal issuedAt), now, operation⟩ =
      if expiry guards issuedAt * 1000000 ≤ now then .error (.plimsollError invalid)
      else if principal.role = "ORG_ADMIN" then .ok ⟨principal, operation⟩
      else .error (.plimsollError (denied (required operation))) := by
  have read := currentPrincipal_issued guards reads later
  by_cases expired : expiry guards issuedAt * 1000000 ≤ now
  · rw [if_pos expired] at read ⊢
    rw [admission, read]
    rfl
  · rw [if_neg expired] at read ⊢
    exact admission_of_principal guards read

/-! ## Calls side by side -/

/-- The server of the services, behind the guards. -/
structure Api (dep : Deployment) where
  server : ServiceServer dep
  /-- Every call that was ever received. -/
  received : List Call := []
  /-- What calls were refused with; no session begins for them. -/
  refused : List (Call × Raised) := []

namespace Api

variable {dep : Deployment}

/-- What can happen: a call comes in, or a session goes on. -/
inductive Event where
  | call (id : Nat) (call : Call)
  | advance (id : Nat)
  | commit (id : Nat)
  | rollback (id : Nat)

/-- The API goes on as its server does. -/
def onward (api : Api dep) (e : Sql.Event (services dep)) : Option (Api dep) :=
  (api.server.step e).map fun server => { api with server := server }

/-- One event; `none` where it cannot happen. -/
def step (api : Api dep) : Event → Option (Api dep)
  | .call id call =>
      let api := { api with received := api.received ++ [call] }
      match admission guards call with
      | .error exc => some { api with refused := api.refused ++ [(call, exc)] }
      | .ok request => api.onward (.start id request)
  | .advance id => api.onward (.advance id)
  | .commit id => api.onward (.commit id)
  | .rollback id => api.onward (.rollback id)

/-- Several events. -/
def events (api : Api dep) : List Event → Option (Api dep)
  | [] => some api
  | e :: rest => (api.step guards e).bind fun api => api.events rest

/-- A run, of any events. -/
inductive Run (api : Api dep) : Api dep → Prop
  | refl : Run api api
  | step {api₁ api₂ : Api dep} {e : Event} : Run api api₁ → api₁.step guards e = some api₂ →
      Run api api₂

variable {guards} {api api' : Api dep}

theorem run_of_events {es : List Event} {api₁ : Api dep} (run : Run guards api api₁)
    (ended : api₁.events guards es = some api') : Run guards api api' := by
  induction es generalizing api₁ with
  | nil =>
      obtain rfl := Option.some.inj ended
      exact run
  | cons e rest ih =>
      obtain ⟨api₂, stepped, ended⟩ := Option.bind_eq_some_iff.mp ended
      exact ih (run.step stepped) ended

/-- The server stays as it is, or goes on, and begins requests that are called for only. -/
def Goes (guards : Guards) (api api' : Api dep) : Prop :=
  api.received ⊆ api'.received ∧ (api'.server = api.server ∨
    ∃ event, api.server.step event = some api'.server ∧ ∀ id request, event = .start id request →
      ∃ call ∈ api'.received, admission guards call = .ok request)

/-- What goes on without a call begins no request. -/
theorem goes_of_onward {event : Sql.Event (services dep)} (goes : api.onward event = some api')
    (begins : ∀ id request, event ≠ .start id request) : Goes guards api api' := by
  obtain ⟨server, gone, rfl⟩ := Option.map_eq_some_iff.mp goes
  refine ⟨fun call member => member, Or.inr ⟨event, gone, ?_⟩⟩
  intro id request same
  exact absurd same (begins id request)

theorem goes_of_step {e : Event} (stepped : api.step guards e = some api') :
    Goes guards api api' := by
  cases e with
  | call id call =>
      rw [step] at stepped
      cases admitted : admission guards call with
      | error exc =>
          simp only [admitted, Option.some.injEq] at stepped
          subst stepped
          exact ⟨List.subset_append_left _ _, Or.inl rfl⟩
      | ok request =>
          simp only [admitted] at stepped
          obtain ⟨server, gone, rfl⟩ := Option.map_eq_some_iff.mp stepped
          refine ⟨List.subset_append_left _ _, Or.inr ⟨.start id request, gone, ?_⟩⟩
          intro id' request' same
          obtain ⟨-, rfl⟩ := Sql.Event.start.inj same
          exact ⟨call, List.mem_append_right _ (List.mem_singleton_self call), admitted⟩
  -- Only a call begins a session.
  | advance _ | commit _ | rollback _ =>
      refine goes_of_onward stepped ?_
      intro other request same
      cases same

/-- A run behind the guards is one of the services, of requests that are called for. -/
theorem Run.services {P : Request → Prop} (run : Run guards api api')
    (called : ∀ call ∈ api'.received, ∀ request, admission guards call = .ok request → P request) :
    Sql.Server.Run (Sql.Duties.Begins fun request _ => P request) api.server api'.server := by
  induction run with
  | refl => exact .refl
  | @step api₁ api₂ e _ stepped ih =>
      obtain ⟨longer, same | ⟨event, gone, begins⟩⟩ := goes_of_step stepped
      · rw [same]
        exact ih fun call member => called call (longer member)
      · refine (ih fun call member => called call (longer member)).step ?_ gone
        cases event with
        | start id request =>
            obtain ⟨call, member, admitted⟩ := begins id request rfl
            exact called call member request admitted
        | advance id => trivial
        | commit id => trivial
        | rollback id => trivial

end Api

/-- What a call is made for: the operation, with the token of an administrator. -/
structure Bears (call : Call) (request : Request) : Prop where
  operation : request.operation = call.operation
  role : request.principal.role = "ORG_ADMIN"
  principal : currentPrincipal guards call.authorization call.receivedAt =
    .ok ⟨request.principal.userId, request.principal.organizationId, .str "ORG_ADMIN"⟩

variable {guards} {dep : Deployment} {d : Database} {e : Environment} {api : Api dep}

/-- However calls come in, and however what they begin interleaves, every request that is
answered was called for with the token of an administrator; what is committed is what the
effects of these requests make of the tables, one after the other; and an organisation for
which no administrator's token was borne has its rows as they were at first. -/
theorem permitted_of_run (inPlace : ∀ lock, InPlace lock (rowAt lock d))
    (urandom : ∀ n, (e.nonces n).length = nonceBytes)
    (run : Api.Run guards { server := { committed := d, environment := e } } api) :
    (∀ request answer, (request, answer) ∈ api.server.returned →
      ∃ call ∈ api.received, Bears guards call request) ∧
    Sql.Serially (effect dep) api.server.returned (store d) (store api.server.committed) ∧
    ∀ org, (∀ call ∈ api.received, ∀ userId,
        currentPrincipal guards call.authorization call.receivedAt ≠
          .ok ⟨userId, org, .str "ORG_ADMIN"⟩) →
      ∀ lock, Tenancy.orgOf lock (rowAt lock d) = some org ∨
        Tenancy.orgOf lock (rowAt lock api.server.committed) = some org →
          rowAt lock api.server.committed = rowAt lock d := by
  let Called (request : Request) : Prop := ∃ call ∈ api.received, Bears guards call request
  have services : Sql.Server.Run (Sql.Duties.Begins fun request _ => Called request)
      { committed := d, environment := e } api.server := by
    refine run.services fun call member request admitted => ⟨call, member, ?_⟩
    obtain ⟨operation, role, principal⟩ := admission_ok guards admitted
    exact ⟨operation, role, principal⟩
  obtain ⟨done, chronicle⟩ := services.chronicle
  have called := (Sql.Duties.jobs_of_chronicle chronicle).2
  refine ⟨?_, Effects.serially_answered inPlace urandom services, ?_⟩
  · intro request answer answered
    rw [chronicle.returned, List.nil_append] at answered
    obtain ⟨c, member, same⟩ := List.mem_map.mp answered
    obtain ⟨rfl, -⟩ := Prod.mk.inj same
    exact called c member
  · intro org none_ lock here
    refine Tenancy.untouched_of_chronicle inPlace chronicle (fun c member owner => ?_) lock here
    obtain ⟨call, received, bears⟩ := called c member
    exact none_ call received _ (owner ▸ bears.principal)

/-! ## Calls with a token, with a forged one and with none -/

open History (plain)

/-- An administrator. -/
def ada : AccessClaims := ⟨1, 2, "ORG_ADMIN"⟩

/-- Her token, issued at the beginning of time. -/
def adaToken : String :=
  "eyJhbGciOiJIUzI1NiIsInR5cCI6IkpXVCJ9." ++
    "eyJzdWIiOiIwMDAwMDAwMC0wMDAwLTAwMDAtMDAwMC0wMDAwMDAwMDAwMDEiLCJvcmciOiIwMDAwMDAwMC0w" ++
    "MDAwLTAwMDAtMDAwMC0wMDAwMDAwMDAwMDIiLCJyb2xlIjoiT1JHX0FETUlOIiwiaWF0IjowLCJleHAiOjkwMH0." ++
    "pBodGneM3PiiN70l5vbynwnUdchuuFkgTLj9PZ5kt78"

/-- What it says. -/
def adaPayload : Payload :=
  [("sub", .str (uuidText 1)), ("org", .str (uuidText 2)), ("role", .str "ORG_ADMIN"),
    ("iat", .int 0), ("exp", .int 900)]

def sampleSecret : String := "a-secret-of-sufficient-length-for-it"

/-- It is her token, in its time. -/
def InForce (token secret : String) (now : Timestamp) : Prop :=
  token = adaToken ∧ secret = sampleSecret ∧ 0 ≤ now ∧ now < 900 * 1000000

instance (token secret : String) (now : Timestamp) : Decidable (InForce token secret now) :=
  inferInstanceAs (Decidable (_ ∧ _ ∧ _ ∧ _))

/-- PyJWT, as far as her token goes. -/
def sampleJwt : Jwt where
  encode _ _ := adaToken
  decode token secret now := if InForce token secret now then some adaPayload else none

def sampleGuards : Guards where
  interp := Interpreter.basic
  jwt := sampleJwt
  jwtSecret := sampleSecret
  accessTokenTtlSeconds := 900

theorem reads_sampleJwt :
    sampleJwt.Reads (payloadOf sampleGuards ada 0) sampleSecret (0 / 1000000)
      (expiry sampleGuards 0) := by
  have payload : payloadOf sampleGuards ada 0 = adaPayload := rfl
  have exp : expiry sampleGuards 0 = 900 := rfl
  intro now since
  have encoded : sampleJwt.encode adaPayload sampleSecret = adaToken := rfl
  have decoded (token secret : String) : sampleJwt.decode token secret now =
      if InForce token secret now then some adaPayload else none := rfl
  rw [payload, exp, encoded, decoded]
  by_cases expired : 900 * 1000000 ≤ now
  · have past : ¬ InForce adaToken sampleSecret now := fun inForce =>
      absurd inForce.2.2.2 (not_lt.mpr expired)
    rw [if_pos expired, if_neg past]
  · have inForce : InForce adaToken sampleSecret now := ⟨rfl, rfl, since, not_le.mp expired⟩
    rw [if_neg expired, if_pos inForce]

/-- Her token is hers to the last microsecond. -/
theorem admission_expiring :
    admission sampleGuards ⟨some ("Bearer " ++ adaToken), 899999999, .archiveProject 3⟩ =
        .ok ⟨ada, .archiveProject 3⟩ ∧
      admission sampleGuards ⟨some ("Bearer " ++ adaToken), 900000000, .archiveProject 3⟩ =
        .error (.plimsollError invalid) :=
  ⟨admission_issued sampleGuards reads_sampleJwt (by decide) (.archiveProject 3),
    admission_issued sampleGuards reads_sampleJwt (by decide) (.archiveProject 3)⟩

/-- She archives a project. -/
def adaCall : Call := ⟨some ("Bearer " ++ adaToken), 60000000, .archiveProject 3⟩

theorem admission_adaCall : admission sampleGuards adaCall = .ok ⟨ada, .archiveProject 3⟩ := by
  have read : currentPrincipal sampleGuards adaCall.authorization adaCall.receivedAt =
      .ok ⟨ada.userId, ada.organizationId, .str ada.role⟩ :=
    currentPrincipal_issued sampleGuards reads_sampleJwt (by decide)
  exact (admission_of_principal sampleGuards read).trans (if_pos rfl)

/-- Her call has come in. -/
def called : Api plain where
  server := Effects.sampleServer.begun 0 ⟨ada, .archiveProject 3⟩
  received := [adaCall]

/-- It is answered, and another without a token is refused meanwhile. -/
def calling : List Api.Event :=
  [.advance 0, .advance 0, .call 1 ⟨none, 61000000, .replaceTargetPolicy []⟩, .advance 0,
    .advance 0, .commit 0]

theorem permitted_calling : ∃ api : Api plain,
    Api.Run sampleGuards { server := Effects.sampleServer } api ∧
      api.server.returned.map Prod.snd = [.noContent] ∧
      api.refused.map Prod.snd = [.plimsollError anonymous] ∧
      ∀ request answer, (request, answer) ∈ api.server.returned →
        ∃ call ∈ api.received, Bears sampleGuards call request := by
  have begun : Effects.sampleServer.step (.start 0 ⟨ada, .archiveProject 3⟩) =
      some called.server := rfl
  have first : Api.step sampleGuards { server := Effects.sampleServer } (.call 0 adaCall) =
      some called := by
    rw [Api.step, admission_adaCall]
    exact congrArg (Option.map fun server => { called with server := server }) begun
  have reached : (called.events sampleGuards calling).map
      (fun api => (api.server.returned.map Prod.snd, api.refused.map Prod.snd)) =
        some ([.noContent], [.plimsollError anonymous]) := by
    decide +kernel
  obtain ⟨api, ended, same⟩ := Option.map_eq_some_iff.mp reached
  obtain ⟨returned, refused⟩ := Prod.mk.inj same
  have run : Api.Run sampleGuards { server := Effects.sampleServer } api :=
    Api.run_of_events (Api.Run.refl.step first) ended
  exact ⟨api, run, returned, refused,
    (permitted_of_run History.inPlace_oneProject (fun _ => rfl) run).1⟩

end Plimsoll.Access
