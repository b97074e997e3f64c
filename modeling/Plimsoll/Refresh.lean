import Plimsoll.Database

/-!
Refresh tokens: issuing a family, rotating a token, and the endpoint around
them.
-/

namespace Plimsoll.Refresh

open Python Contracts Transaction

/-- What a deployment sets. -/
structure Deployment where
  /-- `hashlib.sha256(raw.encode()).hexdigest()`. -/
  sha256 : String → String
  refreshTokenTtlSeconds : Int
  accessTokenTtlSeconds : Int

/-- `TokenResponse`, with the cookie that travels beside it. -/
structure TokenResponse where
  accessToken : AccessClaims
  expiresIn : Int
  cookie : String
deriving DecidableEq

variable (dep : Deployment)

/-! ## The service -/

/-- `organization_for`. -/
def organizationFor (raw : String) : Transaction (Option Uuid) :=
  organizationForToken (dep.sha256 raw)

/-- `issue_family`. -/
def issueFamily (userId organizationId : Uuid) : Transaction String := do
  let raw ← tokenUrlsafe
  let id ← uuid4
  let issuedAt ← now
  let expiresAt := issuedAt + dep.refreshTokenTtlSeconds * 1000000
  insertFamily { id, organizationId, userId, currentHash := dep.sha256 raw, expiresAt }
  recordHistory { tokenHash := dep.sha256 raw, familyId := id, organizationId }
  return raw

/-- The end of `rotate`, behind its checks. -/
def replace (row : RefreshTokenFamily) : Transaction (String × Uuid × Uuid) := do
  let newRaw ← tokenUrlsafe
  replaceHash row.id (dep.sha256 newRaw)
  recordHistory
    { tokenHash := dep.sha256 newRaw, familyId := row.id, organizationId := row.organizationId }
  return (newRaw, row.userId, row.organizationId)

/-- `rotate`. -/
def rotate (raw : String) : Transaction (String × Uuid × Uuid) := do
  match ← findByHash (dep.sha256 raw) with
  | none => do
      revokeFamilyContaining (dep.sha256 raw)
      raise (.refreshRejected "Unknown or already-consumed refresh token.")
  | some row =>
      if row.revokedAt.isSome then
        raise (.refreshRejected "This token family has been revoked.")
      else do
        let time ← now
        if row.expiresAt ≤ time then raise (.refreshRejected "Refresh token expired.")
        else replace dep row

/-! ## The endpoint -/

/-- `PlimsollError(ErrorCode.UNAUTHENTICATED, message)`. -/
def unauthenticated (message : String) : Raised :=
  .plimsollError { code := .unauthenticated, message }

/-- `except RefreshRejected as exc: raise PlimsollError(...) from exc`. -/
def convertRejection : Raised → Raised
  | .refreshRejected message => unauthenticated message
  | exc => exc

/-- The second session of `refresh_tokens`. -/
def rotateAndLoad (raw : String) : Transaction ((String × Uuid × Uuid) × Option Profile) := do
  let rotated ← (rotate dep raw).mapError convertRejection
  let profile ← getProfile rotated.2.1
  return (rotated, profile)

/-- `refresh_tokens`. -/
def refreshTokens (cookie : Option String) : Action World TokenResponse :=
  match cookie with
  | none => Action.raise (unauthenticated "No refresh token was presented.")
  | some raw => do
      match ← sessionForOrg none (organizationFor dep raw) with
      | none => Action.raise (unauthenticated "The refresh token is not recognised.")
      | some organizationId => do
          match ← sessionForOrg (some organizationId) (rotateAndLoad dep raw) with
          | (_, none) => Action.raise (unauthenticated "The account no longer exists.")
          | ((newToken, userId, rotatedOrg), some profile) =>
              return {
                accessToken :=
                  { userId, organizationId := rotatedOrg, role := profile.orgRole }
                expiresIn := dep.accessTokenTtlSeconds
                cookie := newToken }

/-- What a login does once the password is verified: the session is bound to the
user's organisation and a family is issued. -/
def establish (userId organizationId : Uuid) : Action World String :=
  sessionForOrg none do
    bindSessionToOrg organizationId
    issueFamily dep userId organizationId

end Plimsoll.Refresh
