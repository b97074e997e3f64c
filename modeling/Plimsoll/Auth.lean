import Plimsoll.Refresh

/-!
Logging in, and the half of a refresh that mints a token.
-/

namespace Plimsoll.Auth

open Python Contracts Transaction Refresh

/-- What checks a password. -/
structure Accounts where
  /-- `verify_password(hash, password)`. -/
  verifyPassword : String → String → Bool
  /-- `lower(text)` of the database. -/
  lower : String → String

variable (accounts : Accounts) (dep : Deployment)

/-- `AuthenticationFailed("Email or password is incorrect.")`. -/
def incorrect : Raised := .authenticationFailed "Email or password is incorrect."

/-- `authenticate`: an access token, a refresh token and the lifetime of the
former. -/
def authenticate (email password : String) : Transaction (AccessClaims × String × Int) := do
  match ← lookupForLogin (accounts.lower email) with
  | none => raise incorrect
  | some row =>
      match row.passwordHash with
      | none => raise incorrect
      | some passwordHash =>
          if row.status ≠ "ACTIVE" then raise incorrect
          else if ¬ accounts.verifyPassword passwordHash password then raise incorrect
          else do
            bindSessionToOrg row.organizationId
            let refresh ← issueFamily dep row.id row.organizationId
            return (⟨row.id, row.organizationId, row.orgRole⟩, refresh, dep.accessTokenTtlSeconds)

/-- `except AuthenticationFailed as exc: raise PlimsollError(...) from exc`. -/
def convertFailure : Raised → Raised
  | .authenticationFailed message => unauthenticated message
  | exc => exc

/-- `login`. -/
def login (email password : String) : Action World TokenResponse := do
  let (access, refresh, ttl) ←
    sessionForOrg none ((authenticate accounts dep email password).mapError convertFailure)
  return { accessToken := access, expiresIn := ttl, cookie := refresh }

/-- `refresh_tokens`, once the organisation of the token is known. -/
def finishRefresh (raw : String) (organizationId : Uuid) : Action World TokenResponse := do
  match ← sessionForOrg (some organizationId) (rotateAndLoad dep raw) with
  | (_, none) => Action.raise (unauthenticated "The account no longer exists.")
  | ((newToken, userId, rotatedOrg), some profile) =>
      return {
        accessToken := { userId, organizationId := rotatedOrg, role := profile.orgRole }
        expiresIn := dep.accessTokenTtlSeconds
        cookie := newToken }

/-- A refresh finds the organisation of the token in one transaction, and mints in
the next. -/
theorem refreshTokens_eq (raw : String) :
    refreshTokens dep (some raw) = (do
      match ← sessionForOrg none (organizationFor dep raw) with
      | none => Action.raise (unauthenticated "The refresh token is not recognised.")
      | some organizationId => finishRefresh dep raw organizationId) := rfl

end Plimsoll.Auth
