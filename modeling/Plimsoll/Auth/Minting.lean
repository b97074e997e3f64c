import Plimsoll.Auth
import Plimsoll.Database.Statements

/-!
Whom access tokens are minted for, over any sequence of logins, refreshes and
changes of accounts.
-/

namespace Plimsoll.Auth

open Python Contracts Transaction Refresh

variable {accounts : Accounts} {dep : Deployment}

/-! ## Runs -/

/-- A request, or a change of an account. A refresh is its second transaction, for
whatever organisation the first one named. -/
inductive Step where
  | login (email password : String)
  | refresh (raw : String) (organizationId : Uuid)
  | setStatus (userId : Uuid) (status : String)
  | setRole (userId : Uuid) (orgRole : String)

/-- An access token that was issued, and the database it was issued from. -/
structure Mint where
  claims : AccessClaims
  database : Database

/-- A world, and every access token that was issued in it. -/
structure Mints where
  world : World
  minted : List Mint := []

/-- The account is changed. -/
def changeUser (d : Database) (userId : Uuid) (change : User → User) : Database :=
  match d.users.get? userId with
  | none => d
  | some row => { d with users := d.users.set userId (change row) }

/-- A request is served, and the access token it is answered with is kept. -/
def Mints.serve (m : Mints) (request : Action World TokenResponse) : Mints where
  world := (request m.world).2
  minted :=
    match (request m.world).1 with
    | .ok response => m.minted ++ [⟨response.accessToken, m.world.database⟩]
    | .error _ => m.minted

def Mints.step (accounts : Accounts) (dep : Deployment) (m : Mints) : Step → Mints
  | .login email password => m.serve (login accounts dep email password)
  | .refresh raw organizationId => m.serve (finishRefresh dep raw organizationId)
  | .setStatus userId status =>
      { m with world := { m.world with
        database := changeUser m.world.database userId fun row => { row with status } } }
  | .setRole userId orgRole =>
      { m with world := { m.world with
        database := changeUser m.world.database userId fun row => { row with orgRole } } }

/-- Steps that each satisfy a condition on it and the state before it. -/
inductive Mints.After (accounts : Accounts) (dep : Deployment) (condition : Mints → Step → Prop)
    (m : Mints) : Mints → Prop
  | refl : After accounts dep condition m m
  | step {m' : Mints} (step : Step) : After accounts dep condition m m' → condition m' step →
      After accounts dep condition m (m'.step accounts dep step)

/-- The token names an active user, with the organisation and the role that user
has in the database it was issued from. -/
def Mint.Genuine (mint : Mint) : Prop :=
  ∃ user, mint.database.users.get? mint.claims.userId = some user ∧ user.status = "ACTIVE" ∧
    mint.claims.organizationId = user.organizationId ∧ mint.claims.role = user.orgRole

/-- A refresh with the token of a family that is neither revoked nor expired is made
while the user of the family is active. -/
def AccountActive (dep : Deployment) (m : Mints) : Step → Prop
  | .refresh raw organizationId =>
      ∀ family user,
        m.world.database.findByHash (Database.Setting.of (some organizationId) m.world.environment)
            (dep.sha256 raw) = some family →
          family.revokedAt = none →
            m.world.environment.clock m.world.environment.clockRead < family.expiresAt →
              m.world.database.users.get? family.userId = some user → user.status = "ACTIVE"
  | _ => True

/-! ## What transactions leave alone -/

/-- No statement writes `users`. -/
theorem users_run {α : Type} (p : Transaction α) (v : Sql.View postgres) :
    (p.run v).2.database.users = v.database.users := by
  have writes : ∀ (writes : List Database.Write) (d : Database),
      (postgres.applyAll writes d).users = d.users := by
    intro writes
    induction writes with
    | nil => exact fun _ => rfl
    | cons write rest ih =>
        intro d
        rw [Sql.Interface.applyAll_cons, ih]
        cases write <;> rfl
  refine Sql.Program.run_keeps (P := fun v' : Sql.View postgres => v'.database.users = v.database.users) ?_ ?_ p rfl
  · intro s v' same
    exact (writes _ _).trans same
  · exact fun _ _ same => same

theorem users_sessionForOrg {α : Type} (org : Option Uuid) (body : Transaction α) (w : World) :
    (sessionForOrg org body w).2.database.users = w.database.users := by
  cases ran : body.run (w.view org) with
  | mk outcome v =>
      cases outcome with
      | error exc => rw [sessionForOrg_error ran]
      | ok a =>
          rw [sessionForOrg_ok ran]
          have same := users_run body (w.view org)
          rw [ran] at same
          exact same

/-- A session of a body that returns. -/
theorem ran_of_sessionForOrg {α : Type} {org : Option Uuid} {body : Transaction α} {w w' : World}
    {a : α} (served : sessionForOrg org body w = (.ok a, w')) :
    ∃ v, body.run (w.view org) = (.ok a, v) := by
  cases ran : body.run (w.view org) with
  | mk outcome v =>
      cases outcome with
      | error exc =>
          rw [sessionForOrg_error ran] at served
          cases served
      | ok b =>
          rw [sessionForOrg_ok ran] at served
          cases served
          exact ⟨v, rfl⟩

/-! ## Logins -/

theorem run_lookupForLogin {lowered : String} {v : Sql.View postgres} :
    (lookupForLogin lowered).run v =
      (.ok (((v.database.users.items.map Prod.snd).find? fun row => row.email = lowered).map
        User.login), v) := rfl

/-- A login mints for the user with the address, who is active. -/
theorem authenticate_ok {email password : String} {v v' : Sql.View postgres}
    {access : AccessClaims} {rest : String × Int}
    (ran : (authenticate accounts dep email password).run v = (.ok (access, rest), v')) :
    ∃ id row, v.database.users.get? id = some row ∧ row.status = "ACTIVE" ∧
      access = ⟨row.id, row.organizationId, row.orgRole⟩ := by
  rw [authenticate, Sql.Program.run_bind_ok run_lookupForLogin] at ran
  cases search : (v.database.users.items.map Prod.snd).find? fun row =>
      row.email = accounts.lower email with
  | none =>
      rw [search] at ran
      cases ran
  | some row =>
      rw [search] at ran
      obtain ⟨⟨id, row'⟩, member, rfl⟩ := List.mem_map.mp (List.mem_of_find?_eq_some search)
      refine ⟨id, row', Dict.get?_eq_some_iff.mpr member, ?_⟩
      dsimp only [Option.map_some, User.login] at ran
      cases hash : row'.passwordHash with
      | none =>
          rw [hash] at ran
          cases ran
      | some passwordHash =>
          rw [hash] at ran
          dsimp only at ran
          split at ran
          · cases ran
          · rename_i active
            split at ran
            · cases ran
            · rw [Sql.Program.run_bind_ok run_bindSessionToOrg] at ran
              obtain ⟨refresh, v₁, -, ran⟩ := Sql.Program.bind_ok ran
              cases ran
              exact ⟨not_not.mp active, rfl⟩

theorem login_ok {email password : String} {w w' : World} {response : TokenResponse}
    (answered : login accounts dep email password w = (.ok response, w')) :
    ∃ id row, w.database.users.get? id = some row ∧ row.status = "ACTIVE" ∧
      response.accessToken = ⟨row.id, row.organizationId, row.orgRole⟩ := by
  rw [login, Action.bind_apply] at answered
  cases session : sessionForOrg none
      ((authenticate accounts dep email password).mapError convertFailure) w with
  | mk outcome w₁ =>
      cases outcome with
      | error exc => simp [session] at answered
      | ok result =>
          obtain ⟨access, refresh, ttl⟩ := result
          obtain ⟨v, ran⟩ := ran_of_sessionForOrg session
          obtain ⟨id, row, found, active, claims⟩ :=
            authenticate_ok (Sql.Program.mapError_ok ran)
          rw [session] at answered
          cases answered
          exact ⟨id, row, found, active, claims⟩

/-! ## Refreshes -/

/-- A rotation returns the user and the organisation of the family that has the
token. -/
theorem rotate_returns {raw : String} {v v' : Sql.View postgres} {rotated : String × Uuid × Uuid}
    (ran : (rotate dep raw).run v = (.ok rotated, v')) :
    ∃ family, v.database.findByHash v.setting (dep.sha256 raw) = some family ∧
      family.revokedAt = none ∧
      v.environment.clock v.environment.clockRead < family.expiresAt ∧
      rotated.2 = (family.userId, family.organizationId) ∧ v'.setting = v.setting := by
  rw [rotate, Sql.Program.run_bind_ok run_findByHash] at ran
  cases found : v.database.findByHash v.setting (dep.sha256 raw) with
  | none =>
      rw [found] at ran
      dsimp only at ran
      rw [Sql.Program.run_bind_ok run_revokeFamilyContaining_eq] at ran
      cases ran
  | some family =>
      refine ⟨family, rfl, ?_⟩
      rw [found] at ran
      dsimp only at ran
      split at ran
      · cases ran
      · rename_i live
        rw [Sql.Program.run_bind_ok run_now] at ran
        split at ran
        · cases ran
        · rename_i inTime
          rw [replace, Sql.Program.run_bind_ok run_tokenUrlsafe] at ran
          obtain ⟨_, v₁, replaced, ran⟩ := Sql.Program.bind_ok ran
          obtain ⟨_, v₂, recorded, ran⟩ := Sql.Program.bind_ok ran
          obtain ⟨-, -, rfl⟩ := recordHistory_ok recorded
          cases ran
          cases replaced
          exact ⟨Option.not_isSome_iff_eq_none.mp live, not_le.mp inTime, rfl, rfl⟩

/-- A refresh mints for the user of the family that has the token, with the
organisation of the family and the role in the user's profile. -/
theorem finishRefresh_ok {raw : String} {organizationId : Uuid} {w w' : World}
    {response : TokenResponse}
    (answered : finishRefresh dep raw organizationId w = (.ok response, w')) :
    ∃ family user, w.database.findByHash (Database.Setting.of (some organizationId) w.environment)
        (dep.sha256 raw) = some family ∧
      family.revokedAt = none ∧
      w.environment.clock w.environment.clockRead < family.expiresAt ∧
      w.database.users.get? family.userId = some user ∧
      user.organizationId = family.organizationId ∧
      response.accessToken = ⟨family.userId, family.organizationId, user.orgRole⟩ := by
  rw [finishRefresh, Action.bind_apply] at answered
  cases session : sessionForOrg (some organizationId) (rotateAndLoad dep raw) w with
  | mk outcome w₁ =>
      cases outcome with
      | error exc => simp [session] at answered
      | ok result =>
          obtain ⟨v, ran⟩ := ran_of_sessionForOrg session
          obtain ⟨rotated, v₁, first, second⟩ := Sql.Program.bind_ok ran
          have rotation := Sql.Program.mapError_ok first
          obtain ⟨family, found, live, inTime, returned, setting⟩ := rotate_returns rotation
          obtain ⟨newRaw, who⟩ := rotated
          obtain rfl : who = (family.userId, family.organizationId) := returned
          have users := users_run (rotate dep raw) (w.view (some organizationId))
          rw [rotation] at users
          rw [Sql.Program.run_bind_ok run_getProfile] at second
          cases second
          rw [session] at answered
          rw [setting, users] at answered
          obtain ⟨-, -, sees⟩ := (Database.findByHash_eq_some found).choose_spec
          cases profile : Database.byKey (w.view (some organizationId)).setting
              w.database.users family.userId with
          | none =>
              rw [show (w.view (some organizationId)).database = w.database from rfl, profile]
                at answered
              cases answered
          | some user =>
              obtain ⟨there, seesUser⟩ := Database.byKey_eq_some_iff.mp profile
              refine ⟨family, user, found, live, inTime, there, ?_, ?_⟩
              · exact Option.some.inj (seesUser.symm.trans sees)
              · rw [show (w.view (some organizationId)).database = w.database from rfl, profile]
                  at answered
                cases answered
                rfl

/-! ## Runs -/

/-- Users stand under their identifiers. -/
def Keyed (d : Database) : Prop := ∀ id row, d.users.get? id = some row → row.id = id

theorem keyed_changeUser {d : Database} {userId : Uuid} {change : User → User} (keyed : Keyed d)
    (same : ∀ row, (change row).id = row.id) : Keyed (changeUser d userId change) := by
  unfold changeUser
  cases there : d.users.get? userId with
  | none => exact keyed
  | some row =>
      intro id found at_
      rw [Dict.get?_set] at at_
      split at at_
      · rename_i here
        obtain rfl := Option.some.inj at_
        rw [same, ← here]
        exact keyed userId row there
      · exact keyed id found at_

theorem keyed_of_users {d d' : Database} (keyed : Keyed d) (same : d'.users = d.users) :
    Keyed d' := by
  rw [Keyed, same]
  exact keyed

theorem users_login (email password : String) (w : World) :
    (login accounts dep email password w).2.database.users = w.database.users := by
  have kept := users_sessionForOrg none
    ((authenticate accounts dep email password).mapError convertFailure) w
  rw [login, Action.bind_apply]
  cases session : sessionForOrg none
      ((authenticate accounts dep email password).mapError convertFailure) w with
  | mk outcome w₁ =>
      rw [session] at kept
      cases outcome with
      | error exc => exact kept
      | ok result => exact kept

theorem users_finishRefresh (raw : String) (organizationId : Uuid) (w : World) :
    (finishRefresh dep raw organizationId w).2.database.users = w.database.users := by
  have kept := users_sessionForOrg (some organizationId) (rotateAndLoad dep raw) w
  rw [finishRefresh, Action.bind_apply]
  cases session : sessionForOrg (some organizationId) (rotateAndLoad dep raw) w with
  | mk outcome w₁ =>
      rw [session] at kept
      cases outcome with
      | error exc => exact kept
      | ok result =>
          obtain ⟨rotated, profile⟩ := result
          cases profile with
          | none => exact kept
          | some profile => exact kept

namespace Mints

variable {m m' : Mints}

/-- What a request that only mints genuine tokens keeps. -/
theorem genuine_serve {request : Action World TokenResponse}
    (genuine : ∀ mint ∈ m.minted, mint.Genuine)
    (mints : ∀ response w', request m.world = (.ok response, w') →
      Mint.Genuine ⟨response.accessToken, m.world.database⟩) :
    ∀ mint ∈ (m.serve request).minted, mint.Genuine := by
  intro mint member
  rw [serve] at member
  cases answered : request m.world with
  | mk outcome w' =>
      rw [answered] at member
      cases outcome with
      | error exc => exact genuine mint member
      | ok response =>
          rcases List.mem_append.mp member with before | here
          · exact genuine mint before
          · obtain rfl := List.mem_singleton.mp here
            exact mints response w' answered

/-- Users stand under their identifiers, and every token is genuine. -/
structure Sound (m : Mints) : Prop where
  keyed : Keyed m.world.database
  genuine : ∀ mint ∈ m.minted, mint.Genuine

theorem sound_step (sound : Sound m) {step : Step} (active : AccountActive dep m step) :
    Sound (m.step accounts dep step) := by
  cases step with
  | login email password =>
      refine ⟨keyed_of_users sound.keyed (users_login email password m.world), ?_⟩
      refine genuine_serve sound.genuine fun response w' answered => ?_
      obtain ⟨id, row, found, isActive, claims⟩ := login_ok answered
      have keyed := sound.keyed id row found
      refine ⟨row, ?_, isActive, ?_, ?_⟩
      · rw [claims]
        exact keyed ▸ found
      · rw [claims]
      · rw [claims]
  | refresh raw organizationId =>
      refine ⟨keyed_of_users sound.keyed (users_finishRefresh raw organizationId m.world), ?_⟩
      refine genuine_serve sound.genuine fun response w' answered => ?_
      obtain ⟨family, user, search, live, inTime, found, sameOrg, claims⟩ :=
        finishRefresh_ok answered
      refine ⟨user, ?_, active family user search live inTime found, ?_, ?_⟩
      · rw [claims]
        exact found
      · rw [claims]
        exact sameOrg.symm
      · rw [claims]
  | setStatus userId status =>
      exact ⟨keyed_changeUser sound.keyed fun _ => rfl, sound.genuine⟩
  | setRole userId orgRole =>
      exact ⟨keyed_changeUser sound.keyed fun _ => rfl, sound.genuine⟩

/-- In every run in which each refresh is made while the user of the token's family
is active, every access token names a user who was active when it was issued. -/
theorem genuine_of_accountActive {m₀ m : Mints} (keyed : Keyed m₀.world.database)
    (none : m₀.minted = []) (after : After accounts dep (AccountActive dep) m₀ m) :
    ∀ mint ∈ m.minted, mint.Genuine := by
  have sound : Sound m := by
    induction after with
    | refl =>
        refine ⟨keyed, fun mint member => ?_⟩
        rw [none] at member
        cases member
    | step step _ active ih => exact sound_step ih active
  exact sound.genuine

end Mints

/-! ## Two runs -/

/-- A user who can log in. -/
def beforeLogin : Mints where
  world :=
    { database := { users := Dict.ofList [(1,
        { id := 1, organizationId := 2, email := "ada@example.com", name := "Ada"
          orgRole := "ADMIN", passwordHash := some "$argon2id$ada" })] }
      environment :=
        { tokens := fun n => if n = 0 then "first" else "second"
          uuids := fun n => BitVec.ofNat 128 (n + 7)
          clock := fun n => n } }

/-- Passwords and addresses of the run. -/
def sampleAccounts : Accounts where
  verifyPassword passwordHash password := passwordHash = "$argon2id$ada" && password = "correct horse"
  lower := String.toLower

/-- Digests of the tokens of the run. -/
def sampleDeployment : Deployment where
  sha256 raw :=
    if raw = "first" then "a7937b64b8caa58f03721bb6bacf5c78cb235febe0e70b1b84cd99541461a08e"
    else "16367aacb67a4a017c8da8ab95682ccb390863780f7114dda0a0e0c55644c7c4"
  refreshTokenTtlSeconds := 1209600
  accessTokenTtlSeconds := 900

/-- The user logs in, is given another role, refreshes, and is deactivated. -/
def whileActive : Mints :=
  (((beforeLogin.step sampleAccounts sampleDeployment
    (.login "Ada@example.com" "correct horse")).step sampleAccounts sampleDeployment
      (.setRole 1 "VIEWER")).step sampleAccounts sampleDeployment
        (.refresh "first" 2)).step sampleAccounts sampleDeployment (.setStatus 1 "DISABLED")

theorem keyed_beforeLogin : Keyed beforeLogin.world.database := by
  intro id row found
  have member := Dict.get?_eq_some_iff.mp found
  obtain ⟨rfl, rfl⟩ := Prod.mk.inj (List.mem_singleton.mp member)
  rfl

theorem genuine_whileActive :
    whileActive.minted.map Mint.claims = [⟨1, 2, "ADMIN"⟩, ⟨1, 2, "VIEWER"⟩] ∧
      ∀ mint ∈ whileActive.minted, mint.Genuine := by
  refine ⟨by decide +kernel, Mints.genuine_of_accountActive keyed_beforeLogin rfl
    (.step _ (.step _ (.step _ (.step _ .refl ?_) ?_) ?_) ?_)⟩
  · trivial
  · trivial
  · intro family user _ _ _ found
    have everyone : (((beforeLogin.step sampleAccounts sampleDeployment
        (.login "Ada@example.com" "correct horse")).step sampleAccounts sampleDeployment
          (.setRole 1 "VIEWER")).world.database.users.items.all fun item =>
            item.2.status = "ACTIVE") = true := by decide +kernel
    exact of_decide_eq_true (List.all_eq_true.mp everyone _ (Dict.get?_eq_some_iff.mp found))
  · trivial

/-- The user logs in, is deactivated, and refreshes. -/
def deactivated : Mints :=
  ((beforeLogin.step sampleAccounts sampleDeployment
    (.login "Ada@example.com" "correct horse")).step sampleAccounts sampleDeployment
      (.setStatus 1 "DISABLED")).step sampleAccounts sampleDeployment (.refresh "first" 2)

/-- A deactivated user is given an access token for the refresh token of an earlier
login. -/
theorem refresh_after_deactivation :
    ¬ ∀ accounts dep m₀ m, Keyed m₀.world.database → m₀.minted = [] →
      Mints.After accounts dep (fun _ _ => True) m₀ m → ∀ mint ∈ m.minted, mint.Genuine := by
  intro always
  have genuine := always sampleAccounts sampleDeployment beforeLogin deactivated keyed_beforeLogin
    rfl (.step _ (.step _ (.step _ .refl trivial) trivial) trivial)
  have minted : (deactivated.minted.any fun mint =>
      mint.database.users.items.all fun item => item.2.status = "DISABLED") = true := by
    decide +kernel
  obtain ⟨mint, member, disabled⟩ := List.any_eq_true.mp minted
  obtain ⟨user, found, active, -⟩ := genuine mint member
  have status := of_decide_eq_true
    (List.all_eq_true.mp disabled _ (Dict.get?_eq_some_iff.mp found))
  rw [active] at status
  exact absurd status (by decide)

end Plimsoll.Auth
