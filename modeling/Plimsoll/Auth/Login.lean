import Plimsoll.Auth.Minting
import Plimsoll.Database.Tables
import Plimsoll.Python.Unicode

/-!
Who can log in. The lookup finds the rows that are stored with the address in lower
case, of all organisations together, and only the first of them is tried.
-/

namespace Plimsoll.Auth

open Python Contracts Transaction Refresh Sql

/-! ## Users -/

/-- The rows of `users`, in the order in which a lookup meets them. -/
def rows (v : View postgres) : List User := v.database.users.items.map Prod.snd

/-- The same tables with the rows of `users` in another order. -/
def reordered (v : View postgres) (users : Dict Uuid User) : View postgres :=
  { v with database := { v.database with users } }

section

variable (accounts : Accounts) (dep : Deployment) (email password : String) (v : View postgres)

/-- An active user whose address is the given one up to case and whose hash verifies the
password. -/
structure Entitled (user : User) : Prop where
  active : user.status = "ACTIVE"
  address : accounts.lower user.email = accounts.lower email
  verifies : ∃ passwordHash, user.passwordHash = some passwordHash ∧
    accounts.verifyPassword passwordHash password = true

/-- One user of the table is entitled, and this is it. -/
structure OnlyEntitled (user : User) : Prop where
  member : user ∈ rows v
  entitled : Entitled accounts email password user
  only : ∀ other ∈ rows v, Entitled accounts email password other → other = user

/-- Tokens for a user, and a new family of the user's organisation with the refresh
token. -/
def LoggedIn (user : User) : Prop :=
  ∃ (refresh : String) (family : RefreshTokenFamily) (v' : View postgres),
    (authenticate accounts dep email password).run v =
        (.ok (⟨user.id, user.organizationId, user.orgRole⟩, refresh, dep.accessTokenTtlSeconds),
          v') ∧
      v.database.families.get? family.id = none ∧
      v'.database.families = v.database.families.set family.id family ∧
      family.organizationId = user.organizationId ∧ family.userId = user.id ∧
      family.currentHash = dep.sha256 refresh

/-- A refusal that stores nothing. -/
def Refused : Prop :=
  ∃ v' : View postgres, (authenticate accounts dep email password).run v = (.error incorrect, v') ∧
    v'.database = v.database

/-- The user who alone is entitled is logged in, and where nobody is, nobody is. -/
structure LogsIn : Prop where
  entitled : ∀ user, OnlyEntitled accounts email password v user →
    LoggedIn accounts dep email password v user
  nobody : (∀ user ∈ rows v, ¬ Entitled accounts email password user) →
    Refused accounts dep email password v

/-- Logging in does not depend on the order of the rows. -/
def LogsInAnyOrder : Prop :=
  ∀ users : Dict Uuid User, users.items.Perm v.database.users.items →
    LogsIn accounts dep email password (reordered v users)

/-- The user who alone is entitled is stored in lower case, and nobody else, of whatever
organisation and status, is stored with that address. -/
def AddressOfOne : Prop :=
  ∀ user, OnlyEntitled accounts email password v user →
    user.email = accounts.lower email ∧
      ∀ other ∈ rows v, other.email = accounts.lower email → other = user

/-- The identifier and the token drawn next are new. -/
structure FreshDraws : Prop where
  family : v.database.families.get? (v.environment.uuids v.environment.uuidsDrawn) = none
  token : v.database.history.get? (dep.sha256 (v.environment.tokens v.environment.tokensDrawn)) =
    none

end

variable {accounts : Accounts} {dep : Deployment} {email password : String} {v : View postgres}

/-! ## One login -/

theorem run_insertFamily {row : RefreshTokenFamily} (sees : v.setting.Sees row)
    (free : v.database.families.get? row.id = none)
    (there : (v.database.users.get? row.userId).isSome = true) :
    (insertFamily row).run v =
      (.ok (), { v with database := { v.database with
        families := v.database.families.set row.id row } }) := by
  have inserted : Database.insert v.setting v.database.families row.id row
      (v.database.users.get? row.userId).isSome (.family row) = (.ok (), [.family row]) :=
    Database.insert_free sees free there
  rw [insertFamily, Program.run_execute]
  change (checked (Database.insert _ _ _ _ _ _).1).run (⟨_, postgres.applyAll
    (Database.insert _ _ _ _ _ _).2 _, _⟩ : View postgres) = _
  rw [inserted]
  rfl

/-- A family is issued where the draws are new. -/
theorem issueFamily_fresh {userId organizationId : Uuid} (bound : v.setting.org = some organizationId)
    (there : (v.database.users.get? userId).isSome = true) (fresh : FreshDraws dep v) :
    ∃ (refresh : String) (family : RefreshTokenFamily) (v' : View postgres),
      (issueFamily dep userId organizationId).run v = (.ok refresh, v') ∧
        v.database.families.get? family.id = none ∧
        v'.database.families = v.database.families.set family.id family ∧
        family.organizationId = organizationId ∧ family.userId = userId ∧
        family.currentHash = dep.sha256 refresh := by
  let family : RefreshTokenFamily := {
    id := v.environment.uuids v.environment.uuidsDrawn
    organizationId, userId
    currentHash := dep.sha256 (v.environment.tokens v.environment.tokensDrawn)
    expiresAt := v.environment.clock v.environment.clockRead +
      dep.refreshTokenTtlSeconds * 1000000 }
  let entry : RefreshTokenHistory := {
    tokenHash := dep.sha256 (v.environment.tokens v.environment.tokensDrawn)
    familyId := family.id
    organizationId }
  have seesFamily : v.setting.Sees family := bound
  have seesEntry : v.setting.Sees entry := bound
  have stored : ((v.database.families.set family.id family).get? entry.familyId).isSome = true :=
    congrArg Option.isSome (Dict.get?_set_self _ _ _)
  let drawn : View postgres := { v with
    environment := { v.environment with
      tokensDrawn := v.environment.tokensDrawn + 1
      uuidsDrawn := v.environment.uuidsDrawn + 1
      clockRead := v.environment.clockRead + 1 } }
  have inserted : (insertFamily family).run drawn = _ := run_insertFamily seesFamily fresh.family there
  have recorded : (recordHistory entry).run { drawn with database := { drawn.database with
      families := drawn.database.families.set family.id family } } = _ :=
    run_recordHistory seesEntry fresh.token stored
  refine ⟨v.environment.tokens v.environment.tokensDrawn, family,
    { drawn with database := { drawn.database with
      families := drawn.database.families.set family.id family
      history := drawn.database.history.set entry.tokenHash entry } },
    ?_, fresh.family, rfl, rfl, rfl, rfl⟩
  rw [issueFamily, Program.run_bind_ok run_tokenUrlsafe, Program.run_bind_ok run_uuid4,
    Program.run_bind_ok run_now]
  exact (Program.run_bind_ok inserted).trans (Program.run_bind_ok recorded)

/-- The user that the lookup finds, if its row is accepted. -/
structure Accepts (accounts : Accounts) (password : String) (user : User) : Prop where
  active : user.status = "ACTIVE"
  verifies : ∃ passwordHash, user.passwordHash = some passwordHash ∧
    accounts.verifyPassword passwordHash password = true

/-- The first row with the address. -/
def firstRow (accounts : Accounts) (email : String) (v : View postgres) : Option User :=
  (rows v).find? fun row => row.email = accounts.lower email

theorem firstRow_some {user : User} (found : firstRow accounts email v = some user) :
    user ∈ rows v ∧ user.email = accounts.lower email := by
  have stored := List.find?_some found
  exact ⟨List.mem_of_find?_eq_some found, of_decide_eq_true stored⟩

/-- A login is refused unless the first row is accepted. -/
theorem authenticate_refused
    (unaccepted : ∀ user, firstRow accounts email v = some user → ¬ Accepts accounts password user) :
    (authenticate accounts dep email password).run v = (.error incorrect, v) := by
  rw [authenticate, Program.run_bind_ok run_lookupForLogin]
  cases found : firstRow accounts email v with
  | none =>
      rw [firstRow, rows] at found
      rw [found]
      rfl
  | some user =>
      have rejected := unaccepted user found
      rw [firstRow, rows] at found
      rw [found]
      dsimp only [Option.map_some, User.login]
      cases hash : user.passwordHash with
      | none => rfl
      | some passwordHash =>
          dsimp only
          by_cases active : user.status = "ACTIVE"
          · rw [if_neg (not_not.mpr active), if_pos]
            · rfl
            · exact fun verifies => rejected ⟨active, passwordHash, hash, verifies⟩
          · rw [if_pos active]
            rfl

/-- A login is that of the first row, where it is accepted. -/
theorem authenticate_accepted {user : User} (found : firstRow accounts email v = some user)
    (accepts : Accepts accounts password user) (there : (v.database.users.get? user.id).isSome = true)
    (fresh : FreshDraws dep v) : LoggedIn accounts dep email password v user := by
  obtain ⟨active, passwordHash, hash, verifies⟩ := accepts
  obtain ⟨refresh, family, v', issued, free, stored, org, ofUser, hashed⟩ :=
    @issueFamily_fresh dep { v with setting := { v.setting with org := some user.organizationId } }
      user.id user.organizationId rfl there ⟨fresh.family, fresh.token⟩
  refine ⟨refresh, family, v', ?_, free, stored, org, ofUser, hashed⟩
  rw [authenticate, Program.run_bind_ok run_lookupForLogin]
  rw [firstRow, rows] at found
  rw [found]
  dsimp only [Option.map_some, User.login]
  rw [hash]
  dsimp only
  rw [if_neg (not_not.mpr active), if_neg (not_not.mpr verifies),
    Program.run_bind_ok run_bindSessionToOrg, Program.run_bind_ok issued]
  rfl

/-! ## Every order -/

theorem mem_rows {user : User} : user ∈ rows v ↔ ∃ id, v.database.users.get? id = some user := by
  rw [rows, List.mem_map]
  constructor
  · rintro ⟨⟨id, user⟩, member, rfl⟩
    exact ⟨id, Dict.get?_eq_some_iff.mpr member⟩
  · rintro ⟨id, found⟩
    exact ⟨(id, user), Dict.get?_eq_some_iff.mp found, rfl⟩

/-- Rows of one identifier are one row. -/
theorem eq_of_id (keyed : Database.Keyed User.id v.database.users) {user other : User}
    (member : user ∈ rows v) (otherMember : other ∈ rows v) (same : user.id = other.id) :
    user = other := by
  obtain ⟨id, found⟩ := mem_rows.mp member
  obtain ⟨otherId, otherFound⟩ := mem_rows.mp otherMember
  obtain rfl := keyed id user found
  obtain rfl := keyed otherId other otherFound
  rw [same, otherFound] at found
  exact (Option.some.inj found).symm

theorem exists_user (keyed : Database.Keyed User.id v.database.users) {user : User}
    (member : user ∈ rows v) : (v.database.users.get? user.id).isSome = true := by
  obtain ⟨id, found⟩ := mem_rows.mp member
  rw [keyed id user found, found]
  rfl

/-- The user that is logged in is the first row. -/
theorem firstRow_of_loggedIn {user : User} (keyed : Database.Keyed User.id v.database.users)
    (fresh : FreshDraws dep v) (member : user ∈ rows v)
    (loggedIn : LoggedIn accounts dep email password v user) :
    firstRow accounts email v = some user := by
  obtain ⟨refresh, family, v', ran, -⟩ := loggedIn
  by_cases accepted : ∃ row, firstRow accounts email v = some row ∧ Accepts accounts password row
  · obtain ⟨row, found, accepts⟩ := accepted
    have first := (firstRow_some found).1
    obtain ⟨_, _, _, ranFirst, -⟩ :=
      authenticate_accepted found accepts (exists_user keyed first) fresh
    rw [ran] at ranFirst
    have claims := congrArg (fun token : AccessClaims × String × Int => token.1.userId)
      (Except.ok.inj (Prod.mk.inj ranFirst).1)
    rw [found, eq_of_id keyed first member claims.symm]
  · have refused := @authenticate_refused accounts dep email password v fun row found accepts =>
      accepted ⟨row, found, accepts⟩
    rw [refused] at ran
    cases ran

/-- A row with the address that is accepted is entitled. -/
theorem entitled_of_firstRow (folds : ∀ text, accounts.lower (accounts.lower text) = accounts.lower text)
    {user : User} (found : firstRow accounts email v = some user)
    (accepts : Accepts accounts password user) : Entitled accounts email password user := by
  have address : accounts.lower user.email = accounts.lower email := by
    rw [(firstRow_some found).2, folds]
  exact ⟨accepts.active, address, accepts.verifies⟩

section

variable {users : Dict Uuid User}

theorem mem_rows_reordered (perm : users.items.Perm v.database.users.items) {user : User} :
    user ∈ rows (reordered v users) ↔ user ∈ rows v :=
  (perm.map Prod.snd).mem_iff

theorem onlyEntitled_reordered (perm : users.items.Perm v.database.users.items) {user : User} :
    OnlyEntitled accounts email password (reordered v users) user ↔
      OnlyEntitled accounts email password v user := by
  constructor
  · intro ⟨member, entitled, only⟩
    exact ⟨(mem_rows_reordered perm).mp member, entitled, fun other inside =>
      only other ((mem_rows_reordered perm).mpr inside)⟩
  · intro ⟨member, entitled, only⟩
    exact ⟨(mem_rows_reordered perm).mpr member, entitled, fun other inside =>
      only other ((mem_rows_reordered perm).mp inside)⟩

theorem keyed_reordered (perm : users.items.Perm v.database.users.items)
    (keyed : Database.Keyed User.id v.database.users) :
    Database.Keyed User.id (reordered v users).database.users := by
  intro id user found
  exact keyed id user (Dict.get?_eq_some_iff.mpr (perm.mem_iff.mp (Dict.get?_eq_some_iff.mp found)))

end

/-- A row can stand first. -/
theorem exists_order {user : User} (member : user ∈ rows v) :
    ∃ users : Dict Uuid User, users.items.Perm v.database.users.items ∧
      ∃ rest, rows (reordered v users) = user :: rest := by
  obtain ⟨item, inItems, rfl⟩ := List.mem_map.mp member
  obtain ⟨front, back, shape⟩ := List.append_of_mem inItems
  have perm : (item :: (front ++ back)).Perm v.database.users.items := by
    rw [shape]
    exact List.perm_middle.symm
  exact ⟨⟨item :: (front ++ back), (perm.map Prod.fst).nodup_iff.mpr v.database.users.nodup⟩, perm,
    _, rfl⟩

/-- Logging in does not depend on the order of the rows exactly if the address of the one
user who is entitled is that user's alone, in lower case. -/
theorem logsInAnyOrder_iff (folds : ∀ text, accounts.lower (accounts.lower text) = accounts.lower text)
    (keyed : Database.Keyed User.id v.database.users) (fresh : FreshDraws dep v) :
    LogsInAnyOrder accounts dep email password v ↔ AddressOfOne accounts email password v := by
  constructor
  · intro logsIn user only
    have member := only.member
    -- whatever the order, the first row is that of the user
    have first : ∀ users : Dict Uuid User, users.items.Perm v.database.users.items →
        firstRow accounts email (reordered v users) = some user := by
      intro users perm
      exact firstRow_of_loggedIn (keyed_reordered perm keyed) ⟨fresh.family, fresh.token⟩
        ((mem_rows_reordered perm).mpr member)
        ((logsIn users perm).entitled user ((onlyEntitled_reordered perm).mpr only))
    refine ⟨(firstRow_some (first _ (List.Perm.refl _))).2, ?_⟩
    intro other inside stored
    obtain ⟨users, perm, rest, front⟩ := exists_order inside
    have found := first users perm
    rw [firstRow, front, List.find?_cons_of_pos (by simp [stored])] at found
    exact Option.some.inj found
  · intro sole users perm
    have keyed' := keyed_reordered perm keyed
    refine ⟨fun user only => ?_, fun nobody => ?_⟩
    · have here := (onlyEntitled_reordered perm).mp only
      obtain ⟨stored, others⟩ := sole user here
      have found : firstRow accounts email (reordered v users) = some user := by
        cases search : firstRow accounts email (reordered v users) with
        | none =>
            have never := List.find?_eq_none.mp search user only.member
            simp [stored] at never
        | some row =>
            have ⟨inside, address⟩ := firstRow_some search
            rw [others row ((mem_rows_reordered perm).mp inside) address]
      exact authenticate_accepted found ⟨here.entitled.active, here.entitled.verifies⟩
        (exists_user keyed' only.member) ⟨fresh.family, fresh.token⟩
    · refine ⟨reordered v users, authenticate_refused fun user found accepts => ?_, rfl⟩
      exact nobody user (firstRow_some found).1 (entitled_of_firstRow folds found accepts)

/-! ## Two organisations -/

/-- Lower case, on the letters it changes. -/
theorem toLower_toLower (text : String) : text.toLower.toLower = text.toLower := by
  have char : ∀ c : Char, c.toLower.toLower = c.toLower := by
    intro c
    by_cases ascii : c.toNat < 128
    · exact (toLower_ascii c ascii).2.1
    · have same : c.toLower = c := dif_neg fun upper => ascii (lt_of_le_of_lt upper.2 (by decide))
      rw [same, same]
  refine String.toList_inj.mp ?_
  change ((text.map Char.toLower).map Char.toLower).toList = (text.map Char.toLower).toList
  rw [String.toList_map, String.toList_map, List.map_map]
  exact List.map_congr_left fun c _ => char c

theorem logsInAnyOrder_iff_ada :
    LogsInAnyOrder sampleAccounts sampleDeployment "Ada@example.com" "correct horse"
        (beforeLogin.world.view none) ↔
      AddressOfOne sampleAccounts "Ada@example.com" "correct horse" (beforeLogin.world.view none) :=
  logsInAnyOrder_iff toLower_toLower (keyed_beforeLogin) ⟨rfl, rfl⟩

/-- One address in two organisations, with a password for each. -/
def otherAda : User where
  id := 2
  organizationId := 3
  email := "ada@example.com"
  name := "Ada"
  orgRole := "VIEWER"
  passwordHash := some "$argon2id$other"

def ada : User where
  id := 1
  organizationId := 2
  email := "ada@example.com"
  name := "Ada"
  orgRole := "ADMIN"
  passwordHash := some "$argon2id$ada"

def sharedAddress : View postgres where
  setting := { org := none, now := 0 }
  database := { users := Dict.ofList [(2, otherAda), (1, ada)] }
  environment := beforeLogin.world.environment

theorem rows_sharedAddress : rows sharedAddress = [otherAda, ada] := rfl

theorem onlyEntitled_ada :
    OnlyEntitled sampleAccounts "ada@example.com" "correct horse" sharedAddress ada where
  member := by simp [rows_sharedAddress]
  entitled := ⟨rfl, rfl, _, rfl, by decide⟩
  only other inside entitled := by
    rw [rows_sharedAddress] at inside
    rcases List.mem_pair.mp inside with rfl | rfl
    · obtain ⟨passwordHash, stored, verifies⟩ := entitled.verifies
      cases stored
      revert verifies
      decide
    · rfl

/-- The user who is entitled is refused where a user of another organisation comes first. -/
theorem second_organisation_is_refused :
    ¬ ∀ (accounts : Accounts) (dep : Deployment) (email password : String) (v : View postgres),
        (∀ text, accounts.lower (accounts.lower text) = accounts.lower text) →
        Database.Keyed User.id v.database.users → FreshDraws dep v →
        LogsInAnyOrder accounts dep email password v := by
  intro always
  have keyed : Database.Keyed User.id sharedAddress.database.users := by
    intro id user found
    rcases List.mem_pair.mp (Dict.get?_eq_some_iff.mp found) with same | same
    · cases same
      rfl
    · cases same
      rfl
  have logsIn := always sampleAccounts sampleDeployment "ada@example.com" "correct horse"
    sharedAddress toLower_toLower keyed ⟨rfl, rfl⟩ sharedAddress.database.users (List.Perm.refl _)
  obtain ⟨refresh, family, v', ran, -⟩ := logsIn.entitled ada onlyEntitled_ada
  have refused := @authenticate_refused sampleAccounts sampleDeployment "ada@example.com"
    "correct horse" sharedAddress fun user found accepts => by
      have first : user = otherAda := by
        rw [firstRow, rows_sharedAddress, List.find?_cons_of_pos (by decide +kernel)] at found
        exact (Option.some.inj found).symm
      obtain ⟨passwordHash, stored, verifies⟩ := accepts.verifies
      rw [first] at stored
      cases stored
      revert verifies
      decide
  rw [show reordered sharedAddress sharedAddress.database.users = sharedAddress from rfl, refused] at ran
  cases ran

end Plimsoll.Auth
