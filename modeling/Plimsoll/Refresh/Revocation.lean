import Plimsoll.Database.Statements
import Plimsoll.Refresh

/-!
What presenting a consumed refresh token does to its family: nothing. The
revocation is written, and the exception that reports the reuse undoes it.
-/

namespace Plimsoll.Refresh

open Python Contracts Transaction

variable {dep : Deployment}

/-! ## Runs -/

/-- A request that touches refresh tokens. -/
inductive Request where
  | establish (userId organizationId : Uuid)
  | refresh (cookie : Option String)

def serve (dep : Deployment) : Request → World → World
  | .establish userId organizationId, w => (establish dep userId organizationId w).2
  | .refresh cookie, w => (refreshTokens dep cookie w).2

/-- The second world follows the first by some requests. -/
inductive Later (dep : Deployment) (w : World) : World → Prop
  | refl : Later dep w w
  | serve {w' : World} (request : Request) : Later dep w w' → Later dep w (serve dep request w')

/-- A world that requests have led to, from a database with no families. -/
def Reachable (dep : Deployment) (w : World) : Prop :=
  ∃ w₀ : World, w₀.database.families = Dict.empty ∧ w₀.database.history = Dict.empty ∧
    Later dep w₀ w

/-- The token has been issued in this family, and is not the current one. -/
def Consumed (dep : Deployment) (w : World) (raw : String) (family : Uuid) : Prop :=
  ∃ entry row, w.database.history.get? (dep.sha256 raw) = some entry ∧ entry.familyId = family ∧
    w.database.families.get? family = some row ∧ row.currentHash ≠ dep.sha256 raw

/-- The answer to a refresh. -/
def Rejected (dep : Deployment) (w : World) (raw : String) : Prop :=
  ∃ message, (refreshTokens dep (some raw) w).1 = .error (unauthenticated message)

/-- Reuse kills the family: the answer is a rejection, the family is revoked in
what is committed, and every later refresh with a token of it is rejected. -/
structure ReuseRevokes (dep : Deployment) (w : World) (raw : String) (family : Uuid) : Prop where
  rejected : Rejected dep w raw
  revoked : ∃ row, (serve dep (.refresh (some raw)) w).database.families.get? family = some row ∧
    row.revokedAt.isSome = true
  forGood : ∀ w', Later dep (serve dep (.refresh (some raw)) w) w' → ∀ other entry,
    w'.database.history.get? (dep.sha256 other) = some entry → entry.familyId = family →
      Rejected dep w' other

/-! ## The families of a reachable world -/

/-- Families stand under their keys, none is revoked, and the history knows the
current token of each. -/
structure Unrevoked (d : Database) : Prop where
  keyed : ∀ id row, d.families.get? id = some row → row.id = id
  live : ∀ id row, d.families.get? id = some row → row.revokedAt = none
  known : ∀ id row, d.families.get? id = some row →
    ∃ entry, d.history.get? row.currentHash = some entry ∧ entry.familyId = id

theorem unrevoked_adopt {d : Database} {row : RefreshTokenFamily} (sound : Unrevoked d)
    (live : row.revokedAt = none) (fresh : d.history.get? row.currentHash = none) :
    Unrevoked (d.adopt row) := by
  constructor
  · intro id found at_
    rw [Database.adopt, Dict.get?_set] at at_
    split at at_
    · rename_i same
      obtain rfl := Option.some.inj at_
      exact same
    · exact sound.keyed id found at_
  · intro id found at_
    rw [Database.adopt, Dict.get?_set] at at_
    split at at_
    · obtain rfl := Option.some.inj at_
      exact live
    · exact sound.live id found at_
  · intro id found at_
    rw [Database.adopt, Dict.get?_set] at at_
    split at at_
    · rename_i same
      obtain rfl := Option.some.inj at_
      exact ⟨_, Dict.get?_set_self _ _ _, same⟩
    · obtain ⟨entry, inHistory, ofFamily⟩ := sound.known id found at_
      refine ⟨entry, ?_, ofFamily⟩
      rw [Database.adopt, Dict.get?_set_ne _ _ ?_]
      · exact inHistory
      · intro same
        rw [← same, fresh] at inHistory
        cases inHistory

/-! ## What the programs write -/

/-- A family that is issued is new to the history. -/
theorem issueFamily_ok {userId organizationId : Uuid} {v v' : Sql.View postgres} {raw : String}
    (ran : (issueFamily dep userId organizationId).run v = (.ok raw, v')) :
    ∃ row : RefreshTokenFamily, v'.database = v.database.adopt row ∧ row.revokedAt = none ∧
      v.database.history.get? row.currentHash = none := by
  rw [issueFamily, Sql.Program.run_bind_ok run_tokenUrlsafe, Sql.Program.run_bind_ok run_uuid4,
    Sql.Program.run_bind_ok run_now] at ran
  obtain ⟨_, _, inserted, ran⟩ := Sql.Program.bind_ok ran
  obtain ⟨-, -, rfl⟩ := insertFamily_ok inserted
  obtain ⟨_, _, recorded, ran⟩ := Sql.Program.bind_ok ran
  obtain ⟨-, fresh, rfl⟩ := recordHistory_ok recorded
  cases ran
  exact ⟨_, rfl, rfl, fresh⟩

/-- A token that is current nowhere is rejected. -/
theorem rotate_unknown {raw : String} {v : Sql.View postgres}
    (absent : ∀ id row, v.database.families.get? id = some row → row.currentHash ≠ dep.sha256 raw) :
    ∃ d, (rotate dep raw).run v =
      (.error (.refreshRejected "Unknown or already-consumed refresh token."),
        { v with database := d }) := by
  obtain ⟨d, written⟩ := @run_revokeFamilyContaining v (dep.sha256 raw)
  refine ⟨d, ?_⟩
  rw [rotate, Sql.Program.run_bind_ok run_findByHash, Database.findByHash_eq_none absent]
  dsimp only
  rw [Sql.Program.run_bind_ok written]
  rfl

/-- Replacing the hash of a family that is there. -/
theorem replace_ok {row : RefreshTokenFamily} {v v' : Sql.View postgres}
    {rotated : String × Uuid × Uuid}
    (there : Database.byKey v.setting v.database.families row.id = some row)
    (ran : (replace dep row).run v = (.ok rotated, v')) :
    v'.database = v.database.adopt { row with currentHash := dep.sha256 rotated.1 } ∧
      v.database.history.get? (dep.sha256 rotated.1) = none := by
  rw [replace, Sql.Program.run_bind_ok run_tokenUrlsafe] at ran
  obtain ⟨_, _, replaced, ran⟩ := Sql.Program.bind_ok ran
  rw [run_replaceHash (by exact there)] at replaced
  cases replaced
  obtain ⟨_, _, recorded, ran⟩ := Sql.Program.bind_ok ran
  obtain ⟨-, fresh, rfl⟩ := recordHistory_ok recorded
  cases ran
  exact ⟨rfl, fresh⟩

/-- A rotation gives the family that has the token a hash new to the history. -/
theorem rotate_ok {raw : String} {v v' : Sql.View postgres} {rotated : String × Uuid × Uuid}
    (sound : Unrevoked v.database) (ran : (rotate dep raw).run v = (.ok rotated, v')) :
    ∃ row : RefreshTokenFamily, v'.database = v.database.adopt row ∧ row.revokedAt = none ∧
      v.database.history.get? row.currentHash = none := by
  rw [rotate, Sql.Program.run_bind_ok run_findByHash] at ran
  cases found : v.database.findByHash v.setting (dep.sha256 raw) with
  | none =>
      simp only [found] at ran
      obtain ⟨d, revoked⟩ := @run_revokeFamilyContaining v (dep.sha256 raw)
      rw [Sql.Program.run_bind_ok revoked] at ran
      cases ran
  | some row =>
      obtain ⟨id, at_, -, sees⟩ := Database.findByHash_eq_some found
      have live := sound.live id row at_
      have there : Database.byKey v.setting v.database.families row.id = some row :=
        Database.byKey_eq_some_iff.mpr ⟨sound.keyed id row at_ ▸ at_, sees⟩
      simp only [found, live, Option.isSome_none, Bool.false_eq_true, if_false] at ran
      rw [Sql.Program.run_bind_ok run_now] at ran
      split at ran
      · cases ran
      · obtain ⟨adopted, fresh⟩ := replace_ok (by exact there) ran
        exact ⟨_, adopted, live, fresh⟩

/-! ## What the requests keep -/

theorem ensures_establish {userId organizationId : Uuid} :
    Action.Ensures (fun w => Unrevoked w.database) (establish dep userId organizationId)
      fun _ => True := by
  refine ensures_sessionForOrg fun v raw v' sound ran => ?_
  rw [Sql.Program.run_bind_ok run_bindSessionToOrg] at ran
  obtain ⟨row, adopted, live, fresh⟩ := issueFamily_ok ran
  rw [adopted]
  exact unrevoked_adopt sound live fresh

theorem ensures_refreshTokens {cookie : Option String} :
    Action.Ensures (fun w => Unrevoked w.database) (refreshTokens dep cookie) fun _ => True := by
  unfold refreshTokens
  cases cookie with
  | none => exact .raise
  | some raw =>
      have lookup : Action.Ensures (fun w => Unrevoked w.database)
          (sessionForOrg none (organizationFor dep raw)) fun _ => True := by
        refine ensures_sessionForOrg fun v org v' sound ran => ?_
        cases ran
        exact sound
      have rotation : ∀ org, Action.Ensures (fun w => Unrevoked w.database)
          (sessionForOrg (some org) (rotateAndLoad dep raw)) fun _ => True := by
        intro org
        refine ensures_sessionForOrg fun v result v' sound ran => ?_
        obtain ⟨rotated, _, first, ran⟩ := Sql.Program.bind_ok ran
        obtain ⟨row, adopted, live, fresh⟩ := rotate_ok sound (Sql.Program.mapError_ok first)
        rw [Sql.Program.run_bind_ok run_getProfile] at ran
        cases ran
        rw [adopted]
        exact unrevoked_adopt sound live fresh
      refine Action.Ensures.bind lookup fun org _ => ?_
      cases org with
      | none => exact .raise
      | some org =>
          refine Action.Ensures.bind (rotation org) fun result _ => ?_
          obtain ⟨rotated, profile⟩ := result
          cases profile with
          | none => exact .raise
          | some profile => exact .pure trivial

theorem unrevoked_serve {w : World} (request : Request) (sound : Unrevoked w.database) :
    Unrevoked (serve dep request w).database := by
  cases request with
  | establish userId organizationId => exact (ensures_establish w sound).1
  | refresh cookie => exact (ensures_refreshTokens w sound).1

/-- No family of a reachable world is revoked. -/
theorem unrevoked_of_reachable {w : World} (reachable : Reachable dep w) :
    Unrevoked w.database := by
  obtain ⟨w₀, noFamilies, noHistory, later⟩ := reachable
  induction later with
  | refl =>
      constructor
      · intro id row at_
        rw [noFamilies] at at_
        cases at_
      · intro id row at_
        rw [noFamilies] at at_
        cases at_
      · intro id row at_
        rw [noFamilies] at at_
        cases at_
  | serve request _ ih => exact unrevoked_serve request ih

/-! ## A consumed token -/

/-- A refresh with a consumed token is rejected and leaves everything as it was. -/
theorem refreshTokens_consumed {w : World} {raw : String} {family : Uuid}
    (sound : Unrevoked w.database) (consumed : Consumed dep w raw family) :
    refreshTokens dep (some raw) w =
      (.error (unauthenticated "Unknown or already-consumed refresh token."), w) := by
  obtain ⟨entry, row, inHistory, ofFamily, at_, notCurrent⟩ := consumed
  have nowhere : ∀ id found, w.database.families.get? id = some found →
      found.currentHash ≠ dep.sha256 raw := by
    intro id found atId same
    obtain ⟨other, inHistory', ofOther⟩ := sound.known id found atId
    rw [same, inHistory] at inHistory'
    obtain rfl := Option.some.inj inHistory'
    rw [← ofOther, ofFamily, at_] at atId
    obtain rfl := Option.some.inj atId
    exact notCurrent same
  have lookup : sessionForOrg none (organizationFor dep raw) w =
      (.ok (some entry.organizationId), w) := by
    refine (sessionForOrg_ok run_organizationForToken).trans ?_
    rw [World.view, Database.organizationForToken_of_history nowhere inHistory]
  have rejected : sessionForOrg (some entry.organizationId) (rotateAndLoad dep raw) w =
      (.error (unauthenticated "Unknown or already-consumed refresh token."), w) := by
    obtain ⟨d, ran⟩ := @rotate_unknown dep raw (w.view (some entry.organizationId)) nowhere
    have raised : (rotateAndLoad dep raw).run (w.view (some entry.organizationId)) =
        (.error (unauthenticated "Unknown or already-consumed refresh token."),
          { w.view (some entry.organizationId) with database := d }) := by
      refine Sql.Program.run_bind_error ?_
      rw [Sql.Program.run_mapError, ran]
      rfl
    exact sessionForOrg_error raised
  simp only [refreshTokens, Action.bind_apply, lookup, rejected]

/-- Reuse of a consumed token is answered as it should be, and revokes nothing. -/
theorem reuse_never_revokes {w : World} {raw : String} {family : Uuid}
    (reachable : Reachable dep w) (consumed : Consumed dep w raw family) :
    Rejected dep w raw ∧ serve dep (.refresh (some raw)) w = w ∧
      ¬ ReuseRevokes dep w raw family := by
  have sound := unrevoked_of_reachable reachable
  have answered := refreshTokens_consumed sound consumed
  have unchanged : serve dep (.refresh (some raw)) w = w := by rw [serve, answered]
  refine ⟨⟨_, by rw [answered]⟩, unchanged, fun revokes => ?_⟩
  obtain ⟨row, at_, revoked⟩ := revokes.revoked
  rw [unchanged] at at_
  rw [sound.live family row at_] at revoked
  cases revoked

/-! ## A run -/

/-- Digests of the tokens of the run. -/
def digests (raw : String) : String :=
  if raw = "first" then "a7937b64b8caa58f03721bb6bacf5c78cb235febe0e70b1b84cd99541461a08e"
  else if raw = "second" then "16367aacb67a4a017c8da8ab95682ccb390863780f7114dda0a0e0c55644c7c4"
  else "b1e99324505bd32da0e1f85dcf5e19a09db0481e8a15f62c41eb320304a8e927"

def sampleDeployment : Deployment where
  sha256 := digests
  refreshTokenTtlSeconds := 1209600
  accessTokenTtlSeconds := 900

/-- A user, and no family yet. -/
def beforeLogin : World where
  database := { users := Dict.ofList [(1,
      { id := 1, organizationId := 2, email := "ada@example.com", name := "Ada"
        orgRole := "ADMIN" })] }
  environment :=
    { tokens := fun n => if n = 0 then "first" else if n = 1 then "second" else "third"
      uuids := fun n => BitVec.ofNat 128 (n + 7)
      clock := fun n => n }

/-- The user logs in and refreshes once; `first` is consumed, `second` is live. -/
def afterRefresh : World :=
  serve sampleDeployment (.refresh (some "first")) (serve sampleDeployment (.establish 1 2) beforeLogin)

theorem reachable_afterRefresh : Reachable sampleDeployment afterRefresh :=
  ⟨beforeLogin, rfl, rfl, .serve _ (.serve _ .refl)⟩

theorem consumed_afterRefresh : Consumed sampleDeployment afterRefresh "first" 7 :=
  ⟨_, _, rfl, rfl, rfl, by decide⟩

theorem reuse_never_revokes_first :
    Rejected sampleDeployment afterRefresh "first" ∧
      serve sampleDeployment (.refresh (some "first")) afterRefresh = afterRefresh ∧
        ¬ ReuseRevokes sampleDeployment afterRefresh "first" 7 :=
  reuse_never_revokes reachable_afterRefresh consumed_afterRefresh

/-- After the reuse of `first` the live token still buys another one. -/
theorem reuse_leaves_live_token :
    ¬ ∀ dep w raw family, Reachable dep w → Consumed dep w raw family →
      ReuseRevokes dep w raw family := by
  intro revokes
  have killed := revokes sampleDeployment afterRefresh "first" 7 reachable_afterRefresh
    consumed_afterRefresh
  obtain ⟨message, rejected⟩ := killed.forGood _ .refl "second"
    ⟨digests "second", 7, 2⟩ rfl rfl
  have accepted : (refreshTokens sampleDeployment (some "second")
      (serve sampleDeployment (.refresh (some "first")) afterRefresh)).1 =
        .ok ⟨⟨1, 2, "ADMIN"⟩, 900, "third"⟩ := rfl
  rw [accepted] at rejected
  cases rejected

end Plimsoll.Refresh
