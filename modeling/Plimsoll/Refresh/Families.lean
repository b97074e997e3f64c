import Plimsoll.Database.Statements
import Plimsoll.Refresh

/-!
The families of refresh tokens over any sequence of calls of the service, each
in a session that commits also when the token is rejected. The books keep, next
to the world, every token that was handed out, with its family.
-/

namespace Plimsoll.Refresh

open Python Contracts Transaction

variable {dep : Deployment}

/-! ## Calls -/

/-- A call of the service. -/
inductive Call where
  | issue (userId organizationId : Uuid)
  | rotate (raw : String)

/-- A call, up to the token it returns. -/
def Call.body (dep : Deployment) : Call → Transaction String
  | .issue userId organizationId => issueFamily dep userId organizationId
  | .rotate raw => do
      let rotated ← Refresh.rotate dep raw
      return rotated.1

/-- A session whose body catches the rejection of a token: what was written before
it is committed. Any other exception undoes it. -/
def catchingRejection {α : Type} (org : Option Uuid) (body : Transaction α) : Action World α :=
  fun w =>
    match body.run (w.view org) with
    | (.ok a, v) => (.ok a, ⟨v.database, v.environment⟩)
    | (.error (.refreshRejected message), v) =>
        (.error (.refreshRejected message), ⟨v.database, v.environment⟩)
    | (.error exc, v) => (.error exc, ⟨w.database, v.environment⟩)

/-! ## Books -/

/-- A token that was handed out. -/
structure Issuance where
  token : String
  family : Uuid
  organizationId : Uuid
deriving DecidableEq

/-- A world, and every token that was handed out in it, in order. -/
structure Books where
  world : World
  issued : List Issuance := []

namespace Books

/-- The row of a family. -/
abbrev family (b : Books) (id : Uuid) : Option RefreshTokenFamily :=
  b.world.database.families.get? id

/-- The tokens of a family, in the order they were handed out. -/
def tokensOf (b : Books) (id : Uuid) : List String :=
  (b.issued.filter fun i => i.family = id).map Issuance.token

/-- How a token is entered: a call of `issue_family` opens the family with the
identifier it draws, a rotation stays in the family of the token presented. -/
def entry (b : Books) (token : String) : Call → Option Issuance
  | .issue _ organizationId =>
      some ⟨token, b.world.environment.uuids b.world.environment.uuidsDrawn, organizationId⟩
  | .rotate raw => (b.issued.find? fun i => i.token = raw).map fun i => { i with token }

/-- What a call in a session for this organisation returns or raises. -/
def answer (dep : Deployment) (b : Books) (org : Option Uuid) (call : Call) : Except Raised String :=
  (catchingRejection org (call.body dep) b.world).1

def serve (dep : Deployment) (b : Books) (org : Option Uuid) (call : Call) : Books where
  world := (catchingRejection org (call.body dep) b.world).2
  issued :=
    match b.answer dep org call with
    | .ok token => b.issued ++ (b.entry token call).toList
    | .error _ => b.issued

/-- The session is for the organisation the user or the token belongs to. -/
def Opened (b : Books) (org : Option Uuid) : Call → Prop
  | .issue userId _ =>
      ∀ user, b.world.database.users.get? userId = some user → org = some user.organizationId
  | .rotate raw => ∀ i ∈ b.issued, i.token = raw → org = some i.organizationId

/-- The second books follow the first by some calls. -/
inductive After (dep : Deployment) (b : Books) : Books → Prop
  | refl : After dep b b
  | serve {b' : Books} {org : Option Uuid} {call : Call} : After dep b b' → b'.Opened org call →
      After dep b (b'.serve dep org call)

/-- Nothing was issued. -/
structure Fresh (b : Books) : Prop where
  issued : b.issued = []
  families : b.world.database.families = Dict.empty
  history : b.world.database.history = Dict.empty

/-! ## What holds of them -/

/-- A family is the same in two books: its row, its history and its tokens. -/
structure SameFamily (id : Uuid) (b b' : Books) : Prop where
  row : b'.family id = b.family id
  history : ∀ hash entry, entry.familyId = id →
    (b'.world.database.history.get? hash = some entry ↔
      b.world.database.history.get? hash = some entry)
  tokens : b'.tokensOf id = b.tokensOf id

/-- The laws of the families. -/
structure Lawful (dep : Deployment) (b : Books) : Prop where
  /-- The history of a family is exactly the hashes of its tokens. -/
  history : ∀ id hash,
    (∃ entry, b.world.database.history.get? hash = some entry ∧ entry.familyId = id) ↔
      ∃ raw ∈ b.tokensOf id, dep.sha256 raw = hash
  /-- There is a row for each family that has tokens, with the hash of the last. -/
  current : ∀ id, (b.family id).map RefreshTokenFamily.currentHash =
    (b.tokensOf id).getLast?.map dep.sha256
  /-- A call leaves `expires_at` alone, and a revoked family revoked. -/
  keeps : ∀ org call, b.Opened org call → ∀ id row, b.family id = some row →
    ∃ row', (b.serve dep org call).family id = some row' ∧ row'.expiresAt = row.expiresAt ∧
      (row.revokedAt.isSome = true → row'.revokedAt.isSome = true)
  /-- Exactly the last token of a family that is neither revoked nor expired can
  be rotated. -/
  rotates : ∀ org raw, b.Opened org (.rotate raw) →
    ((∃ token, b.answer dep org (.rotate raw) = .ok token) ↔
      ∃ id row, b.family id = some row ∧ (b.tokensOf id).getLast? = some raw ∧
        row.revokedAt = none ∧
          b.world.environment.clock b.world.environment.clockRead < row.expiresAt)
  /-- A rotation that does not succeed is rejected. -/
  rejects : ∀ org raw, b.Opened org (.rotate raw) →
    (∃ token, b.answer dep org (.rotate raw) = .ok token) ∨
      ∃ message, b.answer dep org (.rotate raw) = .error (.refreshRejected message)
  /-- Once an earlier token of a family is presented, no token of the family is
  accepted again. -/
  replay : ∀ org raw id, b.Opened org (.rotate raw) → raw ∈ (b.tokensOf id).dropLast →
    ∀ b', After dep (b.serve dep org (.rotate raw)) b' →
      ∀ other ∈ b'.tokensOf id, ∀ org', b'.Opened org' (.rotate other) →
        ∃ message, b'.answer dep org' (.rotate other) = .error (.refreshRejected message)
  /-- A call that presents no token of a family leaves the family alone. -/
  apart : ∀ org call, b.Opened org call → ∀ id, b.tokensOf id ≠ [] →
    (∀ raw ∈ b.tokensOf id, call ≠ .rotate raw) → SameFamily id b (b.serve dep org call)

/-! ## The invariant -/

/-- What ties the tables to the tokens that were handed out. -/
structure Sound (dep : Deployment) (b : Books) : Prop where
  new : Function.Injective b.world.environment.tokens
  keyed : ∀ id row, b.family id = some row → row.id = id
  current : ∀ id, (b.family id).map RefreshTokenFamily.currentHash =
    (b.tokensOf id).getLast?.map dep.sha256
  history : ∀ hash entry, b.world.database.history.get? hash = some entry ↔
    ∃ i ∈ b.issued, dep.sha256 i.token = hash ∧ entry = ⟨hash, i.family, i.organizationId⟩
  organisation : ∀ i ∈ b.issued, ∀ row, b.family i.family = some row →
    row.organizationId = i.organizationId
  drawn : ∀ i ∈ b.issued, ∃ k < b.world.environment.tokensDrawn,
    i.token = b.world.environment.tokens k
  once : (b.issued.map Issuance.token).Nodup

variable {b b' : Books}

theorem mem_tokensOf {id : Uuid} {raw : String} :
    raw ∈ b.tokensOf id ↔ ∃ i ∈ b.issued, i.family = id ∧ i.token = raw := by
  simp only [tokensOf, List.mem_map, List.mem_filter, decide_eq_true_eq, and_assoc]

theorem Fresh.sound (fresh : Fresh b) (new : Function.Injective b.world.environment.tokens) :
    Sound dep b := by
  refine ⟨new, ?_, ?_, ?_, ?_, ?_, ?_⟩
  · intro id row found
    rw [family, fresh.families] at found
    cases found
  · intro id
    rw [family, fresh.families, tokensOf, fresh.issued]
    rfl
  · intro hash entry
    rw [fresh.history, fresh.issued]
    simp
  · intro i member
    rw [fresh.issued] at member
    cases member
  · intro i member
    rw [fresh.issued] at member
    cases member
  · rw [fresh.issued]
    exact List.nodup_nil

namespace Sound

/-- A token is entered once. -/
theorem unique (sound : Sound dep b) {i j : Issuance} (inI : i ∈ b.issued) (inJ : j ∈ b.issued)
    (same : i.token = j.token) : i = j :=
  List.inj_on_of_nodup_map sound.once inI inJ same

/-- A token is of one family only. -/
theorem oneFamily (sound : Sound dep b) {id id' : Uuid} {raw : String} (here : raw ∈ b.tokensOf id)
    (there : raw ∈ b.tokensOf id') : id = id' := by
  obtain ⟨i, inI, rfl, token⟩ := mem_tokensOf.mp here
  obtain ⟨j, inJ, rfl, token'⟩ := mem_tokensOf.mp there
  rw [sound.unique inI inJ (token.trans token'.symm)]

theorem nodup (sound : Sound dep b) (id : Uuid) : (b.tokensOf id).Nodup :=
  sound.once.sublist (List.filter_sublist.map _)

/-- The token that is drawn next is new. -/
theorem fresh (sound : Sound dep b) {i : Issuance} (member : i ∈ b.issued) :
    i.token ≠ b.world.environment.tokens b.world.environment.tokensDrawn := by
  intro same
  obtain ⟨k, before, token⟩ := sound.drawn i member
  obtain rfl := sound.new (token.symm.trans same)
  exact absurd before (lt_irrefl _)

/-- A family with tokens has a row. -/
theorem row_of_token (sound : Sound dep b) {id : Uuid} {raw : String} (member : raw ∈ b.tokensOf id) :
    ∃ row, b.family id = some row := by
  cases found : b.family id with
  | some row => exact ⟨row, rfl⟩
  | none =>
      have current := sound.current id
      rw [found] at current
      rw [List.getLast?_eq_none_iff.mp (Option.map_eq_none_iff.mp current.symm)] at member
      cases member

/-- A row has the hash of a token just when the token is the last of its family. -/
theorem carries (sound : Sound dep b) (injective : Function.Injective dep.sha256) {id : Uuid}
    {row : RefreshTokenFamily} {raw : String} (found : b.family id = some row) :
    row.currentHash = dep.sha256 raw ↔ (b.tokensOf id).getLast? = some raw := by
  have current := sound.current id
  rw [found, Option.map_some] at current
  constructor
  · intro same
    rw [same] at current
    obtain ⟨last, isLast, hash⟩ := Option.map_eq_some_iff.mp current.symm
    rw [isLast, injective hash]
  · intro isLast
    rw [isLast] at current
    exact Option.some.inj current

end Sound

/-! ## Rotations -/

theorem rotate_found {raw : String} {row : RefreshTokenFamily} {v : Sql.View postgres}
    (search : v.database.findByHash v.setting (dep.sha256 raw) = some row) :
    (Refresh.rotate dep raw).run v =
      (if row.revokedAt.isSome then raise (.refreshRejected "This token family has been revoked.")
        else do
          let time ← now
          if row.expiresAt ≤ time then raise (.refreshRejected "Refresh token expired.")
          else replace dep row : Transaction (String × Uuid × Uuid)).run v := by
  rw [Refresh.rotate, Sql.Program.run_bind_ok run_findByHash, search]

theorem run_replace {row : RefreshTokenFamily} {v : Sql.View postgres}
    (there : Database.byKey v.setting v.database.families row.id = some row)
    (free : v.database.history.get?
      (dep.sha256 (v.environment.tokens v.environment.tokensDrawn)) = none) :
    (replace dep row).run v =
      (.ok (v.environment.tokens v.environment.tokensDrawn, row.userId, row.organizationId),
        { v with
          database := v.database.adopt { row with
            currentHash := dep.sha256 (v.environment.tokens v.environment.tokensDrawn) }
          environment := (v.environment.answer .tokenUrlsafe).2 }) := by
  obtain ⟨-, sees⟩ := Database.byKey_eq_some_iff.mp there
  rw [replace, Sql.Program.run_bind_ok run_tokenUrlsafe,
    Sql.Program.run_bind_ok (run_replaceHash (by exact there)),
    Sql.Program.run_bind_ok (run_recordHistory (by exact sees) (by exact free) (by simp))]
  rfl

section

variable {org : Option Uuid} {raw : String} {row : RefreshTokenFamily}

/-- The last token of a family leads to its row. -/
theorem findByHash_last (sound : Sound dep b) (injective : Function.Injective dep.sha256)
    (opened : b.Opened org (.rotate raw)) (found : b.family row.id = some row)
    (last : (b.tokensOf row.id).getLast? = some raw) (c : Database.Setting) (bound : c.org = org) :
    b.world.database.findByHash c (dep.sha256 raw) = some row ∧ c.Sees row := by
  have member := List.mem_of_getLast? last
  obtain ⟨i, issued, ofFamily, token⟩ := mem_tokensOf.mp member
  have sees : c.Sees row := by
    rw [Database.Setting.Sees, bound, opened i issued token]
    exact congrArg some (sound.organisation i issued row (ofFamily ▸ found)).symm
  refine ⟨?_, sees⟩
  cases search : b.world.database.findByHash c (dep.sha256 raw) with
  | none =>
      rw [Database.findByHash, List.find?_eq_none] at search
      refine absurd ?_ (search row (List.mem_map.mpr ⟨_, Dict.get?_eq_some_iff.mp found, rfl⟩))
      exact decide_eq_true ⟨(sound.carries injective found).mpr last, sees⟩
  | some row' =>
      obtain ⟨id, found', hash, -⟩ := Database.findByHash_eq_some search
      have last' := (sound.carries injective found').mp hash
      obtain rfl := sound.oneFamily member (List.mem_of_getLast? last')
      exact found'.symm.trans found

/-- A token that is the last of no family leads to no row. -/
theorem findByHash_other (sound : Sound dep b) (injective : Function.Injective dep.sha256)
    (other : ∀ id, (b.tokensOf id).getLast? ≠ some raw) (c : Database.Setting) :
    b.world.database.findByHash c (dep.sha256 raw) = none :=
  Database.findByHash_eq_none fun id _ found hash =>
    other id ((sound.carries injective found).mp hash)

/-- The last token of a family that is live is replaced. -/
theorem rotate_live (sound : Sound dep b) (injective : Function.Injective dep.sha256)
    (opened : b.Opened org (.rotate raw)) (found : b.family row.id = some row)
    (last : (b.tokensOf row.id).getLast? = some raw) (live : row.revokedAt = none)
    (inTime : b.world.environment.clock b.world.environment.clockRead < row.expiresAt) :
    (Refresh.rotate dep raw).run (b.world.view org) =
      (.ok (b.world.environment.tokens b.world.environment.tokensDrawn, row.userId,
          row.organizationId),
        { b.world.view org with
          database := b.world.database.adopt { row with
            currentHash :=
              dep.sha256 (b.world.environment.tokens b.world.environment.tokensDrawn) }
          environment := { b.world.environment with
            tokensDrawn := b.world.environment.tokensDrawn + 1
            clockRead := b.world.environment.clockRead + 1 } }) := by
  obtain ⟨search, sees⟩ := findByHash_last sound injective opened found last
    (b.world.view org).setting rfl
  have free : b.world.database.history.get?
      (dep.sha256 (b.world.environment.tokens b.world.environment.tokensDrawn)) = none := by
    cases there : b.world.database.history.get?
        (dep.sha256 (b.world.environment.tokens b.world.environment.tokensDrawn)) with
    | none => rfl
    | some entry =>
        obtain ⟨i, issued, hash, -⟩ := (sound.history _ _).mp there
        exact absurd (injective hash) (sound.fresh issued)
  have there : Database.byKey (b.world.view org).setting b.world.database.families row.id =
      some row := Database.byKey_eq_some_iff.mpr ⟨found, sees⟩
  have notExpired : ¬ row.expiresAt ≤
      (b.world.view org).environment.clock (b.world.view org).environment.clockRead :=
    not_le.mpr inTime
  rw [rotate_found search, if_neg (by simp [live]), Sql.Program.run_bind_ok run_now,
    if_neg notExpired, run_replace (by exact there) (by exact free)]
  rfl

/-- The last token of a family that is revoked or expired is rejected. -/
theorem rotate_refused (sound : Sound dep b) (injective : Function.Injective dep.sha256)
    (opened : b.Opened org (.rotate raw)) (found : b.family row.id = some row)
    (last : (b.tokensOf row.id).getLast? = some raw)
    (refused : row.revokedAt ≠ none ∨
      row.expiresAt ≤ b.world.environment.clock b.world.environment.clockRead) :
    ∃ message read, (Refresh.rotate dep raw).run (b.world.view org) =
      (.error (.refreshRejected message), { b.world.view org with
        environment := { b.world.environment with clockRead := read } }) := by
  obtain ⟨search, -⟩ := findByHash_last sound injective opened found last
    (b.world.view org).setting rfl
  rw [rotate_found search]
  by_cases revoked : row.revokedAt.isSome = true
  · rw [if_pos revoked]
    exact ⟨_, _, rfl⟩
  · rw [Option.not_isSome_iff_eq_none] at revoked
    have expired : row.expiresAt ≤
        (b.world.view org).environment.clock (b.world.view org).environment.clockRead :=
      refused.resolve_left (not_not.mpr revoked)
    rw [if_neg (by simp [revoked]), Sql.Program.run_bind_ok run_now, if_pos expired]
    exact ⟨_, _, rfl⟩

/-- A token that is the last of no family is rejected, and the family that is
revoked is the one whose history has it. -/
theorem rotate_other (sound : Sound dep b) (injective : Function.Injective dep.sha256)
    (other : ∀ id, (b.tokensOf id).getLast? ≠ some raw) :
    (Refresh.rotate dep raw).run (b.world.view org) =
      (.error (.refreshRejected "Unknown or already-consumed refresh token."),
        { b.world.view org with
          database :=
            match b.world.database.familyContaining (b.world.view org).setting (dep.sha256 raw) with
            | none => b.world.database
            | some row => b.world.database.revoke row (b.world.view org).setting.now }) := by
  have search := findByHash_other sound injective other (b.world.view org).setting
  rw [Refresh.rotate, Sql.Program.run_bind_ok run_findByHash]
  change (match b.world.database.findByHash (b.world.view org).setting (dep.sha256 raw) with
    | none => _
    | some row => _ : Transaction _).run _ = _
  rw [search]
  dsimp only
  rw [Sql.Program.run_bind_ok run_revokeFamilyContaining_eq]
  rfl

theorem familyContaining_issued (sound : Sound dep b) (opened : b.Opened org (.rotate raw))
    {i : Issuance} (issued : i ∈ b.issued) (token : i.token = raw)
    (found : b.family i.family = some row) (c : Database.Setting) (bound : c.org = org) :
    b.world.database.familyContaining c (dep.sha256 raw) = some row := by
  have bound' := bound.trans (opened i issued token)
  have inHistory : b.world.database.history.get? (dep.sha256 raw) =
      some ⟨dep.sha256 raw, i.family, i.organizationId⟩ :=
    (sound.history _ _).mpr ⟨i, issued, congrArg dep.sha256 token, rfl⟩
  have shown := Database.byKey_eq_some_iff.mpr ⟨inHistory, bound'⟩
  have sees : c.Sees row := bound'.trans (congrArg some (sound.organisation i issued row found).symm)
  rw [Database.familyContaining, shown]
  exact Database.byKey_eq_some_iff.mpr ⟨found, sees⟩

theorem familyContaining_unknown (sound : Sound dep b) (injective : Function.Injective dep.sha256)
    (unknown : ∀ i ∈ b.issued, i.token ≠ raw) (c : Database.Setting) :
    b.world.database.familyContaining c (dep.sha256 raw) = none := by
  have absent : Database.byKey c b.world.database.history (dep.sha256 raw) = none := by
    cases found : Database.byKey c b.world.database.history (dep.sha256 raw) with
    | none => rfl
    | some entry =>
        obtain ⟨inHistory, -⟩ := Database.byKey_eq_some_iff.mp found
        obtain ⟨i, issued, hash, -⟩ := (sound.history _ _).mp inHistory
        exact absurd (injective hash) (unknown i issued)
  rw [Database.familyContaining, absent]
  rfl

/-- How a token stands that is presented. -/
inductive Standing (b : Books) (raw : String) : Prop
  | last (row : RefreshTokenFamily) (found : b.family row.id = some row)
      (last : (b.tokensOf row.id).getLast? = some raw)
  | spent (row : RefreshTokenFamily) (i : Issuance) (issued : i ∈ b.issued)
      (token : i.token = raw) (ofFamily : i.family = row.id) (found : b.family row.id = some row)
      (other : ∀ id, (b.tokensOf id).getLast? ≠ some raw)
  | unknown (unknown : ∀ i ∈ b.issued, i.token ≠ raw)

theorem Sound.standing (sound : Sound dep b) (raw : String) : Standing b raw := by
  by_cases known : ∃ i ∈ b.issued, i.token = raw
  · obtain ⟨i, issued, token⟩ := known
    have member : raw ∈ b.tokensOf i.family := mem_tokensOf.mpr ⟨i, issued, rfl, token⟩
    obtain ⟨row, found⟩ := sound.row_of_token member
    have ofFamily := sound.keyed _ _ found
    rw [← ofFamily] at found member
    by_cases last : (b.tokensOf row.id).getLast? = some raw
    · exact .last row found last
    · refine .spent row i issued token ofFamily.symm found fun id isLast => ?_
      rw [sound.oneFamily member (List.mem_of_getLast? isLast)] at last
      exact last isLast
  · push Not at known
    exact .unknown known

end

/-! ## Calls -/

section

variable {w : World} {α : Type} {org : Option Uuid} {body : Transaction α} {v : Sql.View postgres}

theorem catchingRejection_ok {a : α} (ran : body.run (w.view org) = (.ok a, v)) :
    catchingRejection org body w = (.ok a, ⟨v.database, v.environment⟩) := by
  rw [catchingRejection, ran]

theorem catchingRejection_rejected {message : String}
    (ran : body.run (w.view org) = (.error (.refreshRejected message), v)) :
    catchingRejection org body w =
      (.error (.refreshRejected message), ⟨v.database, v.environment⟩) := by
  rw [catchingRejection, ran]

theorem catchingRejection_fault {fault : Database.Fault}
    (ran : body.run (w.view org) = (.error fault.raised, v)) :
    catchingRejection org body w = (.error fault.raised, ⟨w.database, v.environment⟩) := by
  rw [catchingRejection, ran]
  cases fault with
  | integrity => rfl
  | policy => rfl
  | outOfRange => rfl

end

/-- `issue_family` opens a family with the identifier it draws, or fails. -/
theorem issueFamily_outcome {userId organizationId : Uuid} (v : Sql.View postgres) :
    ∃ outcome v', (issueFamily dep userId organizationId).run v = (outcome, v') ∧
      v'.environment.tokens = v.environment.tokens ∧
      v'.environment.tokensDrawn = v.environment.tokensDrawn + 1 ∧
      ((∃ row : RefreshTokenFamily,
        outcome = .ok (v.environment.tokens v.environment.tokensDrawn) ∧
          v'.database = v.database.adopt row ∧ v.database.families.get? row.id = none ∧
          row.id = v.environment.uuids v.environment.uuidsDrawn ∧
          row.currentHash = dep.sha256 (v.environment.tokens v.environment.tokensDrawn) ∧
          row.organizationId = organizationId) ∨
        ∃ fault, outcome = .error (Database.Fault.raised fault)) := by
  cases ran : (issueFamily dep userId organizationId).run v with
  | mk outcome v' =>
      refine ⟨outcome, v', rfl, ?_⟩
      rw [issueFamily, Sql.Program.run_bind_ok run_tokenUrlsafe,
        Sql.Program.run_bind_ok run_uuid4, Sql.Program.run_bind_ok run_now, Sql.Program.run_bind]
        at ran
      split at ran
      · rename_i v₁ inserted
        obtain ⟨-, free, rfl⟩ := insertFamily_ok inserted
        rw [Sql.Program.run_bind] at ran
        split at ran
        · rename_i v₂ recorded
          obtain ⟨-, -, rfl⟩ := recordHistory_ok recorded
          cases ran
          exact ⟨rfl, rfl, Or.inl ⟨_, rfl, rfl, free, rfl, rfl, rfl⟩⟩
        · rename_i exc v₂ recorded
          obtain ⟨⟨fault, rfl⟩, same⟩ := checked_error recorded
          cases ran
          rw [same]
          exact ⟨rfl, rfl, Or.inr ⟨fault, rfl⟩⟩
      · rename_i exc v₁ inserted
        obtain ⟨⟨fault, rfl⟩, same⟩ := checked_error inserted
        cases ran
        rw [same]
        exact ⟨rfl, rfl, Or.inr ⟨fault, rfl⟩⟩

/-- What a call can make of the tables and of the tokens handed out. -/
inductive Effect (dep : Deployment) (b : Books) (call : Call) (b' : Books) : Prop
  | idle (database : b'.world.database = b.world.database) (issued : b'.issued = b.issued)
  | revoked (row : RefreshTokenFamily) (at_ : Timestamp) (raw : String)
      (presented : call = .rotate raw) (ofFamily : raw ∈ b.tokensOf row.id)
      (found : b.family row.id = some row)
      (database : b'.world.database = b.world.database.revoke row at_)
      (issued : b'.issued = b.issued)
  | opened (row : RefreshTokenFamily) (i : Issuance)
      (database : b'.world.database = b.world.database.adopt row)
      (issued : b'.issued = b.issued ++ [i])
      (hash : row.currentHash = dep.sha256 i.token) (ofFamily : i.family = row.id)
      (org : row.organizationId = i.organizationId)
      (token : i.token = b.world.environment.tokens b.world.environment.tokensDrawn)
      (drawn : b'.world.environment.tokensDrawn = b.world.environment.tokensDrawn + 1)
      (free : b.family row.id = none)
  | replaced (row : RefreshTokenFamily) (i : Issuance) (raw : String)
      (presented : call = .rotate raw) (member : raw ∈ b.tokensOf row.id)
      (found : b.family row.id = some row)
      (database : b'.world.database =
        b.world.database.adopt { row with currentHash := dep.sha256 i.token })
      (issued : b'.issued = b.issued ++ [i]) (ofFamily : i.family = row.id)
      (org : row.organizationId = i.organizationId)
      (token : i.token = b.world.environment.tokens b.world.environment.tokensDrawn)
      (drawn : b'.world.environment.tokensDrawn = b.world.environment.tokensDrawn + 1)

structure Served (dep : Deployment) (b : Books) (call : Call) (b' : Books) : Prop where
  tokens : b'.world.environment.tokens = b.world.environment.tokens
  drawn : b.world.environment.tokensDrawn ≤ b'.world.environment.tokensDrawn
  effect : Effect dep b call b'

section

variable {org : Option Uuid} {call : Call} {v : Sql.View postgres}

theorem serve_ok {token : String} (ran : (call.body dep).run (b.world.view org) = (.ok token, v)) :
    b.answer dep org call = .ok token ∧ b.serve dep org call =
      ⟨⟨v.database, v.environment⟩, b.issued ++ (b.entry token call).toList⟩ := by
  have answered : b.answer dep org call = .ok token := by rw [answer, catchingRejection_ok ran]
  exact ⟨answered, by rw [serve, answered, catchingRejection_ok ran]⟩

theorem serve_rejected {message : String}
    (ran : (call.body dep).run (b.world.view org) = (.error (.refreshRejected message), v)) :
    b.answer dep org call = .error (.refreshRejected message) ∧
      b.serve dep org call = ⟨⟨v.database, v.environment⟩, b.issued⟩ := by
  have answered : b.answer dep org call = .error (.refreshRejected message) := by
    rw [answer, catchingRejection_rejected ran]
  exact ⟨answered, by rw [serve, answered, catchingRejection_rejected ran]⟩

theorem serve_fault {fault : Database.Fault}
    (ran : (call.body dep).run (b.world.view org) = (.error fault.raised, v)) :
    b.serve dep org call = ⟨⟨b.world.database, v.environment⟩, b.issued⟩ := by
  have answered : b.answer dep org call = .error fault.raised := by
    rw [answer, catchingRejection_fault ran]
  rw [serve, answered, catchingRejection_fault ran]

theorem served_issue {userId organizationId : Uuid} :
    Served dep b (.issue userId organizationId)
      (b.serve dep org (.issue userId organizationId)) := by
  obtain ⟨outcome, v, ran, tokens, drawn, ⟨row, rfl, database, free, id, hash, ofOrg⟩ |
    ⟨fault, rfl⟩⟩ := @issueFamily_outcome dep userId organizationId (b.world.view org)
  · replace ran : (Call.body dep (.issue userId organizationId)).run (b.world.view org) =
        (.ok _, v) := ran
    rw [(serve_ok ran).2]
    exact ⟨tokens, drawn.symm ▸ Nat.le_succ _,
      .opened row _ database rfl hash id.symm ofOrg rfl drawn free⟩
  · replace ran : (Call.body dep (.issue userId organizationId)).run (b.world.view org) =
        (.error fault.raised, v) := ran
    rw [serve_fault ran]
    exact ⟨tokens, drawn.symm ▸ Nat.le_succ _, .idle rfl rfl⟩

variable {raw : String}

theorem body_ok {new : String} {who : Uuid × Uuid}
    (ran : (Refresh.rotate dep raw).run (b.world.view org) = (.ok (new, who), v)) :
    (Call.body dep (.rotate raw)).run (b.world.view org) = (.ok new, v) :=
  Sql.Program.run_bind_ok ran

theorem body_error {exc : Raised}
    (ran : (Refresh.rotate dep raw).run (b.world.view org) = (.error exc, v)) :
    (Call.body dep (.rotate raw)).run (b.world.view org) = (.error exc, v) :=
  Sql.Program.run_bind_error ran

/-- The token is the last of a family that is neither revoked nor expired. -/
def Live (b : Books) (raw : String) : Prop :=
  ∃ id row, b.family id = some row ∧ (b.tokensOf id).getLast? = some raw ∧
    row.revokedAt = none ∧ b.world.environment.clock b.world.environment.clockRead < row.expiresAt

/-- A live token is replaced by the next one of its family. -/
theorem served_live (sound : Sound dep b) (injective : Function.Injective dep.sha256)
    (opened : b.Opened org (.rotate raw)) (live : Live b raw) :
    b.answer dep org (.rotate raw) =
        .ok (b.world.environment.tokens b.world.environment.tokensDrawn) ∧
      Served dep b (.rotate raw) (b.serve dep org (.rotate raw)) := by
  obtain ⟨id, row, found, last, notRevoked, inTime⟩ := live
  obtain rfl := sound.keyed id row found
  have ran := body_ok (rotate_live sound injective opened found last notRevoked inTime)
  obtain ⟨answered, served⟩ := serve_ok ran
  have member := List.mem_of_getLast? last
  obtain ⟨i, issued, ofFamily, token⟩ := mem_tokensOf.mp member
  have entered : (b.issued.find? fun j => j.token = raw) = some i := by
    cases search : b.issued.find? fun j => j.token = raw with
    | none =>
        rw [List.find?_eq_none] at search
        exact absurd (decide_eq_true token) (search i issued)
    | some j =>
        have same : j.token = raw := by simpa using List.find?_some search
        rw [sound.unique (List.mem_of_find?_eq_some search) issued (same.trans token.symm)]
  refine ⟨answered, ?_⟩
  rw [served, entry, entered]
  exact ⟨rfl, Nat.le_succ _, .replaced row _ raw rfl member found rfl rfl ofFamily
    (sound.organisation i issued row (ofFamily ▸ found)) rfl rfl⟩

/-- The last token of a family that is not live is rejected. -/
theorem served_refused (sound : Sound dep b) (injective : Function.Injective dep.sha256)
    (opened : b.Opened org (.rotate raw)) {row : RefreshTokenFamily}
    (found : b.family row.id = some row) (last : (b.tokensOf row.id).getLast? = some raw)
    (notLive : ¬ Live b raw) :
    (∃ message, b.answer dep org (.rotate raw) = .error (.refreshRejected message)) ∧
      Served dep b (.rotate raw) (b.serve dep org (.rotate raw)) := by
  have refused : row.revokedAt ≠ none ∨
      row.expiresAt ≤ b.world.environment.clock b.world.environment.clockRead := by
    by_contra neither
    push Not at neither
    exact notLive ⟨row.id, row, found, last, neither⟩
  obtain ⟨message, read, ran⟩ := rotate_refused sound injective opened found last refused
  obtain ⟨answered, served⟩ := serve_rejected (body_error ran)
  refine ⟨⟨message, answered⟩, ?_⟩
  rw [served]
  exact ⟨rfl, le_rfl, .idle rfl rfl⟩

/-- A token that is no longer the last of its family is rejected, and the family is
revoked. -/
theorem served_spent (sound : Sound dep b) (injective : Function.Injective dep.sha256)
    (opened : b.Opened org (.rotate raw)) {row : RefreshTokenFamily} {i : Issuance}
    (issued : i ∈ b.issued) (token : i.token = raw) (ofFamily : i.family = row.id)
    (found : b.family row.id = some row) (other : ∀ id, (b.tokensOf id).getLast? ≠ some raw) :
    (∃ message, b.answer dep org (.rotate raw) = .error (.refreshRejected message)) ∧
      Served dep b (.rotate raw) (b.serve dep org (.rotate raw)) ∧
      (b.serve dep org (.rotate raw)).world.database = b.world.database.revoke row
        (b.world.view org).setting.now := by
  have ran : (Call.body dep (.rotate raw)).run (b.world.view org) = _ :=
    body_error (rotate_other sound injective other)
  rw [familyContaining_issued sound opened issued token (ofFamily ▸ found)
    (b.world.view org).setting rfl] at ran
  obtain ⟨answered, served⟩ := serve_rejected ran
  refine ⟨⟨_, answered⟩, ?_, ?_⟩
  · rw [served]
    exact ⟨rfl, le_rfl, .revoked row _ raw rfl (mem_tokensOf.mpr ⟨i, issued, ofFamily, token⟩)
      found rfl rfl⟩
  · rw [served]

/-- A token that was never handed out is rejected. -/
theorem served_unknown (sound : Sound dep b) (injective : Function.Injective dep.sha256)
    (unknown : ∀ i ∈ b.issued, i.token ≠ raw) :
    (∃ message, b.answer dep org (.rotate raw) = .error (.refreshRejected message)) ∧
      Served dep b (.rotate raw) (b.serve dep org (.rotate raw)) := by
  have other : ∀ id, (b.tokensOf id).getLast? ≠ some raw := by
    intro id last
    obtain ⟨i, issued, -, token⟩ := mem_tokensOf.mp (List.mem_of_getLast? last)
    exact unknown i issued token
  have ran : (Call.body dep (.rotate raw)).run (b.world.view org) = _ :=
    body_error (rotate_other sound injective other)
  rw [familyContaining_unknown sound injective unknown] at ran
  obtain ⟨answered, served⟩ := serve_rejected ran
  refine ⟨⟨_, answered⟩, ?_⟩
  rw [served]
  exact ⟨rfl, le_rfl, .idle rfl rfl⟩

/-- A rotation succeeds with a live token, and is rejected with any other. -/
theorem rotation_outcome (sound : Sound dep b) (injective : Function.Injective dep.sha256)
    (opened : b.Opened org (.rotate raw)) :
    Served dep b (.rotate raw) (b.serve dep org (.rotate raw)) ∧
      ((Live b raw ∧ ∃ token, b.answer dep org (.rotate raw) = .ok token) ∨
        ¬ Live b raw ∧
          ∃ message, b.answer dep org (.rotate raw) = .error (.refreshRejected message)) := by
  by_cases live : Live b raw
  · obtain ⟨answered, served⟩ := served_live sound injective opened live
    exact ⟨served, Or.inl ⟨live, _, answered⟩⟩
  · rcases sound.standing raw with ⟨row, found, last⟩ |
      ⟨row, i, issued, token, ofFamily, found, other⟩ | ⟨unknown⟩
    · obtain ⟨rejected, served⟩ := served_refused sound injective opened found last live
      exact ⟨served, Or.inr ⟨live, rejected⟩⟩
    · obtain ⟨rejected, served, -⟩ :=
        served_spent sound injective opened issued token ofFamily found other
      exact ⟨served, Or.inr ⟨live, rejected⟩⟩
    · obtain ⟨rejected, served⟩ := served_unknown sound injective unknown
      exact ⟨served, Or.inr ⟨live, rejected⟩⟩

theorem served (sound : Sound dep b) (injective : Function.Injective dep.sha256)
    (opened : b.Opened org call) : Served dep b call (b.serve dep org call) := by
  cases call with
  | issue userId organizationId => exact served_issue
  | rotate raw => exact (rotation_outcome sound injective opened).1

end

/-! ## What a call keeps -/

section

variable {call : Call}

theorem tokensOf_concat {i : Issuance} (issued : b'.issued = b.issued ++ [i]) (id : Uuid) :
    b'.tokensOf id = if i.family = id then b.tokensOf id ++ [i.token] else b.tokensOf id := by
  rw [tokensOf, issued, List.filter_append, List.map_append]
  by_cases here : i.family = id
  · rw [if_pos here, List.filter_singleton, decide_eq_true here]
    rfl
  · rw [if_neg here, List.filter_singleton, decide_eq_false here, cond_false, List.map_nil,
      List.append_nil]
    rfl

theorem tokensOf_same (issued : b'.issued = b.issued) (id : Uuid) :
    b'.tokensOf id = b.tokensOf id := by
  rw [tokensOf, tokensOf, issued]

/-- A family that is given a new token. -/
theorem Sound.adopt (sound : Sound dep b) (injective : Function.Injective dep.sha256)
    {row : RefreshTokenFamily} {i : Issuance}
    (tokens : b'.world.environment.tokens = b.world.environment.tokens)
    (database : b'.world.database = b.world.database.adopt row)
    (issued : b'.issued = b.issued ++ [i]) (hash : row.currentHash = dep.sha256 i.token)
    (ofFamily : i.family = row.id) (org : row.organizationId = i.organizationId)
    (old : ∀ row', b.family row.id = some row' → row'.organizationId = row.organizationId)
    (token : i.token = b.world.environment.tokens b.world.environment.tokensDrawn)
    (drawn : b'.world.environment.tokensDrawn = b.world.environment.tokensDrawn + 1) :
    Sound dep b' := by
  have families : ∀ id, b'.family id = if row.id = id then some row else b.family id := by
    intro id
    rw [family, database, Database.adopt_families]
  refine ⟨tokens ▸ sound.new, ?_, ?_, ?_, ?_, ?_, ?_⟩
  · intro id row' found
    rw [families] at found
    split at found
    · rename_i here
      obtain rfl := Option.some.inj found
      exact here
    · exact sound.keyed id row' found
  · intro id
    rw [families, tokensOf_concat issued, ofFamily]
    split
    · rw [List.getLast?_concat, Option.map_some, Option.map_some, hash]
    · exact sound.current id
  · intro tokenHash entry
    rw [database, Database.adopt_history, issued, hash, ← ofFamily, org]
    constructor
    · intro found
      split at found
      · rename_i here
        refine ⟨i, List.mem_append_right _ (List.mem_singleton_self i), here, ?_⟩
        rw [← Option.some.inj found, here]
      · obtain ⟨j, member, rest⟩ := (sound.history _ _).mp found
        exact ⟨j, List.mem_append_left _ member, rest⟩
    · intro entered
      obtain ⟨j, member, here, rfl⟩ := entered
      rcases List.mem_append.mp member with before | last
      · have apart : ¬ dep.sha256 i.token = tokenHash := by
          intro same
          exact sound.fresh before ((injective (here.trans same.symm)).trans token)
        rw [if_neg apart]
        exact (sound.history _ _).mpr ⟨j, before, here, rfl⟩
      · obtain rfl := List.mem_singleton.mp last
        rw [if_pos here, here]
  · intro j member row' found
    rw [families] at found
    rw [issued] at member
    rcases List.mem_append.mp member with before | last
    · split at found
      · rename_i here
        obtain rfl := Option.some.inj found
        obtain ⟨row', there⟩ := sound.row_of_token (mem_tokensOf.mpr ⟨j, before, rfl, rfl⟩)
        rw [← sound.organisation j before row' there]
        exact (old row' (here ▸ there)).symm
      · exact sound.organisation j before row' found
    · obtain rfl := List.mem_singleton.mp last
      rw [if_pos ofFamily.symm] at found
      exact Option.some.inj found ▸ org
  · intro j member
    rw [issued] at member
    rw [tokens, drawn]
    rcases List.mem_append.mp member with before | last
    · obtain ⟨k, less, same⟩ := sound.drawn j before
      exact ⟨k, Nat.lt_succ_of_lt less, same⟩
    · obtain rfl := List.mem_singleton.mp last
      exact ⟨_, Nat.lt_succ_self _, token⟩
  · rw [issued, List.map_append, List.nodup_append]
    refine ⟨sound.once, List.nodup_singleton _, fun raw before raw' last same => ?_⟩
    obtain ⟨j, member, rfl⟩ := List.mem_map.mp before
    obtain rfl := List.mem_singleton.mp last
    exact sound.fresh member (same.trans token)

/-- A family that is revoked. -/
theorem Sound.revoke (sound : Sound dep b) {row : RefreshTokenFamily} {at_ : Timestamp}
    (tokens : b'.world.environment.tokens = b.world.environment.tokens)
    (drawn : b.world.environment.tokensDrawn ≤ b'.world.environment.tokensDrawn)
    (found : b.family row.id = some row)
    (database : b'.world.database = b.world.database.revoke row at_)
    (issued : b'.issued = b.issued) : Sound dep b' := by
  have families : ∀ id, b'.family id =
      if row.id = id then some { row with revokedAt := some at_ } else b.family id := by
    intro id
    rw [family, database, Database.revoke, Dict.get?_set]
  have history : b'.world.database.history = b.world.database.history := by rw [database]; rfl
  refine ⟨tokens ▸ sound.new, ?_, ?_, ?_, ?_, ?_, issued ▸ sound.once⟩
  · intro id row' there
    rw [families] at there
    split at there
    · rename_i here
      obtain rfl := Option.some.inj there
      exact here
    · exact sound.keyed id row' there
  · intro id
    rw [families, tokensOf_same issued, ← sound.current]
    split
    · rename_i here
      rw [← here, found]
      rfl
    · rfl
  · intro hash entry
    rw [history, issued]
    exact sound.history hash entry
  · intro i member row' there
    rw [issued] at member
    rw [families] at there
    split at there
    · rename_i here
      obtain rfl := Option.some.inj there
      exact sound.organisation i member row (here ▸ found)
    · exact sound.organisation i member row' there
  · intro i member
    rw [issued] at member
    obtain ⟨k, less, same⟩ := sound.drawn i member
    exact ⟨k, less.trans_le drawn, by rw [tokens, same]⟩

theorem Served.sound (served : Served dep b call b') (sound : Sound dep b)
    (injective : Function.Injective dep.sha256) : Sound dep b' := by
  cases served.effect with
  | idle database issued =>
      refine ⟨served.tokens ▸ sound.new, ?_, ?_, ?_, ?_, ?_, issued ▸ sound.once⟩
      · intro id row
        rw [family, database]
        exact sound.keyed id row
      · intro id
        rw [family, database, tokensOf_same issued]
        exact sound.current id
      · rw [database, issued]
        exact sound.history
      · intro i member row
        rw [family, database]
        exact sound.organisation i (issued ▸ member) row
      · intro i member
        rw [issued] at member
        obtain ⟨k, less, same⟩ := sound.drawn i member
        exact ⟨k, less.trans_le served.drawn, by rw [served.tokens, same]⟩
  | revoked row at_ raw _ _ found database issued =>
      exact sound.revoke served.tokens served.drawn found database issued
  | opened row i database issued hash ofFamily org token drawn free =>
      refine sound.adopt injective served.tokens database issued hash ofFamily org ?_ token drawn
      intro row' found
      rw [free] at found
      cases found
  | replaced row i raw _ _ found database issued ofFamily org token drawn =>
      refine sound.adopt injective served.tokens database issued rfl ofFamily org ?_ token drawn
      intro row' found'
      rw [found] at found'
      rw [Option.some.inj found']

/-- A row stays, with its expiry, and revoked if it was. -/
theorem Served.keeps (served : Served dep b call b') {id : Uuid} {row : RefreshTokenFamily}
    (found : b.family id = some row) :
    ∃ row', b'.family id = some row' ∧ row'.expiresAt = row.expiresAt ∧
      (row.revokedAt.isSome = true → row'.revokedAt.isSome = true) := by
  rw [family]
  cases served.effect with
  | idle database issued =>
      rw [database]
      exact ⟨row, found, rfl, fun revoked => revoked⟩
  | revoked row₁ at_ raw _ _ found₁ database issued =>
      rw [database, Database.revoke, Dict.get?_set]
      split
      · rename_i here
        obtain rfl : row₁ = row := Option.some.inj ((here ▸ found₁).symm.trans found)
        exact ⟨_, rfl, rfl, fun _ => rfl⟩
      · exact ⟨row, found, rfl, fun revoked => revoked⟩
  | opened row₁ i database issued hash ofFamily org token drawn free =>
      rw [database, Database.adopt_families]
      split
      · rename_i here
        rw [here, found] at free
        cases free
      · exact ⟨row, found, rfl, fun revoked => revoked⟩
  | replaced row₁ i raw _ _ found₁ database issued ofFamily org token drawn =>
      rw [database, Database.adopt_families]
      split
      · rename_i here
        obtain rfl : row₁ = row := Option.some.inj ((here ▸ found₁).symm.trans found)
        exact ⟨_, rfl, rfl, fun revoked => revoked⟩
      · exact ⟨row, found, rfl, fun revoked => revoked⟩

/-- A family whose row and history a new token of another one leaves alone. -/
theorem sameFamily_adopt (sound : Sound dep b) (injective : Function.Injective dep.sha256)
    {row : RefreshTokenFamily} {i : Issuance} {id : Uuid} (elsewhere : row.id ≠ id)
    (database : b'.world.database = b.world.database.adopt row)
    (issued : b'.issued = b.issued ++ [i]) (hash : row.currentHash = dep.sha256 i.token)
    (ofFamily : i.family = row.id)
    (token : i.token = b.world.environment.tokens b.world.environment.tokensDrawn) :
    SameFamily id b b' := by
  constructor
  · rw [family, database, Database.adopt_families, if_neg elsewhere]
  · intro tokenHash entry here
    rw [database, Database.adopt_history]
    split
    · rename_i same
      refine ⟨fun found => ?_, fun found => ?_⟩
      · obtain rfl := Option.some.inj found
        exact absurd here elsewhere
      · obtain ⟨j, member, hash', -⟩ := (sound.history _ _).mp found
        have again := injective (hash'.trans (same.symm.trans hash))
        exact absurd (again.trans token) (sound.fresh member)
    · rfl
  · rw [tokensOf_concat issued, if_neg (ofFamily ▸ elsewhere)]

/-- A family of which no token is presented stays as it is. -/
theorem Served.apart (served : Served dep b call b') (sound : Sound dep b)
    (injective : Function.Injective dep.sha256) {id : Uuid} (hasTokens : b.tokensOf id ≠ [])
    (notPresented : ∀ raw ∈ b.tokensOf id, call ≠ .rotate raw) : SameFamily id b b' := by
  cases served.effect with
  | idle database issued =>
      exact ⟨by rw [family, database], fun _ _ _ => by rw [database], tokensOf_same issued id⟩
  | revoked row at_ raw presented member found database issued =>
      have elsewhere : row.id ≠ id := by
        rintro rfl
        exact notPresented raw member presented
      refine ⟨?_, fun hash entry _ => ?_, tokensOf_same issued id⟩
      · rw [family, database, Database.revoke, Dict.get?_set_ne _ _ elsewhere]
      · rw [database]
        rfl
  | opened row i database issued hash ofFamily org token drawn free =>
      have elsewhere : row.id ≠ id := by
        rintro rfl
        obtain ⟨raw, member⟩ := List.exists_mem_of_ne_nil _ hasTokens
        obtain ⟨row', found⟩ := sound.row_of_token member
        rw [found] at free
        cases free
      exact sameFamily_adopt sound injective elsewhere database issued hash ofFamily token
  | replaced row i raw presented member found database issued ofFamily org token drawn =>
      have elsewhere : row.id ≠ id := by
        rintro rfl
        exact notPresented raw member presented
      exact sameFamily_adopt sound injective (by exact elsewhere) database issued rfl ofFamily token

end

/-! ## Runs -/

theorem After.sound (injective : Function.Injective dep.sha256) (sound : Sound dep b)
    (after : After dep b b') : Sound dep b' := by
  induction after with
  | refl => exact sound
  | serve _ opened ih => exact (served ih injective opened).sound ih injective

/-- A family that is revoked stays revoked. -/
theorem After.revoked (injective : Function.Injective dep.sha256) (sound : Sound dep b)
    (after : After dep b b') {id : Uuid}
    (revoked : ∃ row, b.family id = some row ∧ row.revokedAt.isSome = true) :
    ∃ row, b'.family id = some row ∧ row.revokedAt.isSome = true := by
  induction after with
  | refl => exact revoked
  | serve before opened ih =>
      obtain ⟨row, found, marked⟩ := ih
      obtain ⟨row', found', -, keeps⟩ :=
        (served (before.sound injective sound) injective opened).keeps found
      exact ⟨row', found', keeps marked⟩

/-- No token of a family that is revoked is accepted. -/
theorem rejected_of_revoked (sound : Sound dep b) (injective : Function.Injective dep.sha256)
    {id : Uuid} (revoked : ∃ row, b.family id = some row ∧ row.revokedAt.isSome = true)
    {raw : String} (member : raw ∈ b.tokensOf id) {org : Option Uuid}
    (opened : b.Opened org (.rotate raw)) :
    ∃ message, b.answer dep org (.rotate raw) = .error (.refreshRejected message) := by
  rcases (rotation_outcome sound injective opened).2 with ⟨live, -⟩ | ⟨-, rejected⟩
  · obtain ⟨id', row', found', last, notRevoked, -⟩ := live
    obtain rfl := sound.oneFamily member (List.mem_of_getLast? last)
    obtain ⟨row, found, marked⟩ := revoked
    rw [found'] at found
    obtain rfl := Option.some.inj found
    rw [notRevoked] at marked
    cases marked
  · exact rejected

/-- An earlier token of a family revokes it. -/
theorem replay_revokes (sound : Sound dep b) (injective : Function.Injective dep.sha256)
    {org : Option Uuid} {raw : String} {id : Uuid} (opened : b.Opened org (.rotate raw))
    (earlier : raw ∈ (b.tokensOf id).dropLast) :
    ∃ row, (b.serve dep org (.rotate raw)).family id = some row ∧ row.revokedAt.isSome = true := by
  have member := List.dropLast_subset _ earlier
  have notLast : (b.tokensOf id).getLast? ≠ some raw := by
    intro last
    have split := List.dropLast_append_getLast? raw last
    have nodup := sound.nodup id
    rw [← split, List.nodup_append] at nodup
    exact nodup.2.2 raw earlier raw (List.mem_singleton_self raw) rfl
  rcases sound.standing raw with ⟨row, -, last⟩ |
    ⟨row, i, issued, token, ofFamily, found, other⟩ | ⟨unknown⟩
  · rw [sound.oneFamily member (List.mem_of_getLast? last)] at notLast
    exact absurd last notLast
  · obtain ⟨-, -, database⟩ :=
      served_spent sound injective opened issued token ofFamily found other
    obtain rfl := sound.oneFamily member (mem_tokensOf.mpr ⟨i, issued, ofFamily, token⟩)
    refine ⟨{ row with revokedAt := some (b.world.view org).setting.now }, ?_, rfl⟩
    rw [family, database, Database.revoke, Dict.get?_set_self]
  · obtain ⟨i, issued, -, token⟩ := mem_tokensOf.mp member
    exact absurd token (unknown i issued)

theorem Sound.lawful (sound : Sound dep b) (injective : Function.Injective dep.sha256) :
    Lawful dep b := by
  refine ⟨?_, sound.current, ?_, ?_, ?_, ?_, ?_⟩
  · intro id hash
    constructor
    · rintro ⟨entry, found, rfl⟩
      obtain ⟨i, issued, here, rfl⟩ := (sound.history _ _).mp found
      exact ⟨i.token, mem_tokensOf.mpr ⟨i, issued, rfl, rfl⟩, here⟩
    · rintro ⟨raw, member, here⟩
      obtain ⟨i, issued, rfl, rfl⟩ := mem_tokensOf.mp member
      exact ⟨_, (sound.history _ _).mpr ⟨i, issued, here, rfl⟩, rfl⟩
  · intro org call opened id row found
    exact (served sound injective opened).keeps found
  · intro org raw opened
    rcases (rotation_outcome sound injective opened).2 with ⟨live, answered⟩ | ⟨dead, rejected⟩
    · exact ⟨fun _ => live, fun _ => answered⟩
    · refine ⟨fun answered => ?_, fun live => absurd live dead⟩
      obtain ⟨message, rejected⟩ := rejected
      obtain ⟨token, answered⟩ := answered
      rw [rejected] at answered
      cases answered
  · intro org raw opened
    exact (rotation_outcome sound injective opened).2.imp And.right And.right
  · intro org raw id opened earlier b' after other member org' opened'
    have next := (served sound injective opened).sound sound injective
    have revoked := replay_revokes sound injective opened earlier
    exact rejected_of_revoked (after.sound injective next) injective
      (after.revoked injective next revoked) member opened'
  · intro org call opened id hasTokens notPresented
    exact (served sound injective opened).apart sound injective hasTokens notPresented

/-- The laws hold of all books that calls lead to. -/
theorem lawful_of_after {b₀ b : Books} (fresh : Fresh b₀)
    (injective : Function.Injective dep.sha256)
    (new : Function.Injective b₀.world.environment.tokens) (after : After dep b₀ b) :
    Lawful dep b :=
  (after.sound injective (fresh.sound new)).lawful injective

/-! ## A run -/

/-- A digest that is set apart, before the others. -/
def pinned (token digest : String) (others : String → String) (raw : String) : String :=
  if raw = token then digest else others raw

theorem pinned_injective {token digest : String} {others : String → String}
    (injective : Function.Injective others) (free : ∀ raw, others raw ≠ digest) :
    Function.Injective (pinned token digest others) := by
  intro raw raw' same
  rw [pinned, pinned] at same
  by_cases here : raw = token
  · by_cases there : raw' = token
    · rw [here, there]
    · rw [if_pos here, if_neg there] at same
      exact absurd same.symm (free raw')
  · by_cases there : raw' = token
    · rw [if_neg here, if_pos there] at same
      exact absurd same (free raw)
    · rw [if_neg here, if_neg there] at same
      exact injective same

/-- Digests, real ones of the first two tokens. -/
def tokenDigest : String → String :=
  pinned "" "e3b0c44298fc1c149afbf4c8996fb92427ae41e4649b934ca495991b7852b855"
    (pinned "a" "ca978112ca1bbdcafac231b39a23dc4da786eff8147c4e72b9807785afee48bb"
      ("digest of " ++ ·))

theorem tokenDigest_injective : Function.Injective tokenDigest := by
  have free : ∀ digest : String, digest.toList.head? ≠ some 'd' →
      ∀ raw, ("digest of " ++ raw) ≠ digest := by
    intro digest starts raw same
    refine starts ?_
    rw [← same, String.toList_append]
    rfl
  refine pinned_injective (pinned_injective ?_ (free _ (by decide +kernel))) fun raw => ?_
  · intro raw raw' same
    rw [← String.toList_inj, String.toList_append, String.toList_append] at same
    exact String.toList_inj.mp (List.append_cancel_left same)
  · rw [pinned]
    split
    · decide +kernel
    · exact free _ (by decide +kernel) raw

/-- A user, and tokens of growing length. -/
def beforeIssue : Books where
  world :=
    { database := { users := Dict.ofList [(1,
      { id := 1, organizationId := 2, email := "ada@example.com", name := "Ada"
        orgRole := "ADMIN" })] }
      environment :=
        { tokens := fun n => String.ofList (List.replicate n 'a')
          uuids := fun n => BitVec.ofNat 128 (n + 7)
          clock := fun n => n } }

def tokenDeployment : Deployment where
  sha256 := tokenDigest
  refreshTokenTtlSeconds := 1209600
  accessTokenTtlSeconds := 900

/-- A family is issued, its token is rotated, and then presented again. -/
def afterReplay : Books :=
  ((beforeIssue.serve tokenDeployment (some 2) (.issue 1 2)).serve tokenDeployment (some 2)
    (.rotate "")).serve tokenDeployment (some 2) (.rotate "")

theorem after_afterReplay : After tokenDeployment beforeIssue afterReplay := by
  refine .serve (.serve (.serve .refl ?_) ?_) ?_
  · intro user found
    obtain rfl := Option.some.inj found
    rfl
  · intro i member _
    obtain rfl := List.mem_singleton.mp member
    rfl
  · intro i member _
    have issued : ((beforeIssue.serve tokenDeployment (some 2) (.issue 1 2)).serve tokenDeployment
        (some 2) (.rotate "")).issued = [⟨"", 7, 2⟩, ⟨"a", 7, 2⟩] := rfl
    rw [issued] at member
    rcases List.mem_cons.mp member with rfl | rest
    · rfl
    · obtain rfl := List.mem_singleton.mp rest
      rfl

/-- The family is revoked, and the laws hold. -/
theorem lawful_afterReplay :
    (afterReplay.family 7).any (fun row => row.revokedAt.isSome) = true ∧
      afterReplay.tokensOf 7 = ["", "a"] ∧ Lawful tokenDeployment afterReplay := by
  refine ⟨rfl, rfl, lawful_of_after ⟨rfl, rfl, rfl⟩ tokenDigest_injective ?_ after_afterReplay⟩
  intro m n same
  have lengths := congrArg String.length same
  simpa [beforeIssue] using lengths

end Books

end Plimsoll.Refresh
