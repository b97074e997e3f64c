import Plimsoll.Refresh.Interleaving

/-!
A rotation that replaces the hash it was presented with consumes its token once.

The invariant says where each session stands, and that the tokens in play are
apart: those drawn by open sessions, those current in a family, and those spent.
-/

namespace Plimsoll.Refresh

open Python Contracts Transaction
open Database (Setting Statement Write)

variable {dep : Deployment} {tokens : Nat → String} {d : Database}

/-! ## How a stage goes on -/

/-- A question leads to the next stage; only a draw takes a token. -/
theorem Stage.ask {hold : Option Nat} {session : Sql.Session (rotations dep)} {e : Environment}
    (stage : Stage dep tokens d hold session) (same : e.tokens = tokens) {q : Question}
    {next : q.Reply → Transaction Granted} (shape : session.program = .ask q next) :
    ∃ hold', Stage dep tokens d hold' { session with program := next (e.answer q).1 } ∧
      ∀ k, hold' = some k →
        hold = some k ∨ k = e.tokensDrawn ∧ (e.answer q).2.tokensDrawn = k + 1 := by
  cases stage with
  | finding => cases shape
  | rejecting => cases shape
  | timing found =>
      cases shape
      refine ⟨none, ?_, fun k impossible => by cases impossible⟩
      dsimp only [afterNow]
      split
      · exact .failed
      · exact .drawing found
  | drawing found =>
      rw [replace_eq] at shape
      cases shape
      refine ⟨some e.tokensDrawn, ?_, fun k drawn => ?_⟩
      · rw [← same]
        exact .replacing found
      · obtain rfl := Option.some.inj drawn
        exact Or.inr ⟨rfl, rfl⟩
  | replacing => cases shape
  | starting =>
      rw [issue_eq] at shape
      cases shape
      refine ⟨some e.tokensDrawn, ?_, fun k drawn => ?_⟩
      · rw [← same]
        exact .naming
      · obtain rfl := Option.some.inj drawn
        exact Or.inr ⟨rfl, rfl⟩
  | @naming _ _ _ k =>
      cases shape
      exact ⟨some k, .dating, fun _ held => Or.inl held⟩
  | @dating _ _ _ k =>
      cases shape
      exact ⟨some k, .inserting rfl, fun _ held => Or.inl held⟩
  | inserting => cases shape
  | recording =>
      rw [record_eq] at shape
      cases shape
  | granting => cases shape
  | failed => cases shape

/-- A session as it is behind a statement. -/
def behind (session : Sql.Session (rotations dep)) (d : Database) (st : Statement)
    (next : st.Answer → Transaction Granted) : Sql.Session (rotations dep) where
  job := session.job
  setting := Database.rebind st session.setting
  pending := session.pending ++
    (Database.execute st session.setting (postgres.applyAll session.pending d)).2
  program := next (Database.execute st session.setting (postgres.applyAll session.pending d)).1

theorem behind_eq {session : Sql.Session (rotations dep)} {st : Statement}
    {next : st.Answer → Transaction Granted} {answer : st.Answer} {writes : List Write}
    (ran : Database.execute st session.setting (postgres.applyAll session.pending d) =
      (answer, writes)) :
    behind session d st next =
      ⟨session.job, Database.rebind st session.setting, session.pending ++ writes, next answer⟩ := by
  rw [behind, ran]

/-- A family is found only where the policy shows it. -/
theorem Found.byKey {c : Setting} {row : RefreshTokenFamily} (found : Found c d row) :
    ∃ current, Database.byKey c d.families row.id = some current ∧
      d.families.get? row.id = some current ∧ current.organizationId = row.organizationId := by
  obtain ⟨current, at_, sameOrg⟩ := found.stands
  have sees : c.Sees current := by
    have seesRow : c.org = some row.organizationId := found.sees
    rw [← sameOrg] at seesRow
    exact seesRow
  exact ⟨current, Database.byKey_eq_some_iff.mpr ⟨at_, sees⟩, at_, sameOrg⟩

/-- A statement leads to the next stage, if families stand under their keys and
a replaced hash is the presented one. -/
theorem Stage.execute {hold : Option Nat} {session : Sql.Session (rotations dep)}
    (stage : Stage dep tokens d hold session) {st : Statement}
    {next : st.Answer → Transaction Granted} (shape : session.program = .execute st next)
    (keyed : ∀ id row, d.families.get? id = some row → row.id = id)
    (carries : ∀ raw org familyId tokenHash, session.job = .rotate raw org →
      st = .replaceHash familyId tokenHash → ∃ row,
        (postgres.applyAll session.pending d).families.get? familyId = some row ∧
          row.currentHash = dep.sha256 raw) :
    ∃ hold', Stage dep tokens d hold' (behind session d st next) ∧
      ∀ k, hold' = some k → hold = some k := by
  cases stage with
  | @finding raw org c =>
      rw [rotate_eq] at shape
      cases shape
      refine ⟨none, ?_, fun k impossible => by cases impossible⟩
      cases found : d.findByHash c (dep.sha256 raw) with
      | none =>
          rw [behind_eq (show Database.execute (.findByHash (dep.sha256 raw)) c d = (none, []) by
            rw [Database.execute, found])]
          exact .rejecting
      | some row =>
          rw [behind_eq (show Database.execute (.findByHash (dep.sha256 raw)) c d = (some row, []) by
            rw [Database.execute, found])]
          obtain ⟨id, at_, -, sees⟩ := Database.findByHash_eq_some found
          obtain rfl := keyed id row at_
          dsimp only [afterFind]
          split
          · exact .failed
          · exact .timing ⟨sees, row, at_, rfl⟩
  | rejecting =>
      cases shape
      exact ⟨none, .failed, fun k impossible => by cases impossible⟩
  | timing => cases shape
  | drawing =>
      rw [replace_eq] at shape
      cases shape
  | @replacing raw org c row k found =>
      cases shape
      obtain ⟨current, shown, at_, sameOrg⟩ := found.byKey
      obtain ⟨carried, there, presented⟩ := carries raw org row.id _ rfl rfl
      obtain rfl : current = carried := Option.some.inj (at_.symm.trans there)
      have sameId := keyed row.id current at_
      refine ⟨some k, ?_, fun _ held => held⟩
      rw [behind_eq (show Database.execute (.replaceHash row.id (dep.sha256 (tokens k))) c d =
        ((), [.family { current with currentHash := dep.sha256 (tokens k) }]) by
          rw [Database.execute, shown]
          rfl)]
      exact .recording rfl sameId sameOrg ⟨current, by rw [sameId]; exact at_, presented, rfl⟩
  | starting =>
      rw [issue_eq] at shape
      cases shape
  | naming => cases shape
  | dating => cases shape
  | @inserting userId org c k row hash =>
      cases shape
      cases inserted : Database.insert c d.families row.id row (d.users.get? row.userId).isSome
          (.family row) with
      | mk result writes =>
          have ran : Database.execute (.insertFamily row) c d = (result, writes) := inserted
          cases result with
          | error fault =>
              refine ⟨none, ?_, fun k impossible => by cases impossible⟩
              rw [behind_eq ran]
              exact .failed
          | ok _ =>
              obtain ⟨written, -, free, -⟩ := Database.insert_ok (congrArg Prod.fst inserted)
              rw [inserted] at written
              subst written
              refine ⟨some k, ?_, fun _ held => held⟩
              rw [behind_eq ran]
              exact .recording hash rfl rfl free
  | @recording job c k row new hash sameId sameOrg base =>
      rw [record_eq] at shape
      cases shape
      let entry : RefreshTokenHistory := ⟨dep.sha256 (tokens k), row.id, row.organizationId⟩
      let view := postgres.applyAll [.family new] d
      cases inserted : Database.insert c view.history entry.tokenHash entry
          (view.families.get? entry.familyId).isSome (.history entry) with
      | mk result writes =>
          have ran : Database.execute (.recordHistory entry) c view = (result, writes) := inserted
          cases result with
          | error fault =>
              refine ⟨none, ?_, fun k impossible => by cases impossible⟩
              rw [behind_eq ran]
              exact .failed
          | ok _ =>
              obtain ⟨written, -, free, -⟩ := Database.insert_ok (congrArg Prod.fst inserted)
              rw [inserted] at written
              subst written
              refine ⟨some k, ?_, fun _ held => held⟩
              have entry_eq : entry = ⟨new.currentHash, new.id, new.organizationId⟩ := by
                rw [hash, sameId, sameOrg]
              rw [behind_eq ran, entry_eq]
              exact .granting hash base
  | granting => cases shape
  | failed => cases shape

/-! ## How a stage outlives the commit of another session -/

theorem Found.adopt {c : Setting} {row new : RefreshTokenFamily} (found : Found c d row)
    (sameOrg : ∀ current, d.families.get? new.id = some current →
      current.organizationId = new.organizationId) : Found c (d.adopt new) row := by
  obtain ⟨sees, current, at_, org⟩ := found
  refine ⟨sees, ?_⟩
  rw [Database.adopt, Dict.get?_set]
  split
  · rename_i same
    rw [← same] at at_
    exact ⟨new, rfl, (sameOrg current at_).symm.trans org⟩
  · exact ⟨current, at_, org⟩

theorem Replaceable.adopt {job : Job} {row new : RefreshTokenFamily} (base : Replaceable dep d row job)
    (other : row.id ≠ new.id) : Replaceable dep (d.adopt new) row job := by
  have unchanged : (d.adopt new).families.get? row.id = d.families.get? row.id :=
    Dict.get?_set_ne _ _ other.symm
  cases job with
  | issue userId org => exact unchanged.trans base
  | rotate raw org =>
      obtain ⟨old, at_, presented, sameOrg⟩ := base
      exact ⟨old, unchanged.trans at_, presented, sameOrg⟩

/-- A family that another session commits moves no stage, if it is not one that
this session has written. -/
theorem Stage.adopt {hold : Option Nat} {session : Sql.Session (rotations dep)}
    {new : RefreshTokenFamily} (stage : Stage dep tokens d hold session)
    (apart : ∀ row, Write.family row ∈ session.pending → row.id ≠ new.id)
    (sameOrg : ∀ current, d.families.get? new.id = some current →
      current.organizationId = new.organizationId) :
    Stage dep tokens (d.adopt new) hold session := by
  cases stage with
  | finding => exact .finding
  | rejecting => exact .rejecting
  | timing found => exact .timing (found.adopt sameOrg)
  | drawing found => exact .drawing (found.adopt sameOrg)
  | replacing found => exact .replacing (found.adopt sameOrg)
  | starting => exact .starting
  | naming => exact .naming
  | dating => exact .dating
  | inserting hash => exact .inserting hash
  | recording hash sameId org base =>
      exact .recording hash sameId org (base.adopt (apart _ List.mem_cons_self))
  | granting hash base => exact .granting hash (base.adopt (apart _ List.mem_cons_self))
  | failed => exact .failed

/-! ## The invariant -/

/-- A hash is that of a token that was drawn and that no open session holds. -/
def Settled (dep : Deployment) (tokens : Nat → String) (drawn : Nat) (hold : Nat → Option Nat)
    (hash : String) : Prop :=
  ∃ k < drawn, hash = dep.sha256 (tokens k) ∧ ∀ id, hold id ≠ some k

/-- The hash that a job presents. -/
def Job.presentedHash (dep : Deployment) (job : Job) : Option String := job.presented.map dep.sha256

/-- Where the sessions stand, which tokens they hold, and that every token that
is current or spent is held by none. -/
structure Consistent (dep : Deployment) (tokens : Nat → String) (s : RefreshServer dep)
    (hold : Nat → Option Nat) : Prop where
  same : s.environment.tokens = tokens
  stages : ∀ id session, s.sessions id = some session →
    Stage dep tokens s.committed (hold id) session
  idle : ∀ id, s.sessions id = none → hold id = none
  drawn : ∀ id k, hold id = some k → k < s.environment.tokensDrawn
  apart : ∀ i j k, hold i = some k → hold j = some k → i = j
  keyed : ∀ id row, s.committed.families.get? id = some row → row.id = id
  settled : ∀ id row, s.committed.families.get? id = some row →
    Settled dep tokens s.environment.tokensDrawn hold row.currentHash
  distinct : ∀ i j row row', s.committed.families.get? i = some row →
    s.committed.families.get? j = some row' → row.currentHash = row'.currentHash → i = j
  spent : ∀ r ∈ s.returned, ∀ hash, r.1.presentedHash dep = some hash →
    Settled dep tokens s.environment.tokensDrawn hold hash ∧
      ∀ id row, s.committed.families.get? id = some row → row.currentHash ≠ hash
  once : (s.returned.filterMap fun r => r.1.presentedHash dep).Nodup
  handed : ∀ r ∈ s.returned,
    Settled dep tokens s.environment.tokensDrawn hold (dep.sha256 r.2.1) ∧
      ((∃ r' ∈ s.returned, r'.1.presentedHash dep = some (dep.sha256 r.2.1)) ∨ Current s r.2.1)
  began : (∀ id session, s.sessions id = some session → session.job ∈ s.started) ∧
    ∀ r ∈ s.returned, r.1 ∈ s.started

variable {s : RefreshServer dep} {hold : Nat → Option Nat}

/-- A settled hash stays settled while tokens are drawn. -/
theorem Settled.update {drawn drawn' : Nat} {id : Nat} {h : Option Nat} {hash : String}
    (settled : Settled dep tokens drawn hold hash) (later : drawn ≤ drawn')
    (fresh : ∀ k, h = some k → hold id = some k ∨ drawn ≤ k) :
    Settled dep tokens drawn' (Function.update hold id h) hash := by
  obtain ⟨k, before, same, free⟩ := settled
  refine ⟨k, by omega, same, fun other held => ?_⟩
  by_cases here : other = id
  · subst here
    rw [Function.update_self] at held
    rcases fresh k held with own | new
    · exact free other own
    · omega
  · rw [Function.update_of_ne here] at held
    exact free other held

/-- A session that goes on keeps the invariant. -/
theorem Consistent.put (inv : Consistent dep tokens s hold) {id : Nat}
    {session session' : Sql.Session (rotations dep)} (at_ : s.sessions id = some session)
    {e : Environment} {held : Database.RowLock → Option Nat} {shared : Database.RowLock → List Nat}
    {h : Option Nat} (same : e.tokens = s.environment.tokens)
    (later : s.environment.tokensDrawn ≤ e.tokensDrawn)
    (fresh : ∀ k, h = some k →
      hold id = some k ∨ k = s.environment.tokensDrawn ∧ e.tokensDrawn = k + 1)
    (sameJob : session'.job = session.job) (stage : Stage dep tokens s.committed h session') :
    Consistent dep tokens
      (Sql.Server.put { s with environment := e, held := held, shared := shared } id session')
      (Function.update hold id h) := by
  have old : ∀ k, h = some k → hold id = some k ∨ s.environment.tokensDrawn ≤ k := by
    intro k held
    rcases fresh k held with own | ⟨new, -⟩
    · exact Or.inl own
    · exact Or.inr (by omega)
  have others : ∀ j k, j ≠ id → h = some k → hold j ≠ some k := by
    intro j k other held heldJ
    rcases fresh k held with own | ⟨new, -⟩
    · exact other (inv.apart j id k heldJ own)
    · have before := inv.drawn j k heldJ
      omega
  constructor
  · exact same.trans inv.same
  · intro other found atOther
    by_cases here : other = id
    · subst here
      obtain rfl : session' = found := by simpa [Sql.Server.put] using atOther
      rw [Function.update_self]
      exact stage
    · rw [Function.update_of_ne here]
      exact inv.stages other found (by simpa [Sql.Server.put, here] using atOther)
  · intro other absent
    by_cases here : other = id
    · subst here
      simp [Sql.Server.put] at absent
    · rw [Function.update_of_ne here]
      exact inv.idle other (by simpa [Sql.Server.put, here] using absent)
  · intro other k held
    by_cases here : other = id
    · subst here
      rw [Function.update_self] at held
      rcases fresh k held with own | ⟨-, counted⟩
      · exact (inv.drawn other k own).trans_le later
      · change k < e.tokensDrawn
        omega
    · rw [Function.update_of_ne here] at held
      exact (inv.drawn other k held).trans_le later
  · intro i j k heldI heldJ
    by_cases hereI : i = id
    · by_cases hereJ : j = id
      · rw [hereI, hereJ]
      · rw [hereI, Function.update_self] at heldI
        rw [Function.update_of_ne hereJ] at heldJ
        exact absurd heldJ (others j k hereJ heldI)
    · rw [Function.update_of_ne hereI] at heldI
      by_cases hereJ : j = id
      · rw [hereJ, Function.update_self] at heldJ
        exact absurd heldI (others i k hereI heldJ)
      · rw [Function.update_of_ne hereJ] at heldJ
        exact inv.apart i j k heldI heldJ
  · exact inv.keyed
  · exact fun other row found => (inv.settled other row found).update later old
  · exact inv.distinct
  · exact fun r member hash presented =>
      ⟨(inv.spent r member hash presented).1.update later old, (inv.spent r member hash presented).2⟩
  · exact inv.once
  · exact fun r member => ⟨(inv.handed r member).1.update later old, (inv.handed r member).2⟩
  · refine ⟨fun other found atOther => ?_, inv.began.2⟩
    by_cases here : other = id
    · subst here
      obtain rfl : session' = found := by simpa [Sql.Server.put] using atOther
      rw [sameJob]
      exact inv.began.1 other session at_
    · exact inv.began.1 other found (by simpa [Sql.Server.put, here] using atOther)

/-- A session that ends without committing keeps the invariant. -/
theorem Consistent.close (inv : Consistent dep tokens s hold) (id : Nat) :
    Consistent dep tokens (s.close id) (Function.update hold id none) := by
  have fewer : ∀ other k, Function.update hold id none other = some k → hold other = some k := by
    intro other k held
    by_cases here : other = id
    · rw [here, Function.update_self] at held
      cases held
    · rwa [Function.update_of_ne here] at held
  have open_ : ∀ other session, (s.close id).sessions other = some session →
      other ≠ id ∧ s.sessions other = some session := by
    intro other session found
    by_cases here : other = id
    · simp [Sql.Server.close, here] at found
    · exact ⟨here, by simpa [Sql.Server.close, here] using found⟩
  have settles : ∀ hash, Settled dep tokens s.environment.tokensDrawn hold hash →
      Settled dep tokens s.environment.tokensDrawn (Function.update hold id none) hash :=
    fun hash settled => settled.update le_rfl (fun k impossible => by cases impossible)
  constructor
  · exact inv.same
  · intro other session found
    obtain ⟨here, atOther⟩ := open_ other session found
    rw [Function.update_of_ne here]
    exact inv.stages other session atOther
  · intro other absent
    by_cases here : other = id
    · rw [here, Function.update_self]
    · rw [Function.update_of_ne here]
      exact inv.idle other (by simpa [Sql.Server.close, here] using absent)
  · exact fun other k held => inv.drawn other k (fewer other k held)
  · exact fun i j k heldI heldJ => inv.apart i j k (fewer i k heldI) (fewer j k heldJ)
  · exact inv.keyed
  · exact fun other row found => settles _ (inv.settled other row found)
  · exact inv.distinct
  · exact fun r member hash presented =>
      ⟨settles _ (inv.spent r member hash presented).1, (inv.spent r member hash presented).2⟩
  · exact inv.once
  · exact fun r member => ⟨settles _ (inv.handed r member).1, (inv.handed r member).2⟩
  · exact ⟨fun other session found => inv.began.1 other session (open_ other session found).2,
      inv.began.2⟩

/-- A session that begins keeps the invariant. -/
theorem Consistent.begun (inv : Consistent dep tokens s hold) {id : Nat} {job : Job}
    (free : s.sessions id = none) : Consistent dep tokens (s.begun id job) hold := by
  have unheld := inv.idle id free
  constructor
  · exact inv.same
  · intro other session found
    by_cases here : other = id
    · subst here
      obtain rfl : _ = session := by simpa [Sql.Server.begun, Sql.Server.put] using found
      rw [unheld]
      cases job with
      | issue userId org => exact .starting
      | rotate raw org => exact .finding
    · exact inv.stages other session (by simpa [Sql.Server.begun, Sql.Server.put, here] using found)
  · intro other absent
    by_cases here : other = id
    · rw [here, unheld]
    · exact inv.idle other (by simpa [Sql.Server.begun, Sql.Server.put, here] using absent)
  · exact inv.drawn
  · exact inv.apart
  · exact inv.keyed
  · exact inv.settled
  · exact inv.distinct
  · exact inv.spent
  · exact inv.once
  · exact inv.handed
  · constructor
    · intro other session found
      by_cases here : other = id
      · subst here
        obtain rfl : _ = session := by simpa [Sql.Server.begun, Sql.Server.put] using found
        exact List.mem_append_right _ (List.mem_singleton_self job)
      · exact List.mem_append_left _ (inv.began.1 other session
          (by simpa [Sql.Server.begun, Sql.Server.put, here] using found))
    · exact fun r member => List.mem_append_left _ (inv.began.2 r member)

/-- What an open session holds is nobody's settled hash. -/
theorem Settled.ne {drawn k id : Nat} {hash : String}
    (injective : Function.Injective fun n => dep.sha256 (tokens n))
    (settled : Settled dep tokens drawn hold hash) (held : hold id = some k) :
    hash ≠ dep.sha256 (tokens k) := by
  obtain ⟨k', -, same, free⟩ := settled
  intro equal
  obtain rfl : k' = k := injective (same.symm.trans equal)
  exact free id held

/-- A session that can commit has written one family and one entry of the
history, whose hash is that of the token it holds. -/
theorem Stage.granted {h : Option Nat} {session : Sql.Session (rotations dep)} {a : Granted}
    (stage : Stage dep tokens d h session) (shape : session.program = .finished (.ok a)) :
    ∃ k new, h = some k ∧ a.1 = tokens k ∧ new.currentHash = dep.sha256 (tokens k) ∧
      session.pending = [.family new, .history ⟨new.currentHash, new.id, new.organizationId⟩] ∧
      Replaceable dep d new session.job := by
  cases stage with
  | finding =>
      rw [rotate_eq] at shape
      cases shape
  | rejecting => cases shape
  | timing => cases shape
  | drawing =>
      rw [replace_eq] at shape
      cases shape
  | replacing => cases shape
  | starting =>
      rw [issue_eq] at shape
      cases shape
  | naming => cases shape
  | dating => cases shape
  | inserting => cases shape
  | recording =>
      rw [record_eq] at shape
      cases shape
  | granting hash base =>
      cases shape
      exact ⟨_, _, rfl, rfl, hash, rfl, base⟩
  | failed => cases shape

/-- The family `new` that the session `id` is about to commit for `job`. -/
structure Granting (dep : Deployment) (tokens : Nat → String) (s : RefreshServer dep)
    (hold : Nat → Option Nat) (id k : Nat) (job : Job) (new : RefreshTokenFamily) : Prop where
  injective : Function.Injective fun n => dep.sha256 (tokens n)
  held : hold id = some k
  hash : new.currentHash = dep.sha256 (tokens k)
  base : Replaceable dep s.committed new job

namespace Granting

variable {id k : Nat} {job : Job} {new : RefreshTokenFamily}

theorem sameOrg (g : Granting dep tokens s hold id k job new) {current : RefreshTokenFamily}
    (found : s.committed.families.get? new.id = some current) :
    current.organizationId = new.organizationId := by
  have base := g.base
  cases job with
  | issue userId org =>
      rw [show s.committed.families.get? new.id = none from base] at found
      cases found
  | rotate raw org =>
      obtain ⟨old, atOld, -, sameOrg⟩ := base
      rw [atOld] at found
      exact Option.some.inj found ▸ sameOrg

/-- The family that is there has the hash that the job presents. -/
theorem presented (g : Granting dep tokens s hold id k job new) {current : RefreshTokenFamily}
    (found : s.committed.families.get? new.id = some current) :
    job.presentedHash dep = some current.currentHash := by
  have base := g.base
  cases job with
  | issue userId org =>
      rw [show s.committed.families.get? new.id = none from base] at found
      cases found
  | rotate raw org =>
      obtain ⟨old, atOld, same, -⟩ := base
      rw [atOld] at found
      obtain rfl := Option.some.inj found
      exact congrArg some same.symm

/-- A job that presents a hash finds it in the family. -/
theorem current (g : Granting dep tokens s hold id k job new) {hash : String}
    (presents : job.presentedHash dep = some hash) :
    ∃ old, s.committed.families.get? new.id = some old ∧ old.currentHash = hash := by
  have base := g.base
  cases job with
  | issue userId org => cases presents
  | rotate raw org =>
      obtain ⟨old, atOld, same, -⟩ := base
      exact ⟨old, atOld, same.trans (Option.some.inj presents)⟩

/-- No settled hash is that of the new token. -/
theorem differs (g : Granting dep tokens s hold id k job new) {drawn : Nat} {hash : String}
    (settled : Settled dep tokens drawn hold hash) : hash ≠ new.currentHash := by
  rw [g.hash]
  exact settled.ne g.injective g.held

/-- The new token is settled once its session has ended. -/
theorem settled (g : Granting dep tokens s hold id k job new) (inv : Consistent dep tokens s hold) :
    Settled dep tokens s.environment.tokensDrawn (Function.update hold id none) new.currentHash := by
  refine ⟨k, inv.drawn id k g.held, g.hash, fun other heldOther => ?_⟩
  by_cases here : other = id
  · rw [here, Function.update_self] at heldOther
    cases heldOther
  · rw [Function.update_of_ne here] at heldOther
    exact here (inv.apart other id k heldOther g.held)

/-- The families behind the commit: the new one, and the others as they were. -/
theorem families (new : RefreshTokenFamily) {other : Uuid} {row : RefreshTokenFamily}
    (found : (s.committed.adopt new).families.get? other = some row) :
    (new.id = other ∧ new = row) ∨
      (new.id ≠ other ∧ s.committed.families.get? other = some row) := by
  rw [Database.adopt, Dict.get?_set] at found
  split at found
  · rename_i same
    exact Or.inl ⟨same, Option.some.inj found⟩
  · rename_i differs
    exact Or.inr ⟨differs, found⟩

theorem distinct (g : Granting dep tokens s hold id k job new)
    (inv : Consistent dep tokens s hold) {i j : Uuid} {row row' : RefreshTokenFamily}
    (atI : (s.committed.adopt new).families.get? i = some row)
    (atJ : (s.committed.adopt new).families.get? j = some row')
    (same : row.currentHash = row'.currentHash) : i = j := by
  rcases families new atI with ⟨hereI, rfl⟩ | ⟨-, atI⟩
  · rcases families new atJ with ⟨hereJ, -⟩ | ⟨-, atJ⟩
    · exact hereI.symm.trans hereJ
    · exact absurd same.symm (g.differs (inv.settled j row' atJ))
  · rcases families new atJ with ⟨hereJ, rfl⟩ | ⟨-, atJ⟩
    · exact absurd same (g.differs (inv.settled i row atI))
    · exact inv.distinct i j row row' atI atJ same

/-- The presented hash is settled, and current nowhere behind the commit. -/
theorem spends (g : Granting dep tokens s hold id k job new)
    (inv : Consistent dep tokens s hold) {hash : String}
    (presents : job.presentedHash dep = some hash) :
    Settled dep tokens s.environment.tokensDrawn hold hash ∧
      ∀ other row, (s.committed.adopt new).families.get? other = some row →
        row.currentHash ≠ hash := by
  obtain ⟨old, atOld, rfl⟩ := g.current presents
  have settled := inv.settled new.id old atOld
  refine ⟨settled, fun other row found same => ?_⟩
  rcases families new found with ⟨-, rfl⟩ | ⟨elsewhere, found⟩
  · exact g.differs settled same.symm
  · exact elsewhere (inv.distinct new.id other old row atOld found same.symm)

/-- A token that is current stays so behind the commit, unless the job presents
it. -/
theorem stays (g : Granting dep tokens s hold id k job new) {raw : String}
    (settled : Settled dep tokens s.environment.tokensDrawn hold (dep.sha256 raw))
    (current : Current s raw) :
    job.presentedHash dep = some (dep.sha256 raw) ∨
      ∃ entry row, (s.committed.adopt new).history.get? (dep.sha256 raw) = some entry ∧
        (s.committed.adopt new).families.get? entry.familyId = some row ∧
          row.currentHash = dep.sha256 raw := by
  obtain ⟨entry, row, inHistory, at_, same⟩ := current
  by_cases here : new.id = entry.familyId
  · rw [← here] at at_
    exact Or.inl ((g.presented at_).trans (congrArg some same))
  · refine Or.inr ⟨entry, row, ?_, ?_, same⟩
    · rw [Database.adopt, Dict.get?_set_ne _ _ (g.differs settled).symm]
      exact inHistory
    · rw [Database.adopt, Dict.get?_set_ne _ _ here]
      exact at_

end Granting

/-- A commit keeps the invariant. -/
theorem Consistent.committing (inv : Consistent dep tokens s hold) (locked : s.Locked)
    (injective : Function.Injective fun n => dep.sha256 (tokens n)) {id : Nat}
    {session : Sql.Session (rotations dep)} {a : Granted} (at_ : s.sessions id = some session)
    (shape : session.program = .finished (.ok a)) :
    Consistent dep tokens (s.committing id session a) (Function.update hold id none) := by
  obtain ⟨k, new, held, handsOut, hash, pending, base⟩ := (inv.stages id session at_).granted shape
  have g : Granting dep tokens s hold id k session.job new := ⟨injective, held, hash, base⟩
  have closed := inv.close id
  have committed : s.view session = s.committed.adopt new := by
    rw [Sql.Server.view, pending]
    rfl
  have settles : ∀ hash, Settled dep tokens s.environment.tokensDrawn hold hash →
      Settled dep tokens s.environment.tokensDrawn (Function.update hold id none) hash :=
    fun hash settled => settled.update le_rfl (fun k impossible => by cases impossible)
  have handed : dep.sha256 a.1 = new.currentHash := by rw [handsOut, hash]
  rw [Sql.Server.committing, committed]
  constructor
  · exact inv.same
  · intro other session' found
    have otherwise : other ≠ id ∧ s.sessions other = some session' := by
      by_cases here : other = id
      · simp [Sql.Server.close, here] at found
      · exact ⟨here, by simpa [Sql.Server.close, here] using found⟩
    obtain ⟨here, atOther⟩ := otherwise
    rw [Function.update_of_ne here]
    refine (inv.stages other session' atOther).adopt (fun row written same => ?_)
      fun current found => g.sameOrg found
    have own : Write.family new ∈ session.pending := by
      rw [pending]
      exact List.mem_cons_self
    exact here (locked.disjoint atOther at_ written own (congrArg Database.RowLock.family same))
  · exact closed.idle
  · exact closed.drawn
  · exact closed.apart
  · intro other row found
    rcases Granting.families new found with ⟨here, rfl⟩ | ⟨-, found⟩
    · exact here
    · exact inv.keyed other row found
  · intro other row found
    rcases Granting.families new found with ⟨-, rfl⟩ | ⟨-, found⟩
    · exact g.settled inv
    · exact settles _ (inv.settled other row found)
  · exact fun i j row row' atI atJ same => g.distinct inv atI atJ same
  · intro r member hash presents
    rcases List.mem_append.mp member with before | here
    · obtain ⟨settled, nowhere⟩ := inv.spent r before hash presents
      refine ⟨settles _ settled, fun other row found same => ?_⟩
      rcases Granting.families new found with ⟨-, rfl⟩ | ⟨-, found⟩
      · exact g.differs settled same.symm
      · exact nowhere other row found same
    · obtain rfl := List.mem_singleton.mp here
      obtain ⟨settled, nowhere⟩ := g.spends inv presents
      exact ⟨settles _ settled, nowhere⟩
  · change ((s.returned ++ [(session.job, a)]).filterMap
      fun r => r.1.presentedHash dep).Nodup
    rw [List.filterMap_append, List.nodup_append]
    refine ⟨inv.once, ?_, ?_⟩
    · cases presents : session.job.presentedHash dep with
      | none => simp [presents]
      | some hash => simp [presents]
    intro hash before hash' here same
    subst same
    obtain ⟨r, member, presents⟩ := List.mem_filterMap.mp before
    obtain ⟨r', member', presents'⟩ := List.mem_filterMap.mp here
    obtain rfl := List.mem_singleton.mp member'
    obtain ⟨old, atOld, same⟩ := g.current presents'
    exact (inv.spent r member hash presents).2 new.id old atOld same
  · intro r member
    rcases List.mem_append.mp member with before | here
    · obtain ⟨settled, either⟩ := inv.handed r before
      refine ⟨settles _ settled, ?_⟩
      rcases either with ⟨r', member', presents⟩ | current
      · exact Or.inl ⟨r', List.mem_append_left _ member', presents⟩
      · rcases g.stays settled current with presents | current
        · exact Or.inl ⟨(session.job, a), List.mem_append_right _ (List.mem_singleton_self _), presents⟩
        · exact Or.inr current
    · obtain rfl := List.mem_singleton.mp here
      dsimp only
      rw [handed]
      refine ⟨g.settled inv, Or.inr ?_⟩
      rw [Current, handed]
      exact ⟨_, new, Dict.get?_set_self _ _ _, Dict.get?_set_self _ _ _, rfl⟩
  · refine ⟨closed.began.1, fun r member => ?_⟩
    rcases List.mem_append.mp member with before | here
    · exact inv.began.2 r before
    · obtain rfl := List.mem_singleton.mp here
      exact inv.began.1 id session at_

/-! ## Steps and runs -/

/-- A step that meets the condition keeps the invariant. -/
theorem Consistent.step {s' : RefreshServer dep} {event : Sql.Event (rotations dep)}
    (inv : Consistent dep tokens s hold) (locked : s.Locked)
    (injective : Function.Injective fun n => dep.sha256 (tokens n)) (carries : StillCarries s event)
    (stepped : s.step event = some s') : ∃ hold', Consistent dep tokens s' hold' := by
  cases event with
  | start id job =>
      obtain ⟨free, rfl⟩ := Sql.Server.step_start stepped
      exact ⟨hold, inv.begun free⟩
  | advance id =>
      obtain ⟨session, at_, ⟨q, next, shape, rfl⟩ | ⟨st, next, shape, -, rfl⟩⟩ :=
        Sql.Server.step_advance stepped
      · obtain ⟨hold', stage, fresh⟩ := (inv.stages id session at_).ask inv.same shape
        refine ⟨_, inv.put at_ ?_ ?_ ?_ rfl stage⟩
        · cases q <;> rfl
        · cases q <;> simp [Environment.answer]
        · exact fresh
      · obtain ⟨hold', stage, fresh⟩ := (inv.stages id session at_).execute shape inv.keyed
          (fun raw org familyId tokenHash job same => by
            subst same
            have target : replacing session = some (familyId, raw) := by
              simp only [replacing, job, shape]
            exact Option.map_eq_some_iff.mp (carries session at_ _ target))
        exact ⟨_, inv.put at_ rfl le_rfl (fun k held => Or.inl (fresh k held)) rfl stage⟩
  | commit id =>
      obtain ⟨session, a, at_, shape, rfl⟩ := Sql.Server.step_commit stepped
      exact ⟨_, inv.committing locked injective at_ shape⟩
  | rollback id =>
      obtain rfl := Sql.Server.step_rollback stepped
      exact ⟨_, inv.close id⟩

/-- A server on which nothing has run, with a database without families. -/
structure Fresh (s : RefreshServer dep) : Prop where
  sessions : ∀ id, s.sessions id = none
  started : s.started = []
  returned : s.returned = []
  families : s.committed.families = Dict.empty
  history : s.committed.history = Dict.empty

theorem Fresh.consistent (fresh : Fresh s) :
    Consistent dep s.environment.tokens s fun _ => none := by
  constructor
  · rfl
  · intro id session found
    rw [fresh.sessions] at found
    cases found
  · exact fun _ _ => rfl
  · intro id k impossible
    cases impossible
  · intro i j k impossible
    cases impossible
  · intro id row found
    rw [fresh.families] at found
    cases found
  · intro id row found
    rw [fresh.families] at found
    cases found
  · intro i j row row' found
    rw [fresh.families] at found
    cases found
  · intro r member
    rw [fresh.returned] at member
    cases member
  · rw [fresh.returned]
    exact List.nodup_nil
  · intro r member
    rw [fresh.returned] at member
    cases member
  · constructor
    · intro id session found
      rw [fresh.sessions] at found
      cases found
    · intro r member
      rw [fresh.returned] at member
      cases member

theorem Fresh.locked (fresh : Fresh s) : s.Locked := by
  intro id session found
  rw [fresh.sessions] at found
  cases found

/-- What the invariant says of tokens. -/
theorem Consistent.consumedOnce (inv : Consistent dep tokens s hold) : ConsumedOnce s := by
  constructor
  · intro raw
    have atMost := List.nodup_iff_count_le_one.mp inv.once (dep.sha256 raw)
    rw [List.count_filterMap] at atMost
    refine le_trans (List.countP_mono_left fun r _ same => ?_) atMost
    rw [decide_eq_true_eq] at same
    simp [Job.presentedHash, same]
  · intro r member _
    rcases (inv.handed r member).2 with ⟨r', member', presents⟩ | current
    · exact Or.inl ⟨r'.1, inv.began.2 r' member', presents⟩
    · exact Or.inr current

/-- In every run in which each rotation that replaces a hash still finds the one
it was presented with, tokens are consumed once. -/
theorem consumedOnce_of_stillCarries {s₀ s : RefreshServer dep} (fresh : Fresh s₀)
    (injective : Function.Injective fun n => dep.sha256 (s₀.environment.tokens n))
    (run : Sql.Server.Run StillCarries s₀ s) : ConsumedOnce s := by
  have inv : s.Locked ∧ ∃ hold, Consistent dep s₀.environment.tokens s hold := by
    refine Sql.Server.Run.invariant
      (P := fun s => s.Locked ∧ ∃ hold, Consistent dep s₀.environment.tokens s hold) run
      ⟨fresh.locked, _, fresh.consistent⟩ ?_
    intro s₁ s₂ event ⟨locked, hold, inv⟩ carries stepped
    exact ⟨Sql.Server.locked_step locked stepped, inv.step locked injective carries stepped⟩
  obtain ⟨-, hold, inv⟩ := inv
  exact inv.consumedOnce

/-! ## Two runs -/

/-- Digests, real ones of the first three tokens. -/
def lineDigest (raw : String) : String :=
  match raw.length with
  | 0 => "e3b0c44298fc1c149afbf4c8996fb92427ae41e4649b934ca495991b7852b855"
  | 1 => "ca978112ca1bbdcafac231b39a23dc4da786eff8147c4e72b9807785afee48bb"
  | 2 => "961b6dd3ede3cb8ecbaacbd68de040cd78eb2ed5889130cceb4c49268ea4d506"
  | _ => "digest of " ++ raw

def lineDeployment : Deployment where
  sha256 := lineDigest
  refreshTokenTtlSeconds := 1209600
  accessTokenTtlSeconds := 900

/-- A user, and tokens of growing length. -/
def oneUser : RefreshServer lineDeployment where
  committed := { users := Dict.ofList [(1,
      { id := 1, organizationId := 2, email := "ada@example.com", name := "Ada"
        orgRole := "ADMIN" })] }
  environment :=
    { tokens := fun n => String.ofList (List.replicate n 'a')
      uuids := fun n => BitVec.ofNat 128 (n + 7)
      clock := fun n => n }

theorem fresh_oneUser : Fresh oneUser := ⟨fun _ => rfl, rfl, rfl, rfl, rfl⟩

theorem lineDigest_injective :
    Function.Injective fun n => lineDeployment.sha256 (oneUser.environment.tokens n) := by
  have cut : ∀ n, lineDigest (String.ofList (List.replicate (n + 3) 'a')) =
      "digest of " ++ String.ofList (List.replicate (n + 3) 'a') := by
    intro n
    simp [lineDigest]
  have long : ∀ n, (lineDigest (String.ofList (List.replicate (n + 3) 'a'))).toList.head? =
      some 'd' := by
    intro n
    rw [cut, String.toList_append]
    rfl
  have short : ∀ n < 3, (lineDigest (String.ofList (List.replicate n 'a'))).toList.head? ≠
      some 'd' := by
    decide +kernel
  have apart : ∀ m < 3, ∀ n < 3, lineDigest (String.ofList (List.replicate m 'a')) =
      lineDigest (String.ofList (List.replicate n 'a')) → m = n := by
    decide +kernel
  intro m n same
  change lineDigest (String.ofList (List.replicate m 'a')) =
    lineDigest (String.ofList (List.replicate n 'a')) at same
  rcases Nat.lt_or_ge m 3 with smallM | largeM
  · rcases Nat.lt_or_ge n 3 with smallN | largeN
    · exact apart m smallM n smallN same
    · obtain ⟨n, rfl⟩ := Nat.exists_eq_add_of_le' largeN
      exact absurd (same ▸ long n) (short m smallM)
  · obtain ⟨m, rfl⟩ := Nat.exists_eq_add_of_le' largeM
    rcases Nat.lt_or_ge n 3 with smallN | largeN
    · exact absurd (same.symm ▸ long m) (short n smallN)
    · obtain ⟨n, rfl⟩ := Nat.exists_eq_add_of_le' largeN
      rw [cut, cut] at same
      have lengths := congrArg String.length same
      simpa using lengths

/-- A user logs in, and rotates the token. -/
def alone : List (Sql.Event (rotations lineDeployment)) :=
  [.start 0 (.issue 1 2), .advance 0, .advance 0, .advance 0, .advance 0, .advance 0, .commit 0,
    .start 1 (.rotate "" 2), .advance 1, .advance 1, .advance 1, .advance 1, .advance 1, .commit 1]

/-- A user logs in, and rotates the token twice at once. -/
def together : List (Sql.Event (rotations lineDeployment)) :=
  [.start 0 (.issue 1 2), .advance 0, .advance 0, .advance 0, .advance 0, .advance 0, .commit 0,
    .start 1 (.rotate "" 2), .start 2 (.rotate "" 2), .advance 1, .advance 2,
    .advance 1, .advance 1, .advance 1, .advance 1, .commit 1,
    .advance 2, .advance 2, .advance 2, .advance 2, .commit 2]

theorem consumedOnce_alone : ∃ s, oneUser.events StillCarries alone = some s ∧
    s.returned.length = 2 ∧ ConsumedOnce s := by
  have ended : ∃ s, oneUser.events StillCarries alone = some s ∧ s.returned.length = 2 :=
    ⟨_, rfl, rfl⟩
  obtain ⟨s, ran, two⟩ := ended
  exact ⟨s, ran, two, consumedOnce_of_stillCarries fresh_oneUser lineDigest_injective
    (Sql.Server.run_of_events .refl ran)⟩

/-- The token is consumed twice. -/
theorem together_consumes_twice :
    ¬ ∀ dep s₀ s, Fresh s₀ →
      (Function.Injective fun n => dep.sha256 (s₀.environment.tokens n)) →
        Sql.Server.Run (fun (_ : RefreshServer dep) _ => True) s₀ s → ConsumedOnce s := by
  intro always
  have ended : ∃ s, oneUser.events (fun _ _ => True) together = some s ∧
      s.returned.countP (fun r => r.1.presented = some "") = 2 := ⟨_, rfl, rfl⟩
  obtain ⟨s, ran, twice⟩ := ended
  have atMost := (always lineDeployment oneUser s fresh_oneUser lineDigest_injective
    (Sql.Server.run_of_events .refl ran)).once ""
  omega

end Plimsoll.Refresh
