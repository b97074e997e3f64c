import Plimsoll.Tenants

/-!
What a statement of one organisation makes of the rows of each.
-/

namespace Plimsoll.Tenants

open Python Contracts
open Database (Write Keyed Setting Statement Fault rowsOf byKey visible exists_ insert returning
  updating archiving References assignedNullable)

/-! ## Databases -/

/-- What every database of the services is: rows stand under their identifiers, each
of which was drawn for one organisation, its `owner`; a script repository refers to a
credential of its own organisation, and a version to a repository of its own. -/
structure Separated (owner : Uuid → Uuid) (d : Database) : Prop where
  keyed : ∀ t : Table, Keyed t.idOf (t.dict d)
  owned : ∀ (t : Table) id row, (t.dict d).get? id = some row → Tenant.organizationId row = owner id
  credentials : ∀ id repo, d.scriptRepos.get? id = some repo → ∀ k ∈ repo.credentialId,
    owner k = repo.organizationId ∧ (d.credentials.get? k).isSome = true
  repos : ∀ id version, d.scriptVersions.get? id = some version →
    owner version.scriptRepoId = version.organizationId

/-- Two databases are the same for an organisation. -/
structure Alike (org : Uuid) (d d' : Database) : Prop where
  users : d'.users = d.users
  history : d'.history = d.history
  rows : ∀ t : Table, rowsOf org (t.dict d') = rowsOf org (t.dict d)

variable {owner : Uuid → Uuid} {org other : Uuid} {d d' : Database} {c : Setting} {id : Uuid}

theorem Alike.refl (org : Uuid) (d : Database) : Alike org d d := ⟨rfl, rfl, fun _ => rfl⟩

theorem Alike.symm (alike : Alike org d d') : Alike org d' d :=
  ⟨alike.users.symm, alike.history.symm, fun t => (alike.rows t).symm⟩

theorem Alike.trans {d'' : Database} (first : Alike org d d') (second : Alike org d' d'') :
    Alike org d d'' :=
  ⟨second.users.trans first.users, second.history.trans first.history,
    fun t => (second.rows t).trans (first.rows t)⟩

/-! ## What a transaction sees -/

section

variable {ρ : Type} [Tenant ρ] {key : ρ → Uuid} {table : Dict Uuid ρ} {row : ρ}

theorem byKey_iff_mem (bound : c.org = some org) (keyed : Keyed key table) :
    byKey c table id = some row ↔ row ∈ rowsOf org table ∧ key row = id := by
  rw [Database.byKey_eq_some_iff, Database.mem_rowsOf, Setting.Sees, bound, Option.some.injEq]
  constructor
  · rintro ⟨found, owner⟩
    exact ⟨⟨id, found, owner.symm⟩, keyed id row found⟩
  · rintro ⟨⟨k, found, owner⟩, same⟩
    obtain rfl : k = id := (keyed k row found).symm.trans same
    exact ⟨found, owner.symm⟩

/-- A condition that only rows of the organisation meet. -/
theorem exists_eq {like : ρ → Bool}
    (mine : ∀ id row, table.get? id = some row → like row = true → Tenant.organizationId row = org) :
    exists_ table like = (rowsOf org table).any like := by
  rw [Bool.eq_iff_iff, exists_, List.any_eq_true, List.any_eq_true]
  constructor
  · intro ⟨⟨id, row⟩, member, alike⟩
    have found := Dict.get?_eq_some_iff.mpr member
    exact ⟨row, Database.mem_rowsOf.mpr ⟨id, found, mine id row found alike⟩, alike⟩
  · intro ⟨row, member, alike⟩
    obtain ⟨id, found, -⟩ := Database.mem_rowsOf.mp member
    exact ⟨(id, row), Dict.get?_eq_some_iff.mp found, alike⟩

end

theorem Alike.visible (alike : Alike org d d') (bound : c.org = some org) (t : Table) :
    visible c (t.dict d') = visible c (t.dict d) := by
  rw [Database.visible_eq bound, Database.visible_eq bound, alike.rows]

theorem Alike.byKey (alike : Alike org d d') (bound : c.org = some org)
    (separated : Separated owner d) (separated' : Separated owner d') (t : Table) (id : Uuid) :
    byKey c (t.dict d') id = byKey c (t.dict d) id := by
  refine Option.ext fun row => ?_
  rw [byKey_iff_mem bound (separated'.keyed t), byKey_iff_mem bound (separated.keyed t), alike.rows]

/-- Under an identifier of the organisation there is what it sees there. -/
theorem Separated.get?_eq (separated : Separated owner d) (bound : c.org = some org) (t : Table)
    (mine : owner id = org) : (t.dict d).get? id = byKey c (t.dict d) id := by
  rw [Database.byKey]
  cases found : (t.dict d).get? id with
  | none => rfl
  | some row =>
      have sees : c.Sees row := by rw [Setting.Sees, bound, separated.owned t id row found, mine]
      rw [Option.filter_some, if_pos (decide_eq_true sees)]

/-- What the organisation sees stands under an identifier of its own. -/
theorem Separated.owner_eq (separated : Separated owner d) (bound : c.org = some org) (t : Table)
    {row : t.Row} (found : Database.byKey c (t.dict d) id = some row) :
    owner id = org ∧ (t.dict d).get? id = some row ∧ t.idOf row = id ∧
      Tenant.organizationId row = org := by
  obtain ⟨at_, sees⟩ := Database.byKey_eq_some_iff.mp found
  rw [Setting.Sees, bound] at sees
  have mine : Tenant.organizationId row = org := (Option.some.inj sees).symm
  exact ⟨(separated.owned t id row at_).symm.trans mine, at_, separated.keyed t id row at_, mine⟩

theorem Separated.owner_row (separated : Separated owner d) (t : Table) {row : t.Row}
    (found : (t.dict d).get? id = some row) (mine : Tenant.organizationId row = org) :
    owner (t.idOf row) = org := by
  rw [separated.keyed t id row found, ← separated.owned t id row found, mine]

/-! ## Writes -/

/-- A write is of a row of the organisation: its new version, under its own
identifier, is one, and so is whatever else it is there for. -/
structure Mine (owner : Uuid → Uuid) (org : Uuid) (v : Version) : Prop where
  id : owner v.id = org
  key : ∀ new ∈ v.row, v.table.idOf new = v.id
  row : ∀ new ∈ v.row, Tenant.organizationId new = org

/-- What a write refers to is of its own organisation. -/
def Fits (owner : Uuid → Uuid) (d : Database) : Write → Prop
  | .scriptRepo row => ∀ k ∈ row.credentialId,
      owner k = row.organizationId ∧ (d.credentials.get? k).isSome = true
  | .deleteCredential id => ∀ key repo, d.scriptRepos.get? key = some repo → repo.credentialId ≠ some id
  | .scriptVersion row => owner row.scriptRepoId = row.organizationId
  | .history _ => False
  | _ => True

/-- A write that an organisation may make. -/
structure Proper (owner : Uuid → Uuid) (org : Uuid) (d : Database) (write : Write) : Prop where
  mine : ∀ v ∈ version? write, Mine owner org v
  fits : Fits owner d write

theorem Separated.before (separated : Separated owner d) (t : Table) (mine : owner id = org)
    (old : t.Row) (found : (t.dict d).get? id = some old) : Tenant.organizationId old = org :=
  (separated.owned t id old found).trans mine

theorem Separated.apply {write : Write} (separated : Separated owner d)
    (proper : Proper owner org d write) : Separated owner (write.apply d) where
  keyed t := by
    rcases dict_apply_cases d write t with ⟨id, row, writes, same⟩ | same
    · rw [same]
      exact Keyed.put (separated.keyed t) (proper.mine _ writes).key
    · rw [same]
      exact separated.keyed t
  owned t id row found := by
    rcases dict_apply_cases d write t with ⟨k, new, writes, same⟩ | same
    · rw [same] at found
      have mine := proper.mine _ writes
      cases new with
      | none =>
          rw [put, Dict.get?_pop] at found
          split at found
          · cases found
          · exact separated.owned t id row found
      | some new =>
          rw [put, Dict.get?_set] at found
          split at found
          · rename_i here
            cases found
            exact (mine.row row rfl).trans (here ▸ mine.id.symm)
          · exact separated.owned t id row found
    · rw [same] at found
      exact separated.owned t id row found
  credentials := by
    have fits := proper.fits
    cases write with
    | scriptRepo row =>
        intro id repo found
        change (d.scriptRepos.set row.id row).get? id = some repo at found
        rw [Dict.get?_set] at found
        split at found
        · cases found
          exact fits
        · exact separated.credentials id repo found
    | deleteCredential gone =>
        intro id repo found k refers
        obtain ⟨owned, there⟩ := separated.credentials id repo found k refers
        refine ⟨owned, ?_⟩
        change ((d.credentials.pop gone).get? k).isSome = true
        rw [Dict.get?_pop, if_neg ?_]
        · exact there
        · rintro rfl
          exact fits id repo found refers
    | credential row =>
        intro id repo found k refers
        obtain ⟨owned, there⟩ := separated.credentials id repo found k refers
        refine ⟨owned, ?_⟩
        change ((d.credentials.set row.id row).get? k).isSome = true
        rw [Dict.get?_set]
        split
        · rfl
        · exact there
    | _ => exact separated.credentials
  repos := by
    have fits := proper.fits
    cases write with
    | scriptVersion row =>
        intro id version found
        change (d.scriptVersions.set row.id row).get? id = some version at found
        rw [Dict.get?_set] at found
        split at found
        · cases found
          exact fits
        · exact separated.repos id version found
    | _ => exact separated.repos

/-- A write of one organisation leaves the database as it is for the others. -/
theorem Separated.apply_other {write : Write} (separated : Separated owner d)
    (proper : Proper owner org d write) (differs : other ≠ org) : Alike other d (write.apply d) where
  users := by cases write <;> rfl
  history := by
    have fits := proper.fits
    cases write with
    | history row => cases fits
    | _ => rfl
  rows t := by
    rcases dict_apply_cases d write t with ⟨id, row, writes, same⟩ | same
    · have mine := proper.mine _ writes
      rw [same]
      refine rowsOf_put_other (fun old found => ?_) fun new is => ?_
      · rw [separated.before t mine.id old found]
        exact differs.symm
      · rw [mine.row new is]
        exact differs.symm
    · rw [same]

/-- Its own rows come out the same wherever they were the same. -/
theorem Alike.apply {write : Write} (alike : Alike org d d') (separated : Separated owner d)
    (separated' : Separated owner d') (proper : Proper owner org d write) :
    Alike org (write.apply d) (write.apply d') where
  users := by cases write <;> exact alike.users
  history := by
    have fits := proper.fits
    cases write with
    | history row => cases fits
    | _ => exact alike.history
  rows t := by
    by_cases of_ : ∀ v ∈ version? write, v.table ≠ t
    · rw [dict_apply_other of_, dict_apply_other of_, alike.rows]
    · obtain ⟨⟨t', id, row⟩, writes, same⟩ : ∃ v ∈ version? write, v.table = t := by
        simpa only [not_forall, not_not, exists_prop] using of_
      obtain rfl : t' = t := same
      have mine := proper.mine _ writes
      rw [dict_apply writes, dict_apply writes,
        rowsOf_put (separated.keyed t') (separated.before t' mine.id) mine.row,
        rowsOf_put (separated'.keyed t') (separated'.before t' mine.id) mine.row, alike.rows]

/-- Writes that an organisation may make one after the other. -/
def ProperAll (owner : Uuid → Uuid) (org : Uuid) : Database → List Write → Prop
  | _, [] => True
  | d, write :: rest => Proper owner org d write ∧ ProperAll owner org (write.apply d) rest

theorem ProperAll.separated {writes : List Write} (proper : ProperAll owner org d writes)
    (separated : Separated owner d) : Separated owner (postgres.applyAll writes d) := by
  induction writes generalizing d with
  | nil => exact separated
  | cons write rest ih => exact ih proper.2 (separated.apply proper.1)

theorem ProperAll.others {writes : List Write} (proper : ProperAll owner org d writes)
    (separated : Separated owner d) (differs : other ≠ org) :
    Alike other d (postgres.applyAll writes d) := by
  induction writes generalizing d with
  | nil => exact Alike.refl other d
  | cons write rest ih =>
      exact (separated.apply_other proper.1 differs).trans (ih proper.2 (separated.apply proper.1))

theorem ProperAll.alike {writes : List Write} (proper : ProperAll owner org d writes)
    (proper' : ProperAll owner org d' writes) (separated : Separated owner d)
    (separated' : Separated owner d') (alike : Alike org d d') :
    Alike org (postgres.applyAll writes d) (postgres.applyAll writes d') := by
  induction writes generalizing d d' with
  | nil => exact alike
  | cons write rest ih =>
      exact ih proper.2 proper'.2 (separated.apply proper.1) (separated'.apply proper'.1)
        (alike.apply separated separated' proper.1)

/-- Writes that fit any database. -/
theorem properAll_of_fits {writes : List Write}
    (proper : ∀ write ∈ writes, ∀ d, Proper owner org d write) : ProperAll owner org d writes := by
  induction writes generalizing d with
  | nil => trivial
  | cons write rest ih =>
      have ⟨first, later⟩ := List.forall_mem_cons.mp proper
      exact ⟨first d, ih later⟩

/-- Entries of unique indexes are no rows. -/
theorem properAll_entries (entries : List Database.UniqueKey) :
    ProperAll owner org d (entries.map Write.entry) := by
  refine properAll_of_fits fun write member _ => ?_
  obtain ⟨entry, -, rfl⟩ := List.mem_map.mp member
  exact ⟨fun _ none_ => (nomatch none_), trivial⟩

/-- A row that is put in its place. -/
theorem proper_put {t : Table} {row : t.Row} {write : Write}
    (writes : version? write = some ⟨t, t.idOf row, some row⟩) (id : owner (t.idOf row) = org)
    (mine : Tenant.organizationId row = org) (fits : Fits owner d write) : Proper owner org d write where
  mine v is := by
    rw [writes] at is
    cases is
    exact ⟨id, fun _ same => Option.some.inj same ▸ rfl, fun _ same => Option.some.inj same ▸ mine⟩
  fits := fits

/-- A row that is deleted. -/
theorem proper_drop {t : Table} {write : Write} (writes : version? write = some ⟨t, id, none⟩)
    (mine : owner id = org) (fits : Fits owner d write) : Proper owner org d write where
  mine v is := by
    rw [writes] at is
    cases is
    exact ⟨mine, fun _ none_ => (nomatch none_), fun _ none_ => (nomatch none_)⟩
  fits := fits

/-! ## Kinds of statements -/

section

variable {t : Table} {row : t.Row} {references references' : Bool} {write : Write} {σ : Type}
  {result : σ} {entries : List Database.UniqueKey}

theorem properAll_insert (bound : c.org = some org)
    (writes : version? write = some ⟨t, t.idOf row, some row⟩) (id : owner (t.idOf row) = org)
    (fits : Tenant.organizationId row = org → Fits owner d write) :
    ProperAll owner org d (insert c (t.dict d) (t.idOf row) row references write).2 := by
  unfold Database.insert
  split
  · trivial
  · rename_i sees
    split
    · trivial
    · rw [not_not, Setting.Sees, bound] at sees
      have mine := (Option.some.inj sees).symm
      exact ⟨proper_put writes id mine (fits mine), trivial⟩

theorem properAll_returning {inserted : Except Fault Unit × List Write}
    (proper : ProperAll owner org d inserted.2)
    (single : ∀ first ∈ inserted.2.head?, inserted.2 = [first]) :
    ProperAll owner org d (returning result entries inserted).2 := by
  obtain ⟨outcome, writes⟩ := inserted
  cases outcome with
  | error fault => exact proper
  | ok _ =>
      cases writes with
      | nil => exact properAll_entries entries
      | cons first rest =>
          obtain rfl : rest = [] := (List.cons.inj (single first rfl)).2
          exact ⟨proper.1, properAll_entries entries⟩

theorem insert_single {ρ : Type} [Tenant ρ] {table : Dict Uuid ρ} {key : Uuid} {row : ρ} :
    ∀ first ∈ (insert c table key row references write).2.head?,
      (insert c table key row references write).2 = [first] := by
  unfold Database.insert
  split
  · intro first none_
    cases none_
  · split
    · intro first none_
      cases none_
    · exact fun _ same => by rw [Option.some.inj same]

/-- An insertion under an identifier of the organisation does the same wherever its
rows are the same. -/
theorem insert_alike (bound : c.org = some org) (separated : Separated owner d)
    (separated' : Separated owner d') (alike : Alike org d d') (id : owner (t.idOf row) = org)
    (same : Tenant.organizationId row = org → references' = references) :
    insert c (t.dict d') (t.idOf row) row references' write =
      insert c (t.dict d) (t.idOf row) row references write := by
  by_cases sees : c.Sees row
  · have mine : Tenant.organizationId row = org := by
      rw [Setting.Sees, bound] at sees
      exact (Option.some.inj sees).symm
    rw [Database.insert, Database.insert, same mine, separated.get?_eq bound t id, separated'.get?_eq bound t id,
      alike.byKey bound separated separated']
  · rw [Database.insert, Database.insert, if_pos sees, if_pos sees]

theorem properAll_updating {ρ : Type} {found : Option ρ} {update : ρ → Except Fault ρ}
    {writes : ρ → List Write}
    (proper : ∀ old new, found = some old → update old = .ok new → ProperAll owner org d (writes new)) :
    ProperAll owner org d (updating found update writes).2 := by
  unfold updating
  cases found with
  | none => trivial
  | some old =>
      dsimp only
      cases made : update old with
      | error fault => trivial
      | ok new => exact proper old new rfl made

theorem updating_congr {ρ : Type} {found : Option ρ} {update update' : ρ → Except Fault ρ}
    {writes : ρ → List Write} (same : ∀ old, found = some old → update' old = update old) :
    updating found update' writes = updating found update writes := by
  cases found with
  | none => rfl
  | some old => rw [updating, updating, same old rfl]

theorem properAll_archiving {ρ : Type} {found : Option ρ} {archived : ρ → Bool} {write : ρ → Write}
    (proper : ∀ old, found = some old → Proper owner org d (write old)) :
    ProperAll owner org d (archiving found archived write).2 := by
  rcases Database.archiving_cases with none_ | ⟨old, found, -, some_⟩
  · rw [none_]
    trivial
  · rw [some_]
    exact ⟨proper old found, trivial⟩

end

/-! ## Statements -/

/-- An identifier that the interpreter replies with. -/
def Drawn (v : Sql.View postgres) (id : Uuid) : Prop := ∃ n, v.environment.uuids n = id

/-- The transaction sees a row under an identifier. -/
def Seen {ρ : Type} [Tenant ρ] (v : Sql.View postgres) (table : Dict Uuid ρ) (id : Uuid) : Prop :=
  (byKey v.setting table id).isSome = true

/-- What the services look up before they execute a statement: the rows that it refers
to. A row that is inserted has an identifier that was drawn. -/
def Guarded : Statement → Sql.View postgres → Prop
  | .setCurrentOrg _, _ => False
  | .lookupForLogin _, _ => False
  | .insertFamily _, _ => False
  | .findByHash _, _ => False
  | .replaceHash _ _, _ => False
  | .revokeFamilyContaining _, _ => False
  | .organizationForToken _, _ => False
  | .recordHistory _, _ => False
  | .insertProject row, v => Drawn v (row v.setting.now).id
  | .insertPool row, v => Drawn v (row v.setting.now).id
  | .insertCredential row, v => Drawn v (row v.setting.now).id
  | .insertScriptRepo row, v =>
      Drawn v (row v.setting.now).id ∧ Seen v v.database.projects (row v.setting.now).projectId ∧
        ∀ k ∈ (row v.setting.now).credentialId, Seen v v.database.credentials k
  | .updateScriptRepo _ changes, v =>
      ∀ k, changes.credentialId = .value k → Seen v v.database.credentials k
  | .insertScriptVersion row, v =>
      Drawn v (row v.setting.now).id ∧
        Seen v v.database.scriptRepos (row v.setting.now).scriptRepoId
  | .insertTest row, v =>
      Drawn v (row v.setting.now).id ∧ Seen v v.database.projects (row v.setting.now).projectId
  | .insertPlan row, v =>
      Drawn v row.id ∧ Seen v v.database.tests row.performanceTestId ∧
        Seen v v.database.scriptRepos row.spec.scriptRepoId
  | .insertRule row, v => Drawn v row.id ∧ Seen v v.database.tests row.performanceTestId
  | .insertPolicy row, v => Drawn v (row v.setting.now).id
  | .insertAudit row, v => Drawn v row.id
  | _, _ => True

/-- A transaction of the organisation, for which the interpreter draws identifiers. -/
structure Stands (owner : Uuid → Uuid) (org : Uuid) (v : Sql.View postgres) : Prop where
  bound : v.setting.org = some org
  drawn : ∀ n, owner (v.environment.uuids n) = org
  separated : Separated owner v.database

variable {v : Sql.View postgres}

theorem Stands.owner_eq (stands : Stands owner org v) (drawn : Drawn v id) : owner id = org := by
  obtain ⟨n, rfl⟩ := drawn
  exact stands.drawn n

theorem Stands.seen (stands : Stands owner org v) (t : Table) (seen : Seen v (t.dict v.database) id) :
    owner id = org ∧ ((t.dict v.database).get? id).isSome = true := by
  obtain ⟨row, found⟩ := Option.isSome_iff_exists.mp seen
  obtain ⟨mine, at_, -⟩ := stands.separated.owner_eq stands.bound t found
  exact ⟨mine, by rw [at_]; rfl⟩

/-- The credential that an updated script repository refers to. -/
theorem Stands.updated_credential (stands : Stands owner org v) {old : ScriptRepo}
    (found : byKey v.setting v.database.scriptRepos id = some old) {changed : Patch Uuid}
    (seen : ∀ k, changed = .value k → Seen v v.database.credentials k) :
    ∀ k ∈ assignedNullable old.credentialId changed,
      owner k = org ∧ (v.database.credentials.get? k).isSome = true := by
  intro k refers
  obtain ⟨-, at_, -, mine⟩ := stands.separated.owner_eq stands.bound .scriptRepos found
  cases changed with
  | unset =>
      obtain ⟨owned, there⟩ := stands.separated.credentials id old at_ k refers
      exact ⟨owned.trans mine, there⟩
  | null => cases refers
  | value k' =>
      obtain rfl : k' = k := Option.some.inj refers
      exact stands.seen .credentials (seen k' rfl)

/-- A guarded statement makes only writes that the organisation may make. -/
theorem properAll_execute {s : Statement} (stands : Stands owner org v) (guarded : Guarded s v) :
    ProperAll owner org v.database (Database.execute s v.setting v.database).2 := by
  have bound := stands.bound
  have found (t : Table) {id : Uuid} {row : t.Row}
      (seen : byKey v.setting (t.dict v.database) id = some row) :
      owner (t.idOf row) = org ∧ Tenant.organizationId row = org := by
    obtain ⟨owned, -, same, mine⟩ := stands.separated.owner_eq bound t seen
    exact ⟨same.symm ▸ owned, mine⟩
  cases s with
  | insertProject row =>
      exact properAll_returning (properAll_insert (t := .projects) bound rfl (stands.owner_eq guarded)
        fun _ => trivial) insert_single
  | updateProject id changes =>
      refine properAll_updating fun old new seen made => ⟨?_, trivial⟩
      obtain ⟨owned, mine⟩ := found .projects seen
      obtain ⟨-, -, is⟩ := Database.updatedProject_ok made
      rw [is]
      exact proper_put (t := .projects) rfl owned mine trivial
  | archiveProject id =>
      refine properAll_archiving fun old seen => ?_
      obtain ⟨owned, mine⟩ := found .projects seen
      exact proper_put (t := .projects) rfl owned mine trivial
  | insertPool row =>
      exact properAll_returning (properAll_insert (t := .pools) bound rfl (stands.owner_eq guarded)
        fun _ => trivial) insert_single
  | updatePool id changes =>
      refine properAll_updating fun old new seen made => ⟨?_, properAll_entries [_]⟩
      obtain ⟨owned, mine⟩ := found .pools seen
      obtain ⟨-, -, -, is⟩ := Database.updatedPool_ok made
      rw [is]
      exact proper_put (t := .pools) rfl owned mine trivial
  | archivePool id =>
      refine properAll_archiving fun old seen => ?_
      obtain ⟨owned, mine⟩ := found .pools seen
      exact proper_put (t := .pools) rfl owned mine trivial
  | insertCredential row =>
      exact properAll_returning (properAll_insert (t := .credentials) bound rfl
        (stands.owner_eq guarded) fun _ => trivial) insert_single
  | deleteCredential id =>
      rw [Database.execute]
      cases seen : byKey v.setting v.database.credentials id with
      | none => trivial
      | some row =>
          dsimp only
          split
          · trivial
          · rename_i unused
            obtain ⟨owned, -⟩ := found .credentials seen
            refine ⟨proper_drop (t := .credentials) rfl owned fun key repo at_ refers => unused ?_,
              trivial⟩
            exact List.any_eq_true.mpr ⟨(key, repo), Dict.get?_eq_some_iff.mp at_,
              decide_eq_true refers⟩
  | insertScriptRepo row =>
      obtain ⟨drawn, -, credential⟩ := guarded
      refine properAll_returning (properAll_insert (t := .scriptRepos) bound rfl
        (stands.owner_eq drawn) fun mine k refers => ?_) insert_single
      obtain ⟨owned, there⟩ := stands.seen .credentials (credential k refers)
      exact ⟨owned.trans mine.symm, there⟩
  | updateScriptRepo id changes =>
      refine properAll_updating fun old new seen made => ⟨?_, trivial⟩
      obtain ⟨owned, mine⟩ := found .scriptRepos seen
      obtain ⟨-, -, -, -, is⟩ := Database.updated_ok made
      rw [is]
      refine proper_put (t := .scriptRepos) rfl owned mine fun k refers => ?_
      obtain ⟨also, there⟩ := stands.updated_credential seen guarded k refers
      exact ⟨also.trans mine.symm, there⟩
  | archiveScriptRepo id =>
      refine properAll_archiving fun old seen => ?_
      obtain ⟨owned, at_, -, mine⟩ := stands.separated.owner_eq bound .scriptRepos seen
      exact proper_put (t := .scriptRepos) rfl (found .scriptRepos seen).1 mine
        (stands.separated.credentials id old at_)
  | insertScriptVersion row =>
      obtain ⟨drawn, repo⟩ := guarded
      refine properAll_returning (properAll_insert (t := .scriptVersions) bound rfl
        (stands.owner_eq drawn) fun mine => ?_) insert_single
      exact (stands.seen .scriptRepos repo).1.trans mine.symm
  | insertTest row =>
      exact properAll_returning (properAll_insert (t := .tests) bound rfl (stands.owner_eq guarded.1)
        fun _ => trivial) insert_single
  | updateDocument id expectedVersion changes =>
      refine properAll_updating fun old new seen made => ⟨?_, trivial⟩
      obtain ⟨owned, mine⟩ := found .tests (Option.filter_eq_some_iff.mp seen).1
      obtain ⟨-, -, is⟩ := Database.updatedTest_ok made
      rw [is]
      exact proper_put (t := .tests) rfl owned mine trivial
  | archiveTest id =>
      refine properAll_archiving fun old seen => ?_
      obtain ⟨owned, mine⟩ := found .tests seen
      exact proper_put (t := .tests) rfl owned mine trivial
  | deletePlans testId =>
      refine properAll_of_fits fun write member _ => ?_
      obtain ⟨row, inTable, rfl⟩ := List.mem_map.mp member
      have seen := List.mem_of_mem_filter inTable
      rw [Database.visible_eq bound, Database.mem_rowsOf] at seen
      obtain ⟨key, at_, mine⟩ := seen
      exact proper_drop rfl (stands.separated.owner_row .plans at_ mine) trivial
  | insertPlan row =>
      exact properAll_insert (t := .plans) bound rfl (stands.owner_eq guarded.1) fun _ => trivial
  | deleteRules testId =>
      refine properAll_of_fits fun write member _ => ?_
      obtain ⟨row, inTable, rfl⟩ := List.mem_map.mp member
      have seen := List.mem_of_mem_filter inTable
      rw [Database.visible_eq bound, Database.mem_rowsOf] at seen
      obtain ⟨key, at_, mine⟩ := seen
      exact proper_drop rfl (stands.separated.owner_row .rules at_ mine) trivial
  | insertRule row =>
      exact properAll_insert (t := .rules) bound rfl (stands.owner_eq guarded.1) fun _ => trivial
  | insertPolicy row =>
      exact properAll_returning (properAll_insert (t := .targetPolicies) bound rfl
        (stands.owner_eq guarded) fun _ => trivial) insert_single
  | insertAudit row =>
      exact properAll_insert (t := .auditLogs) bound rfl (stands.owner_eq guarded) fun _ => trivial
  | _ => trivial

/-- The guard of a statement is the same wherever the rows of the organisation are. -/
theorem guarded_on {s : Statement} (stands : Stands owner org v) (separated' : Separated owner d')
    (alike : Alike org v.database d') (guarded : Guarded s v) : Guarded s (v.on d') := by
  have seen (t : Table) (id : Uuid) : Seen (v.on d') (t.dict d') id = Seen v (t.dict v.database) id :=
    congrArg (fun found : Option t.Row => found.isSome = true)
      (alike.byKey stands.bound stands.separated separated' t id)
  cases s with
  | insertScriptRepo row =>
      obtain ⟨drawn, project, credential⟩ := guarded
      exact ⟨drawn, (seen .projects _).mpr project, fun k refers =>
        (seen .credentials k).mpr (credential k refers)⟩
  | updateScriptRepo id changes =>
      exact fun k refers => (seen .credentials k).mpr (guarded k refers)
  | insertScriptVersion row => exact ⟨guarded.1, (seen .scriptRepos _).mpr guarded.2⟩
  | insertTest row => exact ⟨guarded.1, (seen .projects _).mpr guarded.2⟩
  | insertPlan row =>
      exact ⟨guarded.1, (seen .tests _).mpr guarded.2.1, (seen .scriptRepos _).mpr guarded.2.2⟩
  | insertRule row => exact ⟨guarded.1, (seen .tests _).mpr guarded.2⟩
  | _ => exact guarded

/-- A guarded statement answers and writes the same wherever the rows of the organisation
are the same. -/
theorem execute_alike {s : Statement} (stands : Stands owner org v) (separated' : Separated owner d')
    (alike : Alike org v.database d') (guarded : Guarded s v) :
    Database.execute s v.setting d' = Database.execute s v.setting v.database := by
  have bound := stands.bound
  have key (t : Table) (id : Uuid) : byKey v.setting (t.dict d') id = byKey v.setting (t.dict v.database) id :=
    alike.byKey bound stands.separated separated' t id
  have rows (t : Table) : visible v.setting (t.dict d') = visible v.setting (t.dict v.database) :=
    alike.visible bound t
  have under (t : Table) {id : Uuid} (mine : owner id = org) :
      ((t.dict d').get? id).isSome = ((t.dict v.database).get? id).isSome := by
    rw [separated'.get?_eq bound t mine, key, ← stands.separated.get?_eq bound t mine]
  have there (t : Table) {id : Uuid} (seen : Seen v (t.dict v.database) id) :
      ((t.dict d').get? id).isSome = ((t.dict v.database).get? id).isSome :=
    under t (stands.seen t seen).1
  have user (id : Uuid) : d'.hasUser id = v.database.hasUser id := by
    rw [Database.hasUser, Database.hasUser, alike.users]
  -- a condition that only rows of the organisation of a new row meet
  have taken (t : Table) {like : t.Row → Bool}
      (mine : ∀ d, Separated owner d → ∀ id row, (t.dict d).get? id = some row → like row = true →
        Tenant.organizationId row = org) :
      exists_ (t.dict d') like = exists_ (t.dict v.database) like := by
    rw [exists_eq (mine d' separated'), exists_eq (mine v.database stands.separated), alike.rows]
  cases s with
  | getProfile id =>
      have same : byKey v.setting d'.users id = byKey v.setting v.database.users id := key .users id
      rw [Database.execute, Database.execute, same]
  | getProject id =>
      have same : byKey v.setting d'.projects id = byKey v.setting v.database.projects id := key .projects id
      rw [Database.execute, Database.execute, same]
  | getPool id =>
      have same : byKey v.setting d'.pools id = byKey v.setting v.database.pools id := key .pools id
      rw [Database.execute, Database.execute, same]
  | poolCapacity id =>
      have same : byKey v.setting d'.pools id = byKey v.setting v.database.pools id := key .pools id
      rw [Database.execute, Database.execute, same]
  | getCredential id =>
      have same : byKey v.setting d'.credentials id = byKey v.setting v.database.credentials id := key .credentials id
      rw [Database.execute, Database.execute, same]
  | secretMaterial id =>
      have same : byKey v.setting d'.credentials id = byKey v.setting v.database.credentials id := key .credentials id
      rw [Database.execute, Database.execute, same]
  | getScriptRepo id =>
      have same : byKey v.setting d'.scriptRepos id = byKey v.setting v.database.scriptRepos id := key .scriptRepos id
      rw [Database.execute, Database.execute, same]
  | getScriptVersion id =>
      have same : byKey v.setting d'.scriptVersions id = byKey v.setting v.database.scriptVersions id := key .scriptVersions id
      rw [Database.execute, Database.execute, same]
  | getTest id =>
      have same : byKey v.setting d'.tests id = byKey v.setting v.database.tests id := key .tests id
      rw [Database.execute, Database.execute, same]
  | archiveProject id =>
      have same : byKey v.setting d'.projects id = byKey v.setting v.database.projects id := key .projects id
      rw [Database.execute, Database.execute, same]
  | archivePool id =>
      have same : byKey v.setting d'.pools id = byKey v.setting v.database.pools id := key .pools id
      rw [Database.execute, Database.execute, same]
  | archiveScriptRepo id =>
      have same : byKey v.setting d'.scriptRepos id = byKey v.setting v.database.scriptRepos id := key .scriptRepos id
      rw [Database.execute, Database.execute, same]
  | archiveTest id =>
      have same : byKey v.setting d'.tests id = byKey v.setting v.database.tests id := key .tests id
      rw [Database.execute, Database.execute, same]
  | listProjects limit after =>
      have same : visible v.setting d'.projects = visible v.setting v.database.projects := rows .projects
      rw [Database.execute, Database.execute, same]
  | listPools limit after =>
      have same : visible v.setting d'.pools = visible v.setting v.database.pools := rows .pools
      rw [Database.execute, Database.execute, same]
  | listCredentials limit after =>
      have same : visible v.setting d'.credentials = visible v.setting v.database.credentials := rows .credentials
      rw [Database.execute, Database.execute, same]
  | listScriptRepos projectId limit after =>
      have same : visible v.setting d'.scriptRepos = visible v.setting v.database.scriptRepos := rows .scriptRepos
      rw [Database.execute, Database.execute, same]
  | listScriptVersions repoId limit after =>
      have same : visible v.setting d'.scriptVersions = visible v.setting v.database.scriptVersions := rows .scriptVersions
      rw [Database.execute, Database.execute, same]
  | listTests projectId limit after =>
      have same : visible v.setting d'.tests = visible v.setting v.database.tests := rows .tests
      rw [Database.execute, Database.execute, same]
  | credentialByName name =>
      have same : visible v.setting d'.credentials = visible v.setting v.database.credentials := rows .credentials
      rw [Database.execute, Database.execute, same]
  | variableMaterial =>
      have same : visible v.setting d'.credentials = visible v.setting v.database.credentials := rows .credentials
      rw [Database.execute, Database.execute, same]
  | referencingRepos id =>
      have same : visible v.setting d'.scriptRepos = visible v.setting v.database.scriptRepos := rows .scriptRepos
      rw [Database.execute, Database.execute, same]
  | versionByCommit repoId commitSha planPath =>
      have same : visible v.setting d'.scriptVersions = visible v.setting v.database.scriptVersions := rows .scriptVersions
      rw [Database.execute, Database.execute, same]
  | deletePlans testId =>
      have same : visible v.setting d'.plans = visible v.setting v.database.plans := rows .plans
      rw [Database.execute, Database.execute, same]
  | deleteRules testId =>
      have same : visible v.setting d'.rules = visible v.setting v.database.rules := rows .rules
      rw [Database.execute, Database.execute, same]
  | plansFor testId =>
      have same : visible v.setting d'.plans = visible v.setting v.database.plans := rows .plans
      rw [Database.execute, Database.execute, same]
  | rulesFor testId =>
      have same : visible v.setting d'.rules = visible v.setting v.database.rules := rows .rules
      rw [Database.execute, Database.execute, same]
  | currentPolicy =>
      have same : visible v.setting d'.targetPolicies = visible v.setting v.database.targetPolicies := rows .targetPolicies
      rw [Database.execute, Database.execute, same]
  | nextPolicyVersion =>
      have same : visible v.setting d'.targetPolicies = visible v.setting v.database.targetPolicies := rows .targetPolicies
      rw [Database.execute, Database.execute, Database.nextPolicyVersion, Database.nextPolicyVersion, same]
  | committedUsers id =>
      have generators : visible v.setting d'.runGenerators = visible v.setting v.database.runGenerators :=
        rows .runGenerators
      have runs : visible v.setting d'.testRuns = visible v.setting v.database.testRuns := rows .testRuns
      rw [Database.execute, Database.execute, Database.heldUsers, Database.heldUsers, generators, runs]
  | insertProject row =>
      refine congrArg (returning _ _) (insert_alike (t := .projects) bound stands.separated separated' alike
        (stands.owner_eq guarded) fun mine => ?_)
      rw [user]
      refine congrArg (fun clash => _ && !clash) (taken .projects fun _ _ _ other _ alike => ?_)
      exact (of_decide_eq_true alike).1.trans mine
  | insertPool row =>
      refine congrArg (returning _ _) (insert_alike (t := .pools) bound stands.separated separated' alike
        (stands.owner_eq guarded) fun mine => ?_)
      refine congrArg (fun clash => !clash) (taken .pools fun _ _ _ other _ alike => ?_)
      exact (of_decide_eq_true alike).1.trans mine
  | insertCredential row =>
      refine congrArg (returning _ _) (insert_alike (t := .credentials) bound stands.separated separated' alike
        (stands.owner_eq guarded) fun mine => ?_)
      rw [user]
      refine congrArg (fun clash => _ && !clash) (taken .credentials fun _ _ _ other _ alike => ?_)
      exact (of_decide_eq_true alike).1.trans mine
  | insertPolicy row =>
      refine congrArg (returning _ _) (insert_alike (t := .targetPolicies) bound stands.separated separated' alike
        (stands.owner_eq guarded) fun mine => ?_)
      rw [user]
      refine congrArg (fun clash => _ && !clash) (taken .targetPolicies fun _ _ _ other _ alike => ?_)
      exact (of_decide_eq_true alike).1.trans mine
  | insertAudit row =>
      exact insert_alike (t := .auditLogs) bound stands.separated separated' alike
        (stands.owner_eq guarded) fun _ => rfl
  | insertRule row =>
      exact insert_alike (t := .rules) bound stands.separated separated' alike
        (stands.owner_eq guarded.1) fun _ => there .tests guarded.2
  | insertPlan row =>
      refine insert_alike (t := .plans) bound stands.separated separated' alike
        (stands.owner_eq guarded.1) fun _ => ?_
      exact congrArg₂ _ (there .tests guarded.2.1) (there .scriptRepos guarded.2.2)
  | insertTest row =>
      refine congrArg (returning _ _) (insert_alike (t := .tests) bound stands.separated separated' alike
        (stands.owner_eq guarded.1) fun _ => ?_)
      exact congrArg₂ _ (there .projects guarded.2) (user _)
  | insertScriptRepo row =>
      obtain ⟨drawn, project, credential⟩ := guarded
      refine congrArg (returning _ _) (insert_alike (t := .scriptRepos) bound stands.separated
        separated' alike (stands.owner_eq drawn) fun _ => ?_)
      have refers : References d'.credentials (row v.setting.now).credentialId =
          References v.database.credentials (row v.setting.now).credentialId := by
        cases named : (row v.setting.now).credentialId with
        | none => rfl
        | some k => exact there .credentials (credential k named)
      exact congrArg₂ _ (congrArg₂ _ (there .projects project) refers) (user _)
  | insertScriptVersion row =>
      refine congrArg (returning _ _) (insert_alike (t := .scriptVersions) bound stands.separated
        separated' alike (stands.owner_eq guarded.1) fun _ => ?_)
      obtain ⟨mine, -⟩ := stands.seen .scriptRepos guarded.2
      refine congrArg₂ _ (there .scriptRepos guarded.2)
        (congrArg _ (taken .scriptVersions fun d separated id other found alike => ?_))
      have sameRepo := (of_decide_eq_true alike).1
      exact (separated.repos id other found).symm.trans ((congrArg owner sameRepo).trans mine)
  | updateProject id changes =>
      have same : byKey v.setting d'.projects id = byKey v.setting v.database.projects id := key .projects id
      rw [Database.execute, Database.execute, same]
  | updateDocument id expectedVersion changes =>
      have same : byKey v.setting d'.tests id = byKey v.setting v.database.tests id := key .tests id
      rw [Database.execute, Database.execute, same]
  | updatePool id changes =>
      have same : byKey v.setting d'.pools id = byKey v.setting v.database.pools id := key .pools id
      rw [Database.execute, Database.execute, same]
      refine updating_congr fun old found => ?_
      obtain ⟨-, -, -, mine⟩ := stands.separated.owner_eq bound .pools found
      have clash (name : String) : exists_ d'.pools _ = exists_ v.database.pools fun other =>
          decide (other.id ≠ old.id ∧ other.organizationId = old.organizationId ∧ other.name = name) :=
        taken .pools fun _ _ _ other _ alike => (of_decide_eq_true alike).2.1.trans mine
      simp only [Database.updatedPool, clash]
  | updateScriptRepo id changes =>
      have same : byKey v.setting d'.scriptRepos id = byKey v.setting v.database.scriptRepos id :=
        key .scriptRepos id
      rw [Database.execute, Database.execute, same]
      refine updating_congr fun old found => ?_
      have refers : References d'.credentials (assignedNullable old.credentialId changes.credentialId) =
          References v.database.credentials
            (assignedNullable old.credentialId changes.credentialId) := by
        have mine := stands.updated_credential found guarded
        cases named : assignedNullable old.credentialId changes.credentialId with
        | none => rfl
        | some k => exact under .credentials (mine k named).1
      simp only [Database.updated, refers]
  | deleteCredential id =>
      have same : byKey v.setting d'.credentials id = byKey v.setting v.database.credentials id :=
        key .credentials id
      rw [Database.execute, Database.execute, same]
      cases found : byKey v.setting v.database.credentials id with
      | none => rfl
      | some row =>
          obtain ⟨mine, -, sameId, -⟩ := stands.separated.owner_eq bound .credentials found
          have used : exists_ d'.scriptRepos _ = exists_ v.database.scriptRepos fun repo =>
              decide (repo.credentialId = some row.id) :=
            taken .scriptRepos fun d separated key repo at_ refers =>
              (separated.credentials key repo at_ row.id (of_decide_eq_true refers)).1.symm.trans
                ((congrArg owner sameId).trans mine)
          dsimp only
          rw [used]
  | _ => cases guarded

end Plimsoll.Tenants
