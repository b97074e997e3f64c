import Plimsoll.Effects

/-!
What each statement of a transaction does to the tables, by the commit.
-/

namespace Plimsoll.Effects

open Python Contracts Transaction
open Database (Write RowLock Setting Statement Fault UniqueKey byKey byKey_eq_some_iff)
open History (Row rowAt written InPlace)
open Relation (Comp)

/-! ## What locks guard -/

/-- The plans and the rules of a test. -/
def parts (testId : Uuid) (s : Store) :
    (Uuid → Option PerformanceTestPlan) × (Uuid → Option SlaRule) :=
  (fun id => (s (.plan id)).filter fun row => row.performanceTestId = testId,
    fun id => (s (.rule id)).filter fun row => row.performanceTestId = testId)

/-- The lock of a test guards its plans and its rules, and the entry of a policy's version
the version that comes next. -/
def keeps (lock : RowLock) (s s' : Store) : Prop :=
  match lock with
  | .test id => parts id s = parts id s'
  | .entry (.policyVersion org version) => IsNext org version s → IsNext org version s'
  | _ => True

/-- The version that comes next is one until a policy has it. -/
def Awaited (org : Uuid) (version : Nat) (s : Store) : Prop :=
  IsNext org version s ∨ ∃ id row, s (.targetPolicy id) = some row ∧ row.organizationId = org ∧
    row.version = version

/-- Policies stay, and their versions come one after the other. -/
def evolves (s s' : Store) : Prop :=
  (∀ id row, s (.targetPolicy id) = some row → s' (.targetPolicy id) = some row) ∧
    ∀ org version, IsNext org version s → Awaited org version s'

theorem Awaited.evolve {org : Uuid} {version : Nat} {s s' : Store} (awaited : Awaited org version s)
    (evolves : evolves s s') : Awaited org version s' := by
  rcases awaited with next | ⟨id, row, there, rest⟩
  · exact evolves.2 org version next
  · exact Or.inr ⟨id, row, evolves.1 id row there, rest⟩

/-- A policy is written with the entry of its version. -/
def Entered (writes : List Write) : Prop :=
  ∀ row, Write.targetPolicy row ∈ writes →
    Write.entry (.policyVersion row.organizationId row.version) ∈ writes

/-- A policy is written where one is inserted, and nowhere else. -/
theorem entered_execute (s : Statement) (c : Setting) (d : Database) :
    Entered (Database.execute s c d).2 := by
  have others (none_ : ∀ w ∈ (Database.execute s c d).2, ∀ row, w ≠ .targetPolicy row) :
      Entered (Database.execute s c d).2 :=
    fun row member => absurd rfl (none_ _ member row)
  cases s with
  | insertPolicy row =>
      intro found member
      rcases @History.writes_returning TargetPolicyRow TargetPolicyRow Uuid _ _ c d.targetPolicies
        (row c.now).id (row c.now) _ (.targetPolicy (row c.now)) (row c.now)
        [.policyVersion (row c.now).organizationId (row c.now).version] with same | ⟨same, -⟩
      · rw [show (Database.execute (.insertPolicy row) c d).2 = [] from same] at member
        cases member
      · rw [show (Database.execute (.insertPolicy row) c d).2 = _ from same] at member ⊢
        rcases List.mem_cons.mp member with here | entry
        · cases here
          exact List.mem_cons_of_mem _ (List.mem_singleton_self _)
        · cases List.mem_singleton.mp entry
  | insertFamily row => exact others (History.each_insert fun _ _ _ => Write.noConfusion)
  | recordHistory row => exact others (History.each_insert fun _ _ _ => Write.noConfusion)
  | insertProject row =>
      exact others (History.each_returning (fun _ _ => Write.noConfusion) fun _ _ _ =>
        Write.noConfusion)
  | insertPool row =>
      exact others (History.each_returning (fun _ _ => Write.noConfusion) fun _ _ _ =>
        Write.noConfusion)
  | insertCredential row =>
      exact others (History.each_returning (fun _ _ => Write.noConfusion) fun _ _ _ =>
        Write.noConfusion)
  | insertScriptRepo row =>
      exact others (History.each_returning (fun _ _ => Write.noConfusion) fun _ _ _ =>
        Write.noConfusion)
  | insertScriptVersion row =>
      exact others (History.each_returning (fun _ _ => Write.noConfusion) fun _ _ _ =>
        Write.noConfusion)
  | insertTest row =>
      exact others (History.each_returning (fun _ _ => Write.noConfusion) fun _ _ _ =>
        Write.noConfusion)
  | insertPlan row => exact others (History.each_insert fun _ _ _ => Write.noConfusion)
  | insertRule row => exact others (History.each_insert fun _ _ _ => Write.noConfusion)
  | insertAudit row => exact others (History.each_insert fun _ _ _ => Write.noConfusion)
  | replaceHash familyId tokenHash =>
      refine others fun w member row => ?_
      obtain ⟨old, -, rfl⟩ := Option.map_eq_some_iff.mp (Option.mem_toList.mp member)
      exact Write.noConfusion
  | revokeFamilyContaining tokenHash =>
      refine others fun w member row => ?_
      obtain ⟨old, -, rfl⟩ := Option.map_eq_some_iff.mp (Option.mem_toList.mp member)
      exact Write.noConfusion
  | updateProject id changes =>
      refine others (History.each_updating fun _ new _ _ w member row => ?_)
      rw [List.mem_singleton.mp member]
      exact Write.noConfusion
  | updatePool id changes =>
      refine others (History.each_updating fun _ new _ _ w member row => ?_)
      rcases List.mem_cons.mp member with rfl | entry
      · exact Write.noConfusion
      · rw [List.mem_singleton.mp entry]
        exact Write.noConfusion
  | updateScriptRepo id changes =>
      refine others (History.each_updating fun _ new _ _ w member row => ?_)
      rw [List.mem_singleton.mp member]
      exact Write.noConfusion
  | updateDocument id expectedVersion changes =>
      refine others (History.each_updating fun _ new _ _ w member row => ?_)
      rw [List.mem_singleton.mp member]
      exact Write.noConfusion
  | archiveProject id => exact others (History.each_archiving fun _ _ _ => Write.noConfusion)
  | archivePool id => exact others (History.each_archiving fun _ _ _ => Write.noConfusion)
  | archiveScriptRepo id => exact others (History.each_archiving fun _ _ _ => Write.noConfusion)
  | archiveTest id => exact others (History.each_archiving fun _ _ _ => Write.noConfusion)
  | deleteCredential id =>
      exact others (History.each_deleteCredential fun _ _ _ => Write.noConfusion)
  | deletePlans testId =>
      refine others fun w member row => ?_
      obtain ⟨old, -, rfl⟩ := List.mem_map.mp member
      exact Write.noConfusion
  | deleteRules testId =>
      refine others fun w member row => ?_
      obtain ⟨old, -, rfl⟩ := List.mem_map.mp member
      exact Write.noConfusion
  | _ =>
      intro row member
      cases member

/-- `os.urandom(NONCE_BYTES)` returns that many bytes. -/
def replies : Sql.Replies postgres where
  usual
    | .nonce, bytes => if bytes.length = nonceBytes then bytes else List.replicate nonceBytes 0
    | .tokenUrlsafe, token => token
    | .uuid4, id => id
    | .now, now => now
  honest e := ∀ n, (e.nonces n).length = nonceBytes
  honest_reply q e honest := by
    cases q with
    | nonce => exact ⟨if_pos (honest _), honest⟩
    | _ => exact ⟨rfl, honest⟩

/-- What the transactions of the services rely on. -/
def isolation : Sql.Isolation postgres where
  toEvolution := History.evolution
  toReplies := replies
  evolves := evolves
  evolves_refl _ := ⟨fun _ _ there => there, fun _ _ => Or.inl⟩
  evolves_trans _ _ _ first second :=
    ⟨fun id row there => second.1 id row (first.1 id row there), fun org version next =>
      (first.2 org version next).evolve second⟩
  keeps := keeps
  keeps_refl lock s := by
    unfold keeps
    split
    · rfl
    · exact id
    · trivial
  keeps_trans lock s₁ s₂ s₃ first second := by
    unfold keeps at first second ⊢
    split
    · exact first.trans second
    · exact second ∘ first
    · trivial
  proper := Entered
  proper_nil row member := by cases member
  proper_execute writes s c d entered row member := by
    rcases List.mem_append.mp member with before | here
    · exact List.mem_append_left _ (entered row before)
    · exact List.mem_append_right _ (entered_execute s c d row here)

/-- A program of the services takes the tables from one transition to another, which may
depend on what it returns. -/
abbrev Takes {α : Type} (p : Transaction α) (c : Setting) (E : Transition) (E' : α → Transition) :
    Prop :=
  isolation.Takes p c E E'

open Sql.Isolation (Takes.pure Takes.raise Takes.bind Takes.strengthen Takes.weaken Takes.read
  Takes.local Takes.ask)

variable {α β : Type} {c : Setting} {E : Transition} {E' : α → Transition}

/-! ## Statements -/

/-- A statement that cannot fail. -/
theorem takes_statement {s : Statement} {result : s.Answer → α} {T : α → Transition}
    (same : Database.rebind s c = c)
    (step : ∀ s₀ d d', E s₀ (store d) → (∀ lock, InPlace lock (rowAt lock d)) →
      History.evolution.Onward d d' →
        (∀ write ∈ (Database.execute s c d).2, rowAt write.lock d = rowAt write.lock d') →
          T (result (Database.execute s c d).1) (store d')
            (store (postgres.applyAll (Database.execute s c d).2 d'))) :
    Takes (Sql.Program.execute s fun answer => pure (result answer)) c E fun a => Comp E (T a) := by
  exact Takes.local (T := fun answer => T (result answer)) same step fun answer =>
    Takes.pure fun _ _ made => made

/-- A statement that may fail. -/
theorem takes_checked {s : Statement} {result : s.Answer → Except Fault α} {T : α → Transition}
    (same : Database.rebind s c = c)
    (step : ∀ s₀ d d' a, E s₀ (store d) → (∀ lock, InPlace lock (rowAt lock d)) →
      (∀ write ∈ (Database.execute s c d).2, rowAt write.lock d = rowAt write.lock d') →
        result (Database.execute s c d).1 = .ok a →
          T a (store d') (store (postgres.applyAll (Database.execute s c d).2 d'))) :
    Takes (Sql.Program.execute s fun answer => checked (result answer)) c E
      fun a => Comp E (T a) := by
  refine Takes.local (T := fun answer s s' => ∀ a, result answer = .ok a → T a s s') same
    (fun s₀ d d' before sound _ found a ok => step s₀ d d' a before sound found ok) fun answer => ?_
  cases outcome : result answer with
  | error fault => exact Takes.raise _
  | ok a =>
      refine Takes.pure ?_
      rintro s s'' ⟨s', before, here⟩
      exact ⟨s', before, here a rfl⟩

/-- The rows of a table, as statements and as stores have them. -/
structure Kind (ρ : Type) where
  table : Database → Dict Uuid ρ
  key : ρ → Uuid
  write : ρ → Write
  at_ : Uuid → Store → Option ρ
  at_store : ∀ id d, at_ id (store d) = (table d).get? id
  at_same : ∀ row d d', rowAt (write row).lock d = rowAt (write row).lock d' →
    (table d).get? (key row) = (table d').get? (key row)
  at_free : ∀ row d, (table d).get? (key row) = none →
    rowAt (write row).lock d = nothing (write row).lock
  inPlace : ∀ d, (∀ lock, InPlace lock (rowAt lock d)) →
    ∀ id row, (table d).get? id = some row → key row = id

namespace Kind

def projects : Kind Project where
  table d := d.projects
  key row := row.id
  write := .project
  at_ id s := s (.project id)
  at_store _ _ := rfl
  at_same _ _ _ := id
  at_free _ _ := id
  inPlace _ inPlace id := inPlace (.project id)

def pools : Kind GeneratorPool where
  table d := d.pools
  key row := row.id
  write := .pool
  at_ id s := s (.pool id)
  at_store _ _ := rfl
  at_same _ _ _ := id
  at_free _ _ := id
  inPlace _ inPlace id := inPlace (.pool id)

def credentials : Kind Credential where
  table d := d.credentials
  key row := row.id
  write := .credential
  at_ id s := s (.credential id)
  at_store _ _ := rfl
  at_same _ _ _ := id
  at_free _ _ := id
  inPlace _ inPlace id := inPlace (.credential id)

def scriptRepos : Kind ScriptRepo where
  table d := d.scriptRepos
  key row := row.id
  write := .scriptRepo
  at_ id s := s (.scriptRepo id)
  at_store _ _ := rfl
  at_same _ _ _ := id
  at_free _ _ := id
  inPlace _ inPlace id := inPlace (.scriptRepo id)

def scriptVersions : Kind ScriptVersion where
  table d := d.scriptVersions
  key row := row.id
  write := .scriptVersion
  at_ id s := s (.scriptVersion id)
  at_store _ _ := rfl
  at_same _ _ _ := id
  at_free _ _ := id
  inPlace _ inPlace id := inPlace (.scriptVersion id)

def tests : Kind PerformanceTest where
  table d := d.tests
  key row := row.id
  write := .test
  at_ id s := s (.test id)
  at_store _ _ := rfl
  at_same _ _ _ := id
  at_free _ _ := id
  inPlace _ inPlace id := inPlace (.test id)

def plans : Kind PerformanceTestPlan where
  table d := d.plans
  key row := row.id
  write := .plan
  at_ id s := s (.plan id)
  at_store _ _ := rfl
  at_same _ _ _ := id
  at_free _ _ := id
  inPlace _ inPlace id := inPlace (.plan id)

def rules : Kind SlaRule where
  table d := d.rules
  key row := row.id
  write := .rule
  at_ id s := s (.rule id)
  at_store _ _ := rfl
  at_same _ _ _ := id
  at_free _ _ := id
  inPlace _ inPlace id := inPlace (.rule id)

def targetPolicies : Kind TargetPolicyRow where
  table d := d.targetPolicies
  key row := row.id
  write := .targetPolicy
  at_ id s := s (.targetPolicy id)
  at_store _ _ := rfl
  at_same _ _ _ := id
  at_free _ _ := id
  inPlace _ inPlace id := inPlace (.targetPolicy id)

def auditLogs : Kind AuditLog where
  table d := d.auditLogs
  key row := row.id
  write := .audit
  at_ id s := s (.audit id)
  at_store _ _ := rfl
  at_same _ _ _ := id
  at_free _ _ := id
  inPlace _ inPlace id := inPlace (.audit id)

end Kind

theorem store_put (write : Write) (d : Database) :
    store (postgres.applyAll [write] d) = put (store d) write :=
  History.rows.store_apply write d

/-- Entries are no rows. -/
theorem applyAll_entries (entries : List UniqueKey) (d : Database) :
    postgres.applyAll (entries.map Write.entry) d = d := by
  induction entries with
  | nil => rfl
  | cons entry rest ih => exact ih

section

variable {ρ : Type} [Tenant ρ] (kind : Kind ρ)

/-- The insertion of a row. -/
theorem takes_insert {σ : Type} {s : Statement} {result : s.Answer → Except Fault σ} {stored : σ}
    {entries : List UniqueKey} {row : ρ} {references : Database → Bool}
    (same : Database.rebind s c = c)
    (executed : ∀ d, (result (Database.execute s c d).1, (Database.execute s c d).2) =
      Database.returning stored entries
        (Database.insert c (kind.table d) (kind.key row) row (references d) (kind.write row))) :
    Takes (Sql.Program.execute s fun answer => checked (result answer)) c E
      fun a => Comp E fun s s' => a = stored ∧ Adds (kind.write row) s s' := by
  refine takes_checked same fun s₀ d d' a _ _ found ok => ?_
  have answered := congrArg Prod.fst (executed d)
  have wrote := congrArg Prod.snd (executed d)
  dsimp only at answered wrote
  rw [answered] at ok
  obtain ⟨rfl, inserted, same⟩ := Database.returning_ok ok
  obtain ⟨one, -, vacant, -⟩ := Database.insert_ok inserted
  rw [wrote, same, one] at found ⊢
  refine ⟨rfl, (found _ List.mem_cons_self).symm.trans (kind.at_free row d vacant), ?_⟩
  change store (postgres.applyAll (entries.map Write.entry) (postgres.applyAll [_] d')) = _
  rw [applyAll_entries, store_put]

/-- An insertion that returns nothing. -/
theorem insert_eq_returning {table : Dict Uuid ρ} {key : Uuid} {row : ρ} {references : Bool}
    {write : Write} : Database.insert c table key row references write =
      Database.returning () [] (Database.insert c table key row references write) := by
  cases inserted : Database.insert c table key row references write with
  | mk outcome writes =>
      cases outcome with
      | error fault => rfl
      | ok a => simp only [Database.returning, List.map_nil, List.append_nil]

/-- The insertion of a row, where it is not returned. -/
theorem takes_insertOnly {s : Statement} {result : s.Answer → Except Fault Unit} {row : ρ}
    {references : Database → Bool} (same : Database.rebind s c = c)
    (executed : ∀ d, (result (Database.execute s c d).1, (Database.execute s c d).2) =
      Database.insert c (kind.table d) (kind.key row) row (references d) (kind.write row)) :
    Takes (Sql.Program.execute s fun answer => checked (result answer)) c E
      fun _ => Comp E (Adds (kind.write row)) := by
  have takes : Takes (Sql.Program.execute s fun answer => checked (result answer)) c E
      fun a => Comp E fun s s' => a = () ∧ Adds (kind.write row) s s' :=
    takes_insert kind same fun d => (executed d).trans insert_eq_returning
  refine takes.weaken ?_
  rintro a s s'' ⟨s', before, -, adds⟩
  exact ⟨s', before, adds⟩

variable {org : Uuid} {id : Uuid}

/-- What is made of a row, where one is found. -/
def Updates (org id : Uuid) (may : ρ → Prop) (change : ρ → ρ) : Option ρ → Transition
  | none => Eq
  | some new => fun s s' => kind.key new = id ∧ ∃ old, kind.at_ id s = some old ∧
      Tenant.organizationId old = org ∧ may old ∧ new = change old ∧ s' = put s (kind.write new)

/-- An update, of the row that it finds. -/
theorem takes_updating {s : Statement} {result : s.Answer → Except Fault (Option ρ)}
    {found : Database → Option ρ} {update : Database → ρ → Except Fault ρ} {may : ρ → Prop}
    {change : ρ → ρ} (entries : ρ → List UniqueKey) (bound : c.org = some org)
    (same : Database.rebind s c = c)
    (executed : ∀ d, (result (Database.execute s c d).1, (Database.execute s c d).2) =
      Database.updating (found d) (update d) fun row =>
        kind.write row :: (entries row).map Write.entry)
    (within : ∀ d old, found d = some old → byKey c (kind.table d) id = some old ∧ may old)
    (changed : ∀ d old new, update d old = .ok new → new = change old)
    (sameKey : ∀ old, kind.key (change old) = kind.key old) :
    Takes (Sql.Program.execute s fun answer => checked (result answer)) c E
      fun found => Comp E (Updates kind org id may change found) := by
  refine takes_checked same fun s₀ d d' a _ inPlace agree ok => ?_
  have answered := congrArg Prod.fst (executed d)
  have wrote := congrArg Prod.snd (executed d)
  dsimp only at answered wrote
  rw [answered] at ok
  rw [wrote] at agree ⊢
  rcases Database.updating_ok ok with ⟨-, rfl, nothing⟩ | ⟨old, new, there, made, rfl, writes⟩
  · rw [nothing]
    rfl
  · obtain ⟨seen, may⟩ := within d old there
    obtain ⟨at_, sees⟩ := byKey_eq_some_iff.mp seen
    obtain rfl := changed d old new made
    have key : kind.key (change old) = id :=
      (sameKey old).trans (kind.inPlace d inPlace id old at_)
    rw [writes] at agree ⊢
    have stays := kind.at_same _ _ _ (agree _ List.mem_cons_self)
    rw [key] at stays
    refine ⟨key, old, ?_, Option.some.inj (sees.symm.trans bound), may, rfl, ?_⟩
    · rw [kind.at_store, ← stays, at_]
    · change store (postgres.applyAll ((entries _).map Write.entry)
        (postgres.applyAll [_] d')) = _
      rw [applyAll_entries, store_put]

variable {becomes : ρ → ρ → Prop}

/-- A row that a transaction has found, and what has become of it since. -/
def Found (org id : Uuid) (becomes : ρ → ρ → Prop) (row : ρ) (s : Store) : Prop :=
  ∃ row', kind.at_ id s = some row' ∧ becomes row row' ∧ Tenant.organizationId row' = org

/-- A row that is not archived is, or nothing is done. -/
def ArchivesNow (org id : Uuid) (archived : ρ → Bool) (archive : ρ → ρ) : Bool → Transition
  | true => fun s s' => ∃ old, kind.at_ id s = some old ∧ Tenant.organizationId old = org ∧
      archived old = false ∧ s' = put s (kind.write (archive old))
  | false => fun s s' => s = s' ∧ ∃ row, kind.at_ id s = some row ∧ archived row = true ∧
      Tenant.organizationId row = org

variable (stays : ∀ d d', History.evolution.Onward d d' →
  History.Stays becomes ((kind.table d).get? id) ((kind.table d').get? id))
include stays

/-- A row is read. -/
theorem takes_get {s : Statement} {result : s.Answer → Option ρ} (bound : c.org = some org)
    (same : Database.rebind s c = c)
    (executed : ∀ d, (result (Database.execute s c d).1, (Database.execute s c d).2) =
      (byKey c (kind.table d) id, []))
    (sameOwner : ∀ old new, becomes old new →
      Tenant.organizationId new = Tenant.organizationId old) :
    Takes (Sql.Program.execute s fun answer => pure (result answer)) c E
      fun found => Comp E fun s s' => s = s' ∧ ∀ row ∈ found, Found kind org id becomes row s := by
  refine takes_statement same fun s₀ d d' _ _ onward _ => ?_
  have answered := congrArg Prod.fst (executed d)
  have silent := congrArg Prod.snd (executed d)
  dsimp only at answered silent
  rw [silent, answered]
  refine ⟨rfl, fun row member => ?_⟩
  obtain ⟨there, sees⟩ := byKey_eq_some_iff.mp member
  obtain ⟨row', there', became⟩ := stays d d' onward row there
  refine ⟨row', (kind.at_store id d').trans there', became, ?_⟩
  exact (sameOwner row row' became).trans (Option.some.inj (sees.symm.trans bound))

/-- A row is archived, unless it is so. -/
theorem takes_archiving {s : Statement} {result : s.Answer → Bool} {archived : ρ → Bool}
    {archive : ρ → ρ} (bound : c.org = some org) (same : Database.rebind s c = c)
    (executed : ∀ d, (result (Database.execute s c d).1, (Database.execute s c d).2) =
      Database.archiving (byKey c (kind.table d) id) archived fun row => kind.write (archive row))
    (there : ∀ s s', E s s' → ∃ row, kind.at_ id s' = some row ∧ Tenant.organizationId row = org)
    (sameKey : ∀ old, kind.key (archive old) = kind.key old)
    (further : ∀ old new, becomes old new → Tenant.organizationId new = Tenant.organizationId old ∧
      (archived old = true → archived new = true)) :
    Takes (Sql.Program.execute s fun answer => pure (result answer)) c E
      fun done => Comp E (ArchivesNow kind org id archived archive done) := by
  refine takes_statement same fun s₀ d d' before inPlace onward agree => ?_
  have answered := congrArg Prod.fst (executed d)
  have wrote := congrArg Prod.snd (executed d)
  dsimp only at answered wrote
  rw [wrote] at agree ⊢
  rw [answered]
  rcases @Database.archiving_cases _ (byKey c (kind.table d) id) archived
    fun row => kind.write (archive row) with nothing | ⟨old, found, live, done⟩
  · rw [nothing]
    obtain ⟨row, at_, owner⟩ := there _ _ before
    rw [kind.at_store] at at_
    have sees : byKey c (kind.table d) id = some row :=
      byKey_eq_some_iff.mpr ⟨at_, bound.trans (congrArg some owner.symm)⟩
    have isArchived : archived row = true := by
      by_contra live
      rw [sees, Database.archiving, Option.filter_some, if_pos (by simpa using live)] at nothing
      cases nothing
    obtain ⟨row', at_', became⟩ := stays d d' onward row at_
    obtain ⟨sameOwner, stays⟩ := further row row' became
    exact ⟨rfl, row', (kind.at_store id d').trans at_', stays isArchived, sameOwner.trans owner⟩
  · rw [done] at agree
    rw [done]
    obtain ⟨at_, sees⟩ := byKey_eq_some_iff.mp found
    have key : kind.key (archive old) = id :=
      (sameKey old).trans (kind.inPlace d inPlace id old at_)
    have stays := kind.at_same _ _ _ (agree _ List.mem_cons_self)
    rw [key] at stays
    refine ⟨old, ?_, Option.some.inj (sees.symm.trans bound), live, store_put _ _⟩
    rw [kind.at_store, ← stays, at_]

end

/-! ## The interpreter -/

theorem takes_uuid4 : Takes uuid4 c E fun _ => E :=
  Takes.ask fun _ => Takes.pure fun _ _ made => made

theorem takes_nonce : Takes nonce c E fun bytes s s' => bytes.length = nonceBytes ∧ E s s' := by
  refine Takes.ask fun bytes => Takes.pure fun s s' made => ⟨?_, made⟩
  change (if List.length bytes = nonceBytes then bytes else List.replicate nonceBytes 0).length = _
  split
  · assumption
  · exact List.length_replicate

/-! ## Insertions -/

theorem takes_insertProject {row : Timestamp → Project} :
    Takes (insertProject row) c E fun a =>
      Comp E fun s s' => a = row c.now ∧ Adds (.project (row c.now)) s s' :=
  takes_insert .projects rfl fun _ => rfl

theorem takes_insertPool {row : Timestamp → GeneratorPool} :
    Takes (insertPool row) c E fun a =>
      Comp E fun s s' => a = row c.now ∧ Adds (.pool (row c.now)) s s' :=
  takes_insert .pools rfl fun _ => rfl

theorem takes_insertCredential {row : Timestamp → Credential} :
    Takes (insertCredential row) c E fun a =>
      Comp E fun s s' => a = (row c.now).summary ∧ Adds (.credential (row c.now)) s s' :=
  takes_insert .credentials rfl fun _ => rfl

theorem takes_insertScriptRepo {row : Timestamp → ScriptRepo} :
    Takes (insertScriptRepo row) c E fun a =>
      Comp E fun s s' => a = row c.now ∧ Adds (.scriptRepo (row c.now)) s s' :=
  takes_insert .scriptRepos rfl fun _ => rfl

theorem takes_insertScriptVersion {row : Timestamp → ScriptVersion} :
    Takes (insertScriptVersion row) c E fun a =>
      Comp E fun s s' => a = row c.now ∧ Adds (.scriptVersion (row c.now)) s s' :=
  takes_insert .scriptVersions rfl fun _ => rfl

theorem takes_insertTest {row : Timestamp → PerformanceTest} :
    Takes (insertTest row) c E fun a =>
      Comp E fun s s' => a = row c.now ∧ Adds (.test (row c.now)) s s' :=
  takes_insert .tests rfl fun _ => rfl

theorem takes_insertPlan {row : PerformanceTestPlan} :
    Takes (insertPlan row) c E fun _ => Comp E (Adds (.plan row)) :=
  takes_insertOnly .plans rfl fun _ => rfl

theorem takes_insertRule {row : SlaRule} :
    Takes (insertRule row) c E fun _ => Comp E (Adds (.rule row)) :=
  takes_insertOnly .rules rfl fun _ => rfl

theorem takes_insertAudit {row : AuditLog} :
    Takes (insertAudit row) c E fun _ => Comp E (Adds (.audit row)) :=
  takes_insertOnly .auditLogs rfl fun _ => rfl

/-- `audit.record`. -/
theorem takes_record {principal : AccessClaims} {action entityType : String} {entityId : Uuid}
    {metadata : Option (List (String × Detail))} :
    Takes (ScriptRepos.record principal action entityType entityId metadata) c E fun _ =>
      Comp E (Tells principal action entityType entityId metadata) := by
  refine Takes.bind takes_uuid4 fun id => takes_insertAudit.weaken ?_
  rintro a s s'' ⟨s', before, adds⟩
  exact ⟨s', before, id, adds⟩

/-! ## Updates -/

theorem patched_of_assigned {old new : α} {patch : Patch α}
    (assigned : Database.assigned old patch = .ok new) : new = patched old patch := by
  cases patch with
  | unset => exact (Except.ok.inj assigned).symm
  | null => cases assigned
  | value given => exact (Except.ok.inj assigned).symm

variable {org id : Uuid}

theorem takes_updateProject {body : ProjectUpdate} (bound : c.org = some org) :
    Takes (updateProject id (Projects.changesOf body)) c E fun found =>
      Comp E (Updates .projects org id (fun _ => True) (patchProject body c.now) found) := by
  refine takes_updating .projects (fun _ => []) bound rfl (fun _ => rfl)
    (fun _ _ found => ⟨found, trivial⟩) (fun _ old new made => ?_) fun _ => rfl
  obtain ⟨named, tagged, rest⟩ := Database.updatedProject_ok made
  rw [rest, patched_of_assigned named, patched_of_assigned tagged]
  rfl

theorem takes_updatePool {body : PoolUpdate} (bound : c.org = some org) :
    Takes (updatePool id (Pools.changesOf body)) c E fun found =>
      Comp E (Updates .pools org id (fun _ => True) (patchPool body c.now) found) := by
  refine takes_updating .pools (fun row => [.poolName row.organizationId row.name]) bound rfl
    (fun _ => rfl) (fun _ _ found => ⟨found, trivial⟩) (fun _ old new made => ?_) fun _ => rfl
  obtain ⟨named, generators, users, rest⟩ := Database.updatedPool_ok made
  rw [rest, patched_of_assigned named, patched_of_assigned generators, patched_of_assigned users]
  rfl

theorem takes_updateScriptRepo {body : ScriptRepoUpdate} (bound : c.org = some org) :
    Takes (updateScriptRepo id (ScriptRepos.changesOf body)) c E fun found =>
      Comp E (Updates .scriptRepos org id (fun _ => True) (patchScriptRepo body c.now) found) := by
  refine takes_updating .scriptRepos (fun _ => []) bound rfl (fun _ => rfl)
    (fun _ _ found => ⟨found, trivial⟩) (fun _ old new made => ?_) fun _ => rfl
  obtain ⟨named, placed, ref, -, rest⟩ := Database.updated_ok made
  rw [rest, patched_of_assigned named, patched_of_assigned placed, patched_of_assigned ref]
  rfl

theorem takes_updateDocument {body : TestUpdate} (bound : c.org = some org) :
    Takes (updateDocument id body.version (PerformanceTests.changesOf body)) c E fun found =>
      Comp E (Updates .tests org id (fun old => old.version = body.version)
        (patchTest body c.now) found) := by
  refine takes_updating .tests (fun _ => []) bound rfl (fun _ => rfl) (fun _ old found => ?_)
    (fun _ old new made => ?_) fun _ => rfl
  · obtain ⟨there, version⟩ := Option.filter_eq_some_iff.mp found
    exact ⟨there, of_decide_eq_true version⟩
  · obtain ⟨named, tagged, rest⟩ := Database.updatedTest_ok made
    rw [rest, patched_of_assigned named, patched_of_assigned tagged]
    rfl

/-! ## Archiving -/

/-! What has become of a row is of its organisation. -/

theorem owner_project {old new : Project} (became : History.ProjectBecomes old new) :
    Tenant.organizationId new = Tenant.organizationId old :=
  (congrArg Project.organizationId became.1).trans rfl

theorem owner_pool {old new : GeneratorPool} (became : History.PoolBecomes old new) :
    Tenant.organizationId new = Tenant.organizationId old :=
  (congrArg GeneratorPool.organizationId became.1).trans rfl

theorem owner_scriptRepo {old new : ScriptRepo} (became : History.ScriptRepoBecomes old new) :
    Tenant.organizationId new = Tenant.organizationId old :=
  (congrArg ScriptRepo.organizationId became.1).trans rfl

theorem owner_test {old new : PerformanceTest} (became : History.TestBecomes old new) :
    Tenant.organizationId new = Tenant.organizationId old :=
  (congrArg PerformanceTest.organizationId became.1).trans rfl

theorem takes_getProject (bound : c.org = some org) :
    Takes (getProject id) c E fun found => Comp E fun s s' =>
      s = s' ∧ ∀ row ∈ found, Found .projects org id History.ProjectBecomes row s :=
  takes_get .projects (fun _ _ onward => onward (.project id)) bound rfl (fun _ => rfl)
    fun _ _ => owner_project

theorem takes_getPool (bound : c.org = some org) :
    Takes (getPool id) c E fun found => Comp E fun s s' =>
      s = s' ∧ ∀ row ∈ found, Found .pools org id History.PoolBecomes row s :=
  takes_get .pools (fun _ _ onward => onward (.pool id)) bound rfl (fun _ => rfl)
    fun _ _ => owner_pool

theorem takes_getScriptRepo (bound : c.org = some org) :
    Takes (getScriptRepo id) c E fun found => Comp E fun s s' =>
      s = s' ∧ ∀ row ∈ found, Found .scriptRepos org id History.ScriptRepoBecomes row s :=
  takes_get .scriptRepos (fun _ _ onward => onward (.scriptRepo id)) bound rfl (fun _ => rfl)
    fun _ _ => owner_scriptRepo

theorem takes_getTest (bound : c.org = some org) :
    Takes (getTest id) c E fun found => Comp E fun s s' =>
      s = s' ∧ ∀ row ∈ found, Found .tests org id History.TestBecomes row s :=
  takes_get .tests (fun _ _ onward => onward (.test id)) bound rfl (fun _ => rfl)
    fun _ _ => owner_test

theorem takes_archiveProject (bound : c.org = some org)
    (there : ∀ s s', E s s' → ∃ row, s' (.project id) = some row ∧ row.organizationId = org) :
    Takes (Transaction.archiveProject id) c E fun done => Comp E (ArchivesNow .projects org id
      (fun row => row.status = .archived) (archiveProject c.now) done) :=
  takes_archiving .projects (fun _ _ onward => onward (.project id)) bound rfl (fun _ => rfl) there
    (fun _ => rfl) fun _ _ became => ⟨owner_project became, fun archived =>
      decide_eq_true (became.2 (of_decide_eq_true archived))⟩

theorem takes_archivePool (bound : c.org = some org)
    (there : ∀ s s', E s s' → ∃ row, s' (.pool id) = some row ∧ row.organizationId = org) :
    Takes (Transaction.archivePool id) c E fun done => Comp E (ArchivesNow .pools org id
      (fun row => row.status = .archived) (archivePool c.now) done) :=
  takes_archiving .pools (fun _ _ onward => onward (.pool id)) bound rfl (fun _ => rfl) there
    (fun _ => rfl) fun _ _ became => ⟨owner_pool became,
      fun archived => decide_eq_true (became.2 (of_decide_eq_true archived))⟩

theorem takes_archiveScriptRepo (bound : c.org = some org)
    (there : ∀ s s', E s s' → ∃ row, s' (.scriptRepo id) = some row ∧ row.organizationId = org) :
    Takes (Transaction.archiveScriptRepo id) c E fun done => Comp E (ArchivesNow .scriptRepos org id
      (fun row => row.status = .archived) (archiveScriptRepo c.now) done) :=
  takes_archiving .scriptRepos (fun _ _ onward => onward (.scriptRepo id)) bound rfl
    (fun _ => rfl) there (fun _ => rfl) fun _ _ became =>
      ⟨owner_scriptRepo became, fun archived =>
        decide_eq_true (became.2 (of_decide_eq_true archived))⟩

theorem takes_archiveTest (bound : c.org = some org)
    (there : ∀ s s', E s s' → ∃ row, s' (.test id) = some row ∧ row.organizationId = org) :
    Takes (Transaction.archiveTest id) c E fun done => Comp E (ArchivesNow .tests org id
      (fun row => row.status = .archived) (archiveTest c.now) done) :=
  takes_archiving .tests (fun _ _ onward => onward (.test id)) bound rfl (fun _ => rfl) there
    (fun _ => rfl) fun _ _ became => ⟨owner_test became,
      fun archived => decide_eq_true (became.2.1 (of_decide_eq_true archived))⟩

end Plimsoll.Effects
