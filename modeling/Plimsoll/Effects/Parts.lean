import Plimsoll.Effects.Statements
import Plimsoll.TargetPolicy.History

/-!
What a transaction may rely on beside the rows that it has written: the plans and the
rules of a test are guarded by the lock of the test, and the version of a policy by its
entry in the unique index.
-/

namespace Plimsoll.Effects

open Python Contracts Transaction
open Database (Write RowLock Setting Statement UniqueKey byKey byKey_eq_some_iff)
open History (Row rowAt written InPlace)
open Relation (Comp)
open Sql.Isolation (Takes.pure Takes.raise Takes.bind Takes.execute)

variable {α : Type} {c : Setting} {E : Transition} {org id testId : Uuid}

/-! ## Credentials -/

/-- What the deletion of a credential has found and written. -/
theorem deleteCredential_ok {d : Database} {done : Bool}
    (ok : (Database.execute (.deleteCredential id) c d).1 = .ok done) :
    done = false ∧ (Database.execute (.deleteCredential id) c d).2 = [] ∨
      ∃ old, byKey c d.credentials id = some old ∧ done = true ∧
        (Database.execute (.deleteCredential id) c d).2 = [.deleteCredential old.id] := by
  rw [Database.execute] at ok ⊢
  split at ok
  · exact Or.inl ⟨(Except.ok.inj ok).symm, rfl⟩
  · rename_i old found
    simp only [found]
    split at ok
    · cases ok
    · rename_i unused
      right
      rw [if_neg unused]
      exact ⟨old, rfl, (Except.ok.inj ok).symm, rfl⟩

/-- A credential is deleted, unless none is found. -/
def Deletes (org id : Uuid) : Bool → Transition
  | false => Eq
  | true => fun s s' => ∃ old, s (.credential id) = some old ∧ old.organizationId = org ∧
      s' = put s (.deleteCredential id)

theorem takes_deleteCredential (bound : c.org = some org) :
    Takes (deleteCredential id) c E fun done => Comp E (Deletes org id done) := by
  refine takes_checked rfl fun s₀ d d' done _ inPlace agree ok => ?_
  rcases deleteCredential_ok ok with ⟨rfl, silent⟩ | ⟨old, found, rfl, wrote⟩
  · rw [silent]
    rfl
  · obtain ⟨there, sees⟩ := byKey_eq_some_iff.mp found
    obtain rfl : old.id = id := inPlace (.credential id) old there
    rw [wrote] at agree ⊢
    refine ⟨old, ?_, Option.some.inj (sees.symm.trans bound), store_put _ _⟩
    exact (agree _ (List.mem_singleton_self _)).symm.trans there

/-! ## The parts of a test -/

theorem parts_put {s s' : Store} (same : parts testId s = parts testId s') (write : Write) :
    parts testId (put s write) = parts testId (put s' write) := by
  have row (lock : RowLock) : put s write lock = put s' write lock ∨
      put s write lock = s lock ∧ put s' write lock = s' lock := by
    by_cases here : lock = write.lock
    · subst here
      exact Or.inl ((Function.update_self ..).trans (Function.update_self ..).symm)
    · exact Or.inr ⟨Function.update_of_ne here .., Function.update_of_ne here ..⟩
  obtain ⟨plans, rules⟩ := Prod.mk.inj same
  refine Prod.ext (funext fun id => ?_) (funext fun id => ?_)
  · rcases row (.plan id) with equal | ⟨left, right⟩
    · exact congrArg (Option.filter _) equal
    · change Option.filter _ (put s write (.plan id)) = Option.filter _ (put s' write (.plan id))
      rw [left, right]
      exact congrFun plans id
  · rcases row (.rule id) with equal | ⟨left, right⟩
    · exact congrArg (Option.filter _) equal
    · change Option.filter _ (put s write (.rule id)) = Option.filter _ (put s' write (.rule id))
      rw [left, right]
      exact congrFun rules id

theorem store_applyAll (writes : List Write) (d : Database) :
    store (postgres.applyAll writes d) = writes.foldl put (store d) :=
  History.rows.store_applyAll writes d

/-- What a transaction sees of the parts of a test is as they are committed. -/
theorem parts_applyAll {d d' : Database} (same : parts testId (store d) = parts testId (store d'))
    (writes : List Write) : parts testId (store (postgres.applyAll writes d)) =
      parts testId (store (postgres.applyAll writes d')) := by
  rw [store_applyAll, store_applyAll]
  induction writes generalizing d d' with
  | nil => exact same
  | cons write rest ih =>
      rw [List.foldl_cons, List.foldl_cons, ← store_put, ← store_put]
      refine ih ?_
      rw [store_put, store_put]
      exact parts_put same write

/-- The rows of a table that are parts of tests. -/
structure Part (ρ : Type) [Tenant ρ] extends Kind ρ where
  ofTest : ρ → Uuid
  delete : Uuid → Write
  at_write : ∀ id row s, at_ id (put s (write row)) = if id = key row then some row else at_ id s
  at_delete : ∀ id other s, at_ id (put s (delete other)) = if id = other then none else at_ id s
  of_parts : ∀ testId s s', parts testId s = parts testId s' → ∀ id,
    ((at_ id s).filter fun row => ofTest row = testId) =
      (at_ id s').filter fun row => ofTest row = testId

namespace Part

def plans : Part PerformanceTestPlan where
  toKind := .plans
  ofTest row := row.performanceTestId
  delete := .deletePlan
  at_write id row s := by
    split
    · rename_i same
      subst same
      exact Function.update_self ..
    · rename_i differs
      exact Function.update_of_ne (fun same => differs (RowLock.plan.inj same)) ..
  at_delete id other s := by
    split
    · rename_i same
      subst same
      exact Function.update_self ..
    · rename_i differs
      exact Function.update_of_ne (fun same => differs (RowLock.plan.inj same)) ..
  of_parts testId s s' same := congrFun (Prod.mk.inj same).1

def rules : Part SlaRule where
  toKind := .rules
  ofTest row := row.performanceTestId
  delete := .deleteRule
  at_write id row s := by
    split
    · rename_i same
      subst same
      exact Function.update_self ..
    · rename_i differs
      exact Function.update_of_ne (fun same => differs (RowLock.rule.inj same)) ..
  at_delete id other s := by
    split
    · rename_i same
      subst same
      exact Function.update_self ..
    · rename_i differs
      exact Function.update_of_ne (fun same => differs (RowLock.rule.inj same)) ..
  of_parts testId s s' same := congrFun (Prod.mk.inj same).2

variable {ρ : Type} [Tenant ρ] (part : Part ρ)

/-- The parts of a test. -/
def view (testId : Uuid) (s : Store) : Uuid → Option ρ := fun id =>
  (part.at_ id s).filter fun row => part.ofTest row = testId

/-- What is added is of one test. -/
theorem view_put {row : ρ} {s : Store} (vacant : part.at_ (part.key row) s = none)
    (other : testId ≠ part.ofTest row) :
    part.view testId (put s (part.write row)) = part.view testId s := by
  funext id
  rw [view, part.at_write]
  split
  · rename_i here
    subst here
    rw [view, vacant, Option.filter_some, if_neg (by simpa using other.symm)]
    rfl
  · rfl

/-- What is cleared is of one test. -/
theorem view_cleared {other : Uuid} {s s' : Store} (differs : testId ≠ other) (cleared : ∀ id,
    part.at_ id s' = (part.at_ id s).filter fun row =>
      !(decide (part.ofTest row = other) && decide (Tenant.organizationId row = org))) :
    part.view testId s' = part.view testId s := by
  funext id
  rw [view, view, cleared]
  cases part.at_ id s with
  | none => rfl
  | some row =>
      by_cases own : part.ofTest row = testId
      · rw [Option.filter_some, if_pos (by simp [own, differs])]
      · rw [Option.filter_filter]
        refine (Option.filter_eq_none_iff.mpr ?_).trans (Option.filter_eq_none_iff.mpr ?_).symm
        · rintro _ ⟨⟩
          simp [own]
        · rintro _ ⟨⟩
          simp [own]

theorem at_deleted (rows : List Uuid) (id : Uuid) (s : Store) :
    part.at_ id ((rows.map part.delete).foldl put s) =
      if id ∈ rows then none else part.at_ id s := by
  induction rows generalizing s with
  | nil => rfl
  | cons other rest ih =>
      rw [List.map_cons, List.foldl_cons, ih, part.at_delete]
      by_cases here : id = other
      · rw [if_pos here, ite_self, if_pos (List.mem_cons.mpr (Or.inl here))]
      · simp only [List.mem_cons, here, false_or, if_false]

/-- The parts of a test are gone, and nothing else is. -/
def Clears (org testId : Uuid) : Transition := fun s s' =>
  (∀ id, part.at_ id s' = (part.at_ id s).filter fun row =>
    !(decide (part.ofTest row = testId) && decide (Tenant.organizationId row = org))) ∧
  ∃ rows : List Uuid, s' = (rows.map part.delete).foldl put s

/-- The parts that were found are all that there are by then. -/
theorem clears {s s' : Store} {rows : List Uuid} (same : parts testId s = parts testId s')
    (found : ∀ id, id ∈ rows ↔ ∃ row, part.at_ id s = some row ∧ part.ofTest row = testId ∧
      Tenant.organizationId row = org) :
    part.Clears org testId s' ((rows.map part.delete).foldl put s') := by
  refine ⟨fun id => ?_, rows, rfl⟩
  have guarded (row : ρ) (ofTest : part.ofTest row = testId) :
      part.at_ id s = some row ↔ part.at_ id s' = some row := by
    have equal := part.of_parts testId s s' same id
    constructor
    · intro there
      rw [there, Option.filter_some, if_pos (decide_eq_true ofTest)] at equal
      exact (Option.filter_eq_some_iff.mp equal.symm).1
    · intro there
      rw [there, Option.filter_some, if_pos (decide_eq_true ofTest)] at equal
      exact (Option.filter_eq_some_iff.mp equal).1
  rw [at_deleted]
  split
  · rename_i member
    obtain ⟨row, there, ofTest, owner⟩ := (found id).mp member
    rw [(guarded row ofTest).mp there, Option.filter_some, if_neg (by simp [ofTest, owner])]
  · rename_i absent
    cases there : part.at_ id s' with
    | none => rfl
    | some row =>
        rw [Option.filter_some, if_pos]
        rw [Bool.not_eq_true', Bool.and_eq_false_iff, decide_eq_false_iff_not,
          decide_eq_false_iff_not, ← not_and_or]
        rintro ⟨ofTest, owner⟩
        exact absent ((found id).mpr ⟨row, (guarded row ofTest).mpr there, ofTest, owner⟩)

/-- The deletion of the parts of a test whose row has been written. -/
theorem takes_clearing {s : Statement} {result : s.Answer → α} (bound : c.org = some org)
    (same : Database.rebind s c = c)
    (executed : ∀ d, (Database.execute s c d).2 = (((Database.visible c (part.table d)).filter
      fun row => part.ofTest row = testId).map part.key).map part.delete)
    (changed : ∀ s s', E s s' → s (.test testId) ≠ s' (.test testId)) :
    Takes (Sql.Program.execute s fun answer => pure (result answer)) c E
      fun _ => Comp E (part.Clears org testId) := by
  refine Takes.execute (fun _ => Comp E (part.Clears org testId)) same
    (fun d writes makes d' stable => ?_) fun _ => Takes.pure fun _ _ made => made
  have effect := makes.effect d .refl
  obtain ⟨test, member, lock⟩ :=
    @Sql.Isolation.locked_of_ne _ isolation _ _ (.test testId) (changed _ _ effect)
  have guarded : parts testId (store d) = parts testId (store d') := by
    have kept := (stable.same test (List.mem_append_left _ member)).2
    rw [show postgres.lock test = .test testId from lock] at kept
    exact kept
  have views := parts_applyAll guarded writes
  have inPlace := (makes.onward d .refl).1
  refine ⟨_, makes.effect d' (Sql.Isolation.stable_left stable), ?_⟩
  change part.Clears org testId (store (postgres.applyAll writes d'))
    (store (postgres.applyAll (Database.execute s c _).2 (postgres.applyAll writes d')))
  rw [executed, store_applyAll _ (postgres.applyAll writes d')]
  refine part.clears views fun id => ?_
  constructor
  · intro member
    obtain ⟨row, found, rfl⟩ := List.mem_map.mp member
    obtain ⟨visible, ofTest⟩ := List.mem_filter.mp found
    obtain ⟨key, there, sees⟩ := Database.mem_visible.mp visible
    have own := part.inPlace _ inPlace key row there
    subst own
    exact ⟨row, (part.at_store _ _).trans there, of_decide_eq_true ofTest,
      Option.some.inj (sees.symm.trans bound)⟩
  · rintro ⟨row, there, ofTest, owner⟩
    rw [part.at_store] at there
    refine List.mem_map.mpr ⟨row, List.mem_filter.mpr ⟨Database.mem_visible.mpr ⟨id, there, ?_⟩,
      decide_eq_true ofTest⟩, part.inPlace _ inPlace id row there⟩
    exact bound.trans (congrArg some owner.symm)

end Part

/-- Where none of the writes is, the rows stay. -/
theorem put_other {writes : List Write} {lock : RowLock} (s : Store)
    (other : ∀ write ∈ writes, lock ≠ write.lock) : writes.foldl put s lock = s lock := by
  induction writes generalizing s with
  | nil => rfl
  | cons write rest ih =>
      rw [List.foldl_cons, ih _ fun write' member => other write' (List.mem_cons_of_mem _ member)]
      exact Function.update_of_ne (other write List.mem_cons_self) ..

theorem takes_deletePlans (bound : c.org = some org)
    (changed : ∀ s s', E s s' → s (.test testId) ≠ s' (.test testId)) :
    Takes (deletePlans testId) c E fun _ => Comp E (ClearsPlans org testId) := by
  refine (Part.plans.takes_clearing (s := .deletePlans testId) bound rfl (fun d => ?_)
    changed).weaken ?_
  · rw [List.map_map]
    rfl
  · rintro a s s'' ⟨s', before, at_, ids, rfl⟩
    refine ⟨s', before, funext fun lock => ?_⟩
    cases lock with
    | plan id => exact at_ id
    | _ =>
        refine put_other s' fun write member => ?_
        obtain ⟨id, -, rfl⟩ := List.mem_map.mp member
        exact RowLock.noConfusion

theorem takes_deleteRules (bound : c.org = some org)
    (changed : ∀ s s', E s s' → s (.test testId) ≠ s' (.test testId)) :
    Takes (deleteRules testId) c E fun _ => Comp E (ClearsRules org testId) := by
  refine (Part.rules.takes_clearing (s := .deleteRules testId) bound rfl (fun d => ?_)
    changed).weaken ?_
  · rw [List.map_map]
    rfl
  · rintro a s s'' ⟨s', before, at_, ids, rfl⟩
    refine ⟨s', before, funext fun lock => ?_⟩
    cases lock with
    | rule id => exact at_ id
    | _ =>
        refine put_other s' fun write member => ?_
        obtain ⟨id, -, rfl⟩ := List.mem_map.mp member
        exact RowLock.noConfusion

/-- The insertion of a collection. -/
theorem takes_insertAll {σ : Type} {insert : Uuid → σ → Transaction Unit}
    {write : Uuid → σ → Write} (each : ∀ E id spec,
      Takes (insert id spec) c E fun _ => Comp E (Adds (write id spec))) (specs : List σ) :
    Takes (PerformanceTests.insertAll insert specs) c E fun _ =>
      Comp E (AddsAll write specs) := by
  induction specs generalizing E with
  | nil => exact Takes.pure fun s s' made => ⟨s', made, rfl⟩
  | cons spec rest ih =>
      refine Takes.bind takes_uuid4 fun id => Takes.bind (each E id spec) fun _ => ih.weaken ?_
      rintro a s s'' ⟨s₂, ⟨s₁, before, adds⟩, later⟩
      exact ⟨s₁, before, id, s₂, adds, later⟩

theorem takes_replacePlans {plans : List TestPlanSpec} (bound : c.org = some org)
    (changed : ∀ s s', E s s' → s (.test testId) ≠ s' (.test testId)) :
    Takes (PerformanceTests.replacePlans org testId plans) c E fun _ =>
      Comp E (ReplacesPlans org testId plans) := by
  refine Takes.bind (takes_deletePlans bound changed) fun _ =>
    (takes_insertAll (fun _ _ _ => takes_insertPlan) plans).weaken ?_
  rintro a s s'' ⟨s₂, ⟨s₁, before, clears⟩, adds⟩
  exact ⟨s₁, before, s₂, clears, adds⟩

theorem takes_replaceSlaRules {rules : List SlaRuleSpec} (bound : c.org = some org)
    (changed : ∀ s s', E s s' → s (.test testId) ≠ s' (.test testId)) :
    Takes (PerformanceTests.replaceSlaRules org testId rules) c E fun _ =>
      Comp E (ReplacesRules org testId rules) := by
  refine Takes.bind (takes_deleteRules bound changed) fun _ =>
    (takes_insertAll (fun _ _ _ => takes_insertRule) rules).weaken ?_
  rintro a s s'' ⟨s₂, ⟨s₁, before, clears⟩, adds⟩
  exact ⟨s₁, before, s₂, clears, adds⟩

/-! ## Versions -/

theorem takes_versionByCommit {repoId : Uuid} {sha planPath : String} (bound : c.org = some org) :
    Takes (versionByCommit repoId sha planPath) c E fun found => Comp E fun s s' =>
      s = s' ∧ ∀ row ∈ found, ∃ id, s (.scriptVersion id) = some row ∧ row.organizationId = org ∧
        row.scriptRepoId = repoId ∧ row.commitSha = sha ∧ row.planPath = planPath := by
  refine takes_statement rfl fun s₀ d d' _ _ onward _ => ⟨rfl, fun row member => ?_⟩
  have found : (Database.visible c d.scriptVersions).find? (fun row =>
      row.scriptRepoId = repoId ∧ row.commitSha = sha ∧ row.planPath = planPath) = some row :=
    member
  obtain ⟨id, there, sees⟩ := Database.mem_visible.mp (List.mem_of_find?_eq_some found)
  obtain ⟨row', there', rfl⟩ := onward (.scriptVersion id) row there
  have like := List.find?_some found
  exact ⟨id, there', Option.some.inj (sees.symm.trans bound), of_decide_eq_true like⟩

/-! ## Policies -/

theorem foldr_max_cases (xs : List Nat) :
    (∀ x ∈ xs, x ≤ xs.foldr max 0) ∧ (xs.foldr max 0 = 0 ∨ xs.foldr max 0 ∈ xs) := by
  induction xs with
  | nil => simp
  | cons x rest ih =>
      obtain ⟨bounded, reached⟩ := ih
      rw [List.foldr_cons]
      refine ⟨fun y member => ?_, ?_⟩
      · rcases List.mem_cons.mp member with rfl | later
        · exact le_max_left ..
        · exact (bounded y later).trans (le_max_right ..)
      · rcases max_choice x (rest.foldr max 0) with here | below
        · rw [here]
          exact Or.inr List.mem_cons_self
        · rw [below]
          exact reached.imp_right (List.mem_cons_of_mem x)

/-- What `insert_next_version` selects comes next on its snapshot. -/
theorem isNext_nextPolicyVersion (bound : c.org = some org) (d : Database) :
    IsNext org (d.nextPolicyVersion c) (store d) := by
  obtain ⟨bounded, reached⟩ := foldr_max_cases
    ((Database.visible c d.targetPolicies).map TargetPolicyRow.version)
  refine ⟨fun id row there owner => Nat.lt_succ_of_le (bounded _ (List.mem_map_of_mem ?_)), ?_⟩
  · exact Database.mem_visible.mpr ⟨id, there, bound.trans (congrArg some owner.symm)⟩
  · rcases reached with none_ | last
    · exact Or.inl (congrArg (· + 1) none_)
    · obtain ⟨row, member, version⟩ := List.mem_map.mp last
      obtain ⟨id, there, sees⟩ := Database.mem_visible.mp member
      exact Or.inr ⟨id, row, there, Option.some.inj (sees.symm.trans bound),
        congrArg (· + 1) version⟩

section

variable {row : TargetPolicyRow} {d d' seen : Database} {writes : List Write}

theorem store_inserted (row : TargetPolicyRow) (d : Database) :
    store (postgres.applyAll (TargetPolicy.inserted row) d) = put (store d) (.targetPolicy row) :=
  store_put (.targetPolicy row) d

/-- If nobody has taken a version, it still comes next, and does so as long as its entry is
held. -/
theorem isNext_of_inserted (awaited : Awaited row.organizationId row.version (store d))
    (view : store d = store seen)
    (vacant : row.version ∉ TargetPolicy.versions row.organizationId seen)
    (stable : isolation.rely.Stable (writes ++ TargetPolicy.inserted row) d d') :
    IsNext row.organizationId row.version (store d') := by
  have next : IsNext row.organizationId row.version (store d) := by
    refine awaited.resolve_right ?_
    rintro ⟨id, other, there, owner, taken⟩
    rw [view] at there
    exact vacant (List.mem_map.mpr ⟨other, Database.mem_rowsOf.mpr ⟨id, there, owner⟩, taken⟩)
  exact (stable.same (.entry (.policyVersion row.organizationId row.version))
    (List.mem_append_right _ (List.mem_cons_of_mem _ (List.mem_singleton_self _)))).2 next

end

/-- The next version is inserted: if others have taken it meanwhile, the insertion fails. -/
theorem takes_insertNextPolicy {row : Nat → Timestamp → TargetPolicyRow}
    (bound : c.org = some org) (owner : ∀ version now, (row version now).organizationId = org)
    (versioned : ∀ version now, (row version now).version = version) :
    Takes (insertNextPolicy row) c Eq fun a s s' => ∃ version,
      IsNext org version s ∧ a = row version c.now ∧ Adds (.targetPolicy a) s s' := by
  refine Takes.execute (fun version s s' => s = s' ∧ Awaited org version s) rfl
    (fun d writes makes d' stable => ?_) fun version => ?_
  · have view : store d = store (postgres.applyAll writes d) := makes.effect d .refl
    refine ⟨makes.effect d' (Sql.Isolation.stable_left stable), ?_⟩
    have next := isNext_nextPolicyVersion bound (postgres.applyAll writes d)
    rw [← view] at next
    exact (stable.evolves makes.sound).2.2.2 org _ next
  · refine Takes.execute (fun answer s s' => ∀ a, answer = .ok a → ∃ version,
      IsNext org version s ∧ a = row version c.now ∧ Adds (.targetPolicy a) s s')
      rfl (fun d writes makes d' stable a ok => ?_) fun answer => ?_
    · obtain ⟨view, awaited⟩ := makes.effect d .refl
      have view' := (makes.effect d' (Sql.Isolation.stable_left stable)).1
      obtain ⟨rfl, free, vacant, wrote⟩ := TargetPolicy.insertPolicy_ok ok
      rw [show (postgres.execute _ c _).2 = _ from wrote] at stable ⊢
      have next : IsNext (row version c.now).organizationId (row version c.now).version
          (store d') := by
        refine isNext_of_inserted ?_ view vacant stable
        rw [owner, versioned]
        exact awaited
      rw [owner, versioned] at next
      have held := (stable.same (.targetPolicy (row version c.now))
        (List.mem_append_right _ List.mem_cons_self)).1
      refine ⟨version, next, rfl, ?_, ?_⟩
      · exact held.symm.trans ((congrFun view (.targetPolicy _)).trans free)
      · exact (store_inserted _ _).trans (congrArg (put · _) view'.symm)
    · cases answer with
      | error fault => exact Takes.raise _
      | ok a => exact Takes.pure fun _ _ made => made a rfl

end Plimsoll.Effects
