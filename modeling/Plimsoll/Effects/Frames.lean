import Plimsoll.Effects.Parts

/-!
What the effects of the operations leave alone, and what they leave to the holders of
locks: the parts of a test change with its row, and the policies of an organisation grow
by the next version.
-/

namespace Plimsoll.Effects

open Python Contracts
open Database (Write RowLock UniqueKey)
open History (Row rowAt written InPlace)
open Relation (Comp)

/-! ## Frames -/

/-- These rows stay. -/
def Leaves (these : RowLock → Prop) : Transition := fun s s' =>
  ∀ lock, these lock → s' lock = s lock

section

variable {these : RowLock → Prop} {s s' s'' : Store}

theorem Leaves.refl : Leaves these s s := fun _ _ => rfl

theorem Leaves.trans (first : Leaves these s s') (second : Leaves these s' s'') :
    Leaves these s s'' :=
  fun lock here => (second lock here).trans (first lock here)

theorem leaves_put {write : Write} (other : ¬ these write.lock) : Leaves these s (put s write) := by
  intro lock here
  refine Function.update_of_ne (fun same => ?_) ..
  subst same
  exact other here

theorem leaves_adds {write : Write} (other : ¬ these write.lock) (adds : Adds write s s') :
    Leaves these s s' := by
  rw [adds.2]
  exact leaves_put other

theorem leaves_tells {principal : AccessClaims} {action entityType : String} {entityId : Uuid}
    {metadata : Option (List (String × Detail))} (other : ∀ id, ¬ these (.audit id))
    (tells : Tells principal action entityType entityId metadata s s') : Leaves these s s' := by
  obtain ⟨id, adds⟩ := tells
  refine leaves_adds ?_ adds
  exact other id

theorem leaves_addsAll {σ : Type} {write : Uuid → σ → Write} {specs : List σ}
    (other : ∀ id spec, ¬ these (write id spec).lock) (adds : AddsAll write specs s s') :
    Leaves these s s' := by
  induction specs generalizing s with
  | nil =>
      obtain rfl : s = s' := adds
      exact .refl
  | cons spec rest ih =>
      obtain ⟨id, s₁, first, later⟩ := adds
      exact (leaves_adds (other id spec) first).trans (ih later)

theorem leaves_replacesPlans {org testId : Uuid} {plans : List TestPlanSpec}
    (other : ∀ id, ¬ these (.plan id)) (replaces : ReplacesPlans org testId plans s s') :
    Leaves these s s' := by
  obtain ⟨s₁, rfl, adds⟩ := replaces
  refine Leaves.trans (fun lock here => ?_) (leaves_addsAll (fun id spec => ?_) adds)
  · cases lock with
    | plan id => exact absurd here (other id)
    | _ => rfl
  · exact other id

theorem leaves_replacesRules {org testId : Uuid} {rules : List SlaRuleSpec}
    (other : ∀ id, ¬ these (.rule id)) (replaces : ReplacesRules org testId rules s s') :
    Leaves these s s' := by
  obtain ⟨s₁, rfl, adds⟩ := replaces
  refine Leaves.trans (fun lock here => ?_) (leaves_addsAll (fun id spec => ?_) adds)
  · cases lock with
    | rule id => exact absurd here (other id)
    | _ => rfl
  · exact other id

theorem leaves_whenGiven {σ : Type} {value : Option σ} {replaces : σ → Transition}
    (leaves : ∀ given, replaces given s s' → Leaves these s s')
    (changes : WhenGiven value replaces s s') : Leaves these s s' := by
  cases value with
  | none =>
      obtain rfl : s = s' := changes
      exact .refl
  | some given => exact leaves given changes

section

variable {ρ : Type} {org : Uuid} {at_ : Store → Option ρ} {write : ρ → Write} {shown : ρ → Prop}
  {tells : ρ → Transition}

theorem leaves_creates {row : Uuid → Timestamp → ρ} (creates : Creates write row shown tells s s')
    (other : ∀ row, ¬ these (write row).lock)
    (told : ∀ row s s', tells row s s' → Leaves these s s') : Leaves these s s' := by
  obtain ⟨id, now, -, s₁, adds, after⟩ := creates
  exact (leaves_adds (other _) adds).trans (told _ _ _ after)

theorem leaves_changes [Tenant ρ] {may : ρ → Prop} {change : Timestamp → ρ → ρ}
    (changes : Changes org at_ write may change shown tells s s')
    (other : ∀ row, ¬ these (write row).lock)
    (told : ∀ row s s', tells row s s' → Leaves these s s') : Leaves these s s' := by
  obtain ⟨old, now, -, -, -, -, after⟩ := changes
  exact (leaves_put (other _)).trans (told _ _ _ after)

theorem leaves_archives [Tenant ρ] {archived : ρ → Bool} {archive : Timestamp → ρ → ρ}
    {tells : Transition} (archives : Archives org at_ write archived archive tells s s')
    (other : ∀ row, ¬ these (write row).lock) (told : ∀ s s', tells s s' → Leaves these s s') :
    Leaves these s s' := by
  rcases archives with changes | ⟨rfl, -⟩
  · exact leaves_changes changes other fun _ => told
  · exact .refl

end

end

/-! ## Parts -/

/-- The plans and the rules of other tests stay. -/
def Beside (testId : Uuid) : Transition := fun s s' => ∀ id, id ≠ testId → parts id s' = parts id s

section

variable {testId org : Uuid} {s s' s'' : Store}

theorem Beside.refl : Beside testId s s := fun _ _ => rfl

theorem Beside.trans (first : Beside testId s s') (second : Beside testId s' s'') :
    Beside testId s s'' :=
  fun id other => (second id other).trans (first id other)

theorem beside_addsAll {σ : Type} {write : Uuid → σ → Write} {specs : List σ}
    (each : ∀ id spec s s', Adds (write id spec) s s' → Beside testId s s')
    (adds : AddsAll write specs s s') : Beside testId s s' := by
  induction specs generalizing s with
  | nil =>
      obtain rfl : s = s' := adds
      exact .refl
  | cons spec rest ih =>
      obtain ⟨id, s₁, first, later⟩ := adds
      exact (each id spec s s₁ first).trans (ih later)

theorem beside_replacesPlans {plans : List TestPlanSpec}
    (replaces : ReplacesPlans org testId plans s s') : Beside testId s s' := by
  obtain ⟨s₁, cleared, adds⟩ := replaces
  have clears : Beside testId s s₁ := by
    intro id other
    have plans : Part.plans.view id s₁ = Part.plans.view id s :=
      Part.plans.view_cleared other fun planId => congrFun cleared (.plan planId)
    refine Prod.ext plans ?_
    rw [cleared]
    rfl
  refine clears.trans (beside_addsAll (fun id spec s s' => ?_) adds)
  rintro ⟨vacant, rfl⟩ other differs
  exact Prod.ext (Part.plans.view_put vacant differs) rfl

theorem beside_replacesRules {rules : List SlaRuleSpec}
    (replaces : ReplacesRules org testId rules s s') : Beside testId s s' := by
  obtain ⟨s₁, cleared, adds⟩ := replaces
  have clears : Beside testId s s₁ := by
    intro id other
    have rules : Part.rules.view id s₁ = Part.rules.view id s :=
      Part.rules.view_cleared other fun ruleId => congrFun cleared (.rule ruleId)
    refine Prod.ext ?_ rules
    rw [cleared]
    rfl
  refine clears.trans (beside_addsAll (fun id spec s s' => ?_) adds)
  rintro ⟨vacant, rfl⟩ other differs
  exact Prod.ext rfl (Part.rules.view_put vacant differs)

theorem beside_whenGiven {σ : Type} {value : Option σ} {replaces : σ → Transition}
    (beside : ∀ given, replaces given s s' → Beside testId s s')
    (changes : WhenGiven value replaces s s') : Beside testId s s' := by
  cases value with
  | none =>
      obtain rfl : s = s' := changes
      exact .refl
  | some given => exact beside given changes

end

/-! ## What the locks keep -/

/-- Rows that locks of others guard. -/
def Guarded : RowLock → Prop
  | .plan _ => True
  | .rule _ => True
  | .targetPolicy _ => True
  | _ => False

/-- The next version of an organisation's policies comes, and nothing else of them. -/
def Succeeds (row : TargetPolicyRow) : Transition := fun s s' =>
  IsNext row.organizationId row.version s ∧ s (.targetPolicy row.id) = none ∧
    ∀ id, s' (.targetPolicy id) = put s (.targetPolicy row) (.targetPolicy id)

/-- The parts of a test change with its row, and policies come in their order. -/
structure Orderly (s s' : Store) : Prop where
  tests : (∀ id row, s (.test id) = some row → row.id = id) →
    (∀ id, parts id s' = parts id s) ∨
      ∃ testId, s (.test testId) ≠ s' (.test testId) ∧ Beside testId s s'
  policies : (∀ id, s' (.targetPolicy id) = s (.targetPolicy id)) ∨ ∃ row, Succeeds row s s'

section

variable {s s' : Store} {org : Uuid} {version : Nat}

theorem parts_of_leaves (leaves : Leaves Guarded s s') (id : Uuid) : parts id s' = parts id s := by
  unfold parts
  simp only [leaves (.plan _) trivial, leaves (.rule _) trivial]

theorem orderly_of_leaves (leaves : Leaves Guarded s s') : Orderly s s' where
  tests _ := Or.inl (parts_of_leaves leaves)
  policies := Or.inl fun id => leaves (.targetPolicy id) trivial

/-- Only policies count for the version that comes next. -/
theorem IsNext.of_same (next : IsNext org version s)
    (same : ∀ id, s' (.targetPolicy id) = s (.targetPolicy id)) : IsNext org version s' := by
  refine ⟨fun id row there => next.1 id row ((same id).symm.trans there), next.2.imp_right ?_⟩
  rintro ⟨id, row, there, rest⟩
  exact ⟨id, row, (same id).trans there, rest⟩

theorem Succeeds.there {row : TargetPolicyRow} (succeeds : Succeeds row s s') :
    s' (.targetPolicy row.id) = some row :=
  (succeeds.2.2 row.id).trans (Function.update_self ..)

theorem Succeeds.other {row : TargetPolicyRow} {id : Uuid} (succeeds : Succeeds row s s')
    (differs : id ≠ row.id) : s' (.targetPolicy id) = s (.targetPolicy id) :=
  (succeeds.2.2 id).trans
    (Function.update_of_ne (fun same => differs (RowLock.targetPolicy.inj same)) ..)

theorem Succeeds.stays {row old : TargetPolicyRow} {id : Uuid} (succeeds : Succeeds row s s')
    (there : s (.targetPolicy id) = some old) : s' (.targetPolicy id) = some old := by
  refine (succeeds.other fun same => ?_).trans there
  subst same
  rw [succeeds.2.1] at there
  cases there

/-- The policies of other organisations do not count. -/
theorem IsNext.of_succeeds {row : TargetPolicyRow} (next : IsNext org version s)
    (succeeds : Succeeds row s s') (other : row.organizationId ≠ org) : IsNext org version s' := by
  refine ⟨fun id found there owner => ?_, next.2.imp_right ?_⟩
  · by_cases here : id = row.id
    · subst here
      rw [succeeds.there] at there
      cases there
      exact absurd owner other
    · exact next.1 id found ((succeeds.other here).symm.trans there) owner
  · rintro ⟨id, old, there, rest⟩
    exact ⟨id, old, succeeds.stays there, rest⟩

theorem Orderly.evolves (orderly : Orderly s s') : evolves s s' := by
  rcases orderly.policies with same | ⟨row, succeeds⟩
  · exact ⟨fun id row there => (same id).trans there,
      fun org version next => Or.inl (next.of_same same)⟩
  · refine ⟨fun id old there => succeeds.stays there, fun org version next => ?_⟩
    by_cases owner : row.organizationId = org
    · subst owner
      exact Or.inr ⟨row.id, row, succeeds.there, rfl, succeeds.1.unique next⟩
    · exact Or.inl (next.of_succeeds succeeds owner)

/-- A policy was there, or it has been written. -/
theorem policy_written {d : Database} {writes : List Write} {id : Uuid} {row : TargetPolicyRow}
    (there : store (postgres.applyAll writes d) (.targetPolicy id) = some row) :
    store d (.targetPolicy id) = some row ∨ .targetPolicy row ∈ writes := by
  have came : ∀ row, store (postgres.applyAll writes d) (.targetPolicy id) = some row →
      store d (.targetPolicy id) = some row ∨ .targetPolicy row ∈ writes := by
    refine @Sql.Rows.row_applyAll _ History.rows (fun lock => match lock with
      | .targetPolicy id => fun found => ∀ row, found = some row →
          store d (.targetPolicy id) = some row ∨ .targetPolicy row ∈ writes
      | _ => fun _ => True) (.targetPolicy id) d writes (fun row there => Or.inl there)
        fun write member => ?_
    cases write with
    | targetPolicy new =>
        intro row same
        cases same
        exact Or.inr member
    | _ => trivial
  exact came row there

/-- What a transaction has not locked, it leaves to the holder of the lock. -/
theorem Orderly.keeps {d : Database} {writes : List Write} {lock : RowLock}
    (orderly : Orderly (store d) (store (postgres.applyAll writes d)))
    (inPlace : ∀ lock, InPlace lock (rowAt lock d)) (entered : Entered writes)
    (unlocked : lock ∉ writes.map Write.lock) :
    keeps lock (store d) (store (postgres.applyAll writes d)) := by
  unfold Effects.keeps
  split
  · rename_i id
    rcases orderly.tests fun id => inPlace (.test id) with same | ⟨testId, changed, beside⟩
    · exact (same id).symm
    · refine (beside id fun same => ?_).symm
      subst same
      obtain ⟨write, member, here⟩ := @Sql.Isolation.locked_of_ne _ isolation _ _ (.test id) changed
      exact unlocked (List.mem_map.mpr ⟨write, member, here⟩)
  · rename_i org version
    intro next
    rcases orderly.policies with same | ⟨row, succeeds⟩
    · exact next.of_same same
    · by_cases owner : row.organizationId = org
      · subst owner
        obtain rfl := succeeds.1.unique next
        rcases policy_written succeeds.there with before | member
        · rw [succeeds.2.1] at before
          cases before
        · exact absurd (List.mem_map.mpr ⟨_, entered row member, rfl⟩) unlocked
      · exact next.of_succeeds succeeds owner
  · trivial

end

/-! ## Operations -/

section

variable {s s₁ s' : Store} {principal : AccessClaims} {action entityType : String}
  {entityId : Uuid} {metadata : Option (List (String × Detail))}

/-- A test comes or changes, with its plans and its rules. -/
theorem orderly_of_test {row : PerformanceTest} {plans rules : Transition}
    (changed : (∀ id row, s (.test id) = some row → row.id = id) → row.id = entityId ∧
      s (.test entityId) ≠ some row)
    (replaces : Comp (Comp plans rules) (Tells principal action entityType entityId metadata)
      (put s (.test row)) s')
    (beside : ∀ s s', plans s s' ∨ rules s s' → Beside entityId s s')
    (leaves : ∀ these : RowLock → Prop, (∀ id, ¬ these (.plan id)) → (∀ id, ¬ these (.rule id)) →
      ∀ s s', plans s s' ∨ rules s s' → Leaves these s s') : Orderly s s' := by
  obtain ⟨s₃, ⟨s₂, plans, rules⟩, tells⟩ := replaces
  have stays (these : RowLock → Prop) (plan : ∀ id, ¬ these (.plan id))
      (rule : ∀ id, ¬ these (.rule id)) (audit : ∀ id, ¬ these (.audit id)) :
      Leaves these (put s (.test row)) s' :=
    ((leaves these plan rule _ _ (Or.inl plans)).trans
      (leaves these plan rule _ _ (Or.inr rules))).trans (leaves_tells audit tells)
  constructor
  · intro inPlace
    obtain ⟨rfl, changed⟩ := changed inPlace
    refine Or.inr ⟨row.id, fun same => changed ?_, ?_⟩
    · have kept : s' (.test row.id) = put s (.test row) (.test row.id) :=
        stays (fun lock => lock = .test row.id) (fun _ => RowLock.noConfusion)
          (fun _ => RowLock.noConfusion) (fun _ => RowLock.noConfusion) _ rfl
      exact same.trans (kept.trans (Function.update_self ..))
    · have one : Leaves Guarded s (put s (.test row)) := leaves_put not_false
      have put_ : Beside row.id s (put s (.test row)) := fun id _ => parts_of_leaves one id
      have told : Leaves Guarded s₃ s' := leaves_tells (fun _ => not_false) tells
      have tells : Beside row.id s₃ s' := fun id _ => parts_of_leaves told id
      exact ((put_.trans (beside _ _ (Or.inl plans))).trans (beside _ _ (Or.inr rules))).trans tells
  · refine Or.inl fun id => ?_
    have kept : s' (.targetPolicy id) = put s (.test row) (.targetPolicy id) :=
      stays (fun lock => lock = .targetPolicy id) (fun _ => RowLock.noConfusion)
        (fun _ => RowLock.noConfusion) (fun _ => RowLock.noConfusion) _ rfl
    exact kept.trans (Function.update_of_ne (fun same => RowLock.noConfusion same) ..)

end

/-- The tables that an operation writes. -/
def Touches (operation : Operation) : RowLock → Prop
  | .project _ => match operation with
    | .createProject _ | .updateProject .. | .archiveProject _ => True
    | _ => False
  | .pool _ => match operation with
    | .createPool _ | .updatePool .. | .archivePool _ => True
    | _ => False
  | .credential _ => match operation with
    | .createCredential _ | .deleteCredential _ => True
    | _ => False
  | .scriptRepo _ => match operation with
    | .createScriptRepo .. | .updateScriptRepo .. | .archiveScriptRepo _ => True
    | _ => False
  | .test _ => match operation with
    | .createTest .. | .updateTest .. | .archiveTest _ => True
    | _ => False
  | .plan _ | .rule _ => match operation with
    | .createTest .. | .updateTest .. => True
    | _ => False
  | .targetPolicy _ => match operation with
    | .replaceTargetPolicy _ => True
    | _ => False
  | .scriptVersion _ => match operation with
    | .pinVersion .. => True
    | _ => False
  | .audit _ => True
  | .family _ | .history _ | .entry _ => False

/-- An operation leaves the other tables alone. -/
theorem leaves_of_effect (dep : Deployment) {request : Request} {answer : Answer} {s s' : Store}
    (happens : effect dep request answer s s') :
    Leaves (¬ Touches request.operation ·) s s' := by
  obtain ⟨principal, operation⟩ := request
  have told {action entityType : String} {entityId : Uuid}
      {metadata : Option (List (String × Detail))} (s s' : Store)
      (tells : Tells principal action entityType entityId metadata s s') :
      Leaves (¬ Touches operation ·) s s' :=
    leaves_tells (fun _ untouched => untouched trivial) tells
  cases operation with
  | createProject body =>
      simp only [effect] at happens
      exact leaves_creates happens (fun _ untouched => untouched trivial) fun _ => told
  | updateProject id body =>
      by_cases unchanged : Projects.changedColumns body = []
      · simp only [effect, if_pos unchanged] at happens
        rw [← happens.1]
        exact .refl
      · simp only [effect, if_neg unchanged] at happens
        exact leaves_changes happens (fun _ untouched => untouched trivial) fun _ => told
  | archiveProject id => exact leaves_archives happens (fun _ untouched => untouched trivial) told
  | createPool body =>
      simp only [effect] at happens
      exact leaves_creates happens (fun _ untouched => untouched trivial) fun _ => told
  | updatePool id body =>
      by_cases unchanged : Pools.changedColumns body = []
      · simp only [effect, if_pos unchanged] at happens
        rw [← happens.1]
        exact .refl
      · simp only [effect, if_neg unchanged] at happens
        exact leaves_changes happens (fun _ untouched => untouched trivial) fun _ => told
  | archivePool id => exact leaves_archives happens (fun _ untouched => untouched trivial) told
  | createCredential body =>
      obtain ⟨cipher, nonce, -, -, creates⟩ := happens
      exact leaves_creates creates (fun _ untouched => untouched trivial) fun _ => told
  | deleteCredential id =>
      rcases happens with tells | ⟨old, -, -, tells⟩
      · exact told _ _ tells
      · refine Leaves.trans (leaves_put fun untouched => untouched ?_) (told _ _ tells)
        trivial
  | createScriptRepo projectId body =>
      simp only [effect] at happens
      exact leaves_creates happens (fun _ untouched => untouched trivial) fun _ => told
  | updateScriptRepo id body =>
      by_cases unchanged : ScriptRepos.changedColumns body = []
      · simp only [effect, if_pos unchanged] at happens
        rw [← happens.1]
        exact .refl
      · simp only [effect, if_neg unchanged] at happens
        exact leaves_changes happens (fun _ untouched => untouched trivial) fun _ => told
  | archiveScriptRepo id =>
      exact leaves_archives happens (fun _ untouched => untouched trivial) told
  | createTest projectId body =>
      obtain ⟨id, now, -, s₁, ⟨-, rfl⟩, s₃, ⟨s₂, plans, rules⟩, tells⟩ := happens
      refine Leaves.trans (leaves_put fun untouched => untouched ?_)
        (((leaves_replacesPlans (fun _ untouched => untouched trivial) plans).trans
          (leaves_replacesRules (fun _ untouched => untouched trivial) rules)).trans
            (told _ _ tells))
      trivial
  | updateTest id body =>
      obtain ⟨old, now, -, -, -, -, s₃, ⟨s₂, plans, rules⟩, tells⟩ := happens
      refine Leaves.trans (leaves_put fun untouched => untouched ?_)
        (((leaves_whenGiven (fun _ => leaves_replacesPlans fun _ untouched => untouched trivial)
            plans).trans
          (leaves_whenGiven (fun _ => leaves_replacesRules fun _ untouched => untouched trivial)
            rules)).trans (told _ _ tells))
      trivial
  | archiveTest id => exact leaves_archives happens (fun _ untouched => untouched trivial) told
  | replaceTargetPolicy allowlist =>
      obtain ⟨-, version, -, creates⟩ := happens
      exact leaves_creates creates (fun _ untouched => untouched trivial) fun _ => told
  | pinVersion repoId planPath ref candidate =>
      rcases happens with creates | ⟨rfl, -⟩
      · exact leaves_creates creates (fun _ untouched => untouched trivial) fun _ => told
      · exact .refl

theorem orderly_of_effect (dep : Deployment) (request : Request) (answer : Answer) (s s' : Store)
    (happens : effect dep request answer s s') : Orderly s s' := by
  have leaves := leaves_of_effect dep happens
  obtain ⟨principal, operation⟩ := request
  cases operation with
  | createTest projectId body =>
      obtain ⟨id, now, -, s₁, ⟨vacant, rfl⟩, replaces⟩ := happens
      refine orderly_of_test (fun _ => ⟨rfl, fun there => ?_⟩) replaces ?_ ?_
      · exact Option.some_ne_none _ (there.symm.trans vacant)
      · rintro s s' (plans | rules)
        · exact beside_replacesPlans plans
        · exact beside_replacesRules rules
      · rintro these plan rule s s' (plans | rules)
        · exact leaves_replacesPlans plan plans
        · exact leaves_replacesRules rule rules
  | updateTest id body =>
      obtain ⟨old, now, there, -, version, -, replaces⟩ := happens
      refine orderly_of_test (fun inPlace => ?_) replaces ?_ ?_
      · refine ⟨inPlace id old there, fun same => ?_⟩
        have counted : old.version + 1 = old.version :=
          congrArg PerformanceTest.version (Option.some.inj (same.symm.trans there))
        omega
      · rintro s s' (plans | rules)
        · exact beside_whenGiven (fun _ => beside_replacesPlans) plans
        · exact beside_whenGiven (fun _ => beside_replacesRules) rules
      · rintro these plan rule s s' (plans | rules)
        · exact leaves_whenGiven (fun _ => leaves_replacesPlans plan) plans
        · exact leaves_whenGiven (fun _ => leaves_replacesRules rule) rules
  | replaceTargetPolicy allowlist =>
      obtain ⟨-, version, next, id, now, -, s₁, ⟨vacant, rfl⟩, tells⟩ := happens
      have after : Leaves Guarded _ s' := leaves_tells (fun _ => not_false) tells
      constructor
      · refine fun _ => Or.inl fun id => (parts_of_leaves after id).trans ?_
        rfl
      · refine Or.inr ⟨TargetPolicy.policyRow principal allowlist id version now, next, vacant,
          fun id => after (.targetPolicy id) trivial⟩
  | _ =>
      refine orderly_of_leaves fun lock guarded => leaves lock ?_
      cases lock <;> first
        | exact not_false
        | exact absurd guarded not_false

end Plimsoll.Effects
