import Plimsoll.Patches

/-!
Statements of a transaction that runs alone behind the driver.
-/

namespace Plimsoll.Patches

open Python Contracts Transaction
open Database (Fault Setting Statement Write byKey rowsOf Keyed Appended)
open Sql (View)
open Sql.Program (Behind)
open ScriptRepos (record requireProject requireCredential)
open PerformanceTests (planSpecs ruleSpecs documentIn)

variable {jsonb : Json → Bool} {raises : Raised → Prop} {v : View postgres} {c : Setting}
  {d : Database} {e : Environment} {org : Uuid} {α : Type}

/-! ## Statements -/

/-- A statement that may fail and does not. -/
theorem behind_checked {s : Statement} {result : s.Answer → Except Fault α} {answer : s.Answer}
    {a : α} {writes : List Write} {post : α → View postgres → Prop}
    (executed : Database.execute s v.setting v.database = (answer, writes))
    (accepted : accepts jsonb s answer = true) (ok : result answer = .ok a)
    (after : post a ⟨Database.rebind s v.setting, postgres.applyAll writes v.database,
      v.environment⟩) :
    (Sql.Program.execute s fun x => checked (result x) : Transaction α).Behind (driver jsonb) raises
      post v := by
  have executed' : postgres.execute s v.setting v.database = (answer, writes) := executed
  refine Behind.execute ?_ ?_
  · rw [executed']
    exact accepted
  · rw [View.executed, executed', ok]
    exact after

/-- A statement that may fail, where nothing is said of what is raised. -/
theorem behind_any {s : Statement} {result : s.Answer → Except Fault α}
    {post : α → View postgres → Prop} (any : ∀ exc, raises exc)
    (after : ∀ a, result (Database.execute s v.setting v.database).1 = .ok a →
      post a (v.executed s)) :
    (Sql.Program.execute s fun x => checked (result x) : Transaction α).Behind (driver jsonb) raises
      post v := by
  rw [Behind]
  split
  · change (checked (result (Database.execute s v.setting v.database).1)).Behind _ _ _ _
    cases outcome : result (Database.execute s v.setting v.database).1 with
    | ok a => exact after a outcome
    | error fault => exact any _
  · exact any _

theorem behind_mapError {f : Raised → Raised} {p : Transaction α} {post : α → View postgres → Prop}
    (any : ∀ exc, raises exc) (behind : p.Behind (driver jsonb) raises post v) :
    (p.mapError f).Behind (driver jsonb) raises post v := by
  induction p generalizing v with
  | finished outcome =>
      cases outcome with
      | ok a => exact behind
      | error exc => exact any _
  | execute s next ih =>
      rw [Behind] at behind
      rw [Sql.Program.mapError_execute, Behind]
      split
      · rename_i accepted
        rw [if_pos accepted] at behind
        exact ih _ behind
      · exact any _
  | ask q next ih => exact ih _ behind

/-! ## Identifiers -/

/-- An identifier is drawn. -/
def drawn (e : Environment) : Environment := (e.answer .uuid4).2

theorem behind_uuid4 {post : Uuid → View postgres → Prop}
    (after : post (v.environment.uuids v.environment.uuidsDrawn)
      ⟨v.setting, v.database, drawn v.environment⟩) :
    uuid4.Behind (driver jsonb) raises post v := after

/-- The next identifiers to be drawn are not in a table. -/
def Unused {ρ : Type} (e : Environment) (table : Dict Uuid ρ) (n : Nat) : Prop :=
  ∀ i < n, table.get? (e.uuids (e.uuidsDrawn + i)) = none

/-- The next identifiers to be drawn differ. -/
def Distinct (e : Environment) (n : Nat) : Prop :=
  ∀ i j, i < j → j < n → e.uuids (e.uuidsDrawn + i) ≠ e.uuids (e.uuidsDrawn + j)

/-- The interpreter after so many identifiers. -/
structure Later (k : Nat) (e e' : Environment) : Prop where
  uuids : e'.uuids = e.uuids
  drawn : e'.uuidsDrawn = e.uuidsDrawn + k

theorem Later.refl (e : Environment) : Later 0 e e := ⟨rfl, rfl⟩

theorem Later.trans {e₁ e₂ e₃ : Environment} {k l : Nat} (first : Later k e₁ e₂)
    (second : Later l e₂ e₃) : Later (k + l) e₁ e₃ :=
  ⟨second.uuids.trans first.uuids, by rw [second.drawn, first.drawn, Nat.add_assoc]⟩

theorem later_drawn (e : Environment) : Later 1 e (drawn e) := ⟨rfl, rfl⟩

section

variable {ρ : Type} {table : Dict Uuid ρ} {e' : Environment} {k n : Nat}

theorem Unused.later (unused : Unused e table (k + n)) (later : Later k e e') :
    Unused e' table n := by
  intro i below
  rw [later.uuids, later.drawn, Nat.add_assoc]
  exact unused (k + i) (Nat.add_lt_add_left below k)

theorem Distinct.later (distinct : Distinct e (k + n)) (later : Later k e e') : Distinct e' n := by
  intro i j before below
  rw [later.uuids, later.drawn, Nat.add_assoc, Nat.add_assoc]
  exact distinct (k + i) (k + j) (Nat.add_lt_add_left before k) (Nat.add_lt_add_left below k)

theorem Unused.first (unused : Unused e table (1 + n)) : table.get? (e.uuids e.uuidsDrawn) = none :=
  unused 0 (by omega)

/-- Once an identifier is drawn and used, the others are still unused. -/
theorem Unused.set {row : ρ} (unused : Unused e table (1 + n)) (distinct : Distinct e (1 + n)) :
    Unused (drawn e) (table.set (e.uuids e.uuidsDrawn) row) n := by
  intro i below
  rw [Dict.get?_set, if_neg]
  · exact unused.later (later_drawn e) i below
  · intro same
    refine distinct 0 (1 + i) (by omega) (Nat.add_lt_add_left below 1) (same.trans ?_)
    change e.uuids (e.uuidsDrawn + 1 + i) = _
    rw [Nat.add_assoc]

theorem Fresh.plans (fresh : Fresh e d n) : Unused e d.plans n :=
  fun i below => (fresh.new i below).2.1

theorem Fresh.rules (fresh : Fresh e d n) : Unused e d.rules n :=
  fun i below => (fresh.new i below).2.2

theorem Fresh.auditLogs (fresh : Fresh e d n) : Unused e d.auditLogs n :=
  fun i below => (fresh.new i below).1

theorem Fresh.fewer (fresh : Fresh e d n) (fewer : k ≤ n) : Fresh e d k where
  distinct i j before below := fresh.distinct i j before (Nat.lt_of_lt_of_le below fewer)
  new i below := fresh.new i (Nat.lt_of_lt_of_le below fewer)

theorem Fresh.later (fresh : Fresh e d (k + n)) (later : Later k e e') : Fresh e' d n where
  distinct := Distinct.later fresh.distinct later
  new i below :=
    ⟨fresh.auditLogs.later later i below, fresh.plans.later later i below,
      fresh.rules.later later i below⟩

end

/-! ## Shared steps -/

/-- An audit row under a new identifier. -/
theorem behind_record {principal : AccessClaims} {action entityType : String} {entityId : Uuid}
    {metadata : Option (List (String × Detail))} {post : Unit → View postgres → Prop}
    (bound : v.setting.org = some principal.organizationId)
    (unused : Unused v.environment v.database.auditLogs 1)
    (after : ∀ auditLogs, post () ⟨v.setting, { v.database with auditLogs := auditLogs },
      drawn v.environment⟩) :
    (record principal action entityType entityId metadata).Behind (driver jsonb) raises post v := by
  refine Behind.bind (behind_uuid4 ?_)
  exact behind_checked (by exact Database.insert_free bound (unused 0 Nat.one_pos) rfl) rfl rfl
    (after _)

/-- An audit row, where nothing is said of what is raised. -/
theorem behind_record_any {principal : AccessClaims} {action entityType : String} {entityId : Uuid}
    {metadata : Option (List (String × Detail))} {post : Unit → View postgres → Prop}
    (any : ∀ exc, raises exc)
    (after : ∀ auditLogs, post () ⟨v.setting, { v.database with auditLogs := auditLogs },
      drawn v.environment⟩) :
    (record principal action entityType entityId metadata).Behind (driver jsonb) raises post v := by
  refine Behind.bind (behind_uuid4 (behind_any any fun _ inserted => ?_))
  obtain ⟨written, -⟩ := Database.insert_ok inserted
  rw [View.executed]
  change post () ⟨_, postgres.applyAll (Database.insert _ _ _ _ _ _).2 _, _⟩
  rw [written]
  exact after _

/-! ### What is required -/

/-- A statement that writes nothing. -/
theorem behind_read {s : Statement} {answer : s.Answer} {post : s.Answer → View postgres → Prop}
    (executed : Database.execute s v.setting v.database = (answer, []))
    (accepted : accepts jsonb s answer = true) (bound : Database.rebind s v.setting = v.setting)
    (after : post answer v) :
    (Sql.Program.execute s pure : Transaction s.Answer).Behind (driver jsonb) raises post v := by
  have executed' : postgres.execute s v.setting v.database = (answer, []) := executed
  refine Behind.execute ?_ ?_
  · rw [executed']
    exact accepted
  · rw [View.executed, executed']
    change post answer ⟨Database.rebind s v.setting, v.database, v.environment⟩
    rw [bound]
    exact after

section

variable (refused : ∀ error, raises (.plimsollError error))
include refused

theorem behind_requireProject {id : Uuid} {post : Project → View postgres → Prop}
    (after : ∀ row, byKey v.setting v.database.projects id = some row → post row v) :
    (requireProject id).Behind (driver jsonb) raises post v := by
  refine Behind.bind (behind_read rfl rfl rfl ?_)
  cases found : byKey v.setting v.database.projects id with
  | none => exact refused _
  | some row => exact after row found

theorem behind_requirePool {id : Uuid} {post : GeneratorPool → View postgres → Prop}
    (after : ∀ row, byKey v.setting v.database.pools id = some row → post row v) :
    (Pools.require id).Behind (driver jsonb) raises post v := by
  refine Behind.bind (behind_read rfl rfl rfl ?_)
  cases found : byKey v.setting v.database.pools id with
  | none => exact refused _
  | some row => exact after row found

theorem behind_requireRepo {id : Uuid} {post : ScriptRepo → View postgres → Prop}
    (after : ∀ row, byKey v.setting v.database.scriptRepos id = some row → post row v) :
    (ScriptRepos.require id).Behind (driver jsonb) raises post v := by
  refine Behind.bind (behind_read rfl rfl rfl ?_)
  cases found : byKey v.setting v.database.scriptRepos id with
  | none => exact refused _
  | some row => exact after row found

theorem behind_requireCredential {credentialId : Option Uuid}
    {details : Uuid → List (String × Detail)} {post : Unit → View postgres → Prop}
    (after : (∀ id ∈ credentialId, (byKey v.setting v.database.credentials id).isSome = true) →
      post () v) :
    (requireCredential credentialId details).Behind (driver jsonb) raises post v := by
  cases credentialId with
  | none => exact after fun _ none_ => by cases none_
  | some id =>
      refine Behind.bind (behind_read rfl rfl rfl ?_)
      cases found : byKey v.setting v.database.credentials id with
      | none => exact refused _
      | some row =>
          refine after fun id' same => ?_
          cases same
          rw [found]
          rfl

end

/-! ### Tests -/

section

variable (bound : v.setting.org = some org)
include bound

/-- What a transaction of an organisation sees is what there is of it. -/
theorem isSome_byKey {ρ : Type} [Tenant ρ] {table : Dict Uuid ρ} {id : Uuid} :
    (byKey v.setting table id).isSome = true ↔ Has org table id := by
  rw [Option.isSome_iff_exists]
  refine exists_congr fun row => ?_
  rw [Database.byKey_eq_some_iff, Setting.Sees, bound, Option.some.injEq]
  exact and_congr_right fun _ => eq_comm

theorem behind_missingRepos {plans : List TestPlanSpec} {post : List String → View postgres → Prop}
    (after : ∀ missing, (missing = [] ↔
      ∀ plan ∈ plans, Has org v.database.scriptRepos plan.scriptRepoId) → post missing v) :
    (PerformanceTests.missingRepos plans).Behind (driver jsonb) raises post v := by
  induction plans generalizing post with
  | nil => exact after [] ⟨fun _ => List.forall_mem_nil _, fun _ => rfl⟩
  | cons plan rest ih =>
      refine Behind.bind (behind_read rfl rfl rfl (Behind.bind (ih fun missing nothing => ?_)))
      refine after _ ?_
      rw [List.forall_mem_cons, ← nothing, ← isSome_byKey bound]
      cases byKey v.setting v.database.scriptRepos plan.scriptRepoId with
      | none => simp
      | some repo => simp

theorem behind_checkReferences (refused : ∀ error, raises (.plimsollError error))
    {configuration : WorkloadSpec} {plans : List TestPlanSpec} {post : Unit → View postgres → Prop}
    (after : Has org v.database.pools configuration.generatorPoolId →
      (∀ plan ∈ plans, Has org v.database.scriptRepos plan.scriptRepoId) → post () v) :
    (PerformanceTests.checkReferences configuration plans).Behind (driver jsonb) raises post v := by
  refine Behind.bind (behind_read rfl rfl rfl (Behind.bind (behind_missingRepos bound
    fun missing nothing => ?_)))
  split
  · rename_i none_
    obtain ⟨pool, repos⟩ := List.append_eq_nil_iff.mp none_
    refine after ((isSome_byKey bound).mp ?_) (nothing.mp ?_)
    · rw [Option.isSome_iff_ne_none]
      simpa using pool
    · by_contra some_
      rw [if_neg some_] at repos
      cases repos
  · exact refused _

theorem behind_document {row : PerformanceTest}
    {post : PerformanceTests.TestDocument → View postgres → Prop}
    (after : post (documentIn org v.database row) v) :
    (PerformanceTests.document row).Behind (driver jsonb) raises post v := by
  refine Behind.bind (behind_read (PerformanceTests.plansFor_eq bound) rfl rfl ?_)
  exact Behind.bind (behind_read (PerformanceTests.rulesFor_eq bound) rfl rfl after)

theorem behind_requireTest (refused : ∀ error, raises (.plimsollError error)) {id : Uuid}
    {post : PerformanceTests.TestDocument → View postgres → Prop}
    (after : ∀ row, byKey v.setting v.database.tests id = some row →
      post (documentIn org v.database row) v) :
    (PerformanceTests.require id).Behind (driver jsonb) raises post v := by
  refine Behind.bind (behind_read rfl rfl rfl ?_)
  cases found : byKey v.setting v.database.tests id with
  | none => exact refused _
  | some row => exact behind_document bound (after row found)

end

end Plimsoll.Patches
