import Plimsoll.Database.Tables
import Plimsoll.Sql.TwoRuns

/-!
The database as its organisations see it: each has its own rows in every table,
under identifiers that were drawn for it, and what it writes are rows of its own.
-/

namespace Plimsoll.Tenants

open Python Contracts
open Database (Write Keyed rowsOf)

/-! ## Tables -/

/-- The tables whose rows stand under identifiers. -/
inductive Table where
  | users
  | families
  | projects
  | pools
  | credentials
  | scriptRepos
  | scriptVersions
  | tests
  | plans
  | rules
  | targetPolicies
  | testRuns
  | runGenerators
  | auditLogs
deriving DecidableEq

namespace Table

abbrev Row : Table → Type
  | .users => User
  | .families => RefreshTokenFamily
  | .projects => Project
  | .pools => GeneratorPool
  | .credentials => Credential
  | .scriptRepos => ScriptRepo
  | .scriptVersions => ScriptVersion
  | .tests => PerformanceTest
  | .plans => PerformanceTestPlan
  | .rules => SlaRule
  | .targetPolicies => TargetPolicyRow
  | .testRuns => TestRun
  | .runGenerators => RunGenerator
  | .auditLogs => AuditLog

def dict : (t : Table) → Database → Dict Uuid t.Row
  | .users, d => d.users
  | .families, d => d.families
  | .projects, d => d.projects
  | .pools, d => d.pools
  | .credentials, d => d.credentials
  | .scriptRepos, d => d.scriptRepos
  | .scriptVersions, d => d.scriptVersions
  | .tests, d => d.tests
  | .plans, d => d.plans
  | .rules, d => d.rules
  | .targetPolicies, d => d.targetPolicies
  | .testRuns, d => d.testRuns
  | .runGenerators, d => d.runGenerators
  | .auditLogs, d => d.auditLogs

def idOf : (t : Table) → t.Row → Uuid
  | .users => User.id
  | .families => RefreshTokenFamily.id
  | .projects => Project.id
  | .pools => GeneratorPool.id
  | .credentials => Credential.id
  | .scriptRepos => ScriptRepo.id
  | .scriptVersions => ScriptVersion.id
  | .tests => PerformanceTest.id
  | .plans => PerformanceTestPlan.id
  | .rules => SlaRule.id
  | .targetPolicies => TargetPolicyRow.id
  | .testRuns => TestRun.id
  | .runGenerators => RunGenerator.id
  | .auditLogs => AuditLog.id

instance tenant : (t : Table) → Tenant t.Row
  | .users => inferInstanceAs (Tenant User)
  | .families => inferInstanceAs (Tenant RefreshTokenFamily)
  | .projects => inferInstanceAs (Tenant Project)
  | .pools => inferInstanceAs (Tenant GeneratorPool)
  | .credentials => inferInstanceAs (Tenant Credential)
  | .scriptRepos => inferInstanceAs (Tenant ScriptRepo)
  | .scriptVersions => inferInstanceAs (Tenant ScriptVersion)
  | .tests => inferInstanceAs (Tenant PerformanceTest)
  | .plans => inferInstanceAs (Tenant PerformanceTestPlan)
  | .rules => inferInstanceAs (Tenant SlaRule)
  | .targetPolicies => inferInstanceAs (Tenant TargetPolicyRow)
  | .testRuns => inferInstanceAs (Tenant TestRun)
  | .runGenerators => inferInstanceAs (Tenant RunGenerator)
  | .auditLogs => inferInstanceAs (Tenant AuditLog)

end Table

/-- What a write makes of a table: a row under an identifier, or none. -/
structure Version where
  table : Table
  id : Uuid
  row : Option table.Row

/-- The version that a write writes. -/
def version? : Write → Option Version
  | .family row => some ⟨.families, row.id, some row⟩
  | .history _ => none
  | .project row => some ⟨.projects, row.id, some row⟩
  | .pool row => some ⟨.pools, row.id, some row⟩
  | .credential row => some ⟨.credentials, row.id, some row⟩
  | .deleteCredential id => some ⟨.credentials, id, none⟩
  | .scriptRepo row => some ⟨.scriptRepos, row.id, some row⟩
  | .scriptVersion row => some ⟨.scriptVersions, row.id, some row⟩
  | .test row => some ⟨.tests, row.id, some row⟩
  | .plan row => some ⟨.plans, row.id, some row⟩
  | .deletePlan id => some ⟨.plans, id, none⟩
  | .rule row => some ⟨.rules, row.id, some row⟩
  | .deleteRule id => some ⟨.rules, id, none⟩
  | .targetPolicy row => some ⟨.targetPolicies, row.id, some row⟩
  | .audit row => some ⟨.auditLogs, row.id, some row⟩
  | .entry _ => none

/-- A table with a version of a row in it. -/
def put {ρ : Type} (table : Dict Uuid ρ) (id : Uuid) : Option ρ → Dict Uuid ρ
  | some row => table.set id row
  | none => table.pop id

variable {d d' : Database} {t : Table} {write : Write} {id : Uuid}

theorem dict_apply {row : Option t.Row} (writes : version? write = some ⟨t, id, row⟩) :
    t.dict (write.apply d) = put (t.dict d) id row := by
  cases write <;> cases writes <;> rfl

theorem dict_apply_other (other : ∀ v ∈ version? write, v.table ≠ t) :
    t.dict (write.apply d) = t.dict d := by
  cases write <;> cases t <;> first | rfl | exact absurd rfl (other _ rfl)

/-- A write of a version is of the table itself, or leaves it as it is. -/
theorem dict_apply_cases (d : Database) (write : Write) (t : Table) :
    (∃ id row, version? write = some ⟨t, id, row⟩ ∧ t.dict (write.apply d) = put (t.dict d) id row) ∨
      t.dict (write.apply d) = t.dict d := by
  by_cases other : ∀ v ∈ version? write, v.table ≠ t
  · exact Or.inr (dict_apply_other other)
  · obtain ⟨⟨t', id, row⟩, member, same⟩ : ∃ v ∈ version? write, v.table = t := by
      simpa only [not_forall, not_not, exists_prop] using other
    obtain rfl : t' = t := same
    exact Or.inl ⟨id, row, member, dict_apply member⟩

/-! ## The rows of an organisation -/

section

variable {ρ : Type} [Tenant ρ] {key : ρ → Uuid} {table table' : Dict Uuid ρ} {org other : Uuid}
  {row : Option ρ}

/-- What a version makes of the rows of its organisation. -/
def putRow (key : ρ → Uuid) (id : Uuid) : Option ρ → List ρ → List ρ
  | some row, rows =>
      if rows.any fun old => key old = id then rows.map fun old => if key old = id then row else old
      else rows ++ [row]
  | none, rows => rows.filter fun old => key old ≠ id

omit [Tenant ρ] in
theorem Keyed.put (keyed : Keyed key table) (own : ∀ new ∈ row, key new = id) :
    Keyed key (put table id row) := by
  cases row with
  | some new =>
      intro k found at_
      rw [Tenants.put, Dict.get?_set] at at_
      split at at_
      · rename_i same
        cases at_
        exact (own new rfl).trans same
      · exact keyed k found at_
  | none => exact keyed.without [id]

/-- Where a version is of the organisation, its rows are what the version makes of
them. -/
theorem rowsOf_put (keyed : Keyed key table)
    (before : ∀ old, table.get? id = some old → Tenant.organizationId old = org)
    (own : ∀ new ∈ row, Tenant.organizationId new = org) :
    rowsOf org (put table id row) = putRow key id row (rowsOf org table) := by
  have keyOf : ∀ item ∈ table.items, key item.2 = item.1 := fun item member =>
    keyed item.1 item.2 (Dict.get?_eq_some_iff.mpr member)
  cases row with
  | none =>
      change ((table.items.filter fun item => decide (item.1 ≠ id)).map Prod.snd).filter _ =
        ((table.items.map Prod.snd).filter _).filter _
      rw [List.filter_map, List.filter_map, List.filter_map, List.filter_filter, List.filter_filter]
      refine congrArg _ (List.filter_congr fun item member => ?_)
      rw [Function.comp_apply, Function.comp_apply, keyOf item member, Bool.and_comm]
  | some new =>
      have mine : Tenant.organizationId new = org := own new rfl
      cases at_ : table.get? id with
      | none =>
          have absent : ¬ (rowsOf org table).any (fun old => decide (key old = id)) = true := by
            rw [List.any_eq_true]
            rintro ⟨old, member, same⟩
            obtain ⟨k, found, -⟩ := Database.mem_rowsOf.mp member
            rw [decide_eq_true_eq, keyed k old found] at same
            rw [same, at_] at found
            cases found
          rw [putRow, if_neg absent, put, rowsOf, Dict.items_set_new at_, List.map_append,
            List.filter_append, ← rowsOf]
          exact congrArg _ (List.filter_cons_of_pos (decide_eq_true mine))
      | some old =>
          have present : (rowsOf org table).any (fun old => decide (key old = id)) = true :=
            List.any_eq_true.mpr ⟨old, Database.mem_rowsOf.mpr ⟨id, at_, before old at_⟩,
              decide_eq_true (keyed id old at_)⟩
          rw [putRow, if_pos present, put, rowsOf, Dict.items_set_old at_, List.map_map, rowsOf,
            List.filter_map, List.filter_map, List.map_map]
          have filters : table.items.filter ((fun row => decide (Tenant.organizationId row = org)) ∘
                (Prod.snd ∘ fun item => if item.1 = id then (id, new) else item)) =
              table.items.filter ((fun row => decide (Tenant.organizationId row = org)) ∘ Prod.snd) := by
            refine List.filter_congr fun item member => ?_
            by_cases same : item.1 = id
            · have owner : Tenant.organizationId item.2 = org :=
                before item.2 (Dict.get?_eq_some_iff.mpr (same ▸ member))
              simp [same, mine, owner]
            · simp [same]
          rw [filters]
          refine List.map_congr_left fun item member => ?_
          rw [Function.comp_apply, Function.comp_apply, keyOf item (List.mem_of_mem_filter member)]
          split
          · rfl
          · rfl

/-- A version leaves the rows of other organisations as they are. -/
theorem rowsOf_put_other (before : ∀ old, table.get? id = some old → Tenant.organizationId old ≠ other)
    (own : ∀ new ∈ row, Tenant.organizationId new ≠ other) :
    rowsOf other (put table id row) = rowsOf other table := by
  cases row with
  | none =>
      change ((table.items.filter fun item => decide (item.1 ≠ id)).map Prod.snd).filter _ = _
      rw [rowsOf, List.filter_map, List.filter_map, List.filter_filter]
      refine congrArg _ (List.filter_congr fun item member => ?_)
      by_cases same : item.1 = id
      · have owner := before item.2 (Dict.get?_eq_some_iff.mpr (same ▸ member))
        simp [owner]
      · simp [same]
  | some new =>
      have foreign : Tenant.organizationId new ≠ other := own new rfl
      cases at_ : table.get? id with
      | none =>
          rw [put, rowsOf, Dict.items_set_new at_, List.map_append, List.filter_append, ← rowsOf]
          refine (congrArg _ (List.filter_cons_of_neg ?_)).trans (List.append_nil _)
          exact fun same => foreign (of_decide_eq_true same)
      | some old =>
          rw [put, rowsOf, Dict.items_set_old at_, List.map_map, rowsOf, List.filter_map,
            List.filter_map]
          have filters : table.items.filter ((fun row => decide (Tenant.organizationId row = other)) ∘
                (Prod.snd ∘ fun item => if item.1 = id then (id, new) else item)) =
              table.items.filter
                ((fun row => decide (Tenant.organizationId row = other)) ∘ Prod.snd) := by
            refine List.filter_congr fun item member => ?_
            by_cases same : item.1 = id
            · have owner : Tenant.organizationId item.2 ≠ other :=
                before item.2 (Dict.get?_eq_some_iff.mpr (same ▸ member))
              simp [same, foreign, owner]
            · simp [same]
          rw [filters]
          refine List.map_congr_left fun item member => ?_
          rw [Function.comp_apply]
          obtain ⟨inItems, owner⟩ := List.mem_filter.mp member
          have differs : item.1 ≠ id := fun same =>
            before item.2 (Dict.get?_eq_some_iff.mpr (same ▸ inItems)) (of_decide_eq_true owner)
          rw [if_neg differs]

end

end Plimsoll.Tenants
