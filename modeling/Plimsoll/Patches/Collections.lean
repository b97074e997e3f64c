import Plimsoll.Patches.Statements

/-!
The collections of a test, which an update replaces as a whole.
-/

namespace Plimsoll.Patches

open Python Contracts Transaction
open Database (Setting rowsOf Keyed Appended)
open Sql (View)
open Sql.Program (Behind)
open PerformanceTests (planSpecs ruleSpecs value? whenGiven insertAll replaceAll replacePlans
  replaceSlaRules)

variable {jsonb : Json → Bool} {raises : Raised → Prop} {v : View postgres} {c : Setting}
  {d : Database} {e : Environment} {org testId : Uuid}

section

variable {σ ρ : Type} [Tenant ρ] {key : ρ → Uuid} {specOf : ρ → σ} {like : ρ → Bool}
  {table table' : Dict Uuid ρ} {specs : List σ}

/-! ## Tables -/

/-- The rows of an organisation that are like this have been replaced by those of the
specifications, and all the others are as they were. -/
structure Replaces (key : ρ → Uuid) (specOf : ρ → σ) (like : ρ → Bool) (org : Uuid) (specs : List σ)
    (table table' : Dict Uuid ρ) : Prop where
  specs : ((rowsOf org table').filter like).map specOf = specs
  keyed : Keyed key table'
  others : ∀ other : ρ → Bool,
    (∀ row, other row = true → ¬ (Tenant.organizationId row = org ∧ like row = true)) →
      (table'.items.map Prod.snd).filter other = (table.items.map Prod.snd).filter other

/-- Rows that are like none of those removed stay. -/
theorem filter_without {other : ρ → Bool} (keyed : Keyed key table)
    (differs : ∀ row, other row = true → ¬ (Tenant.organizationId row = org ∧ like row = true)) :
    ((Database.without table (((rowsOf org table).filter like).map key)).items.map Prod.snd).filter
      other = (table.items.map Prod.snd).filter other := by
  rw [Database.items_without, List.filter_map, List.filter_map, List.filter_filter]
  refine congrArg _ (List.filter_congr fun item member => ?_)
  rw [Function.comp_apply, Bool.and_eq_left_iff_imp, decide_eq_true_eq]
  intro here removed
  obtain ⟨row, inRows, same⟩ := List.mem_map.mp removed
  obtain ⟨mine, alike⟩ := List.mem_filter.mp inRows
  obtain ⟨k, found, owner⟩ := Database.mem_rowsOf.mp mine
  have at_ : table.get? item.1 = some item.2 := Dict.get?_eq_some_iff.mpr member
  rw [← same, keyed k row found, found] at at_
  obtain rfl := Option.some.inj at_
  exact differs _ here ⟨owner, alike⟩

/-- Removing the rows that are like this and appending others replaces them. -/
theorem replaces_appended {rows : List ρ} (keyed : Keyed key table)
    (appended : Appended key rows
      (Database.without table (((rowsOf org table).filter like).map key)) table')
    (owned : ∀ row ∈ rows, Tenant.organizationId row = org)
    (alike : ∀ row ∈ rows, like row = true) :
    Replaces key specOf like org (rows.map specOf) table table' where
  specs := by
    rw [Database.rowsOf_appended appended owned, List.filter_append,
      Database.rowsOf_without keyed like, List.nil_append, List.filter_eq_self.mpr alike]
  keyed := (keyed.without _).appended appended
  others other differs := by
    have none_ : rows.filter other = [] := by
      rw [List.filter_eq_nil_iff]
      exact fun row member here => differs row here ⟨owned row member, alike row member⟩
    rw [appended, List.map_append, List.filter_append, filter_without keyed differs, List.map_map]
    change _ ++ (rows.map id).filter other = _
    rw [List.map_id, none_, List.append_nil]

/-! ## Programs -/

omit [Tenant ρ] in
theorem behind_insertAll (withTable : Dict Uuid ρ → Database) (row : Uuid → σ → ρ)
    (keyRow : ∀ id spec, key (row id spec) = id) (specRow : ∀ id spec, specOf (row id spec) = spec)
    {insert : Uuid → σ → Transaction Unit} {post : Unit → View postgres → Prop}
    (distinct : Distinct e specs.length) (unused : Unused e table specs.length)
    (inserts : ∀ table e id, ∀ spec ∈ specs, ∀ post : Unit → View postgres → Prop,
      table.get? id = none → post () ⟨c, withTable (table.set id (row id spec)), e⟩ →
        (insert id spec).Behind (driver jsonb) raises post ⟨c, withTable table, e⟩)
    (after : ∀ rows table' e', rows.map specOf = specs → (∀ r ∈ rows, ∃ id spec, r = row id spec) →
      Appended key rows table table' → Later specs.length e e' →
        post () ⟨c, withTable table', e'⟩) :
    (insertAll insert specs).Behind (driver jsonb) raises post ⟨c, withTable table, e⟩ := by
  induction specs generalizing table e with
  | nil => exact after [] table e rfl (List.forall_mem_nil _) Appended.nil (Later.refl e)
  | cons spec rest ih =>
      rw [List.length_cons, Nat.add_comm] at distinct unused
      have free := unused.first
      refine Behind.bind (behind_uuid4 (Behind.bind ?_))
      refine inserts table (drawn e) _ spec List.mem_cons_self _ free ?_
      refine ih (distinct.later (later_drawn e)) (unused.set distinct)
        (fun table e id other member => inserts table e id other (List.mem_cons_of_mem _ member)) ?_
      intro rows table' e' same made appended later
      refine after (row (e.uuids e.uuidsDrawn) spec :: rows) table' e' ?_ ?_ ?_ ?_
      · rw [List.map_cons, specRow, same]
      · intro r member
        rcases List.mem_cons.mp member with rfl | behind
        · exact ⟨_, spec, rfl⟩
        · exact made r behind
      · refine Appended.set (by rw [keyRow]; exact free) ?_
        rw [keyRow]
        exact appended
      · rw [List.length_cons, Nat.add_comm]
        exact (later_drawn e).trans later

/-- Behind a replacement the collection is what was given. -/
theorem behind_replaceAll (withTable : Dict Uuid ρ → Database) (row : Uuid → σ → ρ)
    (like : ρ → Bool) (specOf : ρ → σ) (keyRow : ∀ id spec, key (row id spec) = id)
    (specRow : ∀ id spec, specOf (row id spec) = spec)
    (ownRow : ∀ id spec, Tenant.organizationId (row id spec) = org)
    (likeRow : ∀ id spec, like (row id spec) = true) (keyed : Keyed key table)
    {delete : Transaction Unit} {insert : Uuid → σ → Transaction Unit}
    {post : Unit → View postgres → Prop} (distinct : Distinct e specs.length)
    (unused : Unused e table specs.length)
    (deletes : ∀ post : Unit → View postgres → Prop,
      post () ⟨c, withTable (Database.without table
          (((rowsOf org table).filter like).map key)), e⟩ →
        delete.Behind (driver jsonb) raises post ⟨c, withTable table, e⟩)
    (inserts : ∀ table e id, ∀ spec ∈ specs, ∀ post : Unit → View postgres → Prop,
      table.get? id = none → post () ⟨c, withTable (table.set id (row id spec)), e⟩ →
        (insert id spec).Behind (driver jsonb) raises post ⟨c, withTable table, e⟩)
    (after : ∀ table' e', Replaces key specOf like org specs table table' →
      Later specs.length e e' → post () ⟨c, withTable table', e'⟩) :
    (replaceAll delete insert specs).Behind (driver jsonb) raises post ⟨c, withTable table, e⟩ := by
  refine Behind.bind (deletes _ ?_)
  have unused' : Unused e (Database.without table (((rowsOf org table).filter like).map key))
      specs.length := by
    intro i below
    refine Option.eq_none_iff_forall_ne_some.mpr fun r found => ?_
    have member := Dict.get?_eq_some_iff.mp found
    rw [Database.items_without] at member
    have there := Dict.get?_eq_some_iff.mpr (List.mem_of_mem_filter member)
    rw [unused i below] at there
    cases there
  refine behind_insertAll withTable row keyRow specRow distinct unused' inserts ?_
  intro rows table' e' same made appended later
  refine after table' e' ?_ later
  rw [← same]
  refine replaces_appended keyed appended ?_ ?_
  · intro r member
    obtain ⟨id, spec, rfl⟩ := made r member
    exact ownRow id spec
  · intro r member
    obtain ⟨id, spec, rfl⟩ := made r member
    exact likeRow id spec

end

/-! ## Plans and rules -/

/-- A row of a collection is inserted, unless the driver refuses it. -/
theorem behind_insert {s : Database.Statement} {result : s.Answer → Except Database.Fault Unit}
    {answer : s.Answer} {write : Database.Write} {post : Unit → View postgres → Prop}
    (executed : Database.execute s v.setting v.database = (answer, [write]))
    (refused : accepts jsonb s answer = false → raises .dataError) (ok : result answer = .ok ())
    (bound : Database.rebind s v.setting = v.setting)
    (after : post () ⟨v.setting, write.apply v.database, v.environment⟩) :
    (Sql.Program.execute s fun x => checked (result x) : Transaction Unit).Behind (driver jsonb)
      raises post v := by
  cases accepted : accepts jsonb s answer with
  | true =>
      refine behind_checked executed accepted ok ?_
      rw [bound]
      exact after
  | false =>
      have executed' : postgres.execute s v.setting v.database = (answer, [write]) := executed
      rw [Behind, if_neg]
      · exact refused accepted
      · rw [executed']
        exact fun same => Bool.false_ne_true (accepted.symm.trans same)

theorem filter_planSpecs {org' testId' : Uuid} {plans : Dict Uuid PerformanceTestPlan} :
    planSpecs org' testId' plans = (((plans.items.map Prod.snd).filter fun row =>
      row.performanceTestId = testId' ∧ row.organizationId = org').map
        PerformanceTestPlan.spec) := by
  rw [planSpecs, rowsOf, List.filter_filter]
  simp only [Bool.decide_and]
  rfl

theorem filter_ruleSpecs {org' testId' : Uuid} {rules : Dict Uuid SlaRule} :
    ruleSpecs org' testId' rules = (((rules.items.map Prod.snd).filter fun row =>
      row.performanceTestId = testId' ∧ row.organizationId = org').map SlaRule.spec) := by
  rw [ruleSpecs, rowsOf, List.filter_filter]
  simp only [Bool.decide_and]
  rfl

variable (bound : v.setting.org = some org)
include bound

/-- The plans of a test that are replaced. -/
theorem behind_replacePlans {plans : List TestPlanSpec} {post : Unit → View postgres → Prop}
    (tested : (v.database.tests.get? testId).isSome = true)
    (keyed : Keyed PerformanceTestPlan.id v.database.plans)
    (distinct : Distinct v.environment plans.length)
    (unused : Unused v.environment v.database.plans plans.length)
    (repos : ∀ plan ∈ plans, Has org v.database.scriptRepos plan.scriptRepoId)
    (refused : ∀ plan ∈ plans, storablePlan plan = false → raises .dataError)
    (after : ∀ table e', Keyed PerformanceTestPlan.id table →
      Replaced (.value plans) planSpecs org testId v.database.plans table →
        Later plans.length v.environment e' →
          post () ⟨v.setting, { v.database with plans := table }, e'⟩) :
    (replacePlans org testId plans).Behind (driver jsonb) raises post v := by
  refine behind_replaceAll (fun table => { v.database with plans := table })
    (fun id spec => ⟨id, org, testId, spec⟩) (fun row => row.performanceTestId = testId)
    PerformanceTestPlan.spec (fun _ _ => rfl) (fun _ _ => rfl) (fun _ _ => rfl)
    (fun _ _ => decide_eq_true rfl) keyed distinct unused ?_ ?_ ?_
  · intro post after
    refine Behind.execute rfl ?_
    rw [View.executed]
    change post () ⟨v.setting, postgres.applyAll
      (List.map _ (List.filter _ (Database.visible _ _))) _, _⟩
    rw [Database.visible_eq bound, PerformanceTests.applyAll_deletePlan]
    exact after
  · intro table e id plan member post free after
    obtain ⟨repo, found, -⟩ := repos plan member
    have executed : Database.execute (.insertPlan ⟨id, org, testId, plan⟩) v.setting
        { v.database with plans := table } = (.ok (), [.plan ⟨id, org, testId, plan⟩]) := by
      refine Database.insert_free bound free ?_
      rw [Bool.and_eq_true]
      exact ⟨tested, Option.isSome_iff_exists.mpr ⟨repo, found⟩⟩
    exact behind_insert executed (refused plan member) rfl rfl after
  · intro table e' replaces later
    refine after table e' replaces.keyed ⟨replaces.specs, fun org' testId' differs => ?_⟩ later
    rw [filter_planSpecs, filter_planSpecs, replaces.others]
    intro row here same
    obtain ⟨tested', owner'⟩ := of_decide_eq_true here
    exact differs ⟨owner'.symm.trans same.1, tested'.symm.trans (of_decide_eq_true same.2)⟩

/-- The rules of a test that are replaced. -/
theorem behind_replaceSlaRules {rules : List SlaRuleSpec} {post : Unit → View postgres → Prop}
    (tested : (v.database.tests.get? testId).isSome = true)
    (keyed : Keyed SlaRule.id v.database.rules)
    (distinct : Distinct v.environment rules.length)
    (unused : Unused v.environment v.database.rules rules.length)
    (refused : ∀ rule ∈ rules, storableRule rule = false → raises .dataError)
    (after : ∀ table e', Keyed SlaRule.id table →
      Replaced (.value rules) ruleSpecs org testId v.database.rules table →
        Later rules.length v.environment e' →
          post () ⟨v.setting, { v.database with rules := table }, e'⟩) :
    (replaceSlaRules org testId rules).Behind (driver jsonb) raises post v := by
  refine behind_replaceAll (fun table => { v.database with rules := table })
    (fun id spec => ⟨id, org, testId, spec⟩) (fun row => row.performanceTestId = testId)
    SlaRule.spec (fun _ _ => rfl) (fun _ _ => rfl) (fun _ _ => rfl)
    (fun _ _ => decide_eq_true rfl) keyed distinct unused ?_ ?_ ?_
  · intro post after
    refine Behind.execute rfl ?_
    rw [View.executed]
    change post () ⟨v.setting, postgres.applyAll
      (List.map _ (List.filter _ (Database.visible _ _))) _, _⟩
    rw [Database.visible_eq bound, PerformanceTests.applyAll_deleteRule]
    exact after
  · intro table e id rule member post free after
    have executed : Database.execute (.insertRule ⟨id, org, testId, rule⟩) v.setting
        { v.database with rules := table } = (.ok (), [.rule ⟨id, org, testId, rule⟩]) :=
      Database.insert_free bound free tested
    exact behind_insert executed (refused rule member) rfl rfl after
  · intro table e' replaces later
    refine after table e' replaces.keyed ⟨replaces.specs, fun org' testId' differs => ?_⟩ later
    rw [filter_ruleSpecs, filter_ruleSpecs, replaces.others]
    intro row here same
    obtain ⟨tested', owner'⟩ := of_decide_eq_true here
    exact differs ⟨owner'.symm.trans same.1, tested'.symm.trans (of_decide_eq_true same.2)⟩

/-- What an update makes of the plans of its test. -/
theorem behind_patchPlans {patch : Patch (List TestPlanSpec)} {post : Unit → View postgres → Prop}
    (tested : (v.database.tests.get? testId).isSome = true)
    (keyed : Keyed PerformanceTestPlan.id v.database.plans)
    (fresh : Fresh v.environment v.database (count patch))
    (repos : ∀ plans, patch = .value plans → ∀ plan ∈ plans,
      Has org v.database.scriptRepos plan.scriptRepoId)
    (refused : ∀ plans, patch = .value plans → ∀ plan ∈ plans, storablePlan plan = false →
      raises .dataError)
    (after : ∀ table e', Keyed PerformanceTestPlan.id table →
      Replaced patch planSpecs org testId v.database.plans table →
        Later (count patch) v.environment e' →
          post () ⟨v.setting, { v.database with plans := table }, e'⟩) :
    (whenGiven (value? patch) (replacePlans org testId)).Behind (driver jsonb) raises post v := by
  cases patch with
  | unset => exact after _ _ keyed ⟨rfl, fun _ _ _ => rfl⟩ (Later.refl _)
  | null => exact after _ _ keyed ⟨rfl, fun _ _ _ => rfl⟩ (Later.refl _)
  | value plans =>
      exact behind_replacePlans bound tested keyed fresh.distinct fresh.plans (repos plans rfl)
        (refused plans rfl) after

/-- What an update makes of the rules of its test. -/
theorem behind_patchRules {patch : Patch (List SlaRuleSpec)} {post : Unit → View postgres → Prop}
    (tested : (v.database.tests.get? testId).isSome = true)
    (keyed : Keyed SlaRule.id v.database.rules) (distinct : Distinct v.environment (count patch))
    (unused : Unused v.environment v.database.rules (count patch))
    (refused : ∀ rules, patch = .value rules → ∀ rule ∈ rules, storableRule rule = false →
      raises .dataError)
    (after : ∀ table e', Keyed SlaRule.id table →
      Replaced patch ruleSpecs org testId v.database.rules table →
        Later (count patch) v.environment e' →
          post () ⟨v.setting, { v.database with rules := table }, e'⟩) :
    (whenGiven (value? patch) (replaceSlaRules org testId)).Behind (driver jsonb) raises
      post v := by
  cases patch with
  | unset => exact after _ _ keyed ⟨rfl, fun _ _ _ => rfl⟩ (Later.refl _)
  | null => exact after _ _ keyed ⟨rfl, fun _ _ _ => rfl⟩ (Later.refl _)
  | value rules =>
      exact behind_replaceSlaRules bound tested keyed distinct unused (refused rules rfl) after

/-- What an update makes of both, and what follows. -/
theorem behind_patchBoth {α : Type} {planPatch : Patch (List TestPlanSpec)}
    {rulePatch : Patch (List SlaRuleSpec)} {rest : Transaction α} {post : α → View postgres → Prop}
    (tested : (v.database.tests.get? testId).isSome = true)
    (plansKeyed : Keyed PerformanceTestPlan.id v.database.plans)
    (rulesKeyed : Keyed SlaRule.id v.database.rules)
    (fresh : Fresh v.environment v.database (count planPatch + count rulePatch + 1))
    (repos : ∀ plans, planPatch = .value plans → ∀ plan ∈ plans,
      Has org v.database.scriptRepos plan.scriptRepoId)
    (refusedPlans : ∀ plans, planPatch = .value plans → ∀ plan ∈ plans,
      storablePlan plan = false → raises .dataError)
    (refusedRules : ∀ rules, rulePatch = .value rules → ∀ rule ∈ rules,
      storableRule rule = false → raises .dataError)
    (after : ∀ plans rules e', Keyed PerformanceTestPlan.id plans → Keyed SlaRule.id rules →
      Replaced planPatch planSpecs org testId v.database.plans plans →
        Replaced rulePatch ruleSpecs org testId v.database.rules rules →
          Unused e' v.database.auditLogs 1 → rest.Behind (driver jsonb) raises post
            ⟨v.setting, { v.database with plans := plans, rules := rules }, e'⟩) :
    (whenGiven (value? planPatch) (replacePlans org testId) >>= fun _ =>
      whenGiven (value? rulePatch) (replaceSlaRules org testId) >>= fun _ => rest).Behind
        (driver jsonb) raises post v := by
  refine Behind.bind (behind_patchPlans bound tested plansKeyed (fresh.fewer (by omega)) repos
    refusedPlans ?_)
  intro plans e₁ plansKeyed replacedPlans later₁
  have fresh₁ := (fresh.fewer (Nat.le_succ _)).later later₁
  refine Behind.bind (behind_patchRules ?_ tested rulesKeyed ?_ ?_ refusedRules ?_)
  · exact bound
  · exact fresh₁.distinct
  · exact fresh₁.rules
  intro rules e₂ rulesKeyed replacedRules later₂
  exact after plans rules e₂ plansKeyed rulesKeyed replacedPlans replacedRules
    (fresh.auditLogs.later (later₁.trans later₂))

end Plimsoll.Patches
