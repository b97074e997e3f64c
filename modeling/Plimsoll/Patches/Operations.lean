import Plimsoll.Patches.Validity

/-!
The partial updates, run alone behind the driver: under their condition they are
refused, or commit what they were given.
-/

namespace Plimsoll.Patches

open Python Contracts Transaction
open Database (Setting Statement Keyed byKey)
open Sql (View)
open Sql.Program (Behind)
open PerformanceTests (TestDocument planSpecs ruleSpecs documentIn value?)

variable {jsonb : Json → Bool} {raises : Raised → Prop} {v : View postgres} {d : Database}
  {principal : AccessClaims} {id : Uuid}

section

variable (refused : ∀ error, raises (.plimsollError error))
  (bound : v.setting.org = some principal.organizationId) (valid : Valid v.database)
include refused bound valid

/-! ## Projects -/

theorem behind_updateProject {body : ProjectUpdate} {post : Project → View postgres → Prop}
    (unused : Unused v.environment v.database.auditLogs 1)
    (met : Meets jsonb principal.organizationId v.database (.updateProject id body))
    (after : ∀ old new auditLogs e', v.database.projects.get? id = some old →
      old.organizationId = principal.organizationId → ProjectPatched body old new →
        post new ⟨v.setting, { v.database with
          projects := v.database.projects.set id new
          auditLogs := auditLogs }, e'⟩) :
    (Projects.update principal id body).Behind (driver jsonb) raises post v := by
  refine Behind.bind (behind_requireProject refused fun old found => ?_)
  obtain ⟨there, sees⟩ := Database.byKey_eq_some_iff.mp found
  have owner : old.organizationId = principal.organizationId :=
    Option.some.inj (sees.symm.trans bound)
  split
  · rename_i nothing
    have same := after old old v.database.auditLogs v.environment there owner
      (projectPatched_nothing nothing)
    rw [Dict.set_get? there] at same
    exact same
  · obtain ⟨name, tags, stored⟩ := met ⟨old, there, owner⟩
    obtain ⟨new, made⟩ := @exists_updatedProject v.setting.now old body name tags
    have patched := projectPatched_of_ok made
    have executed : Database.execute (.updateProject id (Projects.changesOf body)) v.setting
        v.database = (.ok (some new), [.project new]) := by
      change Database.updating (byKey _ _ _) _ _ = _
      simp only [found, Database.updating, made]
    have sameId : new.id = id := by
      rw [patched.others]
      exact (valid.projects id old there).1
    refine Behind.bind (behind_checked executed stored rfl ?_)
    refine Behind.bind (behind_record bound unused fun auditLogs => ?_)
    have done := after old new auditLogs (drawn v.environment) there owner patched
    rw [← sameId] at done
    exact done

/-! ## Pools -/

theorem behind_updatePool {body : PoolUpdate} {post : Option GeneratorPool → View postgres → Prop}
    (unused : Unused v.environment v.database.auditLogs 1)
    (met : Meets jsonb principal.organizationId v.database (.updatePool id body))
    (after : ∀ old new auditLogs e', v.database.pools.get? id = some old →
      old.organizationId = principal.organizationId → PoolPatched body old new →
        PoolCreatable { v.database with pools := v.database.pools.set id new } new →
          post (some new) ⟨v.setting, { v.database with
            pools := v.database.pools.set id new
            auditLogs := auditLogs }, e'⟩) :
    (Pools.update principal id body).Behind (driver jsonb) raises post v := by
  refine Behind.bind (behind_requirePool refused fun old found => ?_)
  obtain ⟨there, sees⟩ := Database.byKey_eq_some_iff.mp found
  have owner : old.organizationId = principal.organizationId :=
    Option.some.inj (sees.symm.trans bound)
  obtain ⟨keyed, creatable⟩ := valid.pools id old there
  obtain ⟨name, config, generators, vus, stored, free⟩ := met ⟨old, there, owner⟩
  have alone : ∀ new, Takes body.name old.name new → NameFree v.database old new := by
    intro new takes other row found owner' same
    rw [keyed]
    cases given : body.name with
    | unset =>
        rw [given] at takes
        obtain rfl : new = old.name := takes
        exact (creatable.2 other row found owner' same).trans keyed
    | null => exact absurd given name
    | value value =>
        rw [given] at takes
        obtain rfl : new = value := takes
        exact free new given other row found (owner'.trans owner) same
  split
  · rename_i nothing
    have same := after old old v.database.auditLogs v.environment there owner
      (poolPatched_nothing nothing)
    rw [Dict.set_get? there] at same
    exact same creatable
  · obtain ⟨new, made⟩ := @exists_updatedPool v.database v.setting.now old body
      (fun id row found => (valid.pools id row found).1) name generators vus alone
    have patched := poolPatched_of_ok made
    have executed : Database.execute (.updatePool id (Pools.changesOf body)) v.setting v.database =
        (.ok (some new), [.pool new, .entry (.poolName new.organizationId new.name)]) := by
      change Database.updating (byKey _ _ _) _ _ = _
      simp only [found, Database.updating, made]
    have sameId : new.id = id := by rw [patched.others, keyed]
    refine Behind.bind (behind_checked executed stored rfl ?_)
    refine Behind.bind (behind_record bound unused fun auditLogs => ?_)
    have done := after old new auditLogs (drawn v.environment) there owner patched
      (poolCreatable_patched creatable keyed config alone patched rfl)
    rw [← sameId] at done
    exact done

/-! ## Script repositories -/

theorem behind_updateScriptRepo {body : ScriptRepoUpdate} {post : ScriptRepo → View postgres → Prop}
    (unused : Unused v.environment v.database.auditLogs 1)
    (met : Meets jsonb principal.organizationId v.database (.updateScriptRepo id body))
    (after : ∀ old new auditLogs e', v.database.scriptRepos.get? id = some old →
      old.organizationId = principal.organizationId → ScriptRepoPatched body old new →
        ScriptRepoCreatable v.database new →
          post new ⟨v.setting, { v.database with
            scriptRepos := v.database.scriptRepos.set id new
            auditLogs := auditLogs }, e'⟩) :
    (ScriptRepos.update principal id body).Behind (driver jsonb) raises post v := by
  refine Behind.bind (behind_requireRepo refused fun old found => ?_)
  obtain ⟨there, sees⟩ := Database.byKey_eq_some_iff.mp found
  have owner : old.organizationId = principal.organizationId :=
    Option.some.inj (sees.symm.trans bound)
  obtain ⟨keyed, creatable⟩ := valid.scriptRepos id old there
  split
  · rename_i nothing
    have same := after old old v.database.auditLogs v.environment there owner
      (scriptRepoPatched_nothing nothing) creatable
    rw [Dict.set_get? there] at same
    exact same
  · refine Behind.bind (behind_requireCredential refused fun seen => ?_)
    have credential : ∀ k, body.credentialId = .value k →
        Has principal.organizationId v.database.credentials k := by
      intro k given
      refine (isSome_byKey bound).mp (seen k ?_)
      rw [ScriptRepos.newCredential, given]
      rfl
    obtain ⟨name, planPath, defaultRef, stored, inside⟩ := met ⟨old, there, owner⟩ credential
    rw [← owner] at credential
    have refers : ∀ k ∈ Database.assignedNullable old.credentialId body.credentialId,
        Has old.organizationId v.database.credentials k :=
      takesNullable_assigned.holds creatable.2.2 credential
    obtain ⟨new, made⟩ := @exists_updated v.database v.setting.now old body name planPath defaultRef
      fun k same => by
        obtain ⟨row, found, -⟩ := refers k same
        rw [found]
        rfl
    have patched := scriptRepoPatched_of_ok made
    have executed : Database.execute (.updateScriptRepo id (ScriptRepos.changesOf body)) v.setting
        v.database = (.ok (some new), [.scriptRepo new]) := by
      change Database.updating (byKey _ _ _) _ _ = _
      simp only [found, Database.updating, made]
    have sameId : new.id = id := by rw [patched.others, keyed]
    refine Behind.bind (behind_checked executed stored rfl ?_)
    refine Behind.bind (behind_record bound unused fun auditLogs => ?_)
    have done := after old new auditLogs (drawn v.environment) there owner patched
      (scriptRepoCreatable_patched creatable inside credential patched rfl rfl)
    rw [← sameId] at done
    exact done

/-! ## Performance tests -/

omit valid in
/-- What the check of an update lets through refers to what is there. -/
theorem behind_checkUpdate {body : TestUpdate} {current : TestDocument}
    {configuration : WorkloadSpec} {post : Unit → View postgres → Prop}
    (configured : current.row.configuration = some configuration)
    (after : Resolves principal.organizationId v.database body → post () v) :
    (PerformanceTests.checkUpdate body current).Behind (driver jsonb) raises post v := by
  have given : ∀ plans, body.plans = .value plans →
      (value? body.plans).getD current.plans = plans := by
    intro plans same
    rw [same]
    rfl
  rw [PerformanceTests.checkUpdate]
  split
  · rw [PerformanceTests.configurationOr, configured]
    cases replaced : body.configuration with
    | value configuration' =>
        refine behind_checkReferences bound refused fun pool repos => after ⟨?_, ?_⟩
        · intro configuration'' same
          cases replaced.symm.trans same
          exact pool
        · exact fun plans same => given plans same ▸ repos
    | unset =>
        refine behind_checkReferences bound refused fun _ repos => after ⟨?_, ?_⟩
        · exact fun _ same => by cases replaced.symm.trans same
        · exact fun plans same => given plans same ▸ repos
    | null =>
        refine behind_checkReferences bound refused fun _ repos => after ⟨?_, ?_⟩
        · exact fun _ same => by cases replaced.symm.trans same
        · exact fun plans same => given plans same ▸ repos
  · rename_i nothing
    rw [not_or] at nothing
    refine after ⟨fun _ same => ?_, fun _ same => ?_⟩
    · rw [same] at nothing
      exact absurd rfl nothing.1
    · rw [same] at nothing
      exact absurd rfl nothing.2

omit refused valid in
/-- What an update does behind its guarded `UPDATE`. -/
theorem behind_finishUpdate {body : TestUpdate} {row : PerformanceTest}
    {post : TestDocument → View postgres → Prop}
    (fresh : Fresh v.environment v.database (count body.plans + count body.slaRules + 1))
    (tested : (v.database.tests.get? id).isSome = true)
    (plansKeyed : Keyed PerformanceTestPlan.id v.database.plans)
    (rulesKeyed : Keyed SlaRule.id v.database.rules)
    (repos : ∀ plans, body.plans = .value plans → ∀ plan ∈ plans,
      Has principal.organizationId v.database.scriptRepos plan.scriptRepoId)
    (plansStored : ∀ plans, body.plans = .value plans → ∀ plan ∈ plans, storablePlan plan = true)
    (rulesStored : ∀ rules, body.slaRules = .value rules → ∀ rule ∈ rules, storableRule rule = true)
    (after : ∀ plans rules auditLogs e', Keyed PerformanceTestPlan.id plans →
      Keyed SlaRule.id rules →
        Replaced body.plans planSpecs principal.organizationId id v.database.plans plans →
          Replaced body.slaRules ruleSpecs principal.organizationId id v.database.rules rules →
            let d' := { v.database with plans := plans, rules := rules, auditLogs := auditLogs }
            post (documentIn principal.organizationId d' row) ⟨v.setting, d', e'⟩) :
    (PerformanceTests.finishUpdate principal id body row).Behind (driver jsonb) raises post v := by
  refine behind_patchBoth bound tested plansKeyed rulesKeyed fresh repos ?_ ?_ ?_
  · intro plans given plan member refused
    rw [plansStored plans given plan member] at refused
    cases refused
  · intro rules given rule member refused
    rw [rulesStored rules given rule member] at refused
    cases refused
  intro plans rules e' plansKeyed rulesKeyed replacedPlans replacedRules unused
  refine Behind.bind (behind_record ?_ ?_ fun auditLogs => ?_)
  · exact bound
  · exact unused
  · refine @behind_document _ _ _ principal.organizationId ?_ _ _ ?_
    · exact bound
    · exact after plans rules auditLogs (drawn e') plansKeyed rulesKeyed replacedPlans replacedRules

theorem behind_updateTest {body : TestUpdate} {post : TestDocument → View postgres → Prop}
    (fresh : Fresh v.environment v.database (count body.plans + count body.slaRules + 1))
    (met : Meets jsonb principal.organizationId v.database (.updateTest id body))
    (after : ∀ old new plans rules auditLogs e', v.database.tests.get? id = some old →
      old.organizationId = principal.organizationId → TestPatched body old new →
        Replaced body.plans planSpecs principal.organizationId id v.database.plans plans →
          Replaced body.slaRules ruleSpecs principal.organizationId id v.database.rules rules →
            Keyed PerformanceTestPlan.id plans → Keyed SlaRule.id rules →
              TestCreatable { v.database with plans := plans, rules := rules } new →
                let d' := { v.database with
                  tests := v.database.tests.set id new
                  plans := plans
                  rules := rules
                  auditLogs := auditLogs }
                post (documentIn principal.organizationId d' new) ⟨v.setting, d', e'⟩) :
    (PerformanceTests.update principal id body).Behind (driver jsonb) raises post v := by
  refine Behind.bind (behind_requireTest bound refused fun old found => ?_)
  obtain ⟨there, sees⟩ := Database.byKey_eq_some_iff.mp found
  have owner : old.organizationId = principal.organizationId :=
    Option.some.inj (sees.symm.trans bound)
  obtain ⟨keyed, creatable⟩ := valid.tests id old there
  obtain ⟨configuration, configured⟩ := creatable.configured
  refine Behind.bind (behind_checkUpdate refused bound configured fun resolves => ?_)
  obtain ⟨stored, current⟩ := met old there owner resolves
  by_cases version : old.version = body.version
  · obtain ⟨counted, name, configuration, tags, plansStored, rulesStored⟩ := current version
    obtain ⟨new, made⟩ := @exists_updatedTest v.setting.now old body name tags
    have patched := testPatched_of_ok made
    have executed : Database.execute (.updateDocument id body.version
        (PerformanceTests.changesOf body)) v.setting v.database =
          (.ok (some new), [.test new]) := by
      change Database.updating ((byKey _ _ _).filter _) _ _ = _
      rw [found, Option.filter_some, if_pos (decide_eq_true version)]
      simp only [Database.updating, made]
    have accepted : accepts jsonb (.updateDocument id body.version
        (PerformanceTests.changesOf body)) (.ok (some new)) = true := by
      change (storableTest _ _ && integer new.version) = true
      rw [stored, patched.version, counted]
      rfl
    have sameId : new.id = id := by rw [patched.others, keyed]
    refine Behind.bind (behind_checked executed accepted rfl ?_)
    refine behind_finishUpdate ?_ ?_ ?_ valid.plans valid.rules resolves.2 plansStored
      rulesStored ?_
    · exact bound
    · exact ⟨fresh.distinct, fresh.new⟩
    · change ((v.database.tests.set new.id new).get? id).isSome = true
      rw [sameId, Dict.get?_set_self]
      rfl
    intro plans rules auditLogs e' plansKeyed rulesKeyed replacedPlans replacedRules
    have resolves' : Resolves old.organizationId v.database body := owner ▸ resolves
    have done := after old new plans rules auditLogs e' there owner patched replacedPlans
      replacedRules plansKeyed rulesKeyed (testCreatable_patched creatable configuration resolves'
        patched (by rw [owner, keyed]; exact replacedPlans) rfl rfl rfl)
    rw [← sameId] at done
    exact done
  · have executed : Database.execute (.updateDocument id body.version
        (PerformanceTests.changesOf body)) v.setting v.database = (.ok none, []) := by
      change Database.updating ((byKey _ _ _).filter _) _ _ = _
      rw [found, Option.filter_some, if_neg (by simpa using version)]
      rfl
    exact Behind.bind (behind_checked executed stored rfl (refused _))

end

end Plimsoll.Patches
