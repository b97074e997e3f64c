import Plimsoll.Preflight

/-!
When each check of a preflight passes, and when the whole report does.
-/

namespace Plimsoll.Preflight

open Python Jmx TargetPolicy

variable {rt : Runtime} {W : Type}

/-! ## Answers -/

theorem unresolvedRefs_eq_nil_iff {answers : List (PlanInput × Resolution)} :
    unresolvedRefs answers = [] ↔ ∀ answer ∈ answers, ∃ sha, answer.2 = .ok sha := by
  rw [unresolvedRefs, List.filterMap_eq_nil_iff]
  refine forall₂_congr fun answer _ => ?_
  cases answer.2 with
  | error message => simp
  | ok sha => simp

theorem parseFailures_eq_nil_iff {answers : List (PlanInput × Option Reading)} :
    parseFailures answers = [] ↔
      ∀ answer ∈ answers, ∀ sha message, answer.2 ≠ some ⟨sha, .error message⟩ := by
  rw [parseFailures, List.filterMap_eq_nil_iff]
  refine forall₂_congr fun answer _ => ?_
  rcases answer.2 with _ | ⟨sha, message | summary⟩
  · simp
  · simp
  · simp

theorem mem_summariesOf {readings : List (Option Reading)} {summary : PlanSummary} :
    summary ∈ summariesOf readings ↔ ∃ sha, some ⟨sha, .ok summary⟩ ∈ readings := by
  rw [summariesOf, List.mem_filterMap]
  constructor
  · intro ⟨reading, member, same⟩
    rcases reading with _ | ⟨sha, message | other⟩
    · cases same
    · cases same
    · cases same
      exact ⟨sha, member⟩
  · intro ⟨sha, member⟩
    exact ⟨_, member, rfl⟩

/-! ## Checks -/

theorem structureCheck_pass_iff {inputs : PreflightInput} :
    (structureCheck inputs).status = .pass ↔
      inputs.plans ≠ [] ∧ (inputs.plans.map PlanInput.virtualUsers).sum = inputs.requestedUsers := by
  unfold structureCheck
  dsimp only
  split
  · rename_i none
    simp [none, failed]
  · rename_i some
    split
    · rename_i differs
      simp [differs, failed]
    · rename_i same
      simp [some, not_not.mp same, passed]

theorem scriptRefCheck_pass_iff {resolved : Dict String String} {unresolved : List String} :
    (scriptRefCheck resolved unresolved).status = .pass ↔ unresolved = [] := by
  unfold scriptRefCheck
  split
  · rename_i some
    simp [some, failed]
  · rename_i none
    simp [not_not.mp none, passed]

theorem planParsesCheck_pass_iff {unresolved failures : List String}
    {summaries : List PlanSummary} :
    (planParsesCheck unresolved failures summaries).status = .pass ↔
      unresolved = [] ∧ failures = [] := by
  unfold planParsesCheck
  split
  · rename_i some
    simp [some, skipped]
  · rename_i none
    split
    · rename_i some
      simp [some, failed]
    · rename_i parsed
      simp [not_not.mp none, not_not.mp parsed, passed]

theorem capacityCheck_pass_iff {inputs : PreflightInput} :
    (capacityCheck inputs).status = .pass ↔
      ∃ free, inputs.freeCapacity = some free ∧ inputs.requestedUsers ≤ free := by
  unfold capacityCheck
  cases inputs.freeCapacity with
  | none => simp [failed]
  | some free =>
      by_cases fits : inputs.requestedUsers ≤ free
      · simp [fits, passed]
      · simp [fits, failed]

/-- Existence is all that is asked of a variable. -/
theorem variablesCheck_pass_iff {summaries : List PlanSummary} {inputs : PreflightInput}
    {blocked : Bool} :
    (variablesCheck rt summaries inputs blocked).status = .pass ↔
      blocked = false ∧ ∀ summary ∈ summaries, ∀ name ∈ summary.variableNames,
        (inputs.values.get? name).isSome = true := by
  unfold variablesCheck
  cases blocked with
  | true => simp [skipped]
  | false =>
      dsimp only
      have present : ((sortedSet rt.sets (summaries.flatMap PlanSummary.variableNames)).filter
            fun name => (inputs.values.get? name).isNone) = [] ↔
          ∀ summary ∈ summaries, ∀ name ∈ summary.variableNames,
            (inputs.values.get? name).isSome = true := by
        rw [List.filter_eq_nil_iff]
        simp only [mem_sortedSet, List.mem_flatMap, Option.isNone_iff_eq_none, ← ne_eq,
          ← Option.isSome_iff_ne_none]
        exact ⟨fun all summary member name inNames => all name ⟨summary, member, inNames⟩,
          fun all name ⟨summary, member, inNames⟩ => all summary member name inNames⟩
      simp only [Bool.false_eq_true, if_false]
      split
      · rename_i missing
        rw [← present]
        simp [missing, failed]
      · rename_i nothing
        rw [← present]
        simp [not_not.mp nothing, passed]

/-- A target that resolves to a permitted host. -/
def Permitted (rt : Runtime) (inputs : PreflightInput) (host : String) : Prop :=
  ∃ resolved, resolveHost host inputs.values = some resolved ∧
    matchesAllowlist rt.ucd resolved inputs.allowlist = true

/-- The hosts of all targets, as `_targets_check` goes over them. -/
def targetHosts (rt : Runtime) (summaries : List PlanSummary) : List String :=
  sortedSet rt.sets (summaries.flatMap fun summary => summary.targets.map PlanTarget.host)

theorem mem_targetHosts {summaries : List PlanSummary} {host : String} :
    host ∈ targetHosts rt summaries ↔
      ∃ summary ∈ summaries, ∃ target ∈ summary.targets, target.host = host := by
  rw [targetHosts, mem_sortedSet, List.mem_flatMap]
  simp only [List.mem_map]

/-- The hosts that stayed unresolved. -/
def unresolvedHosts (inputs : PreflightInput) (hosts : List String) : List String :=
  hosts.filter fun host => (resolveHost host inputs.values).isNone

/-- The resolved hosts that are permitted. -/
def allowedHosts (rt : Runtime) (inputs : PreflightInput) (hosts : List String) : List String :=
  hosts.filterMap fun host =>
    (resolveHost host inputs.values).filter fun resolved =>
      matchesAllowlist rt.ucd resolved inputs.allowlist

/-- The texts of the resolved hosts that are not permitted. -/
def rejectedHosts (rt : Runtime) (inputs : PreflightInput) (hosts : List String) : List String :=
  hosts.filterMap fun host =>
    ((resolveHost host inputs.values).filter fun resolved =>
      !matchesAllowlist rt.ucd resolved inputs.allowlist).map (rejectedText host)

/-- Nothing is unresolved or rejected exactly when every host is permitted. -/
theorem nothing_refused_iff {inputs : PreflightInput} {hosts : List String} :
    unresolvedHosts inputs hosts = [] ∧ rejectedHosts rt inputs hosts = [] ↔
      ∀ host ∈ hosts, Permitted rt inputs host := by
  rw [unresolvedHosts, rejectedHosts, List.filter_eq_nil_iff, List.filterMap_eq_nil_iff,
    ← forall₂_and]
  refine forall₂_congr fun host _ => ?_
  cases found : resolveHost host inputs.values with
  | none => simp [Permitted, found]
  | some resolved => simp [Permitted, found]

/-- `_targets_check` in terms of its three lists. -/
theorem targetsCheck_eq {summaries : List PlanSummary} {inputs : PreflightInput} {blocked : Bool} :
    targetsCheck rt summaries inputs blocked =
      let hosts := targetHosts rt summaries
      let unresolved := unresolvedHosts inputs hosts
      let rejected := rejectedHosts rt inputs hosts
      if blocked then skipped "TARGET_ALLOWED" "Not attempted: no plan was read."
      else if hosts = [] then failed "TARGET_ALLOWED" "The plan names no target to check."
      else if unresolved ≠ [] ∨ rejected ≠ [] then
        failed "TARGET_ALLOWED"
          (join "; "
            ((if rejected ≠ [] then
                ["outside the target policy allowlist: " ++ join ", " rejected] else []) ++
              (if unresolved ≠ [] then ["unresolved: " ++ join ", " unresolved] else [])))
      else
        passed "TARGET_ALLOWED"
          ("Permitted by the target policy: " ++
            join ", " (sortedSet rt.sets (allowedHosts rt inputs hosts))) := rfl

theorem targetsCheck_pass_iff {summaries : List PlanSummary} {inputs : PreflightInput}
    {blocked : Bool} :
    (targetsCheck rt summaries inputs blocked).status = .pass ↔
      blocked = false ∧ targetHosts rt summaries ≠ [] ∧
        ∀ host ∈ targetHosts rt summaries, Permitted rt inputs host := by
  rw [targetsCheck_eq]
  dsimp only
  cases blocked with
  | true => simp [skipped]
  | false =>
      simp only [Bool.false_eq_true, if_false, true_and]
      by_cases none : targetHosts rt summaries = []
      · simp [none, failed]
      · rw [if_neg none, ← nothing_refused_iff]
        split
        · rename_i refused
          have some : ¬ (unresolvedHosts inputs (targetHosts rt summaries) = [] ∧
              rejectedHosts rt inputs (targetHosts rt summaries) = []) := not_and_or.mpr refused
          simp [some, failed]
        · rename_i nothing
          rw [not_or, not_not, not_not] at nothing
          simp [none, nothing, passed]

/-! ## The report -/

/-- Whether `run` reports `VARIABLES_PRESENT` and `TARGET_ALLOWED` as skipped. -/
theorem not_blocked_iff {unresolved failures : List String} :
    (!unresolved.isEmpty || !failures.isEmpty) = false ↔ unresolved = [] ∧ failures = [] := by
  simp

/-- A report is good exactly when all six checks pass. -/
theorem report_ok_iff {inputs : PreflightInput} {resolutions : List Resolution}
    {readings : List (Option Reading)} :
    (report rt inputs resolutions readings).ok = true ↔
      (∀ answer ∈ inputs.plans.zip resolutions, ∃ sha, answer.2 = .ok sha) ∧
      (∀ answer ∈ inputs.plans.zip readings, ∀ sha message,
        answer.2 ≠ some ⟨sha, .error message⟩) ∧
      (∀ summary ∈ summariesOf readings, ∀ name ∈ summary.variableNames,
        (inputs.values.get? name).isSome = true) ∧
      targetHosts rt (summariesOf readings) ≠ [] ∧
      (∀ host ∈ targetHosts rt (summariesOf readings), Permitted rt inputs host) ∧
      inputs.plans ≠ [] ∧ (inputs.plans.map PlanInput.virtualUsers).sum = inputs.requestedUsers ∧
      ∃ free, inputs.freeCapacity = some free ∧ inputs.requestedUsers ≤ free := by
  unfold report
  dsimp only
  rw [List.all_eq_true]
  simp only [List.mem_cons, List.not_mem_nil, or_false, decide_eq_true_eq, forall_eq_or_imp,
    forall_eq, structureCheck_pass_iff, scriptRefCheck_pass_iff, planParsesCheck_pass_iff,
    variablesCheck_pass_iff, targetsCheck_pass_iff, capacityCheck_pass_iff, not_blocked_iff,
    ← unresolvedRefs_eq_nil_iff, ← parseFailures_eq_nil_iff]
  tauto

end Plimsoll.Preflight
