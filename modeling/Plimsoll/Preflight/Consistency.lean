import Plimsoll.Preflight.PerPlan

/-!
The shape of a preflight report, whatever Git answers.

All that the report has of the two loops is the list of refs that did not resolve and
the list of plans that were not read: which checks are skipped is decided by whether
these lists are empty.
-/

namespace Plimsoll

/-- A loop whose rounds all return returns. -/
theorem Action.forEach_returns {W α β : Type} {body : α → Action W β} {xs : List α}
    (returns : ∀ x ∈ xs, ∀ w, ∃ y w', body x w = (.ok y, w')) (w : W) :
    ∃ ys w', Action.forEach body xs w = (.ok ys, w') := by
  induction xs generalizing w with
  | nil => exact ⟨[], w, rfl⟩
  | cons x rest ih =>
      obtain ⟨y, w₁, first⟩ := returns x List.mem_cons_self w
      obtain ⟨ys, w₂, later⟩ := ih (fun x member => returns x (List.mem_cons_of_mem _ member)) w₁
      refine ⟨y :: ys, w₂, ?_⟩
      rw [Action.forEach, Action.bind_apply, first]
      simp only [Action.bind_apply, later, Action.pure_apply]

namespace Preflight

open Python Jmx TargetPolicy

variable {rt : Runtime} {W : Type} {git : Git W} {inputs : PreflightInput}

/-! ## Every failure is one that `run` expects -/

/-- Resolving a ref raises at most a `GitError`, and reading a plan at most a `GitError`,
an `OSError` or a `PlanParseError`. -/
structure Expected (rt : Runtime) (git : Git W) (plans : List PlanInput) : Prop where
  resolves : ∀ plan ∈ plans, ∀ w exc w',
    git.resolveRef plan.access plan.ref w = (.error exc, w') → ∃ message, exc = .gitError message
  reads : ∀ plan ∈ plans, ∀ sha w exc w',
    readPlan rt git plan sha w = (.error exc, w') → ∃ message, caught exc = some message

theorem resolvePlan_returns {plan : PlanInput}
    (resolves : ∀ w exc w', git.resolveRef plan.access plan.ref w = (.error exc, w') →
      ∃ message, exc = .gitError message) (w : W) :
    ∃ resolution w', resolvePlan git plan w = (.ok resolution, w') := by
  unfold resolvePlan
  cases asked : git.resolveRef plan.access plan.ref w with
  | mk outcome w₁ =>
      cases outcome with
      | ok resolution => exact ⟨_, _, rfl⟩
      | error exc =>
          obtain ⟨message, rfl⟩ := resolves w exc w₁ asked
          exact ⟨_, _, rfl⟩

theorem readResolved_returns {plan : PlanInput}
    (reads : ∀ sha w exc w', readPlan rt git plan sha w = (.error exc, w') →
      ∃ message, caught exc = some message) (resolved : Dict String String) (w : W) :
    ∃ reading w', readResolved rt git resolved plan w = (.ok reading, w') := by
  unfold readResolved
  cases resolved.get? plan.repoName with
  | none => exact ⟨_, _, rfl⟩
  | some sha =>
      dsimp only
      cases read : readPlan rt git plan sha w with
      | mk outcome w₁ =>
          cases outcome with
          | ok summary => exact ⟨_, _, rfl⟩
          | error exc =>
              obtain ⟨message, text⟩ := reads sha w exc w₁ read
              dsimp only
              rw [text]
              exact ⟨_, _, rfl⟩

/-- Then there is a report. -/
theorem run_returns (expected : Expected rt git inputs.plans) (w : W) :
    ∃ result w', run rt git inputs w = (.ok result, w') := by
  obtain ⟨resolutions, w₁, first⟩ := Action.forEach_returns
    (fun plan member => resolvePlan_returns (expected.resolves plan member)) w
  obtain ⟨readings, w₂, second⟩ := Action.forEach_returns
    (fun plan member => readResolved_returns (expected.reads plan member)
      (resolvedByName (inputs.plans.zip resolutions))) w₁
  exact ⟨_, w₂, run_ok_iff.mpr ⟨resolutions, w₁, readings, first, second, rfl⟩⟩

/-! ## The codes -/

theorem structureCheck_code : (structureCheck inputs).code = "TEST_STRUCTURE" := by
  unfold structureCheck
  dsimp only
  split
  · rfl
  · split <;> rfl

theorem scriptRefCheck_code {resolved : Dict String String} {unresolved : List String} :
    (scriptRefCheck resolved unresolved).code = "SCRIPT_REF" := by
  unfold scriptRefCheck
  split <;> rfl

theorem planParsesCheck_code {unresolved failures : List String} {summaries : List PlanSummary} :
    (planParsesCheck unresolved failures summaries).code = "PLAN_PARSES" := by
  unfold planParsesCheck
  split
  · rfl
  · split <;> rfl

theorem variablesCheck_code {summaries : List PlanSummary} {blocked : Bool} :
    (variablesCheck rt summaries inputs blocked).code = "VARIABLES_PRESENT" := by
  unfold variablesCheck
  dsimp only
  split
  · rfl
  · split <;> rfl

theorem targetsCheck_code {summaries : List PlanSummary} {blocked : Bool} :
    (targetsCheck rt summaries inputs blocked).code = "TARGET_ALLOWED" := by
  unfold targetsCheck
  dsimp only
  split
  · rfl
  · split
    · rfl
    · split <;> rfl

theorem capacityCheck_code : (capacityCheck inputs).code = "CAPACITY" := by
  unfold capacityCheck
  split
  · rfl
  · split <;> rfl

/-! ## Which checks are skipped -/

theorem structureCheck_ne_skipped : (structureCheck inputs).status ≠ .skipped := by
  unfold structureCheck
  dsimp only
  split
  · decide
  · split
    · intro same
      cases same
    · intro same
      cases same

theorem scriptRefCheck_fail_iff {resolved : Dict String String} {unresolved : List String} :
    (scriptRefCheck resolved unresolved).status = .fail ↔ unresolved ≠ [] := by
  unfold scriptRefCheck
  split
  · rename_i some
    exact ⟨fun _ => some, fun _ => rfl⟩
  · rename_i none
    exact ⟨fun same => (nomatch same), fun some => absurd some none⟩

theorem scriptRefCheck_ne_skipped {resolved : Dict String String} {unresolved : List String} :
    (scriptRefCheck resolved unresolved).status ≠ .skipped := by
  unfold scriptRefCheck
  split
  · exact fun same => nomatch same
  · exact fun same => nomatch same

theorem planParsesCheck_skipped_iff {unresolved failures : List String}
    {summaries : List PlanSummary} :
    (planParsesCheck unresolved failures summaries).status = .skipped ↔ unresolved ≠ [] := by
  unfold planParsesCheck
  split
  · rename_i some
    exact ⟨fun _ => some, fun _ => rfl⟩
  · rename_i none
    refine ⟨fun same => ?_, fun some => absurd some none⟩
    split at same
    · cases same
    · cases same

theorem variablesCheck_skipped_iff {summaries : List PlanSummary} {blocked : Bool} :
    (variablesCheck rt summaries inputs blocked).status = .skipped ↔ blocked = true := by
  unfold variablesCheck
  dsimp only
  split
  · rename_i isBlocked
    exact ⟨fun _ => isBlocked, fun _ => rfl⟩
  · rename_i open_
    refine ⟨fun same => ?_, fun isBlocked => absurd isBlocked open_⟩
    split at same
    · cases same
    · cases same

theorem targetsCheck_skipped_iff {summaries : List PlanSummary} {blocked : Bool} :
    (targetsCheck rt summaries inputs blocked).status = .skipped ↔ blocked = true := by
  unfold targetsCheck
  dsimp only
  split
  · rename_i isBlocked
    exact ⟨fun _ => isBlocked, fun _ => rfl⟩
  · rename_i open_
    refine ⟨fun same => ?_, fun isBlocked => absurd isBlocked open_⟩
    split at same
    · cases same
    · split at same
      · cases same
      · cases same

theorem capacityCheck_ne_skipped : (capacityCheck inputs).status ≠ .skipped := by
  unfold capacityCheck
  split
  · exact fun same => nomatch same
  · split
    · exact fun same => nomatch same
    · exact fun same => nomatch same

/-- Nothing is permitted by an empty allowlist. -/
theorem not_permitted_of_empty {host : String} (empty : inputs.allowlist = []) :
    ¬ Permitted rt inputs host := by
  rintro ⟨resolved, -, matched⟩
  rw [empty, matchesAllowlist_nil] at matched
  cases matched

/-! ## The report -/

/-- The codes of the six checks, in their order. -/
def codes : List String :=
  ["TEST_STRUCTURE", "SCRIPT_REF", "PLAN_PARSES", "VARIABLES_PRESENT", "TARGET_ALLOWED", "CAPACITY"]

/-- The status of the check with this code. -/
def PreflightReport.status (result : PreflightReport) (code : String) : Option CheckStatus :=
  (result.checks.find? fun check => check.code = code).map Check.status

/-- A report is whole, and its statuses agree with each other. -/
structure Consistent (inputs : PreflightInput) (result : PreflightReport) : Prop where
  codes : result.checks.map Check.code = codes
  never_skipped : ∀ code ∈ ["TEST_STRUCTURE", "SCRIPT_REF", "CAPACITY"],
    result.status code ≠ some .skipped
  derived_skipped : ∀ code ∈ ["VARIABLES_PRESENT", "TARGET_ALLOWED"],
    result.status code = some .skipped ↔
      ¬ (result.status "SCRIPT_REF" = some .pass ∧ result.status "PLAN_PARSES" = some .pass)
  parses_skipped :
    result.status "PLAN_PARSES" = some .skipped ↔ result.status "SCRIPT_REF" = some .fail
  ok_iff : result.ok = true ↔ ∀ check ∈ result.checks, check.status = .pass
  empty_allowlist : inputs.allowlist = [] → result.ok = false

section

variable {resolutions : List Resolution} {readings : List (Option Reading)}

/-- The refs that did not resolve, and the plans that were not read. -/
def refsUnresolved (inputs : PreflightInput) (resolutions : List Resolution) : List String :=
  unresolvedRefs (inputs.plans.zip resolutions)

def plansUnread (inputs : PreflightInput) (readings : List (Option Reading)) : List String :=
  parseFailures (inputs.plans.zip readings)

theorem report_codes : (report rt inputs resolutions readings).checks.map Check.code = codes := by
  simp only [report, List.map_cons, List.map_nil, structureCheck_code, scriptRefCheck_code,
    planParsesCheck_code, variablesCheck_code, targetsCheck_code, capacityCheck_code, codes]

theorem status_structure : (report rt inputs resolutions readings).status "TEST_STRUCTURE" =
    some (structureCheck inputs).status := by
  simp [PreflightReport.status, report, structureCheck_code]

theorem status_scriptRef : (report rt inputs resolutions readings).status "SCRIPT_REF" =
    some (scriptRefCheck (resolvedByName (inputs.plans.zip resolutions))
      (refsUnresolved inputs resolutions)).status := by
  simp [PreflightReport.status, report, structureCheck_code, scriptRefCheck_code, refsUnresolved]

theorem status_planParses : (report rt inputs resolutions readings).status "PLAN_PARSES" =
    some (planParsesCheck (refsUnresolved inputs resolutions) (plansUnread inputs readings)
      (summariesOf readings)).status := by
  simp [PreflightReport.status, report, structureCheck_code, scriptRefCheck_code,
    planParsesCheck_code, refsUnresolved, plansUnread]

theorem status_variables : (report rt inputs resolutions readings).status "VARIABLES_PRESENT" =
    some (variablesCheck rt (summariesOf readings) inputs
      (!(refsUnresolved inputs resolutions).isEmpty || !(plansUnread inputs readings).isEmpty)).status := by
  simp [PreflightReport.status, report, structureCheck_code, scriptRefCheck_code,
    planParsesCheck_code, variablesCheck_code, refsUnresolved, plansUnread]

theorem status_targets : (report rt inputs resolutions readings).status "TARGET_ALLOWED" =
    some (targetsCheck rt (summariesOf readings) inputs
      (!(refsUnresolved inputs resolutions).isEmpty || !(plansUnread inputs readings).isEmpty)).status := by
  simp [PreflightReport.status, report, structureCheck_code, scriptRefCheck_code,
    planParsesCheck_code, variablesCheck_code, targetsCheck_code, refsUnresolved, plansUnread]

theorem status_capacity : (report rt inputs resolutions readings).status "CAPACITY" =
    some (capacityCheck inputs).status := by
  simp [PreflightReport.status, report, structureCheck_code, scriptRefCheck_code,
    planParsesCheck_code, variablesCheck_code, targetsCheck_code, capacityCheck_code]

theorem blocked_iff {unresolved failures : List String} {resolved : Dict String String}
    {summaries : List PlanSummary} :
    (!unresolved.isEmpty || !failures.isEmpty) = true ↔
      ¬ ((scriptRefCheck resolved unresolved).status = .pass ∧
        (planParsesCheck unresolved failures summaries).status = .pass) := by
  rw [scriptRefCheck_pass_iff, planParsesCheck_pass_iff, and_self_left, ← not_blocked_iff,
    Bool.not_eq_false]

theorem report_consistent : Consistent inputs (report rt inputs resolutions readings) where
  codes := report_codes
  never_skipped := by
    intro code member
    simp only [List.mem_cons, List.not_mem_nil, or_false] at member
    rcases member with rfl | rfl | rfl
    · rw [status_structure]
      exact fun same => structureCheck_ne_skipped (Option.some.inj same)
    · rw [status_scriptRef]
      exact fun same => scriptRefCheck_ne_skipped (Option.some.inj same)
    · rw [status_capacity]
      exact fun same => capacityCheck_ne_skipped (Option.some.inj same)
  derived_skipped := by
    intro code member
    rw [status_scriptRef, status_planParses]
    simp only [List.mem_cons, List.not_mem_nil, or_false] at member
    rcases member with rfl | rfl
    · rw [status_variables, Option.some.injEq, Option.some.injEq, Option.some.injEq,
        variablesCheck_skipped_iff, blocked_iff]
    · rw [status_targets, Option.some.injEq, Option.some.injEq, Option.some.injEq,
        targetsCheck_skipped_iff, blocked_iff]
  parses_skipped := by
    rw [status_scriptRef, status_planParses, Option.some.injEq, Option.some.injEq,
      planParsesCheck_skipped_iff, scriptRefCheck_fail_iff]
  ok_iff := by
    simp only [report, List.all_eq_true, decide_eq_true_eq]
  empty_allowlist := by
    intro empty
    rw [← Bool.not_eq_true, report_ok_iff]
    rintro ⟨-, -, -, some, permitted, -⟩
    obtain ⟨host, member⟩ := List.exists_mem_of_ne_nil _ some
    exact not_permitted_of_empty empty (permitted host member)

/-- Two reports of tests that declare the same users and have the same capacity begin and
end with the same checks. -/
theorem report_ends {rt' : Runtime} {other : PreflightInput} {resolutions' : List Resolution}
    {readings' : List (Option Reading)}
    (users : other.plans.map PlanInput.virtualUsers = inputs.plans.map PlanInput.virtualUsers)
    (requested : other.requestedUsers = inputs.requestedUsers)
    (capacity : other.freeCapacity = inputs.freeCapacity) :
    (report rt' other resolutions' readings').checks.head? =
        (report rt inputs resolutions readings).checks.head? ∧
      (report rt' other resolutions' readings').checks.getLast? =
        (report rt inputs resolutions readings).checks.getLast? := by
  have lengths : other.plans.length = inputs.plans.length := by
    simpa using congrArg List.length users
  have none_iff : other.plans = [] ↔ inputs.plans = [] := by
    rw [← List.length_eq_zero_iff, ← List.length_eq_zero_iff, lengths]
  have sameStructure : structureCheck other = structureCheck inputs := by
    simp only [structureCheck, users, requested, lengths, none_iff]
  have sameCapacity : capacityCheck other = capacityCheck inputs := by
    rw [capacityCheck, capacityCheck, capacity, requested]
  exact ⟨congrArg some sameStructure, congrArg some sameCapacity⟩

end

/-- For every pattern of failures there is a report, it is whole and agrees with itself,
and its first and its last check do not depend on what Git answered. -/
theorem run_consistent (expected : Expected rt git inputs.plans) (w : W) :
    ∃ result w', run rt git inputs w = (.ok result, w') ∧ Consistent inputs result ∧
      ∀ (rt' : Runtime) (V : Type) (git' : Git V) (other : PreflightInput) (v v' : V)
        (result' : PreflightReport), run rt' git' other v = (.ok result', v') →
        other.plans.map PlanInput.virtualUsers = inputs.plans.map PlanInput.virtualUsers →
        other.requestedUsers = inputs.requestedUsers → other.freeCapacity = inputs.freeCapacity →
          result'.checks.head? = result.checks.head? ∧
            result'.checks.getLast? = result.checks.getLast? := by
  obtain ⟨result, w', ran⟩ := run_returns expected w
  refine ⟨result, w', ran, ?_⟩
  obtain ⟨resolutions, w₁, readings, -, -, rfl⟩ := run_ok_iff.mp ran
  refine ⟨report_consistent, ?_⟩
  intro rt' V git' other v v' result' ran' users requested capacity
  obtain ⟨resolutions', v₁, readings', -, -, rfl⟩ := run_ok_iff.mp ran'
  exact report_ends users requested capacity

/-- A Git that resolves `v1` only, and fetches nothing. -/
def onlyV1 : Git Unit where
  resolveRef _ ref w :=
    (if ref = "v1" then .ok ⟨"1111111111111111111111111111111111111111"⟩
      else .error (.gitError "fatal: no such ref"), w)
  fetchPlan _ _ _ w := (.error (.gitError "fatal: unable to access"), w)

theorem expected_onlyV1 {plans : List PlanInput} : Expected rt onlyV1 plans where
  resolves := by
    intro plan _ w exc w' asked
    simp only [onlyV1, Prod.mk.injEq] at asked
    split at asked
    · cases asked.1
    · exact ⟨_, (Except.error.inj asked.1).symm⟩
  reads := by
    intro plan _ sha w exc w' read
    obtain ⟨rfl, -⟩ : .gitError "fatal: unable to access" = exc ∧ w = w' := by
      simpa [readPlan, onlyV1] using read
    exact ⟨_, rfl⟩

/-- One ref that does not resolve, and one plan that is not read. -/
theorem run_consistent_failing :
    ∃ result w', run (reading sampleText samplePlan) onlyV1
        { requestedUsers := 2, plans := [loadPlan "v1", loadPlan "v2"] } () = (.ok result, w') ∧
      Consistent { requestedUsers := 2, plans := [loadPlan "v1", loadPlan "v2"] } result ∧
      ∀ (rt' : Runtime) (V : Type) (git' : Git V) (other : PreflightInput) (v v' : V)
        (result' : PreflightReport), run rt' git' other v = (.ok result', v') →
        other.plans.map PlanInput.virtualUsers =
          [loadPlan "v1", loadPlan "v2"].map PlanInput.virtualUsers →
        other.requestedUsers = 2 → other.freeCapacity = none →
          result'.checks.head? = result.checks.head? ∧
            result'.checks.getLast? = result.checks.getLast? :=
  run_consistent expected_onlyV1 ()

end Preflight

end Plimsoll
