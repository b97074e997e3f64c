import Plimsoll.Git
import Plimsoll.Jmx
import Plimsoll.TargetPolicy
import Mathlib.Algebra.GroupWithZero.Nat
import Mathlib.Algebra.Ring.Int.Defs

/-!
Preflight: the six checks of a test before it runs.

Both loops of `run` go over the plans and ask Git; `resolveRefs` and
`readPlans` keep what it answered, plan by plan, and the report is made from
these answers.
-/

namespace Plimsoll.Preflight

open Python Jmx TargetPolicy

/-! ## Inputs and reports -/

/-- `PlanInput`. -/
structure PlanInput where
  repoName : String
  access : GitAccess
  planPath : String
  ref : String
  virtualUsers : Int

/-- `PreflightInput`. -/
structure PreflightInput where
  requestedUsers : Int
  plans : List PlanInput := []
  allowlist : List String := []
  /-- The stored value of every variable, by name. -/
  values : Dict String String := Dict.empty
  freeCapacity : Option Int := none

/-- `CheckStatus`. -/
inductive CheckStatus where
  | pass
  | fail
  | skipped
deriving DecidableEq, Repr

/-- `Check`. -/
structure Check where
  code : String
  status : CheckStatus
  detail : String
deriving DecidableEq, Repr

/-- `PreflightReport`. -/
structure PreflightReport where
  ok : Bool
  checks : List Check
deriving DecidableEq, Repr

/-- `_passed`. -/
def passed (code detail : String) : Check := { code, status := .pass, detail }

/-- `_failed`. -/
def failed (code detail : String) : Check := { code, status := .fail, detail }

/-- `_skipped`. -/
def skipped (code detail : String) : Check := { code, status := .skipped, detail }

/-! ## The checks -/

/-- `_structure_check`. -/
def structureCheck (inputs : PreflightInput) : Check :=
  let declared := (inputs.plans.map PlanInput.virtualUsers).sum
  if inputs.plans = [] then failed "TEST_STRUCTURE" "The test has no plan to execute."
  else if declared ≠ inputs.requestedUsers then
    failed "TEST_STRUCTURE"
      ("The plans allocate " ++ toString declared ++ " virtual users; the workload asks for " ++
        toString inputs.requestedUsers ++ ".")
  else
    passed "TEST_STRUCTURE"
      (toString inputs.plans.length ++ " plan(s), " ++ toString declared ++ " virtual users.")

variable (rt : Runtime)

/-- `_variables_check`. -/
def variablesCheck (summaries : List PlanSummary) (inputs : PreflightInput) (blocked : Bool) :
    Check :=
  if blocked then skipped "VARIABLES_PRESENT" "Not attempted: no plan was read."
  else
    let referenced := sortedSet rt.sets (summaries.flatMap PlanSummary.variableNames)
    let missing := referenced.filter fun name => (inputs.values.get? name).isNone
    if missing ≠ [] then
      failed "VARIABLES_PRESENT"
        ("The plan references variables with no stored value: " ++ join ", " missing)
    else
      passed "VARIABLES_PRESENT"
        (if referenced ≠ [] then toString referenced.length ++ " variable(s) resolved."
        else "No variables referenced.")

/-- `WHOLE_VARIABLE`. -/
def wholeVariable : Regex :=
  .seq .atStart (.seq (.char (· == '$')) (.seq (.char (· == '\x7b'))
    (.seq (.group (.seq (.char startChar) (.repeated wordChar 0 none)))
      (.seq (.char (· == '\x7d')) .atEnd))))

/-- The variable a host consists of, if it is one reference and nothing else. -/
def wholeReference (host : String) : Option String :=
  (wholeVariable.firstMatch (strip host)).map fun stop => String.ofList (stop.group.getD [])

/-- `_resolve_host`. -/
def resolveHost (host : String) (values : Dict String String) : Option String :=
  match wholeReference host with
  | none => if contains host "$\x7b" then none else some host
  | some name => values.get? name

/-- How `_targets_check` shows a host it rejects. -/
def rejectedText (host resolved : String) : String :=
  if resolved = host then resolved else resolved ++ " (from " ++ host ++ ")"

/-- `_targets_check`. -/
def targetsCheck (summaries : List PlanSummary) (inputs : PreflightInput) (blocked : Bool) : Check :=
  if blocked then skipped "TARGET_ALLOWED" "Not attempted: no plan was read."
  else
    let hosts := sortedSet rt.sets
      (summaries.flatMap fun summary => summary.targets.map PlanTarget.host)
    if hosts = [] then failed "TARGET_ALLOWED" "The plan names no target to check."
    else
      let unresolved := hosts.filter fun host => (resolveHost host inputs.values).isNone
      let allowed := hosts.filterMap fun host =>
        (resolveHost host inputs.values).filter fun resolved =>
          matchesAllowlist rt.ucd resolved inputs.allowlist
      let rejected := hosts.filterMap fun host =>
        ((resolveHost host inputs.values).filter fun resolved =>
          !matchesAllowlist rt.ucd resolved inputs.allowlist).map (rejectedText host)
      if unresolved ≠ [] ∨ rejected ≠ [] then
        let reasons :=
          (if rejected ≠ [] then
            ["outside the target policy allowlist: " ++ join ", " rejected] else []) ++
          (if unresolved ≠ [] then ["unresolved: " ++ join ", " unresolved] else [])
        failed "TARGET_ALLOWED" (join "; " reasons)
      else
        passed "TARGET_ALLOWED"
          ("Permitted by the target policy: " ++ join ", " (sortedSet rt.sets allowed))

/-- `_capacity_check`. -/
def capacityCheck (inputs : PreflightInput) : Check :=
  match inputs.freeCapacity with
  | none => failed "CAPACITY" "The test's generator pool no longer exists or is not active."
  | some free =>
      if inputs.requestedUsers ≤ free then
        passed "CAPACITY" (toString inputs.requestedUsers ++ " of " ++ toString free ++ " available.")
      else
        failed "CAPACITY"
          ("The test asks for " ++ toString inputs.requestedUsers ++
            " virtual users; the pool has " ++ toString free ++ " available.")

/-! ## Asking Git -/

variable {W : Type}

/-- What the first loop has of a plan: the commit its ref names, or the text of
the `GitError`. -/
abbrev Resolution := Except String String

/-- One round of the first loop. -/
def resolvePlan (git : Git W) (plan : PlanInput) : Action W Resolution := fun w =>
  match git.resolveRef plan.access plan.ref w with
  | (.ok resolution, w) => (.ok (.ok resolution.sha), w)
  | (.error (.gitError message), w) => (.ok (.error message), w)
  | (.error exc, w) => (.error exc, w)

/-- The first loop: every ref resolves, and failures do not stop it. -/
def resolveRefs (git : Git W) : List PlanInput → Action W (List Resolution) :=
  Action.forEach (resolvePlan git)

/-- `resolved`: the commits by repository name, a later plan's over an earlier
one's. -/
def resolvedByName (answers : List (PlanInput × Resolution)) : Dict String String :=
  answers.foldl
    (fun resolved answer =>
      match answer.2 with
      | .ok sha => resolved.set answer.1.repoName sha
      | .error _ => resolved)
    Dict.empty

/-- `unresolved`. -/
def unresolvedRefs (answers : List (PlanInput × Resolution)) : List String :=
  answers.filterMap fun answer =>
    match answer.2 with
    | .ok _ => none
    | .error message =>
        some (answer.1.repoName ++ " at " ++ answer.1.ref ++ ": " ++ message)

/-- What the second loop has of a plan: the commit it was read at, and its
summary or the text of what was raised. -/
structure Reading where
  sha : String
  outcome : Except String PlanSummary

/-- The text of an exception that the second loop catches. -/
def caught : Raised → Option String
  | .gitError message => some message
  | .osError message => some message
  | .planParseError message => some message
  | _ => none

/-- One fetch: the plan's file at the commit `sha`, parsed. -/
def readPlan (git : Git W) (plan : PlanInput) (sha : String) : Action W PlanSummary := fun w =>
  match git.fetchPlan plan.access sha plan.planPath w with
  | (.error exc, w) => (.error exc, w)
  | (.ok checkout, w) =>
      ((checkout.files.readText rt (checkout.root.join plan.planPath)).bind (parsePlan rt), w)

/-- One round of the second loop: a plan whose repository name has a commit is
read at that commit. -/
def readResolved (git : Git W) (resolved : Dict String String) (plan : PlanInput) :
    Action W (Option Reading) := fun w =>
  match resolved.get? plan.repoName with
  | none => (.ok none, w)
  | some sha =>
      match readPlan rt git plan sha w with
      | (.ok summary, w) => (.ok (some ⟨sha, .ok summary⟩), w)
      | (.error exc, w) =>
          match caught exc with
          | some message => (.ok (some ⟨sha, .error message⟩), w)
          | none => (.error exc, w)

/-- The second loop. -/
def readPlans (git : Git W) (resolved : Dict String String) :
    List PlanInput → Action W (List (Option Reading)) :=
  Action.forEach (readResolved rt git resolved)

/-- `summaries`. -/
def summariesOf (readings : List (Option Reading)) : List PlanSummary :=
  readings.filterMap fun reading =>
    match reading with
    | some ⟨_, .ok summary⟩ => some summary
    | _ => none

/-- `parse_failures`. -/
def parseFailures (answers : List (PlanInput × Option Reading)) : List String :=
  answers.filterMap fun answer =>
    match answer.2 with
    | some ⟨_, .error message⟩ => some (answer.1.repoName ++ ": " ++ message)
    | _ => none

/-! ## The report -/

/-- `sha[:8]`. -/
def shortSha (sha : String) : String := String.ofList (sha.toList.take 8)

def scriptRefCheck (resolved : Dict String String) (unresolved : List String) : Check :=
  if unresolved ≠ [] then failed "SCRIPT_REF" (join "; " unresolved)
  else
    let named := join ", " (resolved.items.map fun item => item.1 ++ "@" ++ shortSha item.2)
    passed "SCRIPT_REF" (if named = "" then "No ref to resolve." else named)

def planParsesCheck (unresolved failures : List String) (summaries : List PlanSummary) : Check :=
  if unresolved ≠ [] then skipped "PLAN_PARSES" "Not attempted: a ref did not resolve."
  else if failures ≠ [] then failed "PLAN_PARSES" (join "; " failures)
  else passed "PLAN_PARSES" (toString summaries.length ++ " plan(s) parsed.")

/-- The report on what Git answered. -/
def report (inputs : PreflightInput) (resolutions : List Resolution)
    (readings : List (Option Reading)) : PreflightReport :=
  let answers := inputs.plans.zip resolutions
  let unresolved := unresolvedRefs answers
  let summaries := summariesOf readings
  let failures := parseFailures (inputs.plans.zip readings)
  let blocked := !unresolved.isEmpty || !failures.isEmpty
  let checks :=
    [ structureCheck inputs,
      scriptRefCheck (resolvedByName answers) unresolved,
      planParsesCheck unresolved failures summaries,
      variablesCheck rt summaries inputs blocked,
      targetsCheck rt summaries inputs blocked,
      capacityCheck inputs ]
  { ok := checks.all fun check => check.status = .pass, checks }

/-- `run`. -/
def run (git : Git W) (inputs : PreflightInput) : Action W PreflightReport := fun w =>
  match resolveRefs git inputs.plans w with
  | (.error exc, w) => (.error exc, w)
  | (.ok resolutions, w) =>
      match readPlans rt git (resolvedByName (inputs.plans.zip resolutions)) inputs.plans w with
      | (.error exc, w) => (.error exc, w)
      | (.ok readings, w) => (.ok (report rt inputs resolutions readings), w)

end Plimsoll.Preflight
