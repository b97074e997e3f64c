import Plimsoll.Database.Rows
import Plimsoll.Verify

/-!
`services/script_versions.py`: the commit, the checksum and the summary that a
pin is made from.
-/

namespace Plimsoll.ScriptVersions

open Python Jmx

/-- `PinCandidate`. -/
structure PinCandidate where
  sha : String
  checksum : String
  summary : PlanSummary
deriving DecidableEq, Repr

/-- `summary_as_metadata`. -/
def summaryAsMetadata (summary : PlanSummary) : PlanMetadata where
  threadGroups := summary.threadGroups
  transactionControllers := summary.transactionControllers
  timers := summary.timers
  variableNames := summary.variableNames
  dataFiles := summary.dataFiles
  targets := summary.targets.map fun target =>
    { scheme := target.scheme, host := target.host, port := target.port }

variable (rt : Runtime)

/-- A `GitError` of `resolve_ref`, as `resolve_for_pin` raises it again. -/
def unresolvable (ref : String) : Raised → Raised
  | .gitError message =>
      .plimsollError {
        code := .repoUnreachable
        message := "Could not resolve " ++ rt.ucd.repr ref ++ ": " ++ message
        details := [("ref", .text ref)] }
  | exc => exc

/-- A `PlanParseError`, as `resolve_for_pin` raises it again. -/
def unparseable : Raised → Raised
  | .planParseError message =>
      .plimsollError {
        code := .validationFailed
        message := "The plan does not parse: " ++ message }
  | exc => exc

/-- What `resolve_for_pin` makes of an open checkout. -/
def candidate (checkout : Checkout) (sha planPath : String) : Except Raised PinCandidate := do
  let planFile := checkout.root.join planPath
  if ← checkout.files.isFile planFile then
    let content ← checkout.files.readBytes planFile
    let summary ← ((checkout.files.readText rt planFile).bind (parsePlan rt)).mapError unparseable
    return { sha, checksum := rt.sha256 content, summary }
  else
    .error (.plimsollError {
      code := .validationFailed
      message := "No plan at " ++ planPath ++ " in commit " ++ sha ++ "." })

variable {W : Type}

/-- `resolve_for_pin`. -/
def resolveForPin (git : Git W) (access : GitAccess) (planPath ref : String) :
    Action W PinCandidate :=
  fun w =>
    match git.resolveRef access ref w with
    | (.error exc, w) => (.error (unresolvable rt ref exc), w)
    | (.ok resolution, w) =>
        match git.fetchPlan access resolution.sha planPath w with
        | (.error exc, w) => (.error (Verify.unreadable exc), w)
        | (.ok checkout, w) =>
            ((candidate rt checkout resolution.sha planPath).mapError Verify.unreadable, w)

end Plimsoll.ScriptVersions
