import Plimsoll.Contracts.Scripts
import Plimsoll.Git
import Plimsoll.Jmx
import Plimsoll.Manifest

/-!
`services/verify.py`: a report on one plan of a repository at one ref. A
repository that does not conform is reported with every finding at once.
-/

namespace Plimsoll.Verify

open Python Jmx Manifests Contracts

/-- `MANIFEST_NAME`. -/
def manifestName : String := "plimsoll.yaml"

/-- `_error`. -/
def errorFinding (code message : String) (location : Option String := none) : Finding :=
  { code, severity := .error, message, location }

/-- `_warning`. -/
def warningFinding (code message : String) (location : Option String := none) : Finding :=
  { code, severity := .warning, message, location }

/-- `(root / plan_path).parent`. -/
def planDirectory (root : PurePath) (planPath : String) : PurePath := (root.join planPath).parent

/-! ## The manifest of a plan -/

theorem parts_parent_lt {root directory : PurePath} (inside : root ∈ directory.parents) :
    directory.parent.parts.length < directory.parts.length := by
  rw [PurePath.parents, List.mem_map] at inside
  obtain ⟨n, inRange, -⟩ := inside
  have below : n < directory.parts.length := List.mem_range.mp inRange
  rw [PurePath.parent, List.length_dropLast]
  omega

/-- The loop of `_find_manifest`, from `directory` upward. -/
def findManifestFrom (files : FileView) (root directory : PurePath) :
    Except Raised (Option PurePath) :=
  match files.isFile (directory.join manifestName) with
  | .error exc => .error exc
  | .ok true => .ok (some (directory.join manifestName))
  | .ok false =>
      if directory = root ∨ root ∉ directory.parents then .ok none
      else findManifestFrom files root directory.parent
termination_by directory.parts.length
decreasing_by
  rename_i goesOn
  exact parts_parent_lt (not_not.mp (not_or.mp goesOn).2)

section

variable {files : FileView} {root directory : PurePath}

theorem findManifestFrom_found (asked : files.isFile (directory.join manifestName) = .ok true) :
    findManifestFrom files root directory = .ok (some (directory.join manifestName)) := by
  rw [findManifestFrom, asked]

theorem findManifestFrom_stop (asked : files.isFile (directory.join manifestName) = .ok false)
    (stop : directory = root ∨ root ∉ directory.parents) :
    findManifestFrom files root directory = .ok none := by
  rw [findManifestFrom, asked]
  exact if_pos stop

theorem findManifestFrom_up (asked : files.isFile (directory.join manifestName) = .ok false)
    (goesOn : ¬(directory = root ∨ root ∉ directory.parents)) :
    findManifestFrom files root directory = findManifestFrom files root directory.parent := by
  rw [findManifestFrom, asked]
  exact if_neg goesOn

end

/-- `_find_manifest`. -/
def findManifest (files : FileView) (root : PurePath) (planPath : String) :
    Except Raised (Option PurePath) :=
  findManifestFrom files root (planDirectory root planPath)

/-- The entry of the manifest that a plan is checked against: the first whose
path ends in the plan's file name. -/
def governingEntry (manifest : Manifest) (planPath : String) : Option ManifestPlan :=
  manifest.plans.find? fun plan =>
    (PurePath.ofString plan.path).name = (PurePath.ofString planPath).name

/-! ## Findings -/

/-- `_unresolved_targets`. -/
def unresolvedTargets (summary : PlanSummary) (planPath : String) : List Finding :=
  (summary.targets.filter fun target => contains target.host "$\x7b").map fun target =>
    warningFinding "TARGET_UNRESOLVED"
      ("Target host " ++ target.host ++ " is a variable; it is checked against the target " ++
        "policy at preflight, when its value is known.")
      planPath

def dataFileMissing (path : String) : Finding :=
  errorFinding "DATA_FILE_MISSING"
    (path ++ " is declared in the manifest but absent at this commit.") manifestName

def dataFileUndeclared (planPath referenced : String) : Finding :=
  errorFinding "DATA_FILE_UNDECLARED"
    ("The plan reads " ++ referenced ++ ", which is neither declared nor present.") planPath

/-- One finding for each path that names no file in a directory. -/
def missingFiles (files : FileView) (directory : PurePath) (finding : String → Finding) :
    List String → Except Raised (List Finding)
  | [] => .ok []
  | path :: rest => do
      let present ← files.isFile (directory.join path)
      let others ← missingFiles files directory finding rest
      return if present then others else finding path :: others

/-- The paths an entry declares. -/
def declaredPaths (entry : ManifestPlan) : List String := entry.data.map ManifestData.path

/-- The files a plan reads that an entry does not declare. -/
def undeclaredFiles (entry : ManifestPlan) (summary : PlanSummary) : List String :=
  summary.dataFiles.filter fun referenced => referenced ∉ declaredPaths entry

variable (rt : Runtime)

/-- The finding for variables an entry does not declare, if there are any. -/
def undeclaredVariables (entry : ManifestPlan) (summary : PlanSummary) : List Finding :=
  let undeclared := sortedSet rt.sets
    (summary.variableNames.filter fun name => name ∉ entry.variableNames)
  if undeclared = [] then []
  else
    [errorFinding "VARIABLE_NOT_DECLARED"
      ("The plan references variables the manifest does not declare: " ++ join ", " undeclared)
      manifestName]

/-- `_manifest_findings`. -/
def manifestFindings (files : FileView) (manifest : Manifest) (planPath : String)
    (summary : PlanSummary) (root : PurePath) : Except Raised (List Finding) :=
  match governingEntry manifest planPath with
  | none =>
      .ok [errorFinding "PLAN_NOT_DECLARED"
        (planPath ++ " is not listed under \x60plans\x60 in the manifest.") manifestName]
  | some entry => do
      let directory := planDirectory root planPath
      let missing ← missingFiles files directory dataFileMissing (declaredPaths entry)
      let undeclared ← missingFiles files directory (dataFileUndeclared planPath)
        (undeclaredFiles entry summary)
      return missing ++ undeclared ++ undeclaredVariables rt entry summary

/-! ## The report -/

/-- What `run` has read of a checkout before it compares the manifest with the
plan. -/
structure Reading where
  findings : List Finding
  summary : Option PlanSummary := none
  manifest : Option Manifest := none

/-- The plan's part of `run`: its findings, and its summary if it parses. -/
def readPlan (files : FileView) (planFile : PurePath) (planPath : String) :
    Except Raised (List Finding × Option PlanSummary) :=
  match (files.readText rt planFile).bind (parsePlan rt) with
  | .ok summary => .ok (unresolvedTargets summary planPath, some summary)
  | .error (.planParseError message) =>
      .ok ([errorFinding "PLAN_UNPARSEABLE" message planPath], none)
  | .error exc => .error exc

/-- The manifest's part of `run`. A manifest is optional. -/
def readManifest (files : FileView) (root : PurePath) (planPath : String) :
    Except Raised (List Finding × Option Manifest) :=
  match findManifest files root planPath with
  | .error exc => .error exc
  | .ok none => .ok ([], none)
  | .ok (some manifestFile) =>
      match (files.readText rt manifestFile).bind (parseManifest rt) with
      | .ok manifest => .ok ([], some manifest)
      | .error (.manifestError message) =>
          .ok ([errorFinding "MANIFEST_INVALID" message manifestName], none)
      | .error exc => .error exc

/-- The reading part of `run`. -/
def readCheckout (checkout : Checkout) (sha planPath : String) : Except Raised Reading := do
  if ← checkout.files.isFile (checkout.root.join planPath) then
    let plan ← readPlan rt checkout.files (checkout.root.join planPath) planPath
    let manifest ← readManifest rt checkout.files checkout.root planPath
    return { findings := plan.1 ++ manifest.1, summary := plan.2, manifest := manifest.2 }
  else
    return {
      findings := [errorFinding "PLAN_MISSING"
        ("No plan at " ++ planPath ++ " in commit " ++ sha ++ ".")] }

/-- The comparing part of `run`: a manifest and a plan that were both read. -/
def compareManifest (checkout : Checkout) (planPath : String) (reading : Reading) :
    Except Raised (List Finding) :=
  match reading.manifest, reading.summary with
  | some manifest, some summary =>
      manifestFindings rt checkout.files manifest planPath summary checkout.root
  | _, _ => .ok []

/-- `_summary_response`. -/
def summaryResponse (summary : PlanSummary) : PlanSummaryResponse where
  threadGroups := summary.threadGroups
  transactionControllers := summary.transactionControllers
  timers := summary.timers
  variableNames := summary.variableNames
  dataFiles := summary.dataFiles
  targets := summary.targets.map fun target =>
    { scheme := target.scheme, host := target.host, port := target.port }

/-- The report on a reading and the findings of its comparison. -/
def report (resolution : RefResolution) (ref : String) (reading : Reading)
    (compared : List Finding) : VerifyReport where
  ok := !(reading.findings ++ compared).any fun finding => finding.severity = .error
  commitSha := some resolution.sha
  ref := ref
  findings := reading.findings ++ compared
  plan := reading.summary.map summaryResponse
  plugins := (reading.manifest.elim [] Manifest.plugins).map fun plugin =>
    { id := plugin.id, version := plugin.version, sha256 := plugin.sha256 }

/-- What `run` does inside `async with fetch_plan(...)`, and the report. -/
def inspect (checkout : Checkout) (resolution : RefResolution) (planPath ref : String) :
    Except Raised VerifyReport := do
  let reading ← readCheckout rt checkout resolution.sha planPath
  let compared ← compareManifest rt checkout planPath reading
  return report resolution ref reading compared

/-- A `GitError` of `resolve_ref`, as `run` raises it again. -/
def unresolvable (ref : String) : Raised → Raised
  | .gitError message =>
      .plimsollError {
        code := .repoUnreachable
        message := "Could not resolve " ++ rt.ucd.repr ref ++ " in the repository: " ++ message
        details := [("ref", .text ref)] }
  | exc => exc

/-- A `GitError` of the fetch, as `run` raises it again. -/
def unreadable : Raised → Raised
  | .gitError message =>
      .plimsollError {
        code := .repoUnreachable
        message := "Could not read the repository: " ++ message }
  | exc => exc

variable {W : Type}

/-- `run`. -/
def run (git : Git W) (access : GitAccess) (planPath ref : String) : Action W VerifyReport :=
  fun w =>
    match git.resolveRef access ref w with
    | (.error exc, w) => (.error (unresolvable rt ref exc), w)
    | (.ok resolution, w) =>
        match git.fetchPlan access resolution.sha planPath w with
        | (.error exc, w) => (.error (unreadable exc), w)
        | (.ok checkout, w) =>
            ((inspect rt checkout resolution planPath ref).mapError unreadable, w)

end Plimsoll.Verify
