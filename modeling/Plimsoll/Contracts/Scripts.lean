import Plimsoll.Python.Text

/-!
The request bodies of script repositories, and the report `verify` answers
with. A model that has been validated carries what its fields were checked for.
-/

namespace Plimsoll.Contracts

open Python

/-- A UUID. -/
abbrev Uuid := BitVec 128

/-- A field of a partial update: left out of the body, given as `null`, or given
a value. -/
inductive Patch (α : Type) where
  | unset
  | null
  | value (a : α)
deriving DecidableEq, Repr

/-- `ALLOWED_SCHEMES`. -/
def allowedSchemes : List String := ["http://", "https://", "ssh://", "git@"]

/-- `ScriptRepoCreate._supported_scheme`. -/
def supportedScheme (value : String) : Except String String :=
  if ¬ allowedSchemes.any (startsWith value) then
    .error ("a repository URL must be http, https, or ssh; " ++
      "the control plane does not fetch local paths")
  else .ok value

/-- `ScriptRepoCreate._inside_the_repository`. -/
def insideTheRepository (value : String) : Except String String :=
  if startsWith value "/" ∨ ".." ∈ split value '/' then
    .error "a plan path is relative to the repository root"
  else .ok value

/-- `ScriptRepoCreate`. -/
structure ScriptRepoCreate where
  name : String
  repoUrl : String
  planPath : String
  defaultRef : String := "main"
  credentialId : Option Uuid := none
  name_length : 1 ≤ name.length ∧ name.length ≤ 255
  repoUrl_length : 1 ≤ repoUrl.length
  repoUrl_scheme : supportedScheme repoUrl = .ok repoUrl
  planPath_length : 1 ≤ planPath.length
  planPath_inside : insideTheRepository planPath = .ok planPath
  defaultRef_length : defaultRef.length ≤ 255

/-- `ScriptRepoUpdate`. -/
structure ScriptRepoUpdate where
  name : Patch String := .unset
  planPath : Patch String := .unset
  defaultRef : Patch String := .unset
  credentialId : Patch Uuid := .unset
  name_length : ∀ value, name = .value value → 1 ≤ value.length ∧ value.length ≤ 255
  planPath_length : ∀ value, planPath = .value value → 1 ≤ value.length
  defaultRef_length : ∀ value, defaultRef = .value value → value.length ≤ 255

theorem supportedScheme_ok_iff {value : String} :
    supportedScheme value = .ok value ↔ ∃ scheme ∈ allowedSchemes, startsWith value scheme = true := by
  unfold supportedScheme
  rw [← List.any_eq_true]
  by_cases supported : allowedSchemes.any (startsWith value) = true
  · simp [supported]
  · simp [supported]

theorem insideTheRepository_ok_iff {value : String} :
    insideTheRepository value = .ok value ↔
      startsWith value "/" = false ∧ ".." ∉ split value '/' := by
  unfold insideTheRepository
  split
  · rename_i outside
    simp only [reduceCtorEq, false_iff, not_and, not_not]
    intro relative
    rcases outside with absolute | dots
    · rw [absolute] at relative
      cases relative
    · exact dots
  · rename_i inside
    rw [not_or, Bool.not_eq_true] at inside
    simp only [inside, true_iff]
    exact ⟨trivial, not_false⟩

/-! ## Reports -/

/-- `FindingSeverity`. -/
inductive FindingSeverity where
  | error
  | warning
deriving DecidableEq, Repr

/-- `Finding`. -/
structure Finding where
  code : String
  severity : FindingSeverity
  message : String
  location : Option String := none
deriving DecidableEq, Repr

/-- `PlanTargetResponse`. -/
structure PlanTargetResponse where
  scheme : String
  host : String
  port : Option Nat
deriving DecidableEq, Repr

/-- `PlanSummaryResponse`. -/
structure PlanSummaryResponse where
  threadGroups : List String
  transactionControllers : List String
  timers : List String
  variableNames : List String
  dataFiles : List String
  targets : List PlanTargetResponse
deriving DecidableEq, Repr

/-- `PluginSummary`. -/
structure PluginSummary where
  id : String
  version : String
  sha256 : String
deriving DecidableEq, Repr

/-- `VerifyReport`. -/
structure VerifyReport where
  ok : Bool
  commitSha : Option String := none
  ref : String
  findings : List Finding := []
  plan : Option PlanSummaryResponse := none
  plugins : List PluginSummary := []
deriving DecidableEq, Repr

end Plimsoll.Contracts
