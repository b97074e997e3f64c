import Plimsoll.Contracts.Scripts

/-!
The request bodies of performance tests. A model that has been validated carries
what its fields were checked for.
-/

namespace Plimsoll.Contracts

/-- `SlaMetric`. -/
inductive SlaMetric where
  | p50
  | p90
  | p95
  | p99
  | avg
  | errorRate
  | throughput
deriving DecidableEq, Repr

/-- `SlaOperator`. -/
inductive SlaOperator where
  | lt
  | lte
  | gt
  | gte
deriving DecidableEq, Repr

/-- `SlaSeverity`. -/
inductive SlaSeverity where
  | error
  | warning
deriving DecidableEq, Repr

/-- `WorkloadSpec`. -/
structure WorkloadSpec where
  virtualUsers : Int
  durationSeconds : Int
  rampUpSeconds : Int := 0
  generatorPoolId : Uuid
  virtualUsers_ge : 1 ≤ virtualUsers
  durationSeconds_ge : 1 ≤ durationSeconds
  rampUpSeconds_ge : 0 ≤ rampUpSeconds
  ramp_fits : rampUpSeconds ≤ durationSeconds
deriving DecidableEq

/-- `TestPlanSpec`. -/
structure TestPlanSpec where
  scriptRepoId : Uuid
  pinnedRef : Option String := none
  virtualUsers : Int := 1
  executionOrder : Int := 1
  pinnedRef_length : ∀ ref, pinnedRef = some ref → ref.length ≤ 255
  virtualUsers_ge : 1 ≤ virtualUsers
  executionOrder_ge : 1 ≤ executionOrder
deriving DecidableEq

/-- `SlaRuleSpec`. The threshold is the bits of a double. -/
structure SlaRuleSpec where
  name : String
  metric : SlaMetric
  entity : Option String := none
  operator : SlaOperator
  threshold : BitVec 64
  unit : Option String := none
  severity : SlaSeverity := .error
  enabled : Bool := true
  name_length : 1 ≤ name.length ∧ name.length ≤ 255
  unit_length : ∀ text, unit = some text → text.length ≤ 50
deriving DecidableEq

/-- `TestCreate`. -/
structure TestCreate where
  name : String
  description : Option String := none
  configuration : WorkloadSpec
  plans : List TestPlanSpec
  slaRules : List SlaRuleSpec := []
  tags : List String := []
  name_length : 1 ≤ name.length ∧ name.length ≤ 255
  plans_length : 1 ≤ plans.length

/-- `TestUpdate`. -/
structure TestUpdate where
  version : Int
  name : Patch String := .unset
  description : Patch String := .unset
  configuration : Patch WorkloadSpec := .unset
  plans : Patch (List TestPlanSpec) := .unset
  slaRules : Patch (List SlaRuleSpec) := .unset
  tags : Patch (List String) := .unset
  name_length : ∀ value, name = .value value → 1 ≤ value.length ∧ value.length ≤ 255
  plans_length : ∀ value, plans = .value value → 1 ≤ value.length
deriving DecidableEq

end Plimsoll.Contracts
