import Plimsoll.Contracts.Scripts

/-!
The request bodies of projects, generator pools, credentials and the target
policy.
-/

namespace Plimsoll.Contracts

/-- `^[A-Z][A-Z0-9_]*$`. -/
def projectKeyPattern (value : String) : Bool :=
  match value.toList with
  | [] => false
  | first :: rest =>
      ('A' ≤ first ∧ first ≤ 'Z') &&
        rest.all fun c => ('A' ≤ c ∧ c ≤ 'Z') ∨ ('0' ≤ c ∧ c ≤ '9') ∨ c = '_'

/-- `ProjectCreate`. -/
structure ProjectCreate where
  name : String
  projectKey : String
  description : Option String := none
  environment : Option String := none
  tags : List String := []
  name_length : 1 ≤ name.length ∧ name.length ≤ 255
  projectKey_length : 1 ≤ projectKey.length ∧ projectKey.length ≤ 50
  projectKey_pattern : projectKeyPattern projectKey = true
  environment_length : ∀ value, environment = some value → value.length ≤ 50

/-- `ProjectUpdate`. -/
structure ProjectUpdate where
  name : Patch String := .unset
  description : Patch String := .unset
  environment : Patch String := .unset
  tags : Patch (List String) := .unset
  name_length : ∀ value, name = .value value → 1 ≤ value.length ∧ value.length ≤ 255
  environment_length : ∀ value, environment = .value value → value.length ≤ 50

/-- A JSON object, as text. -/
abbrev Json := String

/-- `PoolRuntime`. -/
inductive PoolRuntime where
  | docker
  | kubernetes
deriving DecidableEq, Repr

/-- `PoolCreate`. -/
structure PoolCreate where
  name : String
  runtime : PoolRuntime
  config : Json := "\x7b\x7d"
  region : Option String := none
  maxGenerators : Int
  maxVusPerGenerator : Int
  name_length : 1 ≤ name.length ∧ name.length ≤ 255
  region_length : ∀ value, region = some value → value.length ≤ 100
  maxGenerators_ge : 1 ≤ maxGenerators
  maxVusPerGenerator_ge : 1 ≤ maxVusPerGenerator

/-- `PoolUpdate`. -/
structure PoolUpdate where
  name : Patch String := .unset
  config : Patch Json := .unset
  region : Patch String := .unset
  maxGenerators : Patch Int := .unset
  maxVusPerGenerator : Patch Int := .unset
  name_length : ∀ value, name = .value value → 1 ≤ value.length ∧ value.length ≤ 255
  region_length : ∀ value, region = .value value → value.length ≤ 100
  maxGenerators_ge : ∀ value, maxGenerators = .value value → 1 ≤ value
  maxVusPerGenerator_ge : ∀ value, maxVusPerGenerator = .value value → 1 ≤ value

/-- `CredentialKind`. -/
inductive CredentialKind where
  | gitToken
  | gitSshKey
  | variable
deriving DecidableEq, Repr

/-- `CredentialCreate`. -/
structure CredentialCreate where
  name : String
  kind : CredentialKind
  secret : String
  name_length : 1 ≤ name.length ∧ name.length ≤ 255
  secret_length : 1 ≤ secret.length

end Plimsoll.Contracts
