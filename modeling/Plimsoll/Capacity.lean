import Plimsoll.Services

/-!
What a generator pool can supply. The API states the product of the pool's factors;
preflight asks PostgreSQL for it, whose `INTEGER` ends where the API's numbers go on.
-/

namespace Plimsoll.Pools

open Python Transaction Contracts Sql

/-! ## Storable pools -/

/-- The largest `INTEGER`. -/
def maxInteger : Int := 2147483647

/-- A factor that `PoolCreate` and `PoolUpdate` accept and the column holds. -/
def Storable (n : Int) : Prop := 1 ≤ n ∧ n ≤ maxInteger

instance (n : Int) : Decidable (Storable n) := inferInstanceAs (Decidable (_ ∧ _))

variable {v : View postgres} {id : Uuid} {row : GeneratorPool} {response : PoolResponse}

theorem integer_eq {n : Int} (positive : 1 ≤ n) :
    Database.integer n = if n ≤ maxInteger then .ok n else .error .outOfRange := by
  unfold Database.integer maxInteger
  by_cases fits : n ≤ 2147483647
  · rw [if_pos fits, if_pos ⟨by omega, fits⟩]
  · rw [if_neg fits, if_neg fun both => fits both.2]

/-! ## Runs -/

/-- The capacity that the response states is the product. -/
theorem capacity_of_response {w : View postgres}
    (answered : (Pools.response (some row)).run v = (.ok response, w)) :
    response.capacity = row.maxGenerators * row.maxVusPerGenerator := by
  unfold Pools.response at answered
  dsimp only at answered
  split at answered
  · cases answered
  · cases answered
    rfl

/-- What the capacity query answers for an active pool. -/
theorem run_poolCapacity (found : Database.byKey v.setting v.database.pools id = some row)
    (active : row.status = .active) :
    (poolCapacity id).run v =
      (((Database.integer (row.maxGenerators * row.maxVusPerGenerator)).map some).mapError
        Database.Fault.raised, v) := by
  change (checked ((Database.byKey v.setting v.database.pools id).elim (.ok none)
    Database.capacityOf)).run v = _
  rw [found, Option.elim_some, Database.capacityOf, if_pos active]
  cases Database.integer (row.maxGenerators * row.maxVusPerGenerator) with
  | ok total => rfl
  | error fault => rfl

theorem run_capacityFor {total : Int} (first : (poolCapacity id).run v = (.ok (some total), v)) :
    (capacityFor id).run v = (.ok (total - v.database.heldUsers v.setting id), v) := by
  rw [capacityFor, Program.run_bind_ok first]
  rfl

/-! ## Agreement -/

/-- The capacity query yields what the response states, and the free capacity is that
less the users that unfinished runs hold. -/
structure Agrees (v : View postgres) (id : Uuid) (response : PoolResponse) : Prop where
  total : (poolCapacity id).run v = (.ok (some response.capacity), v)
  free : (capacityFor id).run v =
    (.ok (response.capacity - v.database.heldUsers v.setting id), v)

/-- Preflight and the API agree on an active pool exactly if the product of its factors
is an `INTEGER`. -/
theorem agrees_iff (found : Database.byKey v.setting v.database.pools id = some row)
    (active : row.status = .active) (generators : Storable row.maxGenerators)
    (users : Storable row.maxVusPerGenerator) {w : View postgres}
    (answered : (Pools.response (some row)).run v = (.ok response, w)) :
    Agrees v id response ↔ row.maxGenerators * row.maxVusPerGenerator ≤ maxInteger := by
  have capacity := capacity_of_response answered
  have positive : 1 ≤ row.maxGenerators * row.maxVusPerGenerator := by
    have := Int.mul_pos generators.1 users.1
    omega
  have ran := run_poolCapacity found active
  rw [integer_eq positive] at ran
  constructor
  · intro agrees
    refine not_lt.mp fun exceeds => ?_
    rw [if_neg (not_le.mpr exceeds), agrees.total] at ran
    cases ran
  · intro fits
    rw [if_pos fits] at ran
    have total : (poolCapacity id).run v = (.ok (some response.capacity), v) := by
      rw [ran, capacity]
      rfl
    exact ⟨total, run_capacityFor total⟩

/-! ## Two pools -/

/-- A pool of these factors. -/
def samplePool (maxGenerators maxVusPerGenerator : Int) : GeneratorPool where
  id := 7
  organizationId := 1
  name := "eu"
  runtime := .docker
  config := some "\x7b\x7d"
  region := none
  maxGenerators := maxGenerators
  maxVusPerGenerator := maxVusPerGenerator
  createdAt := 0
  updatedAt := 0

/-- A transaction of the organisation of that pool, which has an unfinished run with 300
users on it and a finished one. -/
def sampleView (row : GeneratorPool) : View postgres where
  setting := { org := some 1, now := 1 }
  database := {
    pools := Dict.ofList [(row.id, row)]
    testRuns := Dict.ofList
      [(20, { id := 20, organizationId := 1, status := "RUNNING" }),
        (21, { id := 21, organizationId := 1, status := "FINISHED" })]
    runGenerators := Dict.ofList
      [(30, { id := 30, organizationId := 1, runId := 20, poolId := 7, assignedUsers := 300 }),
        (31, { id := 31, organizationId := 1, runId := 21, poolId := 7, assignedUsers := 500 })] }
  environment := {
    tokens := fun _ => ""
    uuids := fun k => BitVec.ofNat 128 (100 + k)
    clock := fun k => k }

/-- The response on that pool. -/
def sampleResponse (maxGenerators maxVusPerGenerator : Int) : PoolResponse where
  id := 7
  name := "eu"
  runtime := .docker
  config := "\x7b\x7d"
  region := none
  maxGenerators := maxGenerators
  maxVusPerGenerator := maxVusPerGenerator
  capacity := maxGenerators * maxVusPerGenerator
  supportedEngines := ["jmeter"]
  status := .active
  createdAt := 0

theorem agrees_iff_sample :
    Agrees (sampleView (samplePool 4 500)) 7 (sampleResponse 4 500) ↔ (4 : Int) * 500 ≤ maxInteger :=
  @agrees_iff (sampleView (samplePool 4 500)) 7 (samplePool 4 500) (sampleResponse 4 500) rfl rfl
    (by decide) (by decide) _ rfl

/-- Of 65536 generators of 32768 users each the API states the capacity, and preflight
fails on it. -/
theorem large_pool_disagrees :
    ¬ ∀ (v w : View postgres) (id : Uuid) (row : GeneratorPool) (response : PoolResponse),
        Database.byKey v.setting v.database.pools id = some row → row.status = .active →
        Storable row.maxGenerators → Storable row.maxVusPerGenerator →
        (Pools.response (some row)).run v = (.ok response, w) → Agrees v id response := by
  intro always
  have agrees := always (sampleView (samplePool 65536 32768)) _ 7 (samplePool 65536 32768)
    (sampleResponse 65536 32768) rfl rfl (by decide) (by decide) rfl
  have fails : ((poolCapacity 7).run (sampleView (samplePool 65536 32768))).1 = .error .dataError := by
    decide +kernel
  rw [agrees.total] at fails
  cases fails

end Plimsoll.Pools
