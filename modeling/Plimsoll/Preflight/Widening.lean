import Plimsoll.Preflight.PerPlan

/-!
A passing preflight passes still when the allowlist grows, when more variables have
values, and when more capacity is free.
-/

namespace Plimsoll.Preflight

open Python Jmx TargetPolicy

variable {rt : Runtime} {W : Type} {git : Git W} {inputs other : PreflightInput}

/-- The inputs `other` ask for the same and permit no less: more entries in the allowlist,
in whatever order, more variables, more capacity. -/
structure Widens (inputs other : PreflightInput) : Prop where
  plans : other.plans = inputs.plans
  users : other.requestedUsers = inputs.requestedUsers
  allowlist : ∀ entry ∈ inputs.allowlist, entry ∈ other.allowlist
  values : ∀ name value, inputs.values.get? name = some value → other.values.get? name = some value
  capacity : ∀ free, inputs.freeCapacity = some free →
    ∃ free', other.freeCapacity = some free' ∧ free ≤ free'

theorem matchesAllowlist_mono {host : String} {entries others : List String}
    (within : ∀ entry ∈ entries, entry ∈ others)
    (matched : matchesAllowlist rt.ucd host entries = true) :
    matchesAllowlist rt.ucd host others = true := by
  obtain ⟨nonempty, entry, member, rule⟩ := matchesAllowlist_iff.mp matched
  exact matchesAllowlist_iff.mpr ⟨nonempty, entry, within entry member, rule⟩

/-- Only the set of entries matters. -/
theorem matchesAllowlist_eq_of_mem_iff {host : String} {entries others : List String}
    (same : ∀ entry, entry ∈ entries ↔ entry ∈ others) :
    matchesAllowlist rt.ucd host entries = matchesAllowlist rt.ucd host others := by
  rw [Bool.eq_iff_iff]
  exact ⟨matchesAllowlist_mono fun entry => (same entry).mp,
    matchesAllowlist_mono fun entry => (same entry).mpr⟩

/-- A host that resolves resolves to the same with more variables. -/
theorem resolveHost_mono {host resolved : String} {values others : Dict String String}
    (extends_ : ∀ name value, values.get? name = some value → others.get? name = some value)
    (found : resolveHost host values = some resolved) :
    resolveHost host others = some resolved := by
  unfold resolveHost at found ⊢
  cases reference : wholeReference host with
  | none =>
      rw [reference] at found
      exact found
  | some name =>
      rw [reference] at found
      exact extends_ name resolved found

theorem Permitted.widen {host : String} (widens : Widens inputs other)
    (permitted : Permitted rt inputs host) : Permitted rt other host := by
  obtain ⟨resolved, found, matched⟩ := permitted
  exact ⟨resolved, resolveHost_mono widens.values found,
    matchesAllowlist_mono widens.allowlist matched⟩

/-- On the same answers of Git, a report that is good stays good. -/
theorem report_widen {resolutions : List Resolution} {readings : List (Option Reading)}
    (widens : Widens inputs other) (ok : (report rt inputs resolutions readings).ok = true) :
    (report rt other resolutions readings).ok = true := by
  obtain ⟨resolved, parsed, present, named, permitted, some, users, free, capacity, fits⟩ :=
    report_ok_iff.mp ok
  obtain ⟨free', capacity', more⟩ := widens.capacity free capacity
  rw [report_ok_iff, widens.plans, widens.users]
  refine ⟨resolved, parsed, ?_, named, ?_, some, users, free', capacity', fits.trans more⟩
  · intro summary member name inNames
    obtain ⟨value, found⟩ := Option.isSome_iff_exists.mp (present summary member name inNames)
    rw [widens.values name value found]
    rfl
  · intro host member
    exact (permitted host member).widen widens

/-- A report depends on the allowlist as a set of entries only. -/
theorem report_congr {resolutions : List Resolution} {readings : List (Option Reading)}
    {entries others : List String} (same : ∀ entry, entry ∈ entries ↔ entry ∈ others) :
    report rt { inputs with allowlist := entries } resolutions readings =
      report rt { inputs with allowlist := others } resolutions readings := by
  have matched : ∀ host, matchesAllowlist rt.ucd host entries =
      matchesAllowlist rt.ucd host others := fun host => matchesAllowlist_eq_of_mem_iff same
  have targets : ∀ summaries blocked,
      targetsCheck rt summaries { inputs with allowlist := entries } blocked =
        targetsCheck rt summaries { inputs with allowlist := others } blocked := by
    intro summaries blocked
    simp only [targetsCheck, matched]
  have variables_ : ∀ summaries blocked,
      variablesCheck rt summaries { inputs with allowlist := entries } blocked =
        variablesCheck rt summaries { inputs with allowlist := others } blocked :=
    fun _ _ => rfl
  simp only [report, targets, variables_]
  rfl

/-- Widening never breaks a passing test, and the report of a run depends on the
allowlist as a set only. -/
theorem run_widen {w w' : W} {result : PreflightReport}
    (ran : run rt git inputs w = (.ok result, w')) :
    (∀ other, Widens inputs other → result.ok = true →
      ∃ result', run rt git other w = (.ok result', w') ∧ result'.ok = true) ∧
    ∀ others : List String, (∀ entry, entry ∈ inputs.allowlist ↔ entry ∈ others) →
      run rt git { inputs with allowlist := others } w = (.ok result, w') := by
  obtain ⟨resolutions, w₁, readings, first, second, rfl⟩ := run_ok_iff.mp ran
  constructor
  · intro other widens ok
    refine ⟨report rt other resolutions readings, ?_, report_widen widens ok⟩
    rw [run_ok_iff, widens.plans]
    exact ⟨resolutions, w₁, readings, first, second, rfl⟩
  · intro others same
    exact run_ok_iff.mpr ⟨resolutions, w₁, readings, first, second, (report_congr same).symm⟩

/-- A Git whose every file is the sample plan, and inputs that pass there. -/
theorem run_widen_sample :
    ∃ (inputs : PreflightInput) (result : PreflightReport),
      result.ok = true ∧
      (∀ other, Widens inputs other → result.ok = true →
        ∃ result', run (reading sampleText samplePlan)
            (everywhere twoRefs (utf8 sampleText)) other () = (.ok result', ()) ∧
          result'.ok = true) ∧
      ∀ others : List String, (∀ entry, entry ∈ inputs.allowlist ↔ entry ∈ others) →
        run (reading sampleText samplePlan) (everywhere twoRefs (utf8 sampleText))
          { inputs with allowlist := others } () = (.ok result, ()) := by
  obtain ⟨summary, parsed, targets⟩ := parsePlan_samplePlan reading_samplePlan
  have first : resolveRefs twoRefs [loadPlan "v1"] () =
      (.ok [.ok "1111111111111111111111111111111111111111"], ()) := rfl
  obtain ⟨result, ran, ok⟩ := passing_ok parsed targets first (by simp)
    (List.mem_singleton_self (loadPlan "v1"))
  exact ⟨_, result, ok, run_widen ran⟩

end Plimsoll.Preflight
