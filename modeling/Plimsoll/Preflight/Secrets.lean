import Plimsoll.Preflight.PerPlan

/-!
What a preflight report tells about stored values.

A value enters the report only as the host that a target resolves to. There it
is shown: among the permitted hosts when all are, and among the rejected ones
when it is one. Trailing whitespace changes a value without changing what the
allowlist says of it, so a value that is shown can be told from another.
-/

namespace Plimsoll.Preflight

open Python Jmx TargetPolicy

variable {rt : Runtime} {W : Type}

/-! ## Stores -/

/-- Two stores with the same names, each of whose values the allowlist permits
in one exactly when it does in the other. -/
structure Alike (rt : Runtime) (allowlist : List String) (values other : Dict String String) :
    Prop where
  names : ∀ name, (other.get? name).isSome = (values.get? name).isSome
  permitted : ∀ name value value', values.get? name = some value → other.get? name = some value' →
    matchesAllowlist rt.ucd value' allowlist = matchesAllowlist rt.ucd value allowlist

/-- The inputs with another store. -/
def PreflightInput.withValues (inputs : PreflightInput) (other : Dict String String) :
    PreflightInput := { inputs with values := other }

/-- `host` is a reference to a stored variable, of value `value`. -/
def ThroughVariable (values : Dict String String) (host value : String) : Prop :=
  ∃ name, wholeReference host = some name ∧ values.get? name = some value

/-- No stored value is shown of these hosts: none of them is a stored variable,
or those that are all have permitted values while some other host is refused. -/
def Hidden (rt : Runtime) (inputs : PreflightInput) (hosts : List String) : Prop :=
  (∀ host ∈ hosts, ∀ value, ¬ ThroughVariable inputs.values host value) ∨
    ((∀ host ∈ hosts, ∀ value, ThroughVariable inputs.values host value →
        matchesAllowlist rt.ucd value inputs.allowlist = true) ∧
      ∃ host ∈ hosts, ¬ Permitted rt inputs host)

section

variable {inputs : PreflightInput} {other : Dict String String}

theorem isNone_get?_of_alike (alike : Alike rt inputs.allowlist inputs.values other) (name : String) :
    (other.get? name).isNone = (inputs.values.get? name).isNone := by
  rw [← Option.not_isSome, ← Option.not_isSome, alike.names]

/-- A host resolves in both stores or in neither. -/
theorem isNone_resolveHost_of_alike (alike : Alike rt inputs.allowlist inputs.values other)
    (host : String) :
    (resolveHost host other).isNone = (resolveHost host inputs.values).isNone := by
  unfold resolveHost
  cases wholeReference host with
  | none => rfl
  | some name => exact isNone_get?_of_alike alike name

/-- What a host resolves to is permitted in both stores or in neither. -/
theorem matches_resolved_of_alike (alike : Alike rt inputs.allowlist inputs.values other)
    {host resolved resolved' : String} (here : resolveHost host inputs.values = some resolved)
    (there : resolveHost host other = some resolved') :
    matchesAllowlist rt.ucd resolved' inputs.allowlist =
      matchesAllowlist rt.ucd resolved inputs.allowlist := by
  unfold resolveHost at here there
  cases reference : wholeReference host with
  | none =>
      rw [reference] at here there
      rw [Option.some.inj (there.symm.trans here)]
  | some name =>
      rw [reference] at here there
      exact alike.permitted name resolved resolved' here there

theorem permitted_withValues_iff (alike : Alike rt inputs.allowlist inputs.values other)
    {host : String} : Permitted rt (inputs.withValues other) host ↔ Permitted rt inputs host := by
  have same := isNone_resolveHost_of_alike alike host
  have agree := @matches_resolved_of_alike rt inputs other alike host
  unfold Permitted PreflightInput.withValues
  dsimp only
  cases here : resolveHost host inputs.values with
  | none =>
      rw [here] at same
      simp [Option.isNone_iff_eq_none.mp same]
  | some resolved =>
      cases there : resolveHost host other with
      | none =>
          rw [here, there] at same
          cases same
      | some resolved' => simp [agree here there]

/-! ## Checks that show no value -/

theorem variablesCheck_withValues (alike : Alike rt inputs.allowlist inputs.values other)
    (summaries : List PlanSummary) (blocked : Bool) :
    variablesCheck rt summaries (inputs.withValues other) blocked =
      variablesCheck rt summaries inputs blocked := by
  unfold variablesCheck PreflightInput.withValues
  simp only [isNone_get?_of_alike alike]

theorem unresolvedHosts_withValues (alike : Alike rt inputs.allowlist inputs.values other)
    (hosts : List String) :
    unresolvedHosts (inputs.withValues other) hosts = unresolvedHosts inputs hosts := by
  unfold unresolvedHosts PreflightInput.withValues
  simp only [isNone_resolveHost_of_alike alike]

/-- A host that is no stored variable resolves alike. -/
theorem resolveHost_of_not_throughVariable (alike : Alike rt inputs.allowlist inputs.values other)
    {host : String} (literal : ∀ value, ¬ ThroughVariable inputs.values host value) :
    resolveHost host other = resolveHost host inputs.values := by
  unfold resolveHost
  cases reference : wholeReference host with
  | none => rfl
  | some name =>
      dsimp only
      cases stored : inputs.values.get? name with
      | none =>
          have same := isNone_get?_of_alike alike name
          rw [stored] at same
          exact Option.isNone_iff_eq_none.mp same
      | some value => exact (literal value ⟨name, reference, stored⟩).elim

/-- Where every stored variable among the hosts is permitted, the same hosts are
rejected, with the same texts. -/
theorem rejectedHosts_withValues (alike : Alike rt inputs.allowlist inputs.values other)
    {hosts : List String}
    (permitted : ∀ host ∈ hosts, ∀ value, ThroughVariable inputs.values host value →
      matchesAllowlist rt.ucd value inputs.allowlist = true) :
    rejectedHosts rt (inputs.withValues other) hosts = rejectedHosts rt inputs hosts := by
  unfold rejectedHosts PreflightInput.withValues
  refine List.filterMap_congr fun host member => ?_
  by_cases variable_ : ∃ value, ThroughVariable inputs.values host value
  · obtain ⟨value, name, reference, stored⟩ := variable_
    have here : resolveHost host inputs.values = some value := by
      rw [resolveHost, reference]
      exact stored
    have ok := permitted host member value ⟨name, reference, stored⟩
    cases there : resolveHost host other with
    | none =>
        have same := isNone_resolveHost_of_alike alike host
        rw [here, there] at same
        cases same
    | some value' =>
        have also := matches_resolved_of_alike alike here there
        simp only [here, Option.filter_some, also, ok, Bool.not_true, Bool.false_eq_true,
          if_false, Option.map_none]
  · rw [resolveHost_of_not_throughVariable alike (not_exists.mp variable_)]

theorem targetsCheck_withValues (alike : Alike rt inputs.allowlist inputs.values other)
    {summaries : List PlanSummary} (hidden : Hidden rt inputs (targetHosts rt summaries)) :
    targetsCheck rt summaries (inputs.withValues other) false =
      targetsCheck rt summaries inputs false := by
  rw [targetsCheck_eq, targetsCheck_eq]
  dsimp only
  rw [unresolvedHosts_withValues alike]
  rcases hidden with literal | ⟨permitted, host, member, refused⟩
  · have rejected : rejectedHosts rt (inputs.withValues other) (targetHosts rt summaries) =
        rejectedHosts rt inputs (targetHosts rt summaries) :=
      rejectedHosts_withValues alike fun host member value through =>
        (literal host member value through).elim
    have allowed : allowedHosts rt (inputs.withValues other) (targetHosts rt summaries) =
        allowedHosts rt inputs (targetHosts rt summaries) := by
      unfold allowedHosts PreflightInput.withValues
      refine List.filterMap_congr fun host member => ?_
      dsimp only
      rw [resolveHost_of_not_throughVariable alike (literal host member)]
    rw [rejected, allowed]
  · have rejected := rejectedHosts_withValues alike permitted
    have some : unresolvedHosts inputs (targetHosts rt summaries) ≠ [] ∨
        rejectedHosts rt inputs (targetHosts rt summaries) ≠ [] := by
      by_contra nothing
      rw [not_or, not_not, not_not, nothing_refused_iff] at nothing
      exact refused (nothing host member)
    have hosts : targetHosts rt summaries ≠ [] := List.ne_nil_of_mem member
    simp only [rejected, Bool.false_eq_true, if_false, if_neg hosts, if_pos some]

/-! ## Checks that show a value -/

/-- A value with `n` spaces behind it. -/
def padded (value : String) (n : Nat) : String := value ++ String.ofList (List.replicate n ' ')

theorem strip_padded (value : String) (n : Nat) : strip (padded value n) = strip value := by
  rw [← String.toList_inj, toList_strip, toList_strip, padded, String.toList_append,
    String.toList_ofList]
  apply stripChars_append_space
  intro c member
  obtain rfl := List.eq_of_mem_replicate member
  decide

theorem length_padded (value : String) (n : Nat) : (padded value n).length = value.length + n := by
  rw [padded, String.length_append]
  simp

theorem alike_set_padded {name value : String} (stored : inputs.values.get? name = some value)
    (n : Nat) :
    Alike rt inputs.allowlist inputs.values (inputs.values.set name (padded value n)) := by
  constructor
  · intro key
    rw [Dict.get?_set]
    split
    · rename_i same
      rw [← same, stored]
      rfl
    · rfl
  · intro key old new here there
    rw [Dict.get?_set] at there
    split at there
    · rename_i same
      rw [← same, stored] at here
      rw [← Option.some.inj there, ← Option.some.inj here]
      exact matchesAllowlist_congr (strip_padded value n) inputs.allowlist
    · rw [Option.some.inj (there.symm.trans here)]

/-- A rejected host is shown. -/
theorem length_le_of_rejected {summaries : List PlanSummary} {host resolved : String}
    (member : host ∈ targetHosts rt summaries)
    (resolves : resolveHost host inputs.values = some resolved)
    (denied : matchesAllowlist rt.ucd resolved inputs.allowlist = false) :
    resolved.length ≤ (targetsCheck rt summaries inputs false).detail.length := by
  have inRejected : rejectedText host resolved ∈ rejectedHosts rt inputs (targetHosts rt summaries) :=
    List.mem_filterMap.mpr ⟨host, member, by simp [resolves, denied]⟩
  have shown : resolved.length ≤ (rejectedText host resolved).length := by
    unfold rejectedText
    split
    · exact le_refl _
    · simp only [String.length_append]
      omega
  have joined := @length_le_length_join ", " _ _ inRejected
  have some := List.ne_nil_of_mem inRejected
  rw [targetsCheck_eq]
  simp only [Bool.false_eq_true, if_false, if_neg (List.ne_nil_of_mem member), some, ne_eq,
    not_false_eq_true, or_true, if_true, failed]
  refine le_trans ?_ (length_le_length_join (List.mem_append_left _ (List.mem_singleton_self _)))
  simp only [String.length_append]
  omega

/-- Where everything is permitted, all hosts are shown. -/
theorem length_le_of_allowed {summaries : List PlanSummary} {host resolved : String}
    (member : host ∈ targetHosts rt summaries)
    (resolves : resolveHost host inputs.values = some resolved)
    (all : ∀ host ∈ targetHosts rt summaries, Permitted rt inputs host) :
    resolved.length ≤ (targetsCheck rt summaries inputs false).detail.length := by
  obtain ⟨resolved', resolves', ok⟩ := all host member
  obtain rfl := Option.some.inj (resolves.symm.trans resolves')
  have inAllowed : resolved ∈ sortedSet rt.sets (allowedHosts rt inputs (targetHosts rt summaries)) := by
    rw [mem_sortedSet]
    exact List.mem_filterMap.mpr ⟨host, member, by simp [resolves, ok]⟩
  have joined := @length_le_length_join ", " _ _ inAllowed
  obtain ⟨unresolved, rejected⟩ := nothing_refused_iff.mpr all
  rw [targetsCheck_eq]
  simp only [Bool.false_eq_true, if_false, if_neg (List.ne_nil_of_mem member), unresolved, rejected,
    ne_eq, not_true_eq_false, or_false, passed]
  rw [String.length_append]
  omega

/-- A stored value that is not hidden can be changed so that the check differs. -/
theorem targetsCheck_ne_of_not_hidden {summaries : List PlanSummary}
    (shown : ¬ Hidden rt inputs (targetHosts rt summaries)) :
    ∃ other, Alike rt inputs.allowlist inputs.values other ∧
      targetsCheck rt summaries (inputs.withValues other) false ≠
        targetsCheck rt summaries inputs false := by
  rw [Hidden, not_or, not_and_or] at shown
  obtain ⟨stored, which⟩ := shown
  -- A stored variable whose value the report shows: one that is rejected, or any at all when
  -- every host is permitted.
  have found : ∃ host ∈ targetHosts rt summaries, ∃ value,
      ThroughVariable inputs.values host value ∧
        (matchesAllowlist rt.ucd value inputs.allowlist = false ∨
          ∀ host ∈ targetHosts rt summaries, Permitted rt inputs host) := by
    rcases which with denied | all
    · push Not at denied
      obtain ⟨host, member, value, through, no⟩ := denied
      exact ⟨host, member, value, through, Or.inl (by simpa using no)⟩
    · push Not at stored all
      obtain ⟨host, member, value, through⟩ := stored
      exact ⟨host, member, value, through, Or.inr all⟩
  obtain ⟨host, member, value, ⟨name, reference, stored⟩, verdict⟩ := found
  let size := (targetsCheck rt summaries inputs false).detail.length + 1
  let other := inputs.values.set name (padded value size)
  have alike : Alike rt inputs.allowlist inputs.values other := alike_set_padded stored size
  have resolves : resolveHost host (inputs.withValues other).values = some (padded value size) := by
    rw [resolveHost, reference]
    exact Dict.get?_set_self _ _ _
  refine ⟨other, alike, fun same => ?_⟩
  have long : (padded value size).length ≤
      (targetsCheck rt summaries (inputs.withValues other) false).detail.length := by
    rcases verdict with denied | all
    · refine length_le_of_rejected member resolves ?_
      rw [show (inputs.withValues other).allowlist = inputs.allowlist from rfl,
        matchesAllowlist_congr (strip_padded value size), denied]
    · exact length_le_of_allowed member resolves fun host inHosts =>
        (permitted_withValues_iff alike).mpr (all host inHosts)
  rw [same, length_padded] at long
  omega

/-! ## The report -/

/-- The report depends on the store through two checks. -/
theorem report_withValues (resolutions : List Resolution) (readings : List (Option Reading))
    (alike : Alike rt inputs.allowlist inputs.values other) :
    report rt (inputs.withValues other) resolutions readings = report rt inputs resolutions readings ↔
      ((∀ answer ∈ inputs.plans.zip resolutions, ∃ sha, answer.2 = .ok sha) →
        (∀ answer ∈ inputs.plans.zip readings, ∀ sha message,
          answer.2 ≠ some ⟨sha, .error message⟩) →
        targetsCheck rt (summariesOf readings) (inputs.withValues other) false =
          targetsCheck rt (summariesOf readings) inputs false) := by
  rw [← unresolvedRefs_eq_nil_iff, ← parseFailures_eq_nil_iff]
  have structural : structureCheck (inputs.withValues other) = structureCheck inputs := rfl
  have capacity : capacityCheck (inputs.withValues other) = capacityCheck inputs := rfl
  have plans : (inputs.withValues other).plans = inputs.plans := rfl
  unfold report
  simp only [plans, structural, capacity, variablesCheck_withValues alike]
  by_cases open_ : unresolvedRefs (inputs.plans.zip resolutions) = [] ∧
      parseFailures (inputs.plans.zip readings) = []
  · have unblocked := not_blocked_iff.mpr open_
    rw [unblocked]
    constructor
    · intro same _ _
      have checks := congrArg PreflightReport.checks same
      simpa using checks
    · intro same
      rw [same open_.1 open_.2]
  · have blocked : (!(unresolvedRefs (inputs.plans.zip resolutions)).isEmpty ||
        !(parseFailures (inputs.plans.zip readings)).isEmpty) = true := by
      rw [← Bool.not_eq_false, not_blocked_iff]
      exact open_
    rw [blocked]
    constructor
    · intro _ resolved parsed
      exact (open_ ⟨resolved, parsed⟩).elim
    · intro _
      simp [targetsCheck]

/-- A run returns the same on all stores alike exactly when, where every plan
is read, no stored value is shown. -/
theorem run_withValues_iff {git : Git W} {inputs : PreflightInput} {w : W} :
    (∀ other, Alike rt inputs.allowlist inputs.values other →
        run rt git (inputs.withValues other) w = run rt git inputs w) ↔
      ∀ resolutions w₁ readings w₂,
        resolveRefs git inputs.plans w = (.ok resolutions, w₁) →
        readPlans rt git (resolvedByName (inputs.plans.zip resolutions)) inputs.plans w₁ =
          (.ok readings, w₂) →
        (∀ answer ∈ inputs.plans.zip resolutions, ∃ sha, answer.2 = .ok sha) →
        (∀ answer ∈ inputs.plans.zip readings, ∀ sha message,
          answer.2 ≠ some ⟨sha, .error message⟩) →
        Hidden rt inputs (targetHosts rt (summariesOf readings)) := by
  constructor
  · intro same resolutions w₁ readings w₂ first second resolved parsed
    by_contra shown
    obtain ⟨other, alike, differs⟩ := targetsCheck_ne_of_not_hidden shown
    have here := run_ok_iff.mpr ⟨resolutions, w₁, readings, first, second, rfl⟩
    have there := (@run_ok_iff rt W git (inputs.withValues other) w w₂ _).mpr
      ⟨resolutions, w₁, readings, first, second, rfl⟩
    have equal := (there.symm.trans (same other alike)).trans here
    have reports := Except.ok.inj (Prod.mk.inj equal).1
    exact differs ((report_withValues resolutions readings alike).mp reports resolved parsed)
  · intro hidden other alike
    unfold run
    rw [show (inputs.withValues other).plans = inputs.plans from rfl]
    cases first : resolveRefs git inputs.plans w with
    | mk outcome w₁ =>
        cases outcome with
        | error exc => rfl
        | ok resolutions =>
            dsimp only
            cases second : readPlans rt git (resolvedByName (inputs.plans.zip resolutions))
                inputs.plans w₁ with
            | mk outcome w₂ =>
                cases outcome with
                | error exc => rfl
                | ok readings =>
                    dsimp only
                    rw [(report_withValues resolutions readings alike).mpr fun resolved parsed =>
                      targetsCheck_withValues alike
                        (hidden resolutions w₁ readings w₂ first second resolved parsed)]

end

/-! ## A plan that names a variable as its host -/

/-- A plan with one sampler, on the variable `API_HOST`. -/
def variablePlan : Element := hashTree [httpElement "HTTPSamplerProxy" (some "$\x7bAPI_HOST\x7d")]

def variableText : String :=
  "<hashTree>" ++ httpMarkup "HTTPSamplerProxy" (some "$\x7bAPI_HOST\x7d") ++ "</hashTree>"

/-- Its plan, a network that permits the variable's value, and the value. -/
def variableInputs (value : String) : PreflightInput where
  requestedUsers := 1
  plans := [loadPlan "v1"]
  allowlist := ["10.0.0.0/8"]
  values := Dict.ofList [("API_HOST", value)]
  freeCapacity := some 1

theorem parsePlan_variablePlan :
    ∃ summary, parsePlan (reading variableText variablePlan) variableText = .ok summary ∧
      summary.targets = [⟨"http", "$\x7bAPI_HOST\x7d", none⟩] := by
  have result : (parsePlan (reading variableText variablePlan) variableText).toOption.map
      PlanSummary.targets = some [⟨"http", "$\x7bAPI_HOST\x7d", none⟩] := by
    rw [parsePlan, reading_fromstring]
    decide +kernel
  obtain ⟨summary, parsed, targets⟩ := Option.map_eq_some_iff.mp result
  exact ⟨summary, toOption_eq_some_iff.mp parsed, targets⟩

/-- Two values of one variable, both permitted, give two reports. -/
theorem report_shows_value :
    ¬ ∀ (W : Type) (rt : Runtime) (git : Git W) (inputs : PreflightInput)
        (other : Dict String String) (w : W), Alike rt inputs.allowlist inputs.values other →
      run rt git (inputs.withValues other) w = run rt git inputs w := by
  intro same
  let rt := reading variableText variablePlan
  let inputs := variableInputs "10.0.0.1"
  let other := (variableInputs "10.0.0.2").values
  have alike : Alike rt inputs.allowlist inputs.values other := by
    constructor
    · intro name
      simp only [inputs, other, variableInputs, Dict.ofList, List.foldl_cons, List.foldl_nil,
        Dict.get?_set]
      split
      · rfl
      · rfl
    · intro name value value' here there
      simp only [inputs, other, variableInputs, Dict.ofList, List.foldl_cons, List.foldl_nil,
        Dict.get?_set] at here there
      split at here
      · rename_i known
        rw [if_pos known] at there
        rw [← Option.some.inj here, ← Option.some.inj there]
        decide +kernel
      · cases here
  obtain ⟨summary, parsed, targets⟩ := parsePlan_variablePlan
  have read : parsePlan rt (rt.decode (utf8 variableText)) = .ok summary := by
    rw [← parsed]
    exact congrArg _ (reading_decode _ _)
  let git := everywhere twoRefs (utf8 variableText)
  let resolutions : List Resolution := [.ok "1111111111111111111111111111111111111111"]
  have first : resolveRefs git inputs.plans () = (.ok resolutions, ()) := rfl
  have second := @readPlans_everywhere rt Unit twoRefs _ summary read
    (resolvedByName (inputs.plans.zip resolutions)) inputs.plans ()
  have here := run_ok_iff.mpr ⟨resolutions, (), _, first, second, rfl⟩
  have there := (@run_ok_iff rt Unit git (inputs.withValues other) () () _).mpr
    ⟨resolutions, (), _, first, second, rfl⟩
  have equal := (there.symm.trans (same Unit rt git inputs other () alike)).trans here
  have checks := (report_withValues resolutions _ alike).mp (Except.ok.inj (Prod.mk.inj equal).1)
    (by
      intro answer member
      obtain rfl : answer = (loadPlan "v1", .ok "1111111111111111111111111111111111111111") :=
        List.mem_singleton.mp member
      exact ⟨_, rfl⟩) (by
      intro answer member sha message isError
      obtain ⟨_, -, made⟩ := List.mem_map.mp (List.of_mem_zip member).2
      rw [isError] at made
      obtain ⟨_, -, made⟩ := Option.map_eq_some_iff.mp made
      cases made)
  have summaries : summariesOf (inputs.plans.map fun plan =>
      ((resolvedByName (inputs.plans.zip resolutions)).get? plan.repoName).map fun sha =>
        (⟨sha, .ok summary⟩ : Reading)) = [summary] := rfl
  have hosts : targetHosts rt [summary] = ["$\x7bAPI_HOST\x7d"] := by
    simp only [targetHosts, List.flatMap_cons, List.flatMap_nil, targets]
    decide +kernel
  rw [summaries, targetsCheck_eq, targetsCheck_eq, hosts] at checks
  exact absurd checks (by decide +kernel)

end Plimsoll.Preflight
