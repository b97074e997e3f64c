import Plimsoll.Preflight.Checks
import Plimsoll.Jmx.Targets
import Mathlib.Data.List.Induction

/-!
What a passing preflight says of each plan.

The two loops of `run` communicate through `resolved`, which has one commit for
a repository name: a plan is read at the commit of the last plan that shares its
repository's name. Its own commit is that one for every plan exactly when plans
of one name resolve to one commit.
-/

namespace Plimsoll.Preflight

open Python Jmx TargetPolicy

variable {rt : Runtime} {W : Type}

/-! ## What Git is asked -/

/-- A call of Git, with what it answered. -/
inductive Asked where
  | resolveRef (access : GitAccess) (ref : String) (answer : Except Raised RefResolution)
  | fetchPlan (access : GitAccess) (sha planPath : String) (answer : Except Raised Checkout)

/-- The same Git, with a record of its calls beside the world. -/
def recorded (git : Git W) : Git (W × List Asked) where
  resolveRef access ref w :=
    let (answer, after) := git.resolveRef access ref w.1
    (answer, after, w.2 ++ [.resolveRef access ref answer])
  fetchPlan access sha planPath w :=
    let (answer, after) := git.fetchPlan access sha planPath w.1
    (answer, after, w.2 ++ [.fetchPlan access sha planPath answer])

/-! ## The property -/

/-- A plan, the commit its ref names, the checkout fetched for its path at that
commit, and what its file there parses to. -/
structure Checked where
  plan : PlanInput
  sha : String
  checkout : Checkout
  summary : PlanSummary

namespace Checked

variable (checked : Checked)

/-- The ref was asked for and names the commit. -/
def resolved : Asked := .resolveRef checked.plan.access checked.plan.ref (.ok ⟨checked.sha⟩)

/-- The plan was asked for at the commit, and its checkout is this one. -/
def fetched : Asked :=
  .fetchPlan checked.plan.access checked.sha checked.plan.planPath (.ok checked.checkout)

/-- The plan's file in its checkout parses, its variables have stored values, and
each of its targets resolves to a permitted host. -/
structure Passes (rt : Runtime) (inputs : PreflightInput) : Prop where
  parses : (checked.checkout.files.readText rt
    (checked.checkout.root.join checked.plan.planPath)).bind (parsePlan rt) = .ok checked.summary
  present : ∀ name ∈ checked.summary.variableNames, (inputs.values.get? name).isSome = true
  permitted : ∀ target ∈ checked.summary.targets, ∃ host,
    resolveHost target.host inputs.values = some host ∧
      matchesAllowlist rt.ucd host inputs.allowlist = true

end Checked

/-- Every plan was checked at its own commit, by the calls of Git in the log, and
the users add up and fit. -/
structure EachPlanChecked (rt : Runtime) (inputs : PreflightInput) (log : List Asked) : Prop where
  plans : ∃ all : List Checked, all.map Checked.plan = inputs.plans ∧
    log = all.map Checked.resolved ++ all.map Checked.fetched ∧
    ∀ checked ∈ all, checked.Passes rt inputs
  users : (inputs.plans.map PlanInput.virtualUsers).sum = inputs.requestedUsers
  capacity : ∃ free, inputs.freeCapacity = some free ∧ inputs.requestedUsers ≤ free

/-- A passing report means that each plan was checked: what Git was asked in the
run, and what it answered, bear it out. -/
def Sound (rt : Runtime) (git : Git W) (inputs : PreflightInput) (w : W) : Prop :=
  ∀ report w', run rt git inputs w = (.ok report, w') → report.ok = true →
    ∃ log, run rt (recorded git) inputs (w, []) = (.ok report, w', log) ∧
      EachPlanChecked rt inputs log

/-- Plans whose repositories have one name resolve to one commit. -/
def OneCommitPerName (answers : List (PlanInput × Resolution)) : Prop :=
  ∀ a ∈ answers, ∀ b ∈ answers, a.1.repoName = b.1.repoName → a.2 = b.2

/-! ## The dictionary of commits -/

/-- A commit in the dictionary is that of some plan of its name. -/
theorem mem_of_get?_resolvedByName {answers : List (PlanInput × Resolution)} {name sha : String}
    (found : (resolvedByName answers).get? name = some sha) :
    ∃ answer ∈ answers, answer.1.repoName = name ∧ answer.2 = .ok sha := by
  induction answers using List.reverseRecOn with
  | nil => cases found
  | append_singleton answers last ih =>
      rw [resolvedByName, List.foldl_concat, ← resolvedByName] at found
      obtain ⟨plan, resolution⟩ := last
      cases resolution with
      | error message =>
          obtain ⟨answer, member, same⟩ := ih found
          exact ⟨answer, List.mem_append_left _ member, same⟩
      | ok own =>
          rw [Dict.get?_set] at found
          split at found
          · rename_i same
            obtain rfl := Option.some.inj found
            exact ⟨(plan, .ok own), by simp, same, rfl⟩
          · obtain ⟨answer, member, same⟩ := ih found
            exact ⟨answer, List.mem_append_left _ member, same⟩

/-- A resolved plan's name is in the dictionary. -/
theorem get?_resolvedByName_isSome {answers : List (PlanInput × Resolution)} {plan : PlanInput}
    {sha : String} (member : (plan, .ok sha) ∈ answers) :
    ∃ own, (resolvedByName answers).get? plan.repoName = some own := by
  induction answers using List.reverseRecOn with
  | nil => cases member
  | append_singleton answers last ih =>
      rw [resolvedByName, List.foldl_concat, ← resolvedByName]
      obtain ⟨lastPlan, resolution⟩ := last
      rcases List.mem_append.mp member with early | here
      · obtain ⟨own, found⟩ := ih early
        cases resolution with
        | error message => exact ⟨own, found⟩
        | ok later =>
            simp only [Dict.get?_set]
            split
            · exact ⟨later, rfl⟩
            · exact ⟨own, found⟩
      · obtain ⟨rfl, rfl⟩ : plan = lastPlan ∧ .ok sha = resolution := by simpa using here
        exact ⟨sha, Dict.get?_set_self _ _ _⟩

/-! ## The loops -/

/-- A round of the second loop reads at the commit of the plan's name. -/
theorem sha_of_readResolved {git : Git W} {resolved : Dict String String} {plan : PlanInput}
    {w w' : W} {reading : Option Reading}
    (round : readResolved rt git resolved plan w = (.ok reading, w')) :
    reading.map Reading.sha = resolved.get? plan.repoName := by
  unfold readResolved at round
  cases found : resolved.get? plan.repoName with
  | none =>
      obtain ⟨rfl, -⟩ : none = reading ∧ w = w' := by simpa [found] using round
      rfl
  | some sha =>
      simp only [found] at round
      cases read : readPlan rt git plan sha w with
      | mk outcome w₁ =>
          cases outcome with
          | ok summary =>
              obtain ⟨rfl, -⟩ : some ⟨sha, .ok summary⟩ = reading ∧ w₁ = w' := by
                simpa [read] using round
              rfl
          | error exc =>
              cases text : caught exc with
              | none => simp [read, text] at round
              | some message =>
                  obtain ⟨rfl, -⟩ : some ⟨sha, .error message⟩ = reading ∧ w₁ = w' := by
                    simpa [read, text] using round
                  rfl

theorem resolveRefs_length {git : Git W} {plans : List PlanInput} {w w' : W}
    {resolutions : List Resolution} (ended : resolveRefs git plans w = (.ok resolutions, w')) :
    resolutions.length = plans.length := (Action.forEach_forall₂ ended).length_eq.symm

theorem readPlans_shas {git : Git W} {resolved : Dict String String} {plans : List PlanInput}
    {w w' : W} {readings : List (Option Reading)}
    (ended : readPlans rt git resolved plans w = (.ok readings, w')) :
    List.Forall₂ (fun plan reading => reading.map Reading.sha = resolved.get? plan.repoName)
      plans readings :=
  (Action.forEach_forall₂ ended).imp fun _ _ ⟨_, _, round⟩ => sha_of_readResolved round

theorem readPlans_length {git : Git W} {resolved : Dict String String} {plans : List PlanInput}
    {w w' : W} {readings : List (Option Reading)}
    (ended : readPlans rt git resolved plans w = (.ok readings, w')) :
    readings.length = plans.length := (Action.forEach_forall₂ ended).length_eq.symm

/-- The first loop asks only for refs. -/
theorem resolveRefs_congr {git other : Git W} (same : other.resolveRef = git.resolveRef) :
    resolveRefs other = resolveRefs git := by
  have rounds : resolvePlan other = resolvePlan git := by
    funext plan w
    rw [resolvePlan, resolvePlan, same]
  rw [resolveRefs, resolveRefs, rounds]

/-! ## What a passing report says -/

/-- A run that returns has made its report from what the two loops returned. -/
theorem run_ok_iff {git : Git W} {inputs : PreflightInput} {w w' : W} {result : PreflightReport} :
    run rt git inputs w = (.ok result, w') ↔
      ∃ resolutions w₁ readings,
        resolveRefs git inputs.plans w = (.ok resolutions, w₁) ∧
        readPlans rt git (resolvedByName (inputs.plans.zip resolutions)) inputs.plans w₁ =
          (.ok readings, w') ∧
        report rt inputs resolutions readings = result := by
  unfold run
  cases first : resolveRefs git inputs.plans w with
  | mk outcome w₁ =>
      cases outcome with
      | error exc => simp
      | ok resolutions =>
          dsimp only
          cases second : readPlans rt git (resolvedByName (inputs.plans.zip resolutions))
              inputs.plans w₁ with
          | mk outcome w₂ =>
              cases outcome with
              | error exc => simp [second]
              | ok readings => simp [second, and_comm]

/-! ## The rounds of a passing run -/

theorem recorded_resolveRef {git : Git W} {access : GitAccess} {ref : String} {w w' : W}
    {answer : Except Raised RefResolution} (log : List Asked)
    (asked : git.resolveRef access ref w = (answer, w')) :
    (recorded git).resolveRef access ref (w, log) =
      (answer, w', log ++ [.resolveRef access ref answer]) := by
  simp only [recorded, asked]

theorem recorded_fetchPlan {git : Git W} {access : GitAccess} {sha planPath : String} {w w' : W}
    {answer : Except Raised Checkout} (log : List Asked)
    (asked : git.fetchPlan access sha planPath w = (answer, w')) :
    (recorded git).fetchPlan access sha planPath (w, log) =
      (answer, w', log ++ [.fetchPlan access sha planPath answer]) := by
  simp only [recorded, asked]

/-- A round of the first loop asks for the plan's ref. -/
theorem resolvePlan_recorded {git : Git W} {plan : PlanInput} {w w' : W} {resolution : Resolution}
    (log : List Asked) (round : resolvePlan git plan w = (.ok resolution, w')) :
    ∃ more, resolvePlan (recorded git) plan (w, log) = (.ok resolution, w', log ++ more) ∧
      ∀ sha, resolution = .ok sha → more = [.resolveRef plan.access plan.ref (.ok ⟨sha⟩)] := by
  unfold resolvePlan at round ⊢
  cases asked : git.resolveRef plan.access plan.ref w with
  | mk answer w₁ =>
      rw [asked] at round
      rw [recorded_resolveRef log asked]
      cases answer with
      | ok resolved =>
          obtain ⟨rfl, rfl⟩ : .ok resolved.sha = resolution ∧ w₁ = w' := by simpa using round
          refine ⟨_, rfl, fun sha same => ?_⟩
          obtain rfl : resolved.sha = sha := Except.ok.inj same
          rfl
      | error exc =>
          cases exc with
          | gitError message =>
              obtain ⟨rfl, rfl⟩ : .error message = resolution ∧ w₁ = w' := by simpa using round
              exact ⟨_, rfl, fun sha impossible => by cases impossible⟩
          | _ => simp at round

/-- A fetch asks for the plan at the commit, and parses the file of the checkout that
it is answered with. -/
theorem readPlan_recorded {git : Git W} {plan : PlanInput} {sha : String} {w w' : W}
    {outcome : Except Raised PlanSummary} (log : List Asked)
    (read : readPlan rt git plan sha w = (outcome, w')) :
    ∃ answer, readPlan rt (recorded git) plan sha (w, log) =
        (outcome, w', log ++ [.fetchPlan plan.access sha plan.planPath answer]) ∧
      ∀ summary, outcome = .ok summary → ∃ checkout, answer = .ok checkout ∧
        (checkout.files.readText rt (checkout.root.join plan.planPath)).bind (parsePlan rt) =
          .ok summary := by
  unfold readPlan at read ⊢
  cases asked : git.fetchPlan plan.access sha plan.planPath w with
  | mk answer w₁ =>
      rw [asked] at read
      rw [recorded_fetchPlan log asked]
      cases answer with
      | error exc =>
          obtain ⟨rfl, rfl⟩ : .error exc = outcome ∧ w₁ = w' := by simpa using read
          exact ⟨_, rfl, fun summary impossible => by cases impossible⟩
      | ok checkout =>
          obtain ⟨parsed, rfl⟩ : (checkout.files.readText rt
              (checkout.root.join plan.planPath)).bind (parsePlan rt) = outcome ∧ w₁ = w' := by
            simpa using read
          refine ⟨_, by rw [← parsed], fun summary same => ⟨checkout, rfl, parsed.trans same⟩⟩

/-- A round of the second loop asks for the plan at the commit of its repository's
name. -/
theorem readResolved_recorded {git : Git W} {resolved : Dict String String} {plan : PlanInput}
    {w w' : W} {reading : Option Reading} (log : List Asked)
    (round : readResolved rt git resolved plan w = (.ok reading, w')) :
    ∃ more, readResolved rt (recorded git) resolved plan (w, log) = (.ok reading, w', log ++ more) ∧
      ∀ sha summary, reading = some ⟨sha, .ok summary⟩ →
        ∃ checkout, more = [.fetchPlan plan.access sha plan.planPath (.ok checkout)] ∧
          (checkout.files.readText rt (checkout.root.join plan.planPath)).bind (parsePlan rt) =
            .ok summary := by
  unfold readResolved at round ⊢
  cases found : resolved.get? plan.repoName with
  | none =>
      obtain ⟨rfl, rfl⟩ : none = reading ∧ w = w' := by simpa [found] using round
      exact ⟨[], by simp, fun sha summary impossible => by cases impossible⟩
  | some sha =>
      simp only [found] at round ⊢
      cases read : readPlan rt git plan sha w with
      | mk outcome w₁ =>
          obtain ⟨answer, ran, parses⟩ := readPlan_recorded log read
          rw [read] at round
          rw [ran]
          cases outcome with
          | ok summary =>
              obtain ⟨rfl, rfl⟩ : some ⟨sha, .ok summary⟩ = reading ∧ w₁ = w' := by
                simpa using round
              refine ⟨_, rfl, fun other found same => ?_⟩
              obtain ⟨rfl, rfl⟩ : sha = other ∧ summary = found := by simpa using same
              obtain ⟨checkout, rfl, parsed⟩ := parses summary rfl
              exact ⟨checkout, rfl, parsed⟩
          | error exc =>
              cases text : caught exc with
              | none => simp [text] at round
              | some message =>
                  obtain ⟨rfl, rfl⟩ : some ⟨sha, .error message⟩ = reading ∧ w₁ = w' := by
                    simpa [text] using round
                  refine ⟨[.fetchPlan plan.access sha plan.planPath answer], ?_,
                    fun sha summary impossible => by cases impossible⟩
                  simp only [text]

/-- What a passing run did for a plan: the commit its ref names, and what it was
checked by, at the commit of its repository's name. -/
structure Round where
  own : String
  checked : Checked

/-- A round of a passing run with these commits. -/
structure Round.Ran (rt : Runtime) (inputs : PreflightInput) (resolved : Dict String String)
    (round : Round) : Prop where
  read : resolved.get? round.checked.plan.repoName = some round.checked.sha
  passes : round.checked.Passes rt inputs

/-- What the first loop asked for a plan. -/
def Round.asked (round : Round) : Asked :=
  .resolveRef round.checked.plan.access round.checked.plan.ref (.ok ⟨round.own⟩)

/-- A list with a value for each index below its length. -/
theorem exists_list_of_forall_index {β : Type} {n : Nat} {P : Nat → β → Prop}
    (each : ∀ i, i < n → ∃ y, P i y) :
    ∃ ys : List β, ys.length = n ∧ ∀ i (bound : i < ys.length), P i (ys.get ⟨i, bound⟩) := by
  choose value holds using fun i : Fin n => each i i.isLt
  refine ⟨List.ofFn value, List.length_ofFn, fun i bound => ?_⟩
  rw [List.get_ofFn]
  exact holds (Fin.cast List.length_ofFn ⟨i, bound⟩)

/-- A list is what a function makes of another, value by value. -/
theorem eq_map_of_forall_index {α β : Type} {xs : List α} {ys : List β} {f : α → β}
    (lengths : xs.length = ys.length)
    (each : ∀ i (bound : i < xs.length), ys[i]? = some (f (xs.get ⟨i, bound⟩))) : ys = xs.map f := by
  refine List.ext_getElem? fun i => ?_
  by_cases bound : i < xs.length
  · rw [each i bound, List.getElem?_map, List.getElem?_eq_getElem bound]
    rfl
  · rw [List.getElem?_eq_none (by omega), List.getElem?_eq_none (by rw [List.length_map]; omega)]

/-- A plan whose ref resolved and whose file was read and passes has a round. -/
theorem exists_round {inputs : PreflightInput} {resolved : Dict String String} {plan : PlanInput}
    {resolution : Resolution} {reading : Option Reading} {asks fetches : List Asked}
    {own found : String} (isOwn : resolution = .ok own)
    (inDict : resolved.get? plan.repoName = some found)
    (sameSha : reading.map Reading.sha = resolved.get? plan.repoName)
    (parsed : ∀ sha message, reading ≠ some ⟨sha, .error message⟩)
    (asked : ∀ sha, resolution = .ok sha → asks = [.resolveRef plan.access plan.ref (.ok ⟨sha⟩)])
    (fetched : ∀ sha summary, reading = some ⟨sha, .ok summary⟩ →
      ∃ checkout, fetches = [.fetchPlan plan.access sha plan.planPath (.ok checkout)] ∧
        (checkout.files.readText rt (checkout.root.join plan.planPath)).bind (parsePlan rt) =
          .ok summary)
    (passes : ∀ sha summary, reading = some ⟨sha, .ok summary⟩ →
      (∀ name ∈ summary.variableNames, (inputs.values.get? name).isSome = true) ∧
        ∀ target ∈ summary.targets, ∃ host, resolveHost target.host inputs.values = some host ∧
          matchesAllowlist rt.ucd host inputs.allowlist = true) :
    ∃ round : Round, plan = round.checked.plan ∧ resolution = .ok round.own ∧
      asks = [round.asked] ∧ fetches = [round.checked.fetched] ∧ round.Ran rt inputs resolved := by
  rw [inDict] at sameSha
  obtain ⟨⟨sha, outcome⟩, isReading, rfl⟩ := Option.map_eq_some_iff.mp sameSha
  cases outcome with
  | error message => exact (parsed sha message isReading).elim
  | ok summary =>
      obtain ⟨checkout, fetch, reads⟩ := fetched sha summary isReading
      obtain ⟨present, permitted⟩ := passes sha summary isReading
      exact ⟨⟨own, plan, sha, checkout, summary⟩, rfl, isOwn, asked own isOwn, fetch, inDict, reads,
        present, permitted⟩

/-- The rounds of a passing run. Each plan's ref resolved, and its file was read at the
commit of its repository's name. -/
theorem rounds_of_passing {git : Git W} {inputs : PreflightInput} {w w' : W}
    {result : PreflightReport} (ran : run rt git inputs w = (.ok result, w'))
    (ok : result.ok = true) :
    ∃ resolutions w₁, resolveRefs git inputs.plans w = (.ok resolutions, w₁) ∧
      ∃ rounds : List Round, inputs.plans = rounds.map (fun round => round.checked.plan) ∧
        resolutions = rounds.map (fun round => .ok round.own) ∧
        (∀ round ∈ rounds, round.Ran rt inputs (resolvedByName (inputs.plans.zip resolutions))) ∧
        run rt (recorded git) inputs (w, []) =
          (.ok result, w', rounds.map Round.asked ++
            rounds.map fun round => round.checked.fetched) := by
  obtain ⟨resolutions, w₁, readings, first, second, rfl⟩ := run_ok_iff.mp ran
  obtain ⟨resolved, parsed, present, -, permitted, -⟩ := report_ok_iff.mp ok
  obtain ⟨asks, firstLogged, asksLogs⟩ :=
    Action.forEach_logged (fun _ _ _ _ log => resolvePlan_recorded log) [] first
  obtain ⟨fetches, secondLogged, fetchesLogs⟩ :=
    Action.forEach_logged (fun _ _ _ _ log => readResolved_recorded log) ([] ++ asks.flatten) second
  have resolutionsLength := resolveRefs_length first
  have readingsLength := readPlans_length second
  have asksLength := asksLogs.length_eq
  have fetchesLength := fetchesLogs.length_eq
  rw [List.length_zip] at asksLength fetchesLength
  -- One round for each plan, from the reports on both loops.
  have each : ∀ i, i < inputs.plans.length → ∃ round : Round,
      inputs.plans[i]? = some round.checked.plan ∧ resolutions[i]? = some (.ok round.own) ∧
        asks[i]? = some [round.asked] ∧ fetches[i]? = some [round.checked.fetched] ∧
        round.Ran rt inputs (resolvedByName (inputs.plans.zip resolutions)) := by
    intro i bound
    have inZip : (inputs.plans[i], resolutions[i]) ∈ inputs.plans.zip resolutions :=
      List.mem_iff_getElem.mpr ⟨i, by simp; omega, by simp⟩
    have inReadZip : (inputs.plans[i], readings[i]) ∈ inputs.plans.zip readings :=
      List.mem_iff_getElem.mpr ⟨i, by simp; omega, by simp⟩
    obtain ⟨own, isOwn⟩ := resolved _ inZip
    dsimp only at isOwn
    obtain ⟨found, inDict⟩ := get?_resolvedByName_isSome (isOwn ▸ inZip)
    have sameSha := (List.forall₂_iff_get.mp (readPlans_shas second)).2 i bound (by omega)
    have asked := (List.forall₂_iff_get.mp asksLogs).2 i (by simp; omega) (by omega)
    have fetched := (List.forall₂_iff_get.mp fetchesLogs).2 i (by simp; omega) (by omega)
    simp only [List.get_eq_getElem, List.getElem_zip] at sameSha asked fetched
    obtain ⟨round, samePlan, sameOwn, isAsked, isFetched, ran⟩ :=
      exists_round isOwn inDict sameSha (parsed _ inReadZip) asked fetched fun sha summary isReading => by
        have inSummaries : summary ∈ summariesOf readings :=
          mem_summariesOf.mpr ⟨sha, isReading ▸ List.getElem_mem (by omega)⟩
        exact ⟨present summary inSummaries, fun target inTargets => permitted target.host
          (mem_targetHosts.mpr ⟨summary, inSummaries, target, inTargets, rfl⟩)⟩
    refine ⟨round, ?_, ?_, ?_, ?_, ran⟩
    · rw [← samePlan, List.getElem?_eq_getElem bound]
    · rw [← sameOwn, List.getElem?_eq_getElem]
    · rw [← isAsked, List.getElem?_eq_getElem]
    · rw [← isFetched, List.getElem?_eq_getElem]
  obtain ⟨rounds, length, each⟩ := exists_list_of_forall_index each
  have allAsked : asks = rounds.map fun round => [round.asked] :=
    eq_map_of_forall_index (by omega) fun i bound => (each i bound).2.2.1
  have allFetched : fetches = rounds.map fun round => [round.checked.fetched] :=
    eq_map_of_forall_index (by omega) fun i bound => (each i bound).2.2.2.1
  refine ⟨resolutions, w₁, first, rounds, ?_, ?_, fun round member => ?_, ?_⟩
  · exact eq_map_of_forall_index length fun i bound => (each i bound).1
  · exact eq_map_of_forall_index (by omega) fun i bound => (each i bound).2.1
  · obtain ⟨i, bound, rfl⟩ := List.mem_iff_getElem.mp member
    exact (each i bound).2.2.2.2
  · have ranLogged : run rt (recorded git) inputs (w, []) =
        (.ok (report rt inputs resolutions readings), w', ([] ++ asks.flatten) ++ fetches.flatten) :=
      run_ok_iff.mpr ⟨resolutions, (w₁, [] ++ asks.flatten), readings, firstLogged, secondLogged, rfl⟩
    have flat : ∀ f : Round → Asked, (rounds.map fun round => [f round]).flatten = rounds.map f :=
      fun f => by rw [← List.flatMap_def, ← List.map_eq_flatMap]
    rw [ranLogged, allAsked, allFetched, List.nil_append, flat, flat]

/-- Where one name has one commit, a passing report is sound. -/
theorem sound_of_oneCommitPerName {git : Git W} {inputs : PreflightInput} {w : W}
    (oneCommit : ∀ resolutions w₁, resolveRefs git inputs.plans w = (.ok resolutions, w₁) →
      (∃ message, .error message ∈ resolutions) ∨
        OneCommitPerName (inputs.plans.zip resolutions)) : Sound rt git inputs w := by
  intro result w' ran ok
  obtain ⟨resolutions, w₁, first, rounds, samePlans, sameRefs, each, logged⟩ :=
    rounds_of_passing ran ok
  obtain ⟨_, _, _, _, _, rfl⟩ := run_ok_iff.mp ran
  obtain ⟨-, -, -, -, -, -, users, capacity⟩ := report_ok_iff.mp ok
  refine ⟨_, logged, ⟨rounds.map Round.checked, ?_, ?_, ?_⟩, users, capacity⟩
  · rw [samePlans, List.map_map]
    rfl
  · have noErrors : ¬ ∃ message, Except.error message ∈ resolutions := by
      rw [sameRefs]
      simp
    have agree := (oneCommit resolutions w₁ first).resolve_left noErrors
    have answers : inputs.plans.zip resolutions =
        rounds.map fun round => (round.checked.plan, .ok round.own) := by
      rw [samePlans, sameRefs, List.zip_map']
    have ownCommit : ∀ round ∈ rounds, round.own = round.checked.sha := by
      intro round member
      obtain ⟨answer, inAnswers, sameName, commit⟩ :=
        mem_of_get?_resolvedByName (each round member).read
      have own : (round.checked.plan, .ok round.own) ∈ inputs.plans.zip resolutions :=
        answers ▸ List.mem_map_of_mem member
      have sameCommit := agree answer inAnswers _ own sameName
      rw [commit] at sameCommit
      exact (Except.ok.inj sameCommit).symm
    rw [List.map_map, List.map_map]
    refine congrArg (· ++ _) (List.map_congr_left fun round member => ?_)
    rw [Round.asked, ownCommit round member]
    rfl
  · intro checked member
    obtain ⟨round, inRounds, rfl⟩ := List.mem_map.mp member
    exact (each round inRounds).passes

/-! ## A Git whose every file is one good plan -/

/-- A plan with one sampler, on `demo-target`. -/
def samplePlan : Element := hashTree [httpElement "HTTPSamplerProxy" (some "demo-target")]

theorem parsePlan_samplePlan {text : String} (reads : rt.fromstring text = .ok samplePlan) :
    ∃ summary, parsePlan rt text = .ok summary ∧
      ∀ target, target ∈ summary.targets ↔ target = ⟨"http", "demo-target", none⟩ := by
  have loop : ((visitAll rt {} samplePlan.iter).bind (addDefaults rt)).map Scan.targets =
      .ok [⟨"http", "demo-target", none⟩] := rfl
  unfold parsePlan
  rw [reads]
  dsimp only
  cases visited : visitAll rt {} samplePlan.iter with
  | error exc => simp [visited, Except.bind, Except.map] at loop
  | ok scan =>
      dsimp only
      cases added : addDefaults rt scan with
      | error exc => simp [visited, added, Except.bind, Except.map] at loop
      | ok last =>
          simp only [visited, added, Except.bind, Except.map, Except.ok.injEq] at loop
          refine ⟨_, rfl, fun target => ?_⟩
          rw [summarize, mem_sortedBy, SetOrder.mem_enumerate, loop, List.mem_singleton]

/-- Git resolves as it did, and every fetch shows `bytes` in every file. -/
def everywhere (git : Git W) (bytes : List UInt8) : Git W where
  resolveRef := git.resolveRef
  fetchPlan _ _ _ w :=
    (.ok { root := PurePath.ofString "/checkout"
           files := { isFile := fun _ => .ok true, readBytes := fun _ => .ok bytes } }, w)

/-- Inputs on which plans that all read as `summary` pass. -/
def passing (plans : List PlanInput) (summary : PlanSummary) : PreflightInput where
  requestedUsers := (plans.map PlanInput.virtualUsers).sum
  plans := plans
  allowlist := ["demo-target"]
  values := Dict.ofList (summary.variableNames.map fun name => (name, ""))
  freeCapacity := some (plans.map PlanInput.virtualUsers).sum

theorem readPlans_everywhere {git : Git W} {bytes : List UInt8} {summary : PlanSummary}
    (parsed : parsePlan rt (rt.decode bytes) = .ok summary) (resolved : Dict String String)
    (plans : List PlanInput) (w : W) :
    readPlans rt (everywhere git bytes) resolved plans w =
      (.ok (plans.map fun plan => (resolved.get? plan.repoName).map fun sha => ⟨sha, .ok summary⟩),
        w) := by
  refine Action.forEach_eq_map (fun plan w => ?_) plans w
  unfold readResolved
  cases resolved.get? plan.repoName with
  | none => rfl
  | some sha =>
      have read : readPlan rt (everywhere git bytes) plan sha w = (.ok summary, w) := by
        rw [← parsed]
        rfl
      dsimp only
      rw [read]
      rfl

theorem demoTarget_permitted {values : Dict String String} {users : Int} {plans : List PlanInput}
    {free : Option Int} :
    Permitted rt ⟨users, plans, ["demo-target"], values, free⟩ "demo-target" := by
  have plain : rt.ucd.lower (strip "demo-target") = "demo-target" := by
    apply Unicode.lower_strip_eq_self
    · intro c member
      have table : ("demo-target".toList.all fun c =>
          c.toNat < 128 && c.toLower == c) = true := by decide
      have row := List.all_eq_true.mp table c member
      rw [Bool.and_eq_true, decide_eq_true_eq, beq_iff_eq] at row
      exact Unicode.lowered_ascii row.1 row.2
    · intro c head
      obtain rfl : 'd' = c := by simpa using head
      decide
    · intro c last
      obtain rfl : 't' = c := by simpa using last
      decide
  refine ⟨"demo-target", ?_, ?_⟩
  · have literal : wholeReference "demo-target" = none := by decide +kernel
    have noReference : contains "demo-target" "$\x7b" = false := by decide +kernel
    simp [resolveHost, literal, noReference]
  · rw [matchesAllowlist_iff]
    refine ⟨by rw [plain]; decide, "demo-target", by simp, ?_⟩
    rw [plain]
    decide +kernel

/-- On such a Git a test with resolved refs passes, whatever its plans. -/
theorem passing_ok {git : Git W} {bytes : List UInt8} {summary : PlanSummary}
    {plans : List PlanInput} {resolutions : List Resolution} {w w₁ : W}
    (parsed : parsePlan rt (rt.decode bytes) = .ok summary)
    (targets : ∀ target, target ∈ summary.targets ↔ target = ⟨"http", "demo-target", none⟩)
    (first : resolveRefs git plans w = (.ok resolutions, w₁))
    (resolved : ∀ message, .error message ∉ resolutions) {plan : PlanInput} (some : plan ∈ plans) :
    ∃ result, run rt (everywhere git bytes) (passing plans summary) w = (.ok result, w₁) ∧
      result.ok = true := by
  have firstAlso : resolveRefs (everywhere git bytes) plans w = (.ok resolutions, w₁) := by
    rw [resolveRefs_congr (show (everywhere git bytes).resolveRef = git.resolveRef from rfl)]
    exact first
  refine ⟨_, run_ok_iff.mpr ⟨resolutions, w₁, _, firstAlso, readPlans_everywhere parsed _ _ _, rfl⟩,
    report_ok_iff.mpr ?_⟩
  have everyOk : ∀ answer ∈ plans.zip resolutions, ∃ sha, answer.2 = .ok sha := by
    intro answer member
    cases own : answer.2 with
    | error message => exact (resolved message (own ▸ (List.of_mem_zip member).2)).elim
    | ok sha => exact ⟨sha, rfl⟩
  have onlySummary : ∀ other, other ∈ summariesOf (plans.map fun plan =>
      ((resolvedByName (plans.zip resolutions)).get? plan.repoName).map fun sha =>
        (⟨sha, .ok summary⟩ : Reading)) → other = summary := by
    intro other member
    obtain ⟨sha, inReadings⟩ := mem_summariesOf.mp member
    obtain ⟨_, -, same⟩ := List.mem_map.mp inReadings
    obtain ⟨_, -, same⟩ := Option.map_eq_some_iff.mp same
    cases same
    rfl
  have someSummary : summary ∈ summariesOf (plans.map fun plan =>
      ((resolvedByName (plans.zip resolutions)).get? plan.repoName).map fun sha =>
        (⟨sha, .ok summary⟩ : Reading)) := by
    obtain ⟨i, bound, here⟩ := List.mem_iff_getElem.mp some
    have bound' : i < resolutions.length := by rw [resolveRefs_length first]; exact bound
    have inZip : (plan, resolutions[i]) ∈ plans.zip resolutions :=
      List.mem_iff_getElem.mpr ⟨i, by simp; omega, by simp [here]⟩
    obtain ⟨sha, own⟩ := everyOk _ inZip
    dsimp only at own
    obtain ⟨commit, found⟩ := get?_resolvedByName_isSome (own ▸ inZip)
    refine mem_summariesOf.mpr ⟨commit, List.mem_map.mpr ⟨plan, some, ?_⟩⟩
    rw [found]
    rfl
  have onlyHost : ∀ host, host ∈ targetHosts rt (summariesOf (plans.map fun plan =>
      ((resolvedByName (plans.zip resolutions)).get? plan.repoName).map fun sha =>
        (⟨sha, .ok summary⟩ : Reading))) ↔ host = "demo-target" := by
    intro host
    rw [mem_targetHosts]
    constructor
    · intro ⟨other, member, target, inTargets, same⟩
      rw [onlySummary other member, targets] at inTargets
      rw [← same, inTargets]
    · rintro rfl
      exact ⟨summary, someSummary, _, (targets _).mpr rfl, rfl⟩
  refine ⟨everyOk, ?_, ?_, ?_, ?_, List.ne_nil_of_mem some, rfl, _, rfl, le_refl _⟩
  · intro answer member sha message isError
    obtain ⟨_, -, same⟩ := List.mem_map.mp (List.of_mem_zip member).2
    rw [isError] at same
    obtain ⟨_, -, same⟩ := Option.map_eq_some_iff.mp same
    cases same
  · intro other member name inNames
    rw [onlySummary other member] at inNames
    rw [Dict.get?_isSome_iff]
    exact Dict.mem_keys_ofList.mpr (by simpa [passing] using inNames)
  · exact List.ne_nil_of_mem ((onlyHost "demo-target").mpr rfl)
  · intro host member
    rw [(onlyHost host).mp member]
    exact demoTarget_permitted

/-! ## When a passing report is sound -/

/-- A sound passing report on such a Git has every plan's own commit in the
dictionary. -/
theorem resolvedByName_of_sound {git : Git W} {plans : List PlanInput} {w w₁ : W}
    {bytes : List UInt8} {resolutions : List Resolution} {summary : PlanSummary}
    (parsed : parsePlan rt (rt.decode bytes) = .ok summary)
    (targets : ∀ target, target ∈ summary.targets ↔ target = ⟨"http", "demo-target", none⟩)
    (first : resolveRefs git plans w = (.ok resolutions, w₁))
    (resolved : ∀ message, .error message ∉ resolutions)
    (sound : Sound rt (everywhere git bytes) (passing plans summary) w) :
    ∀ answer ∈ plans.zip resolutions, ∃ sha, answer.2 = .ok sha ∧
      (resolvedByName (plans.zip resolutions)).get? answer.1.repoName = some sha := by
  intro answer member
  obtain ⟨result, ran, ok⟩ :=
    passing_ok parsed targets first resolved (List.of_mem_zip member).1
  obtain ⟨resolutions', w₂, again, rounds, samePlans, sameRefs, each, logged⟩ :=
    rounds_of_passing ran ok
  rw [resolveRefs_congr (show (everywhere git bytes).resolveRef = git.resolveRef from rfl),
    show (passing plans summary).plans = plans from rfl, first] at again
  obtain ⟨rfl, rfl⟩ : resolutions = resolutions' ∧ w₁ = w₂ := by simpa using again
  rw [show (passing plans summary).plans = plans from rfl] at samePlans each
  obtain ⟨log, loggedToo, ⟨all, sameAll, isLog, -⟩, -, -⟩ := sound result w₁ ran ok
  rw [show (passing plans summary).plans = plans from rfl] at sameAll
  -- Both accounts are of one log, so each plan's own commit is the one read.
  have oneLog : all.map Checked.resolved ++ all.map Checked.fetched =
      rounds.map Round.asked ++ rounds.map fun round => round.checked.fetched := by
    rw [← isLog]
    simpa using loggedToo.symm.trans logged
  have lengths : all.length = rounds.length := by
    rw [← List.length_map Checked.plan, sameAll, samePlans, List.length_map]
  obtain ⟨asks, fetches⟩ := List.append_inj oneLog (by simp [lengths])
  rw [samePlans, sameRefs, List.zip_map'] at member
  obtain ⟨round, inRounds, rfl⟩ := List.mem_map.mp member
  obtain ⟨i, bound, rfl⟩ := List.mem_iff_getElem.mp inRounds
  refine ⟨_, rfl, ?_⟩
  have bound' : i < all.length := by omega
  have asked := List.getElem_of_eq asks (by simpa using bound')
  have fetched := List.getElem_of_eq fetches (by simpa using bound')
  simp only [List.getElem_map, Checked.resolved, Checked.fetched, Round.asked, Asked.resolveRef.injEq,
    Asked.fetchPlan.injEq, Except.ok.injEq, RefResolution.mk.injEq] at asked fetched
  rw [(each _ inRounds).read, ← asked.2.2, fetched.2.1]

/-- A passing preflight is sound for all inputs with these plans, and whatever
Git shows of them, exactly when a ref does not resolve or plans of one
repository name resolve to one commit. -/
theorem sound_iff {git : Git W} {plans : List PlanInput} {w : W} {bytes : List UInt8}
    (reads : rt.fromstring (rt.decode bytes) = .ok samplePlan) :
    (∀ (other : Git W) (inputs : PreflightInput), other.resolveRef = git.resolveRef →
        inputs.plans = plans → Sound rt other inputs w) ↔
      ∀ resolutions w₁, resolveRefs git plans w = (.ok resolutions, w₁) →
        (∃ message, .error message ∈ resolutions) ∨ OneCommitPerName (plans.zip resolutions) := by
  constructor
  · intro sound resolutions w₁ first
    by_cases unresolved : ∃ message, .error message ∈ resolutions
    · exact Or.inl unresolved
    refine Or.inr fun a inA b inB sameName => ?_
    obtain ⟨summary, parsed, targets⟩ := parsePlan_samplePlan reads
    have ownCommit := resolvedByName_of_sound parsed targets first (not_exists.mp unresolved)
      (sound (everywhere git bytes) (passing plans summary) rfl rfl)
    obtain ⟨shaA, ownA, dictA⟩ := ownCommit a inA
    obtain ⟨shaB, ownB, dictB⟩ := ownCommit b inB
    rw [sameName, dictB] at dictA
    rw [ownA, ownB, Option.some.inj dictA]
  · intro oneCommit other inputs sameRefs samePlans
    refine sound_of_oneCommitPerName fun resolutions w₁ first => ?_
    rw [resolveRefs_congr sameRefs, samePlans] at first
    rw [samePlans]
    exact oneCommit resolutions w₁ first

/-! ## Two plans of one repository -/

/-- The markup of `samplePlan`. -/
def sampleText : String :=
  "<hashTree>" ++ httpMarkup "HTTPSamplerProxy" (some "demo-target") ++ "</hashTree>"

theorem reading_samplePlan :
    (reading sampleText samplePlan).fromstring
      ((reading sampleText samplePlan).decode (utf8 sampleText)) = .ok samplePlan := by
  rw [reading_decode, reading_fromstring]

/-- A plan of the repository `load` at `ref`. -/
def loadPlan (ref : String) : PlanInput where
  repoName := "load"
  access := { url := "https://git.test/load.git" }
  planPath := "plan.jmx"
  ref := ref
  virtualUsers := 1

/-- A Git with two refs, on two commits. -/
def twoRefs : Git Unit where
  resolveRef _ ref w :=
    (if ref = "v1" then .ok ⟨"1111111111111111111111111111111111111111"⟩
      else .ok ⟨"2222222222222222222222222222222222222222"⟩, w)
  fetchPlan _ _ _ w := (.error (.gitError "fatal: unable to access"), w)

/-- Two plans at one ref. -/
theorem sound_iff_one_ref :
    (∀ (other : Git Unit) (inputs : PreflightInput), other.resolveRef = twoRefs.resolveRef →
        inputs.plans = [loadPlan "v1", loadPlan "v1"] →
          Sound (reading sampleText samplePlan) other inputs ()) ↔
      ∀ resolutions w₁, resolveRefs twoRefs [loadPlan "v1", loadPlan "v1"] () =
          (.ok resolutions, w₁) →
        (∃ message, .error message ∈ resolutions) ∨
          OneCommitPerName ([loadPlan "v1", loadPlan "v1"].zip resolutions) :=
  sound_iff reading_samplePlan

/-- Two plans of one repository at two refs pass together, but only the second
is checked at its own commit. -/
theorem two_refs_unsound :
    ¬ ∀ (W : Type) (rt : Runtime) (git : Git W) (inputs : PreflightInput) (w : W),
      Sound rt git inputs w := by
  intro sound
  obtain ⟨summary, parsed, targets⟩ := parsePlan_samplePlan reading_samplePlan
  have first : resolveRefs twoRefs [loadPlan "v1", loadPlan "v2"] () =
      (.ok [.ok "1111111111111111111111111111111111111111",
        .ok "2222222222222222222222222222222222222222"], ()) := rfl
  have ownCommit := resolvedByName_of_sound parsed targets first (by simp) (sound _ _ _ _ _)
  obtain ⟨sha, own, inDict⟩ := ownCommit
    (loadPlan "v1", .ok "1111111111111111111111111111111111111111") (by simp)
  obtain rfl := Except.ok.inj own
  exact absurd inDict (by decide)

end Plimsoll.Preflight
