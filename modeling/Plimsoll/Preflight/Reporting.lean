import Plimsoll.Preflight.Consistency
import Mathlib.Algebra.Order.BigOperators.Group.List
import Mathlib.Data.List.Perm.Subperm

/-!
Which failures a preflight reports.

The first loop's failures go into `SCRIPT_REF` and the second loop's into `PLAN_PARSES`,
which is skipped when the first loop had one. So a plan that was read in vain is not
reported beside a ref that did not resolve.
-/

namespace Plimsoll.Preflight

open Python Jmx

variable {rt : Runtime} {W : Type} {git : Git W} {inputs : PreflightInput}

/-! ## The claim and the condition -/

/-- Each of these texts is an entry of its own in the detail of a failed check. -/
def Accounted (texts : List String) (checks : List Check) : Prop :=
  ∃ entries : Check → List String,
    (∀ check ∈ checks, check.status = .fail → check.detail = join "; " (entries check)) ∧
      texts.Subperm ((checks.filter fun check => check.status = .fail).flatMap entries)

/-- The report names every plan whose ref did not resolve and every plan that was not
read, each with the message of its failure. -/
def ReportsEvery (rt : Runtime) (git : Git W) (inputs : PreflightInput) (w : W) : Prop :=
  ∀ result w', run rt git inputs w = (.ok result, w') →
    ∃ resolutions w₁ readings,
      resolveRefs git inputs.plans w = (.ok resolutions, w₁) ∧
      readPlans rt git (resolvedByName (inputs.plans.zip resolutions)) inputs.plans w₁ =
        (.ok readings, w') ∧
      Accounted (refsUnresolved inputs resolutions ++ plansUnread inputs readings) result.checks

/-- Every ref resolves, or every plan whose name has a commit is read. -/
def OneKind (rt : Runtime) (git : Git W) (inputs : PreflightInput) (w : W) : Prop :=
  ∀ resolutions w₁ readings w', resolveRefs git inputs.plans w = (.ok resolutions, w₁) →
    readPlans rt git (resolvedByName (inputs.plans.zip resolutions)) inputs.plans w₁ =
      (.ok readings, w') →
    (∀ message, .error message ∉ resolutions) ∨
      ∀ sha message, some ⟨sha, .error message⟩ ∉ readings

/-! ## Texts that are joined -/

/-- The length of some texts, each with a separator. -/
def weight (texts : List String) : Nat := (texts.map fun text => text.length + 2).sum

theorem weight_append (texts others : List String) :
    weight (texts ++ others) = weight texts + weight others := by
  rw [weight, List.map_append, List.sum_append, ← weight, ← weight]

theorem weight_le_of_subperm {texts others : List String} (within : texts.Subperm others) :
    weight texts ≤ weight others := by
  obtain ⟨sorted, perm, sub⟩ := within
  rw [weight, ← (perm.map fun text : String => text.length + 2).sum_nat]
  exact (sub.map fun text : String => text.length + 2).sum_le_sum fun _ _ => Nat.zero_le _

theorem length_join {texts : List String} (some : texts ≠ []) :
    (join "; " texts).length + 2 = weight texts := by
  have characters : ∀ rest : List String, rest ≠ [] →
      (['\x3b', ' '].intercalate (rest.map String.toList)).length + 2 = weight rest := by
    intro rest nonempty
    induction rest with
    | nil => exact absurd rfl nonempty
    | cons first rest ih =>
        cases rest with
        | nil =>
            rw [List.map_cons, List.map_nil, List.intercalate_singleton, String.length_toList]
            rfl
        | cons second rest =>
            have later := ih (List.cons_ne_nil _ _)
            have sum : weight (first :: second :: rest) =
                first.length + 2 + weight (second :: rest) := rfl
            rw [List.map_cons, List.map_cons, List.intercalate_cons_cons, List.length_append,
              List.length_append, ← List.map_cons, String.length_toList, sum, ← later]
            simp only [List.length_cons, List.length_nil]
            omega
  rw [← String.length_toList, join, String.toList_intercalate]
  exact characters texts some

theorem weight_le_join (texts : List String) : weight texts ≤ (join "; " texts).length + 2 := by
  by_cases none : texts = []
  · rw [none]
    exact Nat.zero_le _
  · exact (length_join none).ge

theorem join_singleton (sep text : String) : join sep [text] = text := by
  rw [join, ← String.toList_inj, String.toList_intercalate, List.map_cons, List.map_nil,
    List.intercalate_singleton]

theorem mem_join {sep text : String} {texts : List String} {c : Char} (inTexts : text ∈ texts)
    (member : c ∈ text.toList) : c ∈ (join sep texts).toList := by
  rw [join, String.toList_intercalate]
  induction texts with
  | nil => cases inTexts
  | cons first rest ih =>
      cases rest with
      | nil =>
          rw [List.mem_singleton.mp inTexts] at member
          rw [List.map_cons, List.map_nil, List.intercalate_singleton]
          exact member
      | cons second rest =>
          rw [List.map_cons, List.map_cons, List.intercalate_cons_cons, List.mem_append,
            List.mem_append]
          rcases List.mem_cons.mp inTexts with rfl | later
          · exact Or.inl (Or.inl member)
          · exact Or.inr (ih later)

/-! ## Colons -/

def hasColon (text : String) : Bool := ':' ∈ text.toList

theorem colon_not_mem_nat {n : Nat} : ':' ∉ (toString n).toList := by
  rw [Nat.toString_eq_ofList_toDigits, String.toList_ofList]
  intro member
  have digit := Nat.isDigit_of_mem_toDigits (by decide) (by decide) member
  exact absurd digit (by decide)

theorem colon_not_mem_int {n : Int} : ':' ∉ (toString n).toList := by
  cases n with
  | ofNat m => exact colon_not_mem_nat
  | negSucc m =>
      change ':' ∉ ("-" ++ toString (m + 1)).toList
      rw [String.toList_append, List.mem_append]
      rintro (sign | digits)
      · exact absurd sign (by decide)
      · exact colon_not_mem_nat digits

theorem structureCheck_colon : ':' ∉ (structureCheck inputs).detail.toList := by
  unfold structureCheck
  dsimp only
  split
  · decide
  · split
    · simp only [failed, String.toList_append, List.mem_append, colon_not_mem_int, or_false]
      decide
    · simp only [passed, String.toList_append, List.mem_append, colon_not_mem_int,
        colon_not_mem_nat, or_false, false_or]
      decide

theorem capacityCheck_colon : ':' ∉ (capacityCheck inputs).detail.toList := by
  unfold capacityCheck
  split
  · decide
  · split
    · simp only [passed, String.toList_append, List.mem_append, colon_not_mem_int, or_false,
        false_or]
      decide
    · simp only [failed, String.toList_append, List.mem_append, colon_not_mem_int, or_false]
      decide

theorem hasColon_refsUnresolved {resolutions : List Resolution} :
    ∀ text ∈ refsUnresolved inputs resolutions, hasColon text = true := by
  intro text member
  obtain ⟨⟨plan, resolution⟩, -, same⟩ := List.mem_filterMap.mp member
  cases resolution with
  | ok sha => cases same
  | error message =>
      cases same
      simp [hasColon]

theorem hasColon_plansUnread {readings : List (Option Reading)} :
    ∀ text ∈ plansUnread inputs readings, hasColon text = true := by
  intro text member
  obtain ⟨⟨plan, reading⟩, -, same⟩ := List.mem_filterMap.mp member
  rcases reading with _ | ⟨sha, message | summary⟩
  · cases same
  · cases same
    simp [hasColon]
  · cases same

/-! ## What a report accounts for -/

/-- A check that fails with these texts accounts for them. -/
theorem accounted_of_check {texts : List String} {checks : List Check} (check : Check)
    (member : check ∈ checks) (distinct : (checks.map Check.code).Nodup)
    (reports : texts ≠ [] → check.status = .fail ∧ check.detail = join "; " texts) :
    Accounted texts checks := by
  by_cases none : texts = []
  · refine ⟨fun check => [check.detail], fun check _ _ => (join_singleton _ _).symm, ?_⟩
    rw [none]
    exact List.nil_subperm
  · obtain ⟨fails, detail⟩ := reports none
    refine ⟨fun other => if other.code = check.code then texts else [other.detail], ?_, ?_⟩
    · intro other inChecks _
      dsimp only
      by_cases same : other.code = check.code
      · rw [if_pos same, List.inj_on_of_nodup_map distinct inChecks member same, detail]
      · rw [if_neg same, join_singleton]
    · have inFailed : check ∈ checks.filter fun check => check.status = .fail :=
        List.mem_filter.mpr ⟨member, decide_eq_true fails⟩
      refine (List.sublist_flatten_of_mem (List.mem_map.mpr ⟨check, inFailed, ?_⟩)).subperm
      exact if_pos rfl

/-- A check whose detail has no colon has no entry with one. -/
theorem filter_entries {check : Check} {entries : Check → List String}
    (colon : ':' ∉ check.detail.toList)
    (detail : check.status = .fail → check.detail = join "; " (entries check)) :
    (([check].filter fun check => check.status = .fail).flatMap entries).filter hasColon = [] := by
  rw [List.filter_eq_nil_iff]
  intro text member isColon
  obtain ⟨other, inFailed, inEntries⟩ := List.mem_flatMap.mp member
  obtain ⟨same, fails⟩ := List.mem_filter.mp inFailed
  rw [List.mem_singleton.mp same] at fails inEntries
  rw [detail (of_decide_eq_true fails)] at colon
  exact colon (mem_join inEntries (of_decide_eq_true isColon))

variable {resolutions : List Resolution} {readings : List (Option Reading)}

/-- The failed checks of a report with an unresolved ref: the three that need the plans
are skipped. -/
theorem failed_of_unresolved (unresolved : refsUnresolved inputs resolutions ≠ []) :
    (report rt inputs resolutions readings).checks.filter (fun check => check.status = .fail) =
      ([structureCheck inputs].filter fun check => check.status = .fail) ++
        failed "SCRIPT_REF" (join "; " (refsUnresolved inputs resolutions)) ::
          [capacityCheck inputs].filter fun check => check.status = .fail := by
  have blocked : (!(refsUnresolved inputs resolutions).isEmpty ||
      !(plansUnread inputs readings).isEmpty) = true := by
    rw [Bool.or_eq_true, Bool.not_eq_true', List.isEmpty_eq_false_iff]
    exact Or.inl unresolved
  have dropped : ∀ {check : Check} {rest : List Check}, check.status = .skipped →
      (check :: rest).filter (fun check => check.status = .fail) =
        rest.filter fun check => check.status = .fail := by
    intro check rest isSkipped
    refine List.filter_cons_of_neg ?_
    rw [isSkipped]
    decide
  have script : scriptRefCheck (resolvedByName (inputs.plans.zip resolutions))
      (refsUnresolved inputs resolutions) =
        failed "SCRIPT_REF" (join "; " (refsUnresolved inputs resolutions)) := if_pos unresolved
  change ([structureCheck inputs] ++ (scriptRefCheck (resolvedByName (inputs.plans.zip resolutions))
      (refsUnresolved inputs resolutions) :: _ :: _ :: _ :: [capacityCheck inputs])).filter _ = _
  rw [List.filter_append, script]
  refine congrArg (_ ++ ·) ((List.filter_cons_of_pos (by rfl)).trans (congrArg (_ :: ·) ?_))
  exact (dropped (planParsesCheck_skipped_iff.mpr unresolved)).trans
    ((dropped (variablesCheck_skipped_iff.mpr blocked)).trans
      (dropped (targetsCheck_skipped_iff.mpr blocked)))

/-- What a report accounts for beside an unresolved ref is no more than the refs. -/
theorem not_accounted (unresolved : refsUnresolved inputs resolutions ≠ [])
    (unread : plansUnread inputs readings ≠ []) :
    ¬ Accounted (refsUnresolved inputs resolutions ++ plansUnread inputs readings)
      (report rt inputs resolutions readings).checks := by
  rintro ⟨entries, details, within⟩
  have inReport : ∀ {check : Check}, check ∈ (report rt inputs resolutions readings).checks.filter
      (fun check => check.status = .fail) → check.detail = join "; " (entries check) := by
    intro check member
    obtain ⟨inChecks, fails⟩ := List.mem_filter.mp member
    exact details check inChecks (of_decide_eq_true fails)
  rw [failed_of_unresolved unresolved] at within inReport
  have script := inReport (List.mem_append_right _ List.mem_cons_self)
  have structure_ := filter_entries (structureCheck_colon)
    fun fails => inReport (List.mem_append_left _ (List.mem_filter.mpr
      ⟨List.mem_singleton_self _, decide_eq_true fails⟩))
  have capacity := filter_entries (capacityCheck_colon)
    fun fails => inReport (List.mem_append_right _ (List.mem_cons_of_mem _ (List.mem_filter.mpr
      ⟨List.mem_singleton_self _, decide_eq_true fails⟩)))
  have colons : (refsUnresolved inputs resolutions ++ plansUnread inputs readings).filter hasColon =
      refsUnresolved inputs resolutions ++ plansUnread inputs readings :=
    List.filter_eq_self.mpr fun text member => (List.mem_append.mp member).elim
      (hasColon_refsUnresolved text) (hasColon_plansUnread text)
  have bound := weight_le_of_subperm (within.filter hasColon)
  rw [colons, List.flatMap_append, List.flatMap_cons, List.filter_append, List.filter_append,
    structure_, capacity, List.nil_append, List.append_nil, weight_append] at bound
  have kept := weight_le_of_subperm ((List.filter_sublist (p := hasColon)
    (l := entries (failed "SCRIPT_REF" (join "; " (refsUnresolved inputs resolutions))))).subperm)
  have total := weight_le_join
    (entries (failed "SCRIPT_REF" (join "; " (refsUnresolved inputs resolutions))))
  rw [← script, show (failed "SCRIPT_REF" (join "; " (refsUnresolved inputs resolutions))).detail =
    join "; " (refsUnresolved inputs resolutions) from rfl, length_join unresolved] at total
  have more : 0 < weight (plansUnread inputs readings) := by
    cases texts : plansUnread inputs readings with
    | nil => exact absurd texts unread
    | cons text rest =>
        rw [weight, List.map_cons, List.sum_cons]
        omega
  omega

/-- A report accounts for the failures of both loops exactly when one of them had none. -/
theorem accounted_iff :
    Accounted (refsUnresolved inputs resolutions ++ plansUnread inputs readings)
        (report rt inputs resolutions readings).checks ↔
      refsUnresolved inputs resolutions = [] ∨ plansUnread inputs readings = [] := by
  have distinct : ((report rt inputs resolutions readings).checks.map Check.code).Nodup := by
    rw [report_codes]
    decide
  constructor
  · intro accounted
    by_contra both
    obtain ⟨unresolved, unread⟩ := not_or.mp both
    exact not_accounted unresolved unread accounted
  · rintro (resolved | read)
    · rw [resolved, List.nil_append]
      refine accounted_of_check (planParsesCheck (refsUnresolved inputs resolutions)
        (plansUnread inputs readings) (summariesOf readings)) ?_ distinct ?_
      · exact List.mem_cons_of_mem _ (List.mem_cons_of_mem _ List.mem_cons_self)
      · intro unread
        rw [planParsesCheck, if_neg (not_not.mpr resolved), if_pos unread]
        exact ⟨rfl, rfl⟩
    · rw [read, List.append_nil]
      refine accounted_of_check (scriptRefCheck
        (resolvedByName (inputs.plans.zip resolutions)) (refsUnresolved inputs resolutions))
        ?_ distinct ?_
      · exact List.mem_cons_of_mem _ List.mem_cons_self
      · intro unresolved
        rw [scriptRefCheck, if_pos unresolved]
        exact ⟨rfl, rfl⟩

/-! ## Runs -/

theorem refsUnresolved_eq_nil_iff (lengths : resolutions.length = inputs.plans.length) :
    refsUnresolved inputs resolutions = [] ↔ ∀ message, .error message ∉ resolutions := by
  rw [refsUnresolved, unresolvedRefs_eq_nil_iff]
  constructor
  · intro resolved message member
    obtain ⟨i, bound, here⟩ := List.mem_iff_getElem.mp member
    have inZip : (inputs.plans[i], Except.error message) ∈ inputs.plans.zip resolutions :=
      List.mem_iff_getElem.mpr ⟨i, by simp; omega, by simp [here]⟩
    obtain ⟨sha, impossible⟩ := resolved _ inZip
    cases impossible
  · intro none answer member
    cases own : answer.2 with
    | error message => exact absurd (own ▸ (List.of_mem_zip member).2) (none message)
    | ok sha => exact ⟨sha, rfl⟩

theorem plansUnread_eq_nil_iff (lengths : readings.length = inputs.plans.length) :
    plansUnread inputs readings = [] ↔ ∀ sha message, some ⟨sha, .error message⟩ ∉ readings := by
  rw [plansUnread, parseFailures_eq_nil_iff]
  constructor
  · intro read sha message member
    obtain ⟨i, bound, here⟩ := List.mem_iff_getElem.mp member
    have inZip : (inputs.plans[i], some ⟨sha, Except.error message⟩) ∈ inputs.plans.zip readings :=
      List.mem_iff_getElem.mpr ⟨i, by simp; omega, by simp [here]⟩
    exact read _ inZip sha message rfl
  · intro none answer member sha message own
    exact none sha message (own ▸ (List.of_mem_zip member).2)

theorem OneKind.of_reportsEvery {w : W} (reports : ReportsEvery rt git inputs w) :
    OneKind rt git inputs w := by
  intro resolutions w₁ readings w' first second
  have lengths := readPlans_length second
  obtain ⟨resolutions', w₁', readings', first', second', accounted⟩ :=
    reports _ w' (run_ok_iff.mpr ⟨resolutions, w₁, readings, first, second, rfl⟩)
  obtain ⟨rfl, rfl⟩ : resolutions = resolutions' ∧ w₁ = w₁' := by
    simpa using first.symm.trans first'
  obtain rfl : readings = readings' := by simpa using second.symm.trans second'
  rw [← refsUnresolved_eq_nil_iff (resolveRefs_length first), ← plansUnread_eq_nil_iff lengths]
  exact accounted_iff.mp accounted

/-- Every failure is reported exactly when those of one loop only have occurred. -/
theorem reportsEvery_iff {w : W} : ReportsEvery rt git inputs w ↔ OneKind rt git inputs w := by
  refine ⟨OneKind.of_reportsEvery, ?_⟩
  intro oneKind result w' ran
  obtain ⟨resolutions, w₁, readings, first, second, rfl⟩ := run_ok_iff.mp ran
  have lengths := readPlans_length second
  refine ⟨resolutions, w₁, readings, first, second, accounted_iff.mpr ?_⟩
  rw [refsUnresolved_eq_nil_iff (resolveRefs_length first), plansUnread_eq_nil_iff lengths]
  exact oneKind resolutions w₁ readings w' first second

/-! ## A plan that is not reported -/

/-- A plan of the repository `smoke` at `v2`. -/
def smokePlan : PlanInput := { loadPlan "v2" with repoName := "smoke" }

/-- The ref of one plan does not resolve, the fetch of the other fails, and no failed
check says so. -/
theorem fetch_failure_unreported :
    (∃ result, run (reading sampleText samplePlan) onlyV1
        { requestedUsers := 2, plans := [loadPlan "v1", smokePlan] } () = (.ok result, ()) ∧
      readPlan (reading sampleText samplePlan) onlyV1 (loadPlan "v1")
        "1111111111111111111111111111111111111111" () =
          (.error (.gitError "fatal: unable to access"), ()) ∧
      ∀ check ∈ result.checks, check.status = .fail →
        contains check.detail "fatal: unable to access" = false) ∧
    ¬ ∀ (W : Type) (rt : Runtime) (git : Git W) (inputs : PreflightInput) (w : W),
      ReportsEvery rt git inputs w := by
  constructor
  · refine ⟨_, rfl, rfl, ?_⟩
    decide +kernel
  · intro every
    have oneKind := OneKind.of_reportsEvery (every Unit (reading sampleText samplePlan) onlyV1
      { requestedUsers := 2, plans := [loadPlan "v1", smokePlan] } ())
    rcases oneKind _ _ _ _ rfl rfl with resolved | read
    · exact resolved "fatal: no such ref" (by simp)
    · exact read "1111111111111111111111111111111111111111" "fatal: unable to access" (by simp)

end Plimsoll.Preflight
