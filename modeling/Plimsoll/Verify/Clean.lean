import Plimsoll.Verify.Entries
import Plimsoll.Verify.Findings

/-!
What a clean verification says of a repository.

A report is clean when none of its findings is an error. Where a manifest stands in
the plan's directory or above it, this covers everything that the entry asks for
which the plan is checked against. That entry may be a namesake's, and where there is
no manifest the files that the plan reads are not looked for.
-/

namespace Plimsoll.Verify

open Python Jmx Manifests Contracts

/-! ## Repositories that can be run -/

/-- These files stand where the plan's directory says. -/
def Beside (checkout : Checkout) (planPath : String) (paths : List String) : Prop :=
  ∀ path ∈ paths,
    checkout.files.isFile ((planDirectory checkout.root planPath).join path) = .ok true

/-- The plan is there, and `parse_plan` accepts it. -/
structure Parses (rt : Runtime) (checkout : Checkout) (planPath : String) (summary : PlanSummary) :
    Prop where
  present : checkout.files.isFile (checkout.root.join planPath) = .ok true
  plan : (checkout.files.readText rt (checkout.root.join planPath)).bind (parsePlan rt) =
    .ok summary

/-- The text is a mapping with the supported schema version. -/
def Supported (rt : Runtime) (text : String) : Prop :=
  ∃ document, rt.safeLoad text = .ok (.dict document) ∧
    ((Value.get? "version" document).getD .none).isOne = true

/-- What an entry asks for: the files it declares and those that the plan reads stand
beside the plan, and its variables cover those of the plan. -/
structure Met (checkout : Checkout) (planPath : String) (summary : PlanSummary)
    (entry : ManifestPlan) : Prop where
  declared : Beside checkout planPath (declaredPaths entry)
  files : Beside checkout planPath summary.dataFiles
  covered : ∀ name ∈ summary.variableNames, name ∈ entry.variableNames

/-- The plan has this manifest, which parses. -/
structure Governs (rt : Runtime) (checkout : Checkout) (planPath : String) (manifestFile : PurePath)
    (text : String) (manifest : Manifest) : Prop where
  found : findManifest checkout.files checkout.root planPath = .ok (some manifestFile)
  read : checkout.files.readText rt manifestFile = .ok text
  parsed : parseManifest rt text = .ok manifest

section

variable {Place : Type} (locate : PurePath → Place)

/-- An entry of the manifest whose path, taken from the manifest's directory, denotes the
plan. -/
def Lists (checkout : Checkout) (planPath : String) (manifestFile : PurePath) (manifest : Manifest)
    (entry : ManifestPlan) : Prop :=
  entry ∈ manifest.plans ∧ Denotes locate manifestFile.parent checkout.root planPath entry

/-- A manifest of the supported version that parses and lists the plan, in an entry whose
files are there and whose variables cover those of the plan. -/
structure Conforms (rt : Runtime) (checkout : Checkout) (planPath : String) (summary : PlanSummary)
    (manifestFile : PurePath) (text : String) (manifest : Manifest) (entry : ManifestPlan) : Prop
    extends Governs rt checkout planPath manifestFile text manifest where
  supported : Supported rt text
  lists : Lists locate checkout planPath manifestFile manifest entry
  met : Met checkout planPath summary entry

/-- The plan parses, the files it reads are there, and the manifest that governs it,
if there is one, conforms. -/
structure Runnable (rt : Runtime) (checkout : Checkout) (planPath : String) (summary : PlanSummary) :
    Prop extends Parses rt checkout planPath summary where
  files : Beside checkout planPath summary.dataFiles
  manifest : ∀ manifestFile,
    findManifest checkout.files checkout.root planPath = .ok (some manifestFile) →
      ∃ text manifest entry,
        Conforms locate rt checkout planPath summary manifestFile text manifest entry

end

section

variable {W : Type}

/-- A verification from `w` opens this checkout. -/
def Opens (git : Git W) (access : GitAccess) (planPath ref : String) (w : W) (checkout : Checkout) :
    Prop :=
  ∃ resolution w₁ w₂, git.resolveRef access ref w = (.ok resolution, w₁) ∧
    git.fetchPlan access resolution.sha planPath w₁ = (.ok checkout, w₂)

/-- A report that is clean is one on a repository that can be run, and a report with
nothing worse than warnings is clean. -/
def CleanMeansRunnable {Place : Type} (locate : PurePath → Place) (rt : Runtime) (git : Git W)
    (access : GitAccess) (planPath ref : String) (w : W) : Prop :=
  ∀ report w', run rt git access planPath ref w = (.ok report, w') →
    (report.ok = true → ∃ checkout summary, Opens git access planPath ref w checkout ∧
      Runnable locate rt checkout planPath summary) ∧
    ((∀ finding ∈ report.findings, finding.severity = .warning) → report.ok = true)

end

/-- Without a manifest, the files that the plan reads are there. -/
def Discoverable (rt : Runtime) (checkout : Checkout) (planPath : String) : Prop :=
  ∀ summary, Parses rt checkout planPath summary →
    findManifest checkout.files checkout.root planPath = .ok none →
      Beside checkout planPath summary.dataFiles

/-- Where the first entry with the plan's file name is met, no entry of a namesake stands
before the plan's own, or another entry of the plan's own is met as well. -/
def OwnEntryMet {Place : Type} (locate : PurePath → Place) (rt : Runtime) (checkout : Checkout)
    (planPath : String) : Prop :=
  ∀ summary manifestFile text manifest entry, Parses rt checkout planPath summary →
    Governs rt checkout planPath manifestFile text manifest →
    governingEntry manifest planPath = some entry → Met checkout planPath summary entry →
      OwnEntryFirst locate manifestFile.parent checkout.root manifest planPath ∨
        ∃ own, Lists locate checkout planPath manifestFile manifest own ∧
          Met checkout planPath summary own

/-! ## Findings -/

/-- None of the findings is an error. -/
def Clean (findings : List Finding) : Prop := ∀ finding ∈ findings, finding.severity ≠ .error

theorem clean_append {findings others : List Finding} :
    Clean (findings ++ others) ↔ Clean findings ∧ Clean others := List.forall_mem_append

theorem not_clean_error {code message : String} {location : Option String} {rest : List Finding} :
    ¬ Clean (errorFinding code message location :: rest) := fun clean =>
  clean _ List.mem_cons_self rfl

theorem clean_unresolvedTargets (summary : PlanSummary) (planPath : String) :
    Clean (unresolvedTargets summary planPath) := by
  intro finding member
  obtain ⟨target, -, rfl⟩ := List.mem_map.mp member
  exact FindingSeverity.noConfusion

variable {rt : Runtime} {planPath : String}

theorem report_ok_iff {resolution : RefResolution} {ref : String} {reading : Reading}
    {compared : List Finding} :
    (report resolution ref reading compared).ok = true ↔ Clean (reading.findings ++ compared) := by
  unfold report Clean
  dsimp only
  rw [Bool.not_eq_true', List.any_eq_false]
  simp only [decide_eq_true_eq, ne_eq]

section

variable {files : FileView} {directory : PurePath} {finding : String → Finding}

/-- A search that reports nothing worse than warnings has found every file. -/
theorem missingFiles_clean (severity : ∀ path, (finding path).severity = .error)
    {paths : List String} {findings : List Finding}
    (searched : missingFiles files directory finding paths = .ok findings)
    (clean : Clean findings) : ∀ path ∈ paths, files.isFile (directory.join path) = .ok true := by
  induction paths generalizing findings with
  | nil => exact fun path member => absurd member List.not_mem_nil
  | cons head rest ih =>
      rw [missingFiles] at searched
      cases asked : files.isFile (directory.join head) with
      | error exc => rw [asked] at searched; cases searched
      | ok present =>
          cases others : missingFiles files directory finding rest with
          | error exc => rw [asked, others] at searched; cases searched
          | ok more =>
              rw [asked, others] at searched
              cases present with
              | false =>
                  cases searched
                  exact absurd (severity head) (clean _ List.mem_cons_self)
              | true =>
                  cases searched
                  exact List.forall_mem_cons.mpr ⟨asked, ih others clean⟩

end

theorem undeclaredVariables_clean {entry : ManifestPlan} {summary : PlanSummary}
    (clean : Clean (undeclaredVariables rt entry summary)) :
    ∀ name ∈ summary.variableNames, name ∈ entry.variableNames := by
  intro name member
  refine Classical.byContradiction fun undeclared => ?_
  have listed : name ∈ sortedSet rt.sets
      (summary.variableNames.filter fun name => name ∉ entry.variableNames) :=
    mem_sortedSet.mpr (List.mem_filter.mpr ⟨member, decide_eq_true undeclared⟩)
  unfold undeclaredVariables at clean
  dsimp only at clean
  rw [if_neg (List.ne_nil_of_mem listed)] at clean
  exact not_clean_error clean

/-! ## The parts of a verification -/

theorem supported_of_parseManifest {text : String} {manifest : Manifest}
    (parsed : parseManifest rt text = .ok manifest) : Supported rt text := by
  rw [parseManifest] at parsed
  split at parsed
  · cases parsed
  · cases parsed
  · rename_i document loaded
    refine ⟨document, loaded, ?_⟩
    unfold validateDocument at parsed
    dsimp only at parsed
    split at parsed
    · split at parsed
      · cases parsed
      · cases parsed
    · rename_i supported
      exact not_not.mp supported
  · cases parsed

/-- A manifest that agrees with the plan lists it, and leaves no file and no variable out. -/
theorem manifestFindings_clean {checkout : Checkout} {manifest : Manifest} {summary : PlanSummary}
    {findings : List Finding}
    (compared : manifestFindings rt checkout.files manifest planPath summary checkout.root =
      .ok findings)
    (clean : Clean findings) :
    ∃ entry, governingEntry manifest planPath = some entry ∧ Met checkout planPath summary entry := by
  unfold manifestFindings at compared
  split at compared
  · cases compared
    exact absurd clean not_clean_error
  · rename_i entry governs
    obtain ⟨missing, first, compared⟩ := of_bind_eq_ok compared
    obtain ⟨undeclared, second, compared⟩ := of_bind_eq_ok compared
    cases compared
    rw [clean_append, clean_append] at clean
    have declared : Beside checkout planPath (declaredPaths entry) :=
      missingFiles_clean (fun _ => rfl) first clean.1.1
    refine ⟨entry, governs, declared, fun path member => ?_, undeclaredVariables_clean clean.2⟩
    by_cases listed : path ∈ declaredPaths entry
    · exact declared path listed
    · exact missingFiles_clean (fun _ => rfl) second clean.1.2 path
        (List.mem_filter.mpr ⟨member, decide_eq_true listed⟩)

theorem readPlan_clean {files : FileView} {planFile : PurePath}
    {read : List Finding × Option PlanSummary} (ran : readPlan rt files planFile planPath = .ok read)
    (clean : Clean read.1) :
    ∃ summary, read.2 = some summary ∧ (files.readText rt planFile).bind (parsePlan rt) = .ok summary := by
  rw [readPlan] at ran
  split at ran
  · rename_i summary parsed
    cases ran
    exact ⟨summary, rfl, parsed⟩
  · cases ran
    exact absurd clean not_clean_error
  · cases ran

theorem readManifest_clean {files : FileView} {root : PurePath}
    {read : List Finding × Option Manifest} (ran : readManifest rt files root planPath = .ok read)
    (clean : Clean read.1) :
    (findManifest files root planPath = .ok none ∧ read.2 = none) ∨
      ∃ manifestFile text manifest, findManifest files root planPath = .ok (some manifestFile) ∧
        files.readText rt manifestFile = .ok text ∧ parseManifest rt text = .ok manifest ∧
        read.2 = some manifest := by
  rw [readManifest] at ran
  split at ran
  · cases ran
  · rename_i absent
    cases ran
    exact Or.inl ⟨absent, rfl⟩
  · rename_i manifestFile found
    split at ran
    · rename_i manifest parsed
      cases ran
      cases text : files.readText rt manifestFile with
      | error exc => rw [text] at parsed; cases parsed
      | ok content =>
          rw [text] at parsed
          exact Or.inr ⟨manifestFile, content, manifest, found, text, parsed, rfl⟩
    · cases ran
      exact absurd clean not_clean_error
    · cases ran

/-- A reading that is clean has the plan's summary, and the manifest if there is one. -/
theorem readCheckout_clean {checkout : Checkout} {sha : String} {reading : Reading}
    (ran : readCheckout rt checkout sha planPath = .ok reading) (clean : Clean reading.findings) :
    ∃ summary, Parses rt checkout planPath summary ∧ reading.summary = some summary ∧
      ((findManifest checkout.files checkout.root planPath = .ok none ∧ reading.manifest = none) ∨
        ∃ manifestFile text manifest, Governs rt checkout planPath manifestFile text manifest ∧
          reading.manifest = some manifest) := by
  unfold readCheckout at ran
  obtain ⟨present, asked, ran⟩ := of_bind_eq_ok ran
  cases present with
  | false =>
      cases ran
      exact absurd clean not_clean_error
  | true =>
      obtain ⟨plan, first, ran⟩ := of_bind_eq_ok ran
      obtain ⟨manifest, second, ran⟩ := of_bind_eq_ok ran
      cases ran
      obtain ⟨cleanPlan, cleanManifest⟩ := clean_append.mp clean
      obtain ⟨summary, hasSummary, parsed⟩ := readPlan_clean first cleanPlan
      refine ⟨summary, ⟨asked, parsed⟩, hasSummary, (readManifest_clean second cleanManifest).imp_right ?_⟩
      rintro ⟨manifestFile, text, manifest, found, read, parsed, hasManifest⟩
      exact ⟨manifestFile, text, manifest, ⟨found, read, parsed⟩, hasManifest⟩

/-! ## Reports -/

section

variable {Place : Type} {locate : PurePath → Place} {checkout : Checkout}
  {resolution : RefResolution} {ref : String}

/-- A clean report is one on a repository that can be run, if the files of a plan
without manifest are there and its own entry is met. -/
theorem runnable_of_clean {verified : VerifyReport}
    (ran : inspect rt checkout resolution planPath ref = .ok verified) (clean : verified.ok = true)
    (discoverable : Discoverable rt checkout planPath)
    (ownEntryMet : OwnEntryMet locate rt checkout planPath) :
    ∃ summary, Runnable locate rt checkout planPath summary := by
  unfold inspect at ran
  obtain ⟨reading, read, ran⟩ := of_bind_eq_ok ran
  obtain ⟨compared, comparison, ran⟩ := of_bind_eq_ok ran
  cases ran
  obtain ⟨cleanReading, cleanCompared⟩ := clean_append.mp (report_ok_iff.mp clean)
  obtain ⟨summary, parses, hasSummary, governed⟩ := readCheckout_clean read cleanReading
  rcases governed with ⟨absent, -⟩ | ⟨manifestFile, text, manifest, governs, hasManifest⟩
  · refine ⟨summary, { parses with files := discoverable summary parses absent, manifest := ?_ }⟩
    intro manifestFile found
    rw [absent] at found
    cases found
  · rw [compareManifest, hasManifest, hasSummary] at comparison
    obtain ⟨entry, first, met⟩ := manifestFindings_clean comparison cleanCompared
    obtain ⟨own, lists, ownMet⟩ : ∃ own, Lists locate checkout planPath manifestFile manifest own ∧
        Met checkout planPath summary own := by
      rcases ownEntryMet summary manifestFile text manifest entry parses governs first met with
        ordered | other
      · exact ⟨entry, ⟨List.mem_of_find?_eq_some first, governingEntry_iff_first.mpr ordered entry first⟩,
          met⟩
      · exact other
    refine ⟨summary, { parses with files := met.files, manifest := ?_ }⟩
    intro again foundAgain
    rw [governs.found] at foundAgain
    cases foundAgain
    exact ⟨text, manifest, own, { governs with
      supported := supported_of_parseManifest governs.parsed, lists, met := ownMet }⟩

/-- A plan whose first entry is met is reported clean. -/
theorem inspect_of_met {summary : PlanSummary} {manifestFile : PurePath} {text : String}
    {manifest : Manifest} {entry : ManifestPlan} (parses : Parses rt checkout planPath summary)
    (governs : Governs rt checkout planPath manifestFile text manifest)
    (first : governingEntry manifest planPath = some entry)
    (met : Met checkout planPath summary entry) :
    ∃ verified, inspect rt checkout resolution planPath ref = .ok verified ∧ verified.ok = true := by
  have plan : readPlan rt checkout.files (checkout.root.join planPath) planPath =
      .ok (unresolvedTargets summary planPath, some summary) := by
    rw [readPlan, parses.plan]
  have readManifest : readManifest rt checkout.files checkout.root planPath =
      .ok ([], some manifest) := by
    have parsed : (checkout.files.readText rt manifestFile).bind (parseManifest rt) = .ok manifest := by
      rw [governs.read]
      exact governs.parsed
    rw [Verify.readManifest, governs.found]
    dsimp only
    rw [parsed]
  have compared : manifestFindings rt checkout.files manifest planPath summary checkout.root =
      .ok [] :=
    (manifestFindings_nil_iff first).mpr ⟨met.declared, met.files, met.covered⟩
  refine ⟨report resolution ref
    { findings := unresolvedTargets summary planPath ++ [], summary := some summary,
      manifest := some manifest } [], ?_, ?_⟩
  · unfold inspect readCheckout
    rw [parses.present, plan, readManifest]
    change (manifestFindings rt checkout.files manifest planPath summary checkout.root).bind _ = _
    rw [compared]
    rfl
  · rw [report_ok_iff, List.append_nil, List.append_nil]
    exact clean_unresolvedTargets summary planPath

/-- A plan without manifest is reported clean. -/
theorem inspect_without_manifest {summary : PlanSummary}
    (parses : Parses rt checkout planPath summary)
    (absent : findManifest checkout.files checkout.root planPath = .ok none) :
    ∃ verified, inspect rt checkout resolution planPath ref = .ok verified ∧ verified.ok = true := by
  have plan : readPlan rt checkout.files (checkout.root.join planPath) planPath =
      .ok (unresolvedTargets summary planPath, some summary) := by
    rw [readPlan, parses.plan]
  have manifest : readManifest rt checkout.files checkout.root planPath = .ok ([], none) := by
    rw [readManifest, absent]
  refine ⟨report resolution ref
    { findings := unresolvedTargets summary planPath ++ [], summary := some summary } [], ?_, ?_⟩
  · unfold inspect readCheckout
    rw [parses.present, plan, manifest]
    rfl
  · rw [report_ok_iff, List.append_nil, List.append_nil]
    exact clean_unresolvedTargets summary planPath

end

section

variable {W : Type} {git : Git W} {access : GitAccess} {ref : String} {w : W} {Place : Type}
  {locate : PurePath → Place}

theorem Opens.unique {checkout other : Checkout} (opens : Opens git access planPath ref w checkout)
    (opensOther : Opens git access planPath ref w other) : checkout = other := by
  obtain ⟨resolution, w₁, w₂, resolved, fetched⟩ := opens
  obtain ⟨resolution', w₁', w₂', resolved', fetched'⟩ := opensOther
  rw [resolved] at resolved'
  cases resolved'
  rw [fetched] at fetched'
  cases fetched'
  rfl

/-- A verification that returns has opened a checkout. -/
theorem opens_of_run {verified : VerifyReport} {w' : W}
    (ran : run rt git access planPath ref w = (.ok verified, w')) :
    ∃ checkout resolution, Opens git access planPath ref w checkout ∧
      inspect rt checkout resolution planPath ref = .ok verified := by
  unfold run at ran
  cases resolved : git.resolveRef access ref w with
  | mk result w₁ =>
      cases result with
      | error exc => rw [resolved] at ran; cases ran
      | ok resolution =>
          cases fetched : git.fetchPlan access resolution.sha planPath w₁ with
          | mk result w₂ =>
              cases result with
              | error exc => simp [resolved, fetched] at ran
              | ok checkout =>
                  simp only [resolved, fetched, Prod.mk.injEq] at ran
                  refine ⟨checkout, resolution, ⟨resolution, w₁, w₂, resolved, fetched⟩, ?_⟩
                  cases inspected : inspect rt checkout resolution planPath ref with
                  | error exc => rw [inspected] at ran; cases ran.1
                  | ok same => rw [inspected] at ran; exact ran.1

theorem run_of_opens {checkout : Checkout} (opens : Opens git access planPath ref w checkout) :
    ∃ resolution w', run rt git access planPath ref w =
      ((inspect rt checkout resolution planPath ref).mapError unreadable, w') := by
  obtain ⟨resolution, w₁, w₂, resolved, fetched⟩ := opens
  refine ⟨resolution, w₂, ?_⟩
  unfold run
  simp only [resolved, fetched]

/-- A checkout that is reported clean has been found to be one that can be run. -/
theorem CleanMeansRunnable.runnable {checkout : Checkout} {summary : PlanSummary}
    (means : CleanMeansRunnable locate rt git access planPath ref w)
    (opens : Opens git access planPath ref w checkout) (parses : Parses rt checkout planPath summary)
    (clean : ∀ resolution, ∃ verified,
      inspect rt checkout resolution planPath ref = .ok verified ∧ verified.ok = true) :
    Runnable locate rt checkout planPath summary := by
  obtain ⟨resolution, w', ran⟩ := run_of_opens opens
  obtain ⟨verified, inspected, clean⟩ := clean resolution
  rw [inspected] at ran
  obtain ⟨other, found, opensOther, runnable⟩ := (means verified w' ran).1 clean
  obtain rfl := opens.unique opensOther
  have same : found = summary := Except.ok.inj (runnable.plan.symm.trans parses.plan)
  exact same ▸ runnable

end

/-! ## A data file that is not looked for -/

/-- A plan with one CSV data set. -/
def csvPlanText : String :=
  "<jmeterTestPlan><CSVDataSet testclass=\"CSVDataSet\"><stringProp name=\"filename\">" ++
    "data/users.csv</stringProp></CSVDataSet></jmeterTestPlan>"

def csvPlan : Element where
  tag := "jmeterTestPlan"
  attrib := Dict.empty
  text := none
  tail := none
  children :=
    [{ tag := "CSVDataSet"
       attrib := Dict.ofList [("testclass", "CSVDataSet")]
       text := none
       tail := none
       children :=
        [{ tag := "stringProp"
           attrib := Dict.ofList [("name", "filename")]
           text := some "data/users.csv"
           tail := none
           children := [] }] }]

def readingCsv : Runtime :=
  { plain with
    fromstring := fun text =>
      if text = csvPlanText then .ok csvPlan else .error "syntax error: line 1, column 0" }

/-- A commit of the plan, without manifest and without data. -/
def csvWorktree : Worktree where
  root := PurePath.ofString "/tmp/plimsoll-git-0/checkout"
  listing := [("perf", .directory [("plan.jmx", .file (asciiBytes csvPlanText))])]
  absolute := passwdWorktree.absolute
  canonical := passwdWorktree.canonical

/-- A remote with that commit. -/
def csvRemote : Remote Unit where
  resolveRef _ _ w := (.ok { sha := "1111111111111111111111111111111111111111" }, w)
  fetch _ _ _ w := (.ok csvWorktree, w)

theorem csvWorktree_parses :
    Parses readingCsv (csvWorktree.checkoutOn readingCsv (around bare)) "perf/plan.jmx"
      { dataFiles := ["data/users.csv"] } where
  present := by decide
  plan := by decide +kernel

theorem csvWorktree_findManifest :
    findManifest (csvWorktree.checkoutOn readingCsv (around bare)).files csvWorktree.root
      "perf/plan.jmx" = .ok none := by
  rw [findManifest, findManifestFrom_up (by decide) (by decide),
    findManifestFrom_stop (by decide) (by decide)]

end Plimsoll.Verify
