import Plimsoll.Verify.Reading
import Plimsoll.Verify.Worktree

/-!
When a verification depends on the commit alone. `run` reads the plan and the
manifest below the checkout's root, on every host alike. The files it then asks
for are named by the manifest and by the plan, and their names are not checked:
the report is the same on all hosts exactly if none of them leaves the checkout.
-/

namespace Plimsoll.Verify

open Python Jmx Manifests Contracts Posix

variable {rt : Runtime} {worktree : Worktree} {planPath : String}

/-! ## What is read -/

theorem root_isFile : (worktree.files rt).isFile worktree.root = .ok false := by
  have here : worktree.resolve worktree.root = .directory := by
    have down := resolve_root worktree.listing [] (List.nil_append worktree.root.parts)
      worktree.canonical
    rw [List.append_nil] at down
    rw [Worktree.resolve, worktree.absolute, if_neg PathRoot.noConfusion]
    exact down
  simp only [Worktree.files, here, Bool.and_false]

/-- The directory of a plan that is there lies below the root. -/
theorem planDirectory_descendant (relative : startsWith planPath "/" = false)
    (noParent : ".." ∉ split planPath '/')
    (present : (worktree.files rt).isFile (worktree.root.join planPath) = .ok true) :
    worktree.root.Descendant (planDirectory worktree.root planPath) := by
  refine (PurePath.descendant_join relative noParent).parent fun same => ?_
  rw [same, root_isFile] at present
  cases present

theorem manifest_descendant {directory : PurePath} (below : worktree.root.Descendant directory) :
    worktree.root.Descendant (directory.join manifestName) :=
  below.join (by decide) (by decide)

/-- The manifest is looked for below the root only, so every host finds the same. -/
theorem findManifestFrom_eq (rt : Runtime) (host : Host worktree.root.parts worktree.tree)
    {directory : PurePath} (below : worktree.root.Descendant directory) :
    findManifestFrom (view rt host.toFileSystem) worktree.root directory =
      findManifestFrom (worktree.files rt) worktree.root directory := by
  induction directory using findManifestFrom.induct (worktree.files rt) worktree.root with
  | case1 directory exc asked => cases asked
  | case2 directory asked =>
      have same := isFile_eq rt host
        (Worktree.settles_of_descendant (manifest_descendant below))
      rw [findManifestFrom_found asked, findManifestFrom_found (same.trans asked)]
  | case3 directory asked stop =>
      have same := isFile_eq rt host
        (Worktree.settles_of_descendant (manifest_descendant below))
      rw [findManifestFrom_stop asked stop, findManifestFrom_stop (same.trans asked) stop]
  | case4 directory asked goesOn ih =>
      have same := isFile_eq rt host
        (Worktree.settles_of_descendant (manifest_descendant below))
      rw [findManifestFrom_up asked goesOn, findManifestFrom_up (same.trans asked) goesOn]
      exact ih (below.parent (not_or.mp goesOn).1)

theorem readText_eq (host : Host worktree.root.parts worktree.tree) {path : PurePath}
    (present : (worktree.files rt).isFile path = .ok true) :
    (view rt host.toFileSystem).readText rt path = (worktree.files rt).readText rt path := by
  rw [FileView.readText, FileView.readText, readBytes_eq host present]

/-- Every host reads what the worktree holds. -/
theorem readCheckout_hosted_eq (host : Host worktree.root.parts worktree.tree)
    (relative : startsWith planPath "/" = false) (noParent : ".." ∉ split planPath '/')
    (sha : String) :
    readCheckout rt (hosted rt worktree host) sha planPath =
      readCheckout rt (worktree.checkout rt) sha planPath := by
  have same := isFile_eq rt host
    (Worktree.settles_of_descendant (PurePath.descendant_join relative noParent))
  unfold readCheckout hosted Worktree.checkout
  dsimp only
  rw [same]
  cases asked : (worktree.files rt).isFile (worktree.root.join planPath) with
  | error exc => rfl
  | ok present =>
      cases present with
      | false => rfl
      | true =>
          have below := planDirectory_descendant relative noParent asked
          have sameManifest := findManifestFrom_eq rt host below
          have plan : readPlan rt (view rt host.toFileSystem)
              (worktree.root.join planPath) planPath =
              readPlan rt (worktree.files rt) (worktree.root.join planPath) planPath := by
            rw [readPlan, readPlan, readText_eq _ asked]
          have manifest : readManifest rt (view rt host.toFileSystem) worktree.root
              planPath = readManifest rt (worktree.files rt) worktree.root planPath := by
            rw [readManifest, readManifest, findManifest, findManifest, sameManifest]
            cases found : findManifestFrom (worktree.files rt) worktree.root
                (planDirectory worktree.root planPath) with
            | error exc => rfl
            | ok file =>
                cases file with
                | none => rfl
                | some file => dsimp only; rw [readText_eq _ (findManifestFrom_isFile found)]
          rw [plan, manifest]

theorem readCheckout_eq (around : Surroundings) (relative : startsWith planPath "/" = false)
    (noParent : ".." ∉ split planPath '/') (sha : String) :
    readCheckout rt (worktree.checkoutOn rt around) sha planPath =
      readCheckout rt (worktree.checkout rt) sha planPath :=
  readCheckout_hosted_eq (around worktree) relative noParent sha

/-! ## Confinement -/

/-- The commit's plan and its manifest are both accepted, and `entry` is the
manifest's entry for the plan: `_manifest_findings` compares it with `summary`. -/
structure Compared (rt : Runtime) (worktree : Worktree) (planPath : String) (entry : ManifestPlan)
    (summary : PlanSummary) : Prop where
  present : (worktree.files rt).isFile (worktree.root.join planPath) = .ok true
  plan : ((worktree.files rt).readText rt (worktree.root.join planPath)).bind (parsePlan rt) =
    .ok summary
  manifest : ∃ manifestFile manifest,
    findManifest (worktree.files rt) worktree.root planPath = .ok (some manifestFile) ∧
      ((worktree.files rt).readText rt manifestFile).bind (parseManifest rt) = .ok manifest ∧
      governingEntry manifest planPath = some entry

/-- None of the files asked for leaves the checkout. -/
def Confined (rt : Runtime) (worktree : Worktree) (planPath : String) : Prop :=
  ∀ entry summary, Compared rt worktree planPath entry summary →
    ∀ path ∈ askedFor entry summary,
      worktree.Settles ((planDirectory worktree.root planPath).join path)

theorem compared_iff {entry : ManifestPlan} {summary : PlanSummary} :
    Compared rt worktree planPath entry summary ↔
      Compares rt (worktree.checkout rt) planPath entry summary :=
  ⟨fun compared => ⟨compared.present, compared.plan, compared.manifest⟩,
    fun compares => ⟨compares.present, compares.plan, compares.manifest⟩⟩

/-! ## Runs -/

variable {W : Type} {remote : Remote W} {access : GitAccess} {ref : String} {w : W}

/-- A verification from `w` reports the same whatever stands around the checkout,
and leaves the same world. -/
def ObservesCommit (rt : Runtime) (remote : Remote W) (access : GitAccess) (planPath ref : String)
    (w : W) : Prop :=
  ∀ here there : Surroundings,
    run rt (remote.on rt here) access planPath ref w =
      run rt (remote.on rt there) access planPath ref w

/-- A confined plan is compared with its manifest on every host alike. -/
theorem inspect_eq_of_confined (relative : startsWith planPath "/" = false)
    (noParent : ".." ∉ split planPath '/') (confined : Confined rt worktree planPath)
    (resolution : RefResolution) (here there : Surroundings) :
    inspect rt (worktree.checkoutOn rt here) resolution planPath ref =
      inspect rt (worktree.checkoutOn rt there) resolution planPath ref := by
  unfold inspect
  rw [readCheckout_eq here relative noParent, readCheckout_eq there relative noParent]
  cases ran : readCheckout rt (worktree.checkout rt) resolution.sha planPath with
  | error exc => rfl
  | ok reading =>
      have compared : compareManifest rt (worktree.checkoutOn rt here) planPath reading =
          compareManifest rt (worktree.checkoutOn rt there) planPath reading := by
        unfold compareManifest
        cases hasManifest : reading.manifest with
        | none => rfl
        | some manifest =>
            cases hasSummary : reading.summary with
            | none => rfl
            | some summary =>
                refine manifestFindings_congr fun entry governs path member => ?_
                have settled := confined entry summary (compared_iff.mpr
                  (compares_of_readCheckout ran hasManifest hasSummary governs)) path member
                exact (isFile_eq rt (here worktree) settled).trans
                  (isFile_eq rt (there worktree) settled).symm
      change (compareManifest rt (worktree.checkoutOn rt here) planPath reading).bind _ =
        (compareManifest rt (worktree.checkoutOn rt there) planPath reading).bind _
      rw [compared]

/-- On an empty host a comparison returns. -/
theorem isFile_answered (rt : Runtime) {fs : FileSystem} (searchable : fs.Searchable) (path : PurePath) :
    ∃ present, (view rt fs).isFile path = .ok present := by
  unfold view viewOf
  dsimp only
  split
  · exact ⟨false, rfl⟩
  · split
    · exact ⟨true, rfl⟩
    · rename_i strerror refused
      rw [FileSystem.find] at refused
      split at refused
      · exact absurd refused searchable.walk_ne_refused
      · exact absurd refused searchable.walk_ne_refused
      · exact absurd refused searchable.walk_ne_refused
    · exact ⟨false, rfl⟩
    · exact ⟨false, rfl⟩

/-- Every worktree surrounded by the same things. -/
def around (outside : List String → Entry (List String)) : Surroundings := fun worktree =>
  surround worktree.root.parts worktree.tree outside

/-- Where a path leaves the checkout, it does so at a place that a host may refuse. -/
theorem exists_refused (rt : Runtime) {path : PurePath} (leaves : ¬worktree.Settles path)
    (absolute : path.root ≠ .relative) :
    ∃ asked, ∀ outside strerror, outside asked = .refused strerror →
      (worktree.checkoutOn rt (around outside)).files.isFile path =
        .error (osErrorAt rt strerror path) := by
  obtain ⟨notNull, within⟩ := not_or.mp leaves
  rw [not_not, Worktree.resolve, if_neg absolute] at within
  obtain ⟨asked, first⟩ := exists_of_resolve_outside within
  refine ⟨asked, fun outside strerror refused => ?_⟩
  have walked := first outside strerror refused
  have found : (surround worktree.root.parts worktree.tree outside).find path =
      .refused strerror := by
    rw [FileSystem.find]
    cases start : path.root with
    | relative => exact absurd start absolute
    | slash => exact walked
    | doubleSlash => exact walked
  change (view rt (surround worktree.root.parts worktree.tree outside).toFileSystem).isFile path = _
  unfold view viewOf
  dsimp only
  rw [if_neg notNull, found]

/-- A plan that is compared with its manifest is reported on with the findings. -/
theorem inspect_of_compared {entry : ManifestPlan} {summary : PlanSummary}
    (relative : startsWith planPath "/" = false) (noParent : ".." ∉ split planPath '/')
    (compared : Compared rt worktree planPath entry summary) (resolution : RefResolution)
    (ref : String) :
    ∃ reading manifest, governingEntry manifest planPath = some entry ∧
      ∀ surroundings, inspect rt (worktree.checkoutOn rt surroundings) resolution planPath ref =
        (manifestFindings rt (worktree.checkoutOn rt surroundings).files manifest planPath summary
          worktree.root).map (report resolution ref reading) := by
  obtain ⟨reading, manifest, ran, hasManifest, hasSummary, governs⟩ :=
    (compared_iff.mp compared).readCheckout resolution.sha
  refine ⟨reading, manifest, governs, fun surroundings => ?_⟩
  have comparison : compareManifest rt (worktree.checkoutOn rt surroundings) planPath reading =
      manifestFindings rt (worktree.checkoutOn rt surroundings).files manifest planPath summary
        worktree.root := by
    rw [compareManifest, hasManifest, hasSummary]
    rfl
  unfold inspect
  rw [readCheckout_eq surroundings relative noParent, ran, ← comparison]
  rfl

/-- A file that is asked for and leaves the checkout tells two hosts apart. -/
theorem not_observesCommit {entry : ManifestPlan} {summary : PlanSummary} {path : String}
    (relative : startsWith planPath "/" = false) (noParent : ".." ∉ split planPath '/')
    (compared : Compared rt worktree planPath entry summary) (member : path ∈ askedFor entry summary)
    (leaves : ¬worktree.Settles ((planDirectory worktree.root planPath).join path))
    (resolution : RefResolution) (ref : String) :
    ∃ here there,
      (inspect rt (worktree.checkoutOn rt here) resolution planPath ref).mapError unreadable ≠
        (inspect rt (worktree.checkoutOn rt there) resolution planPath ref).mapError unreadable := by
  have absolute : ((planDirectory worktree.root planPath).join path).root ≠ .relative := by
    refine PurePath.join_ne_relative ?_
    change (worktree.root.join planPath).root ≠ .relative
    rw [(PurePath.join_of_relative relative).1, worktree.absolute]
    exact PathRoot.noConfusion
  obtain ⟨asked, refuses⟩ := exists_refused rt leaves absolute
  obtain ⟨reading, manifest, governs, reports⟩ :=
    inspect_of_compared relative noParent compared resolution ref
  let empty : List String → Entry (List String) := fun _ => .absent
  let guarded : List String → Entry (List String) := fun place =>
    if place = asked then .refused "[Errno 13] Permission denied" else .absent
  have searchable : (around empty worktree).Searchable :=
    surround_searchable fun _ _ refused => by cases refused
  obtain ⟨findings, returns⟩ : ∃ findings, manifestFindings rt
      (worktree.checkoutOn rt (around empty)).files manifest planPath summary worktree.root =
        .ok findings :=
    manifestFindings_ok_iff.mpr fun entry _ path _ => isFile_answered rt searchable _
  have raises : ¬ ∃ findings, manifestFindings rt (worktree.checkoutOn rt (around guarded)).files
      manifest planPath summary worktree.root = .ok findings := by
    rw [manifestFindings_ok_iff]
    intro answered
    obtain ⟨present, answer⟩ := answered entry governs path member
    rw [refuses guarded _ (if_pos rfl)] at answer
    cases answer
  refine ⟨around empty, around guarded, ?_⟩
  rw [reports, reports]
  rw [returns]
  cases raised : manifestFindings rt (worktree.checkoutOn rt (around guarded)).files manifest
      planPath summary worktree.root with
  | error first =>
      intro same
      cases same
  | ok findings => exact absurd ⟨findings, raised⟩ raises

theorem run_on {resolution : RefResolution} {w₁ w₂ : W}
    (resolved : remote.resolveRef access ref w = (.ok resolution, w₁))
    (fetched : remote.fetch access resolution.sha planPath w₁ = (.ok worktree, w₂))
    (surroundings : Surroundings) :
    run rt (remote.on rt surroundings) access planPath ref w =
      ((inspect rt (worktree.checkoutOn rt surroundings) resolution planPath ref).mapError
        unreadable, w₂) := by
  unfold run Remote.on
  simp only [resolved, Action.bind_apply, fetched, Action.pure_apply]

/-- A verification of a relative plan path observes the commit alone exactly if no
file that its plan and its manifest name leaves the checkout. -/
theorem observesCommit_iff (relative : startsWith planPath "/" = false)
    (noParent : ".." ∉ split planPath '/') :
    ObservesCommit rt remote access planPath ref w ↔
      ∀ resolution w₁ worktree w₂, remote.resolveRef access ref w = (.ok resolution, w₁) →
        remote.fetch access resolution.sha planPath w₁ = (.ok worktree, w₂) →
          Confined rt worktree planPath := by
  constructor
  · intro observes resolution w₁ worktree w₂ resolved fetched entry summary compared path member
    refine Classical.byContradiction fun leaves => ?_
    obtain ⟨here, there, differ⟩ :=
      not_observesCommit relative noParent compared member leaves resolution ref
    have same := observes here there
    rw [run_on resolved fetched, run_on resolved fetched] at same
    exact differ (congrArg Prod.fst same)
  · intro confined here there
    cases resolved : remote.resolveRef access ref w with
    | mk result w₁ =>
        cases result with
        | error exc => simp [run, Remote.on, resolved]
        | ok resolution =>
            cases fetched : remote.fetch access resolution.sha planPath w₁ with
            | mk result w₂ =>
                cases result with
                | error exc => simp [run, Remote.on, resolved, Action.bind_apply, fetched]
                | ok worktree =>
                    rw [run_on resolved fetched, run_on resolved fetched,
                      inspect_eq_of_confined relative noParent
                        (confined resolution w₁ worktree w₂ resolved fetched) resolution here there]

/-! ## A file outside -/

/-- A plan without elements. -/
def emptyPlanText : String := "<jmeterTestPlan></jmeterTestPlan>"

/-- A manifest that declares a file by an absolute path. -/
def passwdManifestText : String :=
  "version: 1\nplans:\n- path: plan.jmx\n  data:\n  - path: /etc/passwd\n"

def passwdDocument : Value :=
  .dict [(.str "version", .int 1), (.str "plans", .list [
    .dict [(.str "path", .str "plan.jmx"),
      (.str "data", .list [.dict [(.str "path", .str "/etc/passwd")]])]])]

/-- The bytes of an ASCII text. -/
def asciiBytes (text : String) : List UInt8 := text.toList.map fun c => c.toNat.toUInt8

/-- The interpreter on ASCII files: the plan without elements, and the manifest. -/
def plain : Runtime where
  ucd := Unicode.basic
  sets := SetOrder.listed
  decode := asciiText
  decodeStrict bytes := some (asciiText bytes)
  decodeReplace := asciiText
  fromstring text :=
    if text = emptyPlanText then
      .ok { tag := "jmeterTestPlan", attrib := Dict.empty, text := none, children := [], tail := none }
    else .error "syntax error: line 1, column 0"
  safeLoad text := if text = passwdManifestText then .ok passwdDocument else .ok .none
  sha256 _ := ""
where
  asciiText (bytes : List UInt8) : String :=
    String.ofList (bytes.map fun byte => Char.ofNat byte.toNat)

/-- A commit of the plan and its manifest. -/
def passwdWorktree : Worktree where
  root := PurePath.ofString "/tmp/plimsoll-git-0/checkout"
  listing :=
    [("perf", .directory
      [("plan.jmx", .file (asciiBytes emptyPlanText)),
        ("plimsoll.yaml", .file (asciiBytes passwdManifestText))])]
  absolute := by decide
  canonical := by decide

/-- A remote with that commit. -/
def passwdRemote : Remote Unit where
  resolveRef _ _ w := (.ok { sha := "1111111111111111111111111111111111111111" }, w)
  fetch _ _ _ w := (.ok passwdWorktree, w)

theorem length_planJmx : 1 ≤ "plan.jmx".length := by decide

def passwdEntry : ManifestPlan where
  path := "plan.jmx"
  data := [{ path := "/etc/passwd", path_length := by decide }]
  path_length := length_planJmx

theorem passwd_compared : Compared plain passwdWorktree "perf/plan.jmx" passwdEntry {} where
  present := by decide
  plan := by decide +kernel
  manifest := by
    refine ⟨(planDirectory passwdWorktree.root "perf/plan.jmx").join manifestName,
      { version := 1, plans := [passwdEntry] },
      findManifestFrom_found ?_, ?_, ?_⟩
    · decide
    · rfl
    · rfl

/-- A host with nothing but the checkout. -/
def bare : List String → Entry (List String) := fun _ => .absent

/-- A host with an `/etc/passwd`. -/
def withPasswd : List String → Entry (List String) := fun place =>
  if place = ["etc"] then .directory ["etc"]
  else if place = ["etc", "passwd"] then .file []
  else .absent

theorem passwd_isFile :
    (passwdWorktree.checkoutOn plain (around bare)).files.isFile
        ((planDirectory passwdWorktree.root "perf/plan.jmx").join "/etc/passwd") = .ok false ∧
      (passwdWorktree.checkoutOn plain (around withPasswd)).files.isFile
        ((planDirectory passwdWorktree.root "perf/plan.jmx").join "/etc/passwd") = .ok true := by
  decide

/-- The verification of a plan with such a manifest beside it. -/
theorem observesCommit_iff_plan :
    ObservesCommit plain passwdRemote { url := "https://git.test/load.git" } "perf/plan.jmx"
      "main" () ↔
      ∀ resolution w₁ worktree w₂,
        passwdRemote.resolveRef { url := "https://git.test/load.git" } "main" () =
            (.ok resolution, w₁) →
          passwdRemote.fetch { url := "https://git.test/load.git" } resolution.sha "perf/plan.jmx" w₁ =
            (.ok worktree, w₂) →
          Confined plain worktree "perf/plan.jmx" :=
  observesCommit_iff (by decide) (by decide)

/-- A manifest that declares `/etc/passwd` makes a verification tell whether the
host has one. -/
theorem declared_file_outside_is_observed :
    ¬ ∀ (W : Type) (rt : Runtime) (remote : Remote W) (access : GitAccess) (planPath ref : String)
        (w : W), startsWith planPath "/" = false → ".." ∉ split planPath '/' →
          ObservesCommit rt remote access planPath ref w := by
  intro always
  have observes := always Unit plain passwdRemote { url := "https://git.test/load.git" }
    "perf/plan.jmx" "main" () (by decide) (by decide)
  have same := observes (around bare) (around withPasswd)
  obtain ⟨reading, manifest, governs, reports⟩ := inspect_of_compared (by decide) (by decide)
    passwd_compared { sha := "1111111111111111111111111111111111111111" } "main"
  rw [run_on rfl rfl, run_on rfl rfl, reports, reports] at same
  have missing : (manifestFindings plain (passwdWorktree.checkoutOn plain (around bare)).files
      manifest "perf/plan.jmx" {} passwdWorktree.root) = .ok [dataFileMissing "/etc/passwd"] := by
    unfold manifestFindings
    rw [governs]
    change (missingFiles _ _ _ ["/etc/passwd"]).bind _ = _
    rw [missingFiles, passwd_isFile.1]
    rfl
  have present : (manifestFindings plain (passwdWorktree.checkoutOn plain (around withPasswd)).files
      manifest "perf/plan.jmx" {} passwdWorktree.root) = .ok [] := by
    unfold manifestFindings
    rw [governs]
    change (missingFiles _ _ _ ["/etc/passwd"]).bind _ = _
    rw [missingFiles, passwd_isFile.2]
    rfl
  rw [missing, present] at same
  have findings := congrArg VerifyReport.findings (Except.ok.inj (Prod.ext_iff.mp same).1)
  simp [report] at findings

end Plimsoll.Verify
