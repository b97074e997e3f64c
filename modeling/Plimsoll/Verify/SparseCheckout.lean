import Plimsoll.Git.Client
import Plimsoll.Posix.Sparse
import Plimsoll.Verify.Confinement
import Plimsoll.Verify.Workspace

/-!
What a verification needs of a commit, and what `fetch_plan` checks out.

`fetch_plan` checks out what matches one pattern, the name of the plan's
directory. A verification reads the plan, the nearest manifest upward, and asks
for the files that both name. `Needed` lists them; the report over the sparse
checkout is that over the whole commit as soon as these are there, and they are
where no step of the way to them leads past the plan's directory.
-/

namespace Plimsoll.Verify

open Python Jmx Manifests Contracts Posix

/-- The pattern `fetch_plan` gives `git sparse-checkout set --no-cone`. -/
def sparsePattern (planPath : String) : String :=
  if Client.planDirectory planPath = "" then "/*" else Client.planDirectory planPath

/-- Git, where a ref names one commit and its checkout is this one. -/
def opening (resolution : RefResolution) (checkout : Checkout) : Git Unit where
  resolveRef _ _ w := (.ok resolution, w)
  fetchPlan _ _ _ w := (.ok checkout, w)

/-! ## What is needed -/

/-- What holds of every file that a verification reads and of every file that
the plan and its entry in the manifest name. -/
structure Needed (rt : Runtime) (checkout : Checkout) (planPath : String) (needs : PurePath → Prop) :
    Prop where
  plan : needs (checkout.root.join planPath)
  manifest : checkout.files.isFile (checkout.root.join planPath) = .ok true →
    ∀ file, findManifest checkout.files checkout.root planPath = .ok (some file) → needs file
  read : ∀ summary, checkout.files.isFile (checkout.root.join planPath) = .ok true →
    (checkout.files.readText rt (checkout.root.join planPath)).bind (parsePlan rt) = .ok summary →
    ∀ path ∈ summary.dataFiles, needs ((planDirectory checkout.root planPath).join path)
  declared : ∀ file manifest entry,
    checkout.files.isFile (checkout.root.join planPath) = .ok true →
    findManifest checkout.files checkout.root planPath = .ok (some file) →
    (checkout.files.readText rt file).bind (parseManifest rt) = .ok manifest →
    governingEntry manifest planPath = some entry →
    ∀ path ∈ declaredPaths entry, needs ((planDirectory checkout.root planPath).join path)

/-- The file is in the sparse checkout if it is in the full one. -/
def Present (full sparse : Checkout) (path : PurePath) : Prop :=
  full.files.isFile path = .ok true → sparse.files.isFile path = .ok true

section

variable {rt : Runtime} {full sparse : Checkout} {planPath : String}

/-- The files a comparison asks for are needed. -/
theorem Needed.asked {needs : PurePath → Prop} (needed : Needed rt full planPath needs)
    {entry : ManifestPlan} {summary : PlanSummary} (compares : Compares rt full planPath entry summary)
    {name : String} (member : name ∈ askedFor entry summary) :
    needs ((planDirectory full.root planPath).join name) := by
  obtain ⟨there, plan, file, manifest, found, parsed, governs⟩ := compares
  rcases List.mem_append.mp member with declared | undeclared
  · exact needed.declared file manifest entry there found parsed governs name declared
  · exact needed.read summary there plan name (List.mem_filter.mp undeclared).1

theorem Needed.imp {needs others : PurePath → Prop} (implies : ∀ path, needs path → others path)
    (needed : Needed rt full planPath needs) : Needed rt full planPath others where
  plan := implies _ needed.plan
  manifest there file found := implies _ (needed.manifest there file found)
  read summary there parsed name member := implies _ (needed.read summary there parsed name member)
  declared file manifest entry there found parsed governs name member :=
    implies _ (needed.declared file manifest entry there found parsed governs name member)

/-! ## Thinner checkouts -/

/-- A checkout with some of the files of another: of every path it says the same, or
that there is no file, and its files read as they do there. -/
structure Thinner (full sparse : Checkout) : Prop where
  root : sparse.root = full.root
  isFile : ∀ path, sparse.files.isFile path = full.files.isFile path ∨
    sparse.files.isFile path = .ok false
  readBytes : ∀ path, sparse.files.isFile path = .ok true →
    sparse.files.readBytes path = full.files.readBytes path

/-- A file that is there if the commit has it is answered for alike. -/
theorem Thinner.isFile_eq (thinner : Thinner full sparse) {path : PurePath} {there : Bool}
    (present : Present full sparse path) (answer : full.files.isFile path = .ok there) :
    sparse.files.isFile path = .ok there := by
  cases there with
  | true => exact present answer
  | false =>
      rcases thinner.isFile path with same | gone
      · exact same.trans answer
      · exact gone

/-- A file that is there reads as the commit has it. -/
theorem Thinner.readText_eq (thinner : Thinner full sparse) {path : PurePath}
    (there : sparse.files.isFile path = .ok true) :
    sparse.files.readText rt path = full.files.readText rt path := by
  rw [FileView.readText, FileView.readText, thinner.readBytes path there]

/-- Of the manifests upward the nearest one is found, if it is there. -/
theorem Thinner.findManifestFrom_eq (thinner : Thinner full sparse) {directory : PurePath}
    {found : Option PurePath}
    (search : findManifestFrom full.files full.root directory = .ok found)
    (present : ∀ file ∈ found, Present full sparse file) :
    findManifestFrom sparse.files full.root directory = .ok found := by
  induction directory using findManifestFrom.induct full.files full.root with
  | case1 directory exc asked =>
      rw [findManifestFrom, asked] at search
      cases search
  | case2 directory asked =>
      rw [findManifestFrom_found asked] at search
      cases search
      exact findManifestFrom_found (present _ rfl asked)
  | case3 directory asked stop =>
      rw [findManifestFrom_stop asked stop] at search
      cases search
      have gone : Present full sparse (directory.join manifestName) := fun there => by
        rw [asked] at there
        cases there
      exact findManifestFrom_stop (thinner.isFile_eq gone asked) stop
  | case4 directory asked goesOn ih =>
      rw [findManifestFrom_up asked goesOn] at search
      have gone : Present full sparse (directory.join manifestName) := fun there => by
        rw [asked] at there
        cases there
      rw [findManifestFrom_up (thinner.isFile_eq gone asked) goesOn]
      exact ih search

/-- What is read of the commit is read of the sparse checkout. -/
theorem Thinner.readCheckout_eq (thinner : Thinner full sparse)
    (present : Needed rt full planPath (Present full sparse)) {sha : String} {reading : Reading}
    (read : readCheckout rt full sha planPath = .ok reading) :
    readCheckout rt sparse sha planPath = .ok reading := by
  rw [← read]
  unfold readCheckout at read ⊢
  rw [thinner.root]
  obtain ⟨there, asked, -⟩ := of_bind_eq_ok read
  rw [asked, thinner.isFile_eq present.plan asked]
  cases there with
  | false => rfl
  | true =>
      have plan : readPlan rt sparse.files (full.root.join planPath) planPath =
          readPlan rt full.files (full.root.join planPath) planPath := by
        rw [readPlan, readPlan, thinner.readText_eq (present.plan asked)]
      have manifest : readManifest rt sparse.files full.root planPath =
          readManifest rt full.files full.root planPath := by
        rw [asked, ok_bind, if_pos rfl] at read
        obtain ⟨_, _, read⟩ := of_bind_eq_ok read
        obtain ⟨_, returned, _⟩ := of_bind_eq_ok read
        cases search : findManifest full.files full.root planPath with
        | error exc =>
            rw [readManifest, search] at returned
            cases returned
        | ok found =>
            have same : findManifest sparse.files full.root planPath = .ok found :=
              thinner.findManifestFrom_eq search fun file isFound =>
                present.manifest asked file (search.trans (congrArg _ isFound))
            rw [readManifest, readManifest, search, same]
            cases found with
            | none => rfl
            | some file =>
                have there := present.manifest asked file search
                dsimp only
                rw [thinner.readText_eq (there (findManifestFrom_isFile search))]
      rw [plan, manifest]

/-- With all that is needed there, a report on the full checkout is one on the sparse
checkout. -/
theorem Thinner.inspect_eq (thinner : Thinner full sparse)
    (present : Needed rt full planPath (Present full sparse)) {resolution : RefResolution}
    {ref : String} {report : VerifyReport}
    (inspected : inspect rt full resolution planPath ref = .ok report) :
    inspect rt sparse resolution planPath ref = .ok report := by
  rw [← inspected]
  unfold inspect at inspected ⊢
  obtain ⟨reading, read, inspected⟩ := of_bind_eq_ok inspected
  obtain ⟨findings, compared, -⟩ := of_bind_eq_ok inspected
  rw [read, thinner.readCheckout_eq present read, ok_bind, ok_bind]
  have same : compareManifest rt sparse planPath reading =
      compareManifest rt full planPath reading := by
    unfold compareManifest at compared ⊢
    cases hasManifest : reading.manifest with
    | none => rfl
    | some manifest =>
        cases hasSummary : reading.summary with
        | none => rfl
        | some summary =>
            rw [hasManifest, hasSummary] at compared
            dsimp only at compared ⊢
            rw [thinner.root]
            refine manifestFindings_congr fun entry governs name member => ?_
            obtain ⟨there, answer⟩ :=
              manifestFindings_ok_iff.mp ⟨findings, compared⟩ entry governs name member
            have needed := present.asked
              (compares_of_readCheckout read hasManifest hasSummary governs) member
            rw [answer, thinner.isFile_eq needed answer]
  rw [same]

end

/-! ## The sparse checkout of a commit -/

section

variable (rt : Runtime) (matched : String → List String → Bool) (workspace : Workspace)
  (commit : Listing) (planPath : String)

/-- The checkout of all that a commit has. -/
def fullCheckout : Checkout := workspace.checkout rt commit

/-- The checkout that `fetch_plan` makes: what the pattern matches, links as they are. -/
def sparseCheckout : Checkout :=
  workspace.checkout rt (commit.restrict (matched (sparsePattern planPath)))

/-- The sparse checkout is enough for a verification: a report over the full checkout
is the report over the sparse one, and every file that is needed is there if the commit
has it. -/
structure SparseEnough : Prop where
  reports : ∀ access resolution ref report,
    run rt (opening resolution (fullCheckout rt workspace commit)) access planPath ref () =
        (.ok report, ()) →
      run rt (opening resolution (sparseCheckout rt matched workspace commit planPath)) access
        planPath ref () = (.ok report, ())
  present : Needed rt (fullCheckout rt workspace commit) planPath
    (Present (fullCheckout rt workspace commit)
      (sparseCheckout rt matched workspace commit planPath))

end

/-! ## Where files lie -/

/-- No character of the text has a meaning in a pattern or in a file of patterns. -/
def PlainPattern (pattern : String) : Prop :=
  pattern ≠ "" ∧ ∀ c ∈ pattern.toList,
    c ∉ ['*', '?', '[', '\\', '!', '#', ' ', '\x00', '\n', '\r', '\uFEFF']

instance (pattern : String) : Decidable (PlainPattern pattern) :=
  inferInstanceAs (Decidable (_ ∧ _))

/-- What `gitignore` says of patterns without special characters: a name matches
at any depth, names between slashes match from the top, and what is matched is
matched with all that is below it. -/
structure PatternRules (matched : String → List String → Bool) : Prop where
  name : ∀ pattern place, PlainPattern pattern → '/' ∉ pattern.toList →
    (matched pattern place = true ↔ pattern ∈ place)
  anchored : ∀ pattern place, PlainPattern pattern → '/' ∈ pattern.toList →
    "" ∉ split pattern '/' → (matched pattern place = true ↔ split pattern '/' <+: place)

/-- The directory of a plan, part by part. -/
def directoryParts (planPath : String) : List String := (PurePath.ofString planPath).parent.parts

/-- A place in the plan's directory: nothing is in the top directory, a directory at the
top has namesakes at every depth, and any other is where it is. A directory whose name has
characters with a meaning is what Git takes it for. -/
def InPlanDirectory (matched : String → List String → Bool) (planPath : String)
    (place : List String) : Prop :=
  if PlainPattern (sparsePattern planPath) then
    match directoryParts planPath with
    | [] => False
    | [name] => name ∈ place
    | parts => parts <+: place
  else matched (sparsePattern planPath) place = true

/-- Every place below the checkout's root that leads to the file, if the commit has it, is
in the plan's directory or is a directory above something that is. -/
def Located (rt : Runtime) (matched : String → List String → Bool) (workspace : Workspace)
    (commit : Listing) (planPath : String) (path : PurePath) : Prop :=
  (fullCheckout rt workspace commit).files.isFile path = .ok true →
    Passes workspace.root.parts (Kept commit (InPlanDirectory matched planPath))
      (workspace.follow commit path)

section

variable {rt : Runtime} {planPath : String} {matched : String → List String → Bool}
  {workspace : Workspace} {commit : Listing} {place : List String} {path : PurePath}

theorem isPart_of_mem_directoryParts {part : String} (member : part ∈ directoryParts planPath) :
    IsPart part := (PurePath.ofString planPath).parent.isPart part member

theorem planDirectory_eq (relative : startsWith planPath "/" = false) :
    Client.planDirectory planPath =
      if join "/" (directoryParts planPath) = "" then "." else join "/" (directoryParts planPath) := by
  have relativeRoot : (PurePath.ofString planPath).parent.root = .relative :=
    PurePath.rootOf_eq_relative relative
  rw [Client.planDirectory, PurePath.asPosix, relativeRoot, PurePath.rootText, String.empty_append]
  rfl

theorem sparsePattern_eq (relative : startsWith planPath "/" = false)
    (below : directoryParts planPath ≠ []) :
    sparsePattern planPath = join "/" (directoryParts planPath) := by
  have nonempty : join "/" (directoryParts planPath) ≠ "" := by
    obtain ⟨part, member⟩ := List.exists_mem_of_ne_nil _ below
    have long : part.length ≤ (join "/" (directoryParts planPath)).length :=
      length_le_length_join member
    intro empty
    rw [empty] at long
    exact (isPart_of_mem_directoryParts member).nonempty
      (String.length_eq_zero_iff.mp (Nat.le_zero.mp long))
  rw [sparsePattern, planDirectory_eq relative, if_neg nonempty, if_neg nonempty]

theorem split_sparsePattern (relative : startsWith planPath "/" = false)
    (below : directoryParts planPath ≠ []) :
    split (sparsePattern planPath) '/' = directoryParts planPath := by
  rw [sparsePattern_eq relative below]
  exact split_join below fun part member => (isPart_of_mem_directoryParts member).noSlash

theorem sparsePattern_top (relative : startsWith planPath "/" = false)
    (top : directoryParts planPath = []) : sparsePattern planPath = "." := by
  have empty : join "/" (directoryParts planPath) = "" := by rw [top]; rfl
  rw [sparsePattern, planDirectory_eq relative, if_pos empty, if_neg (by decide)]

/-- What the pattern matches of a commit lies in the plan's directory. -/
theorem matched_iff (rules : PatternRules matched) (relative : startsWith planPath "/" = false)
    (named : ∀ name ∈ place, IsName name) :
    matched (sparsePattern planPath) place = true ↔ InPlanDirectory matched planPath place := by
  unfold InPlanDirectory
  by_cases plain : PlainPattern (sparsePattern planPath)
  · rw [if_pos plain]
    cases parts : directoryParts planPath with
    | nil =>
        have dot : sparsePattern planPath = "." := sparsePattern_top relative parts
        have noSlash : '/' ∉ (sparsePattern planPath).toList := by
          rw [dot]
          decide
        rw [rules.name _ _ plain noSlash, dot, iff_false]
        exact fun member => (named "." member).notDot rfl
    | cons name rest =>
        have below : directoryParts planPath ≠ [] := by
          rw [parts]
          exact List.cons_ne_nil _ _
        have whole := split_sparsePattern relative below
        cases rest with
        | nil =>
            have pattern : sparsePattern planPath = name := by
              rw [sparsePattern_eq relative below, parts]
              rfl
            have alone : '/' ∉ (sparsePattern planPath).toList := by
              rw [pattern]
              exact (isPart_of_mem_directoryParts (parts ▸ List.mem_cons_self)).noSlash
            rw [rules.name _ _ plain alone, pattern]
        | cons second rest =>
            have slash : '/' ∈ (sparsePattern planPath).toList := by
              refine Classical.byContradiction fun alone => ?_
              rw [split_eq_self alone, parts] at whole
              cases whole
            have nonempty : "" ∉ split (sparsePattern planPath) '/' := by
              rw [whole]
              exact fun member => (isPart_of_mem_directoryParts member).nonempty rfl
            rw [rules.anchored _ _ plain slash nonempty, whole, parts]
  · rw [if_neg plain]

theorem kept_iff (rules : PatternRules matched) (relative : startsWith planPath "/" = false) :
    Kept commit (fun place => matched (sparsePattern planPath) place = true) place ↔
      Kept commit (InPlanDirectory matched planPath) place := by
  refine or_congr_right (exists_congr fun entry => and_congr_right fun member => ?_)
  exact and_congr_right fun _ => matched_iff rules relative (commit.named entry member).2

/-- The walks in the two checkouts. -/
theorem thinned (rules : PatternRules matched) (relative : startsWith planPath "/" = false)
    (workspace : Workspace) (commit : Listing) (path : PurePath) :
    Thinned workspace.root.parts (Kept commit (InPlanDirectory matched planPath))
      (workspace.follow commit path)
      (workspace.follow (commit.restrict (matched (sparsePattern planPath))) path) := by
  have same : Kept commit (fun place => matched (sparsePattern planPath) place = true) =
      Kept commit (InPlanDirectory matched planPath) :=
    funext fun place => propext (kept_iff rules relative)
  rw [← same]
  exact Machine.follow_restrict

/-- A file of the commit is there exactly if it is located so. -/
theorem present_iff_located (rules : PatternRules matched)
    (relative : startsWith planPath "/" = false) :
    Present (fullCheckout rt workspace commit)
        (sparseCheckout rt matched workspace commit planPath) path ↔
      Located rt matched workspace commit planPath path := by
  have walks := thinned rules relative workspace commit path
  refine forall_congr' fun there => ?_
  constructor
  · intro present
    refine Classical.byContradiction fun stops => ?_
    obtain ⟨-, content, found⟩ := Workspace.isFile_iff.mp present
    rw [walks.lost stops] at found
    cases found
  · intro passes
    obtain ⟨noNull, file⟩ := Workspace.isFile_iff.mp there
    exact Workspace.isFile_iff.mpr ⟨noNull, walks.same passes ▸ file⟩

theorem thinner_sparseCheckout (rules : PatternRules matched)
    (relative : startsWith planPath "/" = false) :
    Thinner (fullCheckout rt workspace commit)
      (sparseCheckout rt matched workspace commit planPath) := by
  refine ⟨rfl, fun path => ?_, fun path there => ?_⟩
  · have walks := thinned rules relative workspace commit path
    by_cases passes : Passes workspace.root.parts
        (Kept commit (InPlanDirectory matched planPath)) (workspace.follow commit path)
    · refine Or.inl ?_
      unfold fullCheckout sparseCheckout Workspace.checkout viewOf
      dsimp only
      rw [walks.same passes]
    · refine Or.inr ?_
      unfold sparseCheckout Workspace.checkout viewOf
      dsimp only
      rw [walks.lost passes]
      split
      · rfl
      · rfl
  · have walks := thinned rules relative workspace commit path
    obtain ⟨-, content, found⟩ := Workspace.isFile_iff.mp there
    have same := walks.same <| Classical.byContradiction fun stops => by
      rw [walks.lost stops] at found
      cases found
    unfold fullCheckout sparseCheckout Workspace.checkout viewOf
    dsimp only
    rw [same]

/-- The sparse checkout is enough exactly if all that is needed and that the commit has
is reached without leaving what lies in the plan's directory. -/
theorem sparseEnough_iff (rules : PatternRules matched)
    (relative : startsWith planPath "/" = false) :
    SparseEnough rt matched workspace commit planPath ↔
      Needed rt (fullCheckout rt workspace commit) planPath
        (Located rt matched workspace commit planPath) := by
  constructor
  · exact fun enough => enough.present.imp fun path => (present_iff_located rules relative).mp
  · intro located
    have present := located.imp fun path => (present_iff_located rules relative).mpr
    refine ⟨fun access resolution ref report ran => ?_, present⟩
    unfold run opening at ran ⊢
    dsimp only at ran ⊢
    cases inspected : inspect rt (fullCheckout rt workspace commit) resolution planPath ref with
    | error exc =>
        rw [inspected] at ran
        cases (Prod.mk.inj ran).1
    | ok verified =>
        rw [inspected] at ran
        rw [(thinner_sparseCheckout rules relative).inspect_eq present inspected]
        exact ran

end

/-! ## A plan at the root -/

/-- The rules for patterns without special characters, and no other pattern. -/
def plainMatch (pattern : String) (place : List String) : Bool :=
  if '/' ∈ pattern.toList then (split pattern '/').isPrefixOf place else decide (pattern ∈ place)

theorem plainMatch_rules : PatternRules plainMatch where
  name pattern place _ noSlash := by
    rw [plainMatch, if_neg noSlash, decide_eq_true_iff]
  anchored pattern place _ slash _ := by
    rw [plainMatch, if_pos slash, List.isPrefixOf_iff_prefix]

/-- A commit of one plan. -/
def topCommit : Listing where
  entries := [(["plan.jmx"], .file (asciiBytes emptyPlanText))]
  named := by decide
  apart := by decide

/-- A plan at the root of the repository. -/
theorem sparseEnough_iff_top :
    SparseEnough plain plainMatch bareWorkspace topCommit "plan.jmx" ↔
      Needed plain (fullCheckout plain bareWorkspace topCommit) "plan.jmx"
        (Located plain plainMatch bareWorkspace topCommit "plan.jmx") :=
  sparseEnough_iff plainMatch_rules (by decide)

/-- The pattern of a plan at the root is `.`, which matches nothing. -/
theorem plan_at_root_is_not_checked_out :
    ¬ ∀ (matched : String → List String → Bool) (rt : Runtime) (workspace : Workspace)
        (commit : Listing) (planPath : String), PatternRules matched →
      startsWith planPath "/" = false → ".." ∉ split planPath '/' →
        SparseEnough rt matched workspace commit planPath := by
  intro always
  have enough := always plainMatch plain bareWorkspace topCommit "plan.jmx" plainMatch_rules
    (by decide) (by decide)
  have there : (fullCheckout plain bareWorkspace topCommit).files.isFile
      (bareWorkspace.root.join "plan.jmx") = .ok true := by decide
  have missing : (sparseCheckout plain plainMatch bareWorkspace topCommit "plan.jmx").files.isFile
      (bareWorkspace.root.join "plan.jmx") = .ok false := by decide
  have present := enough.present.plan there
  rw [show (fullCheckout plain bareWorkspace topCommit).root = bareWorkspace.root from rfl,
    missing] at present
  cases present

end Plimsoll.Verify
