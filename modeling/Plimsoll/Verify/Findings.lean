import Plimsoll.Verify.Lookup
import Plimsoll.Verify.Workspace

/-!
The findings of a plan against its manifest entry, exactly. They are determined by
which of the files asked for are there and by the names that the entry leaves out,
and nothing that is added to the tree or to the entry adds to them. All this holds
where `is_file` answers; it raises for a name that is too long.
-/

namespace Plimsoll.Verify

open Python Jmx Manifests Contracts

/-! ## Missing files -/

/-- What `is_file` says of a path from a directory, where it says something. -/
def isThere (files : FileView) (directory : PurePath) (path : String) : Bool :=
  match files.isFile (directory.join path) with
  | .ok present => present
  | .error _ => false

section

variable {files : FileView} {directory : PurePath} {finding : String → Finding} {paths : List String}

theorem isThere_eq_true {path : String} :
    isThere files directory path = true ↔ files.isFile (directory.join path) = .ok true := by
  unfold isThere
  cases files.isFile (directory.join path) with
  | error exc => simp
  | ok present => simp

/-- The loop over named files reports those that are not there, in order. -/
theorem missingFiles_eq
    (answered : ∀ path ∈ paths, ∃ present, files.isFile (directory.join path) = .ok present) :
    missingFiles files directory finding paths =
      .ok ((paths.filter fun path => !isThere files directory path).map finding) := by
  induction paths with
  | nil => rfl
  | cons path rest ih =>
      obtain ⟨present, asked⟩ := answered path List.mem_cons_self
      have there : isThere files directory path = present := by rw [isThere, asked]
      rw [missingFiles, asked, ih fun other member => answered other (List.mem_cons_of_mem _ member),
        List.filter_cons, there]
      cases present with
      | true => rfl
      | false => rfl

end

/-! ## The report of a comparison -/

/-- The files that an entry declares and the tree lacks, in the order of the entry. -/
def absentData (files : FileView) (directory : PurePath) (entry : ManifestPlan) : List ManifestData :=
  entry.data.filter fun data => !isThere files directory data.path

/-- The files that the plan reads, and that are neither declared nor there. -/
def strayFiles (files : FileView) (directory : PurePath) (entry : ManifestPlan)
    (summary : PlanSummary) : List String :=
  summary.dataFiles.filter fun referenced =>
    referenced ∉ declaredPaths entry && !isThere files directory referenced

/-- The names, in order, of the variables that the plan has and the entry has not. -/
structure LeftOut (entry : ManifestPlan) (summary : PlanSummary) (names : List String) : Prop where
  sorted : names.Pairwise (· < ·)
  exactly : ∀ name, name ∈ names ↔ name ∈ summary.variableNames ∧ name ∉ entry.variableNames

/-- The finding for the variables that an entry leaves out. -/
def variablesNotDeclared (names : List String) : Finding :=
  errorFinding "VARIABLE_NOT_DECLARED"
    ("The plan references variables the manifest does not declare: " ++ join ", " names) manifestName

/-- One finding for each file that is missing, one for each file that is not declared,
and one for all variables that are not. -/
def expectedFindings (files : FileView) (directory : PurePath) (planPath : String)
    (entry : ManifestPlan) (summary : PlanSummary) (names : List String) : List Finding :=
  (absentData files directory entry).map (fun data => dataFileMissing data.path) ++
    (strayFiles files directory entry summary).map (dataFileUndeclared planPath) ++
    if names = [] then [] else [variablesNotDeclared names]

/-- The files asked for are there or not there. -/
def Answered (files : FileView) (directory : PurePath) (entry : ManifestPlan)
    (summary : PlanSummary) : Prop :=
  ∀ path ∈ askedFor entry summary, ∃ present, files.isFile (directory.join path) = .ok present

theorem leftOut_sortedSet (sets : SetOrder) (entry : ManifestPlan) (summary : PlanSummary) :
    LeftOut entry summary
      (sortedSet sets (summary.variableNames.filter fun name => name ∉ entry.variableNames)) where
  sorted := pairwise_lt_sortedSet sets _
  exactly name := by simp [List.mem_filter]

/-- There is one such list of names. -/
theorem LeftOut.unique {entry : ManifestPlan} {summary : PlanSummary} {names others : List String}
    (leftOut : LeftOut entry summary names) (other : LeftOut entry summary others) :
    names = others :=
  leftOut.sorted.eq_of_mem_iff other.sorted fun name =>
    (leftOut.exactly name).trans (other.exactly name).symm

section

variable {rt : Runtime} {files : FileView} {root : PurePath} {manifest : Manifest} {planPath : String}
  {entry : ManifestPlan} {summary : PlanSummary} {findings : List Finding}

/-- Where every file asked for is answered for, the comparison reports what is
expected. -/
theorem manifestFindings_eq (governs : governingEntry manifest planPath = some entry)
    (answered : Answered files (planDirectory root planPath) entry summary) {names : List String}
    (leftOut : LeftOut entry summary names) :
    manifestFindings rt files manifest planPath summary root =
      .ok (expectedFindings files (planDirectory root planPath) planPath entry summary names) := by
  have declared := fun path member => answered path (List.mem_append_left _ member)
  have undeclared := fun path member => answered path (List.mem_append_right _ member)
  have same := leftOut.unique (leftOut_sortedSet rt.sets entry summary)
  have missing : ((declaredPaths entry).filter fun path =>
      !isThere files (planDirectory root planPath) path).map dataFileMissing =
        (absentData files (planDirectory root planPath) entry).map fun data =>
          dataFileMissing data.path := by
    rw [declaredPaths, List.filter_map, List.map_map]
    rfl
  have stray : (undeclaredFiles entry summary).filter (fun path =>
      !isThere files (planDirectory root planPath) path) =
        strayFiles files (planDirectory root planPath) entry summary := by
    rw [undeclaredFiles, List.filter_filter]
    exact List.filter_congr fun path _ => Bool.and_comm _ _
  unfold manifestFindings
  rw [governs]
  dsimp only
  rw [missingFiles_eq declared, missingFiles_eq undeclared, missing, stray, expectedFindings, same]
  rfl

/-- The comparison returns where every file asked for is answered for, and then what
is expected. -/
theorem manifestFindings_ok_eq (governs : governingEntry manifest planPath = some entry) :
    manifestFindings rt files manifest planPath summary root = .ok findings ↔
      Answered files (planDirectory root planPath) entry summary ∧
        ∃ names, LeftOut entry summary names ∧
          findings =
            expectedFindings files (planDirectory root planPath) planPath entry summary names := by
  constructor
  · intro returned
    have answered := manifestFindings_ok_iff.mp ⟨findings, returned⟩ entry governs
    have leftOut := leftOut_sortedSet rt.sets entry summary
    rw [manifestFindings_eq governs answered leftOut] at returned
    exact ⟨answered, _, leftOut, (Except.ok.inj returned).symm⟩
  · rintro ⟨answered, names, leftOut, rfl⟩
    exact manifestFindings_eq governs answered leftOut

/-! ## No findings -/

/-- Nothing is reported where the declared files are there, the files that the plan
reads are there, and its variables are declared. -/
theorem expectedFindings_eq_nil_iff {directory : PurePath} {names : List String}
    (leftOut : LeftOut entry summary names) :
    expectedFindings files directory planPath entry summary names = [] ↔
      (∀ path ∈ declaredPaths entry, files.isFile (directory.join path) = .ok true) ∧
        (∀ path ∈ summary.dataFiles, files.isFile (directory.join path) = .ok true) ∧
          ∀ name ∈ summary.variableNames, name ∈ entry.variableNames := by
  have declared : absentData files directory entry = [] ↔
      ∀ path ∈ declaredPaths entry, isThere files directory path = true := by
    simp [absentData, declaredPaths]
  have stray : strayFiles files directory entry summary = [] ↔
      ∀ path ∈ summary.dataFiles, path ∉ declaredPaths entry → isThere files directory path = true := by
    simp [strayFiles]
  have covered : names = [] ↔ ∀ name ∈ summary.variableNames, name ∈ entry.variableNames := by
    rw [List.eq_nil_iff_forall_not_mem]
    simp [leftOut.exactly]
  have last : (if names = [] then [] else [variablesNotDeclared names]) = [] ↔ names = [] := by
    by_cases empty : names = [] <;> simp [empty]
  rw [expectedFindings, List.append_eq_nil_iff, List.append_eq_nil_iff, List.map_eq_nil_iff,
    List.map_eq_nil_iff, last, declared, stray, covered, and_assoc]
  simp only [isThere_eq_true]
  constructor
  · intro ⟨declared, undeclared, covered⟩
    refine ⟨declared, fun path reads => ?_, covered⟩
    by_cases listed : path ∈ declaredPaths entry
    · exact declared path listed
    · exact undeclared path reads listed
  · intro ⟨declared, there, covered⟩
    exact ⟨declared, fun path reads _ => there path reads, covered⟩

theorem manifestFindings_nil_iff (governs : governingEntry manifest planPath = some entry) :
    manifestFindings rt files manifest planPath summary root = .ok [] ↔
      (∀ path ∈ declaredPaths entry,
          files.isFile ((planDirectory root planPath).join path) = .ok true) ∧
        (∀ path ∈ summary.dataFiles,
          files.isFile ((planDirectory root planPath).join path) = .ok true) ∧
        ∀ name ∈ summary.variableNames, name ∈ entry.variableNames := by
  have leftOut := leftOut_sortedSet rt.sets entry summary
  constructor
  · intro returned
    obtain ⟨-, names, leftOut, empty⟩ := (manifestFindings_ok_eq governs).mp returned
    exact (expectedFindings_eq_nil_iff leftOut).mp empty.symm
  · intro conforms
    refine (manifestFindings_ok_eq governs).mpr ⟨fun path member => ⟨true, ?_⟩, _, leftOut,
      ((expectedFindings_eq_nil_iff leftOut).mpr conforms).symm⟩
    rcases List.mem_append.mp member with declared | undeclared
    · exact conforms.1 path declared
    · exact conforms.2.1 path (List.mem_filter.mp undeclared).1

end

/-! ## Additions -/

/-- Something is added: files to the tree, which then answers for all that it did, the
declaration of a file that is there, or a variable. -/
inductive Adds (directory : PurePath) :
    FileView → ManifestPlan → FileView → ManifestPlan → Prop where
  | files {here there : FileView} {entry : ManifestPlan}
      (kept : ∀ path, here.isFile path = .ok true → there.isFile path = .ok true)
      (answers : ∀ path, here.isFile path = .ok false →
        ∃ present, there.isFile path = .ok present) :
      Adds directory here entry there entry
  | declaration {files : FileView} {entry more : ManifestPlan} {front back : List ManifestData}
      {data : ManifestData} (before : entry.data = front ++ back)
      (after : more.data = front ++ data :: back)
      (present : files.isFile (directory.join data.path) = .ok true)
      (sameNames : more.variableNames = entry.variableNames) :
      Adds directory files entry files more
  | name {files : FileView} {entry more : ManifestPlan} {front back : List String} {name : String}
      (before : entry.variableNames = front ++ back)
      (after : more.variableNames = front ++ name :: back) (sameData : more.data = entry.data) :
      Adds directory files entry files more

/-- What a finding is about: the finding without the names it lists. -/
def subject (finding : Finding) : String × String :=
  (finding.code, if finding.code = "VARIABLE_NOT_DECLARED" then "" else finding.message)

section

variable {directory : PurePath} {here there : FileView} {entry more : ManifestPlan}
  {summary : PlanSummary} {planPath : String}

/-- No file that was there goes missing, none that was declared is undeclared, and no
name is left out that was not. -/
theorem Adds.keeps (adds : Adds directory here entry there more) :
    (∀ path, isThere here directory path = true → isThere there directory path = true) ∧
      (∀ path ∈ declaredPaths entry, path ∈ declaredPaths more) ∧
      ∀ name ∈ entry.variableNames, name ∈ more.variableNames := by
  simp only [isThere_eq_true]
  cases adds with
  | files kept answers =>
      exact ⟨fun path => kept _, fun _ member => member, fun _ member => member⟩
  | declaration before after present sameNames =>
      refine ⟨fun _ there => there, fun path => ?_, fun name member => sameNames ▸ member⟩
      rw [declaredPaths, declaredPaths, before, after]
      simp only [List.map_append, List.map_cons, List.mem_append, List.mem_cons]
      exact Or.imp_right Or.inr
  | name before after sameData =>
      refine ⟨fun _ there => there, fun path member => ?_, fun name => ?_⟩
      · rwa [declaredPaths, sameData]
      · rw [before, after]
        simp only [List.mem_append, List.mem_cons]
        exact Or.imp_right Or.inr

/-- What is not there afterwards was not there before. -/
theorem Adds.absent (adds : Adds directory here entry there more) (path : String) :
    (!isThere there directory path) = true → (!isThere here directory path) = true := by
  intro absent
  rw [Bool.not_eq_true'] at absent ⊢
  refine Bool.eq_false_iff.mpr fun present => ?_
  rw [adds.keeps.1 path present] at absent
  cases absent

theorem Adds.absentData (adds : Adds directory here entry there more) :
    (absentData there directory more).Sublist (absentData here directory entry) := by
  have absent := adds.absent
  unfold Verify.absentData
  cases adds with
  | files kept answers => exact List.monotone_filter_right _ fun data => absent data.path
  | declaration before after present sameNames =>
      have found := isThere_eq_true.mpr present
      rw [before, after, List.filter_append, List.filter_append,
        List.filter_cons_of_neg (by simp [found])]
  | name before after sameData => rw [sameData]

theorem Adds.strayFiles (adds : Adds directory here entry there more) :
    (strayFiles there directory more summary).Sublist (strayFiles here directory entry summary) := by
  refine List.monotone_filter_right _ fun path stray => ?_
  rw [Bool.and_eq_true, decide_eq_true_eq] at stray ⊢
  exact ⟨fun declared => stray.1 (adds.keeps.2.1 path declared), adds.absent path stray.2⟩

/-- Where every file asked for was answered for, it still is. -/
theorem Adds.answered (adds : Adds directory here entry there more)
    (answered : Answered here directory entry summary) : Answered there directory more summary := by
  cases adds with
  | files kept answers =>
      intro path member
      obtain ⟨present, answer⟩ := answered path member
      cases present with
      | true => exact ⟨true, kept _ answer⟩
      | false => exact answers _ answer
  | declaration before after present sameNames =>
      intro path member
      rcases List.mem_append.mp member with declared | undeclared
      · rw [declaredPaths, after] at declared
        simp only [List.map_append, List.map_cons, List.mem_append, List.mem_cons] at declared
        have old : path ∈ declaredPaths entry ∨ path ∈ undeclaredFiles entry summary →
            ∃ present, here.isFile (directory.join path) = .ok present := fun either =>
          answered path (List.mem_append.mpr either)
        rw [declaredPaths, before, List.map_append, List.mem_append] at old
        rcases declared with front | rfl | back
        · exact old (Or.inl (Or.inl front))
        · exact ⟨true, present⟩
        · exact old (Or.inl (Or.inr back))
      · obtain ⟨reads, notDeclared⟩ := List.mem_filter.mp undeclared
        refine answered path (List.mem_append_right _ (List.mem_filter.mpr ⟨reads, ?_⟩))
        have kept : path ∈ declaredPaths entry → path ∈ declaredPaths more := by
          rw [declaredPaths, declaredPaths, before, after]
          simp only [List.map_append, List.map_cons, List.mem_append, List.mem_cons]
          exact Or.imp_right Or.inr
        exact decide_eq_true fun old => of_decide_eq_true notDeclared (kept old)
  | name before after sameData =>
      intro path member
      refine answered path ?_
      rwa [askedFor, declaredPaths, undeclaredFiles, declaredPaths, sameData] at member

/-- What is added adds no finding to those expected. -/
theorem Adds.expectedFindings (adds : Adds directory here entry there more)
    {names others : List String} (leftOut : LeftOut entry summary names)
    (otherLeftOut : LeftOut more summary others) :
    ((expectedFindings there directory planPath more summary others).map subject).Sublist
      ((expectedFindings here directory planPath entry summary names).map subject) := by
  have variablesToo : ((if others = [] then [] else [variablesNotDeclared others]).map subject).Sublist
      ((if names = [] then [] else [variablesNotDeclared names]).map subject) := by
    by_cases empty : others = []
    · rw [if_pos empty]
      exact List.nil_sublist _
    · obtain ⟨name, member⟩ := List.exists_mem_of_ne_nil _ empty
      have ⟨reads, undeclared⟩ := (otherLeftOut.exactly name).mp member
      have member' := (leftOut.exactly name).mpr
        ⟨reads, fun declared => undeclared (adds.keeps.2.2 name declared)⟩
      rw [if_neg empty, if_neg (List.ne_nil_of_mem member')]
      exact List.Sublist.refl _
  unfold Verify.expectedFindings
  simp only [List.map_append]
  exact (((adds.absentData.map _).map _).append ((adds.strayFiles.map _).map _)).append variablesToo

end

variable {rt : Runtime} {files : FileView} {root : PurePath} {manifest : Manifest} {planPath : String}
  {entry : ManifestPlan} {summary : PlanSummary}

/-- A comparison returns exactly the findings expected, none of them exactly where
everything is there and declared, and no addition adds one. -/
structure Exact (rt : Runtime) (files : FileView) (root : PurePath) (manifest : Manifest)
    (planPath : String) (summary : PlanSummary) (entry : ManifestPlan) : Prop where
  returns : ∃ names, LeftOut entry summary names ∧
    manifestFindings rt files manifest planPath summary root =
      .ok (expectedFindings files (planDirectory root planPath) planPath entry summary names)
  empty : manifestFindings rt files manifest planPath summary root = .ok [] ↔
    (∀ path ∈ declaredPaths entry,
        files.isFile ((planDirectory root planPath).join path) = .ok true) ∧
      (∀ path ∈ summary.dataFiles,
        files.isFile ((planDirectory root planPath).join path) = .ok true) ∧
      ∀ name ∈ summary.variableNames, name ∈ entry.variableNames
  additions : ∀ there later more, Adds (planDirectory root planPath) files entry there more →
    governingEntry later planPath = some more →
      ∃ findings others,
        manifestFindings rt files manifest planPath summary root = .ok findings ∧
        manifestFindings rt there later planPath summary root = .ok others ∧
        (others.map subject).Sublist (findings.map subject)

theorem Exact.answered (governs : governingEntry manifest planPath = some entry)
    (exact_ : Exact rt files root manifest planPath summary entry) :
    Answered files (planDirectory root planPath) entry summary := by
  obtain ⟨names, -, returned⟩ := exact_.returns
  exact ((manifestFindings_ok_eq governs).mp returned).1

/-- The findings are exact exactly if `is_file` answers for every file that the entry
declares and for every other file that the plan reads. -/
theorem exact_iff (governs : governingEntry manifest planPath = some entry) :
    Exact rt files root manifest planPath summary entry ↔
      Answered files (planDirectory root planPath) entry summary := by
  constructor
  · exact Exact.answered governs
  · intro answered
    have leftOut := leftOut_sortedSet rt.sets entry summary
    refine ⟨⟨_, leftOut, manifestFindings_eq governs answered leftOut⟩,
      manifestFindings_nil_iff governs, fun there later more adds governsLater => ?_⟩
    have leftOutLater := leftOut_sortedSet rt.sets more summary
    exact ⟨_, _, manifestFindings_eq governs answered leftOut,
      manifestFindings_eq governsLater (adds.answered answered) leftOutLater,
      adds.expectedFindings leftOut leftOutLater⟩

/-- An entry that declares one file twice, and no variable. -/
def twiceEntry : ManifestPlan where
  path := "plan.jmx"
  data := [{ path := "users.csv", path_length := by decide },
    { path := "users.csv", path_length := by decide }]
  path_length := length_planJmx

theorem exact_iff_twice :
    Exact plain (nestedWorktree.checkoutOn plain (around bare)).files nestedWorktree.root
        { version := 1, plans := [twiceEntry] } "perf/api/plan.jmx"
        { dataFiles := ["cards.csv"], variableNames := ["API_HOST"] } twiceEntry ↔
      Answered (nestedWorktree.checkoutOn plain (around bare)).files
        (planDirectory nestedWorktree.root "perf/api/plan.jmx") twiceEntry
        { dataFiles := ["cards.csv"], variableNames := ["API_HOST"] } :=
  exact_iff rfl

/-! ## A name that is too long -/

/-- A name of so many bytes. -/
def longName (n : Nat) : String := String.ofList (List.replicate n 'a')

theorem length_longName (n : Nat) : (longName n).length = n := by
  rw [longName, String.length_ofList, List.length_replicate]

theorem toList_longName (n : Nat) : (longName n).toList = List.replicate n 'a' := by
  rw [longName, String.toList_ofList]

theorem not_mem_longName {n : Nat} {c : Char} (other : c ≠ 'a') : c ∉ (longName n).toList := by
  rw [toList_longName]
  exact fun member => other (List.eq_of_mem_replicate member)

theorem isPart_longName {n : Nat} (several : 1 < n) : IsPart (longName n) where
  nonempty empty := by
    have length := length_longName n
    rw [empty, String.length_empty] at length
    omega
  notDot dot := by
    have length := length_longName n
    have one : ".".length = 1 := by decide
    rw [dot] at length
    omega
  noSlash := not_mem_longName (by decide)

/-- An entry that declares a file with a name of 256 bytes. -/
def longEntry : ManifestPlan where
  path := "plan.jmx"
  data := [{ path := longName 256, path_length := by rw [length_longName]; omega }]
  path_length := length_planJmx

/-- A commit of one plan. -/
def perfCommit : Posix.Listing where
  entries := [(["perf", "plan.jmx"], .file (asciiBytes emptyPlanText))]
  named := by decide
  apart := by decide

/-- `is_file` raises for a name in the plan's directory that is too long. -/
theorem isFile_long {name : String} (isPart : IsPart name) (noNull : '\x00' ∉ name.toList)
    (long : 255 < name.utf8ByteSize) :
    ∃ exc, (bareWorkspace.checkout plain perfCommit).files.isFile
      ((planDirectory bareWorkspace.root "perf/plan.jmx").join name) = .error exc := by
  have parts : ((planDirectory bareWorkspace.root "perf/plan.jmx").join name).parts =
      ["tmp", "plimsoll-git-1", "checkout", "perf", name] := by
    rw [PurePath.parts_join_of_isPart isPart]
    rfl
  have isPath : hasNull ((planDirectory bareWorkspace.root "perf/plan.jmx").join name) = false := by
    rw [hasNull, parts]
    simpa using noNull
  obtain ⟨message, refused⟩ : ∃ message, (bareWorkspace.follow perfCommit
      ((planDirectory bareWorkspace.root "perf/plan.jmx").join name)).found = .refused message := by
    unfold Workspace.follow Posix.Machine.follow
    cases bareWorkspace.machine.refusesPath
        ((planDirectory bareWorkspace.root "perf/plan.jmx").join name) with
    | some message => exact ⟨message, rfl⟩
    | none =>
        have tooLong (here : List String) :
            bareMachine.refuses here name = some "[Errno 36] File name too long" := if_pos long
        have last : (bareMachine.walkFrom bareWorkspace.root.parts perfCommit
            (bareMachine.walk bareWorkspace.root.parts perfCommit 39)
            ["tmp", "plimsoll-git-1", "checkout", "perf"] [name]).found =
              .refused "[Errno 36] File name too long" := by
          rw [Posix.Machine.walkFrom, if_neg isPart.nonempty, tooLong]
        refine ⟨"[Errno 36] File name too long", ?_⟩
        dsimp only
        rw [parts, if_neg (PurePath.join_ne_relative (by decide))]
        exact last
  unfold Workspace.checkout viewOf
  dsimp only
  rw [isPath, refused]
  exact ⟨_, rfl⟩

/-- A declared file with a name that no file can have is not reported as missing. -/
theorem long_name_is_not_reported :
    ¬ ∀ (rt : Runtime) (workspace : Workspace) (commit : Posix.Listing) (manifest : Manifest)
        (planPath : String) (summary : PlanSummary) (entry : ManifestPlan),
        governingEntry manifest planPath = some entry →
          Exact rt (workspace.checkout rt commit).files workspace.root manifest planPath summary
            entry := by
  intro always
  have answered := (always plain bareWorkspace perfCommit { version := 1, plans := [longEntry] }
    "perf/plan.jmx" {} longEntry rfl).answered rfl
  have several : 1 < 256 := by decide
  obtain ⟨exc, raised⟩ := isFile_long (isPart_longName several) (not_mem_longName (by decide))
    (by decide +kernel)
  obtain ⟨present, answer⟩ :=
    answered (longName 256) (List.mem_append_left _ (List.mem_singleton_self _))
  rw [raised] at answer
  cases answer

end Plimsoll.Verify
