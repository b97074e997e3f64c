import Plimsoll.Verify

/-!
What a verification asks of a checkout: whether the plan is there, the plan's
text, the manifest above it, the manifest's text, and, where both are accepted,
the files that the manifest and the plan name.
-/

namespace Plimsoll.Verify

open Python Jmx Manifests Contracts

variable {rt : Runtime} {planPath : String}

/-! ## The manifest -/

/-- The manifest that is found is a file. -/
theorem findManifestFrom_isFile {files : FileView} {root directory file : PurePath}
    (found : findManifestFrom files root directory = .ok (some file)) :
    files.isFile file = .ok true := by
  induction directory using findManifestFrom.induct files root with
  | case1 directory exc asked =>
      rw [findManifestFrom, asked] at found
      cases found
  | case2 directory asked =>
      rw [findManifestFrom_found asked] at found
      cases found
      exact asked
  | case3 directory asked stop =>
      rw [findManifestFrom_stop asked stop] at found
      cases found
  | case4 directory asked goesOn ih =>
      rw [findManifestFrom_up asked goesOn] at found
      exact ih found

/-! ## Named files -/

section

variable {here there files : FileView} {directory : PurePath} {finding : String → Finding}
  {paths : List String}

theorem missingFiles_congr
    (agree : ∀ path ∈ paths, here.isFile (directory.join path) = there.isFile (directory.join path)) :
    missingFiles here directory finding paths = missingFiles there directory finding paths := by
  induction paths with
  | nil => rfl
  | cons path rest ih =>
      rw [missingFiles, missingFiles, agree path List.mem_cons_self,
        ih fun other member => agree other (List.mem_cons_of_mem _ member)]

/-- The loop over named files returns when every one of them is answered. -/
theorem missingFiles_ok_iff :
    (∃ findings, missingFiles files directory finding paths = .ok findings) ↔
      ∀ path ∈ paths, ∃ present, files.isFile (directory.join path) = .ok present := by
  induction paths with
  | nil => exact ⟨fun _ path member => absurd member List.not_mem_nil, fun _ => ⟨[], rfl⟩⟩
  | cons head rest ih =>
      rw [missingFiles, exists_ok_bind_iff, List.forall_mem_cons, ← ih]
      simp only [exists_ok_bind_iff]
      constructor
      · intro ⟨present, asked, others, returned, _⟩
        exact ⟨⟨present, asked⟩, others, returned⟩
      · intro ⟨⟨present, asked⟩, others, returned⟩
        exact ⟨present, asked, others, returned, _, rfl⟩

end

/-- The files `_manifest_findings` asks for: those the entry declares, then those
the plan reads and the entry does not declare. -/
def askedFor (entry : ManifestPlan) (summary : PlanSummary) : List String :=
  declaredPaths entry ++ undeclaredFiles entry summary

section

variable {here there files : FileView} {manifest : Manifest} {summary : PlanSummary}
  {root : PurePath} {entry : ManifestPlan}

theorem manifestFindings_congr
    (agree : ∀ entry, governingEntry manifest planPath = some entry →
      ∀ path ∈ askedFor entry summary,
        here.isFile ((planDirectory root planPath).join path) =
          there.isFile ((planDirectory root planPath).join path)) :
    manifestFindings rt here manifest planPath summary root =
      manifestFindings rt there manifest planPath summary root := by
  unfold manifestFindings
  cases governs : governingEntry manifest planPath with
  | none => rfl
  | some entry =>
      dsimp only
      rw [missingFiles_congr fun path member =>
          agree entry governs path (List.mem_append_left _ member),
        missingFiles_congr fun path member =>
          agree entry governs path (List.mem_append_right _ member)]

/-- `_manifest_findings` returns when every file it asks for is answered. -/
theorem manifestFindings_ok_iff :
    (∃ findings, manifestFindings rt files manifest planPath summary root = .ok findings) ↔
      ∀ entry, governingEntry manifest planPath = some entry → ∀ path ∈ askedFor entry summary,
        ∃ present, files.isFile ((planDirectory root planPath).join path) = .ok present := by
  unfold manifestFindings
  cases governs : governingEntry manifest planPath with
  | none => exact ⟨fun _ entry impossible => (nomatch impossible), fun _ => ⟨_, rfl⟩⟩
  | some entry =>
      simp only [exists_ok_bind_iff, Option.some.injEq, forall_eq', askedFor,
        List.forall_mem_append]
      rw [← @missingFiles_ok_iff files (planDirectory root planPath) dataFileMissing,
        ← @missingFiles_ok_iff files (planDirectory root planPath) (dataFileUndeclared planPath)]
      constructor
      · intro ⟨missing, first, undeclared, second, _⟩
        exact ⟨⟨missing, first⟩, undeclared, second⟩
      · intro ⟨⟨missing, first⟩, undeclared, second⟩
        exact ⟨missing, first, undeclared, second, _, rfl⟩

end

/-! ## Comparisons -/

/-- The checkout's plan and its manifest are both accepted, and `entry` is the
manifest's entry for the plan: `_manifest_findings` compares it with `summary`. -/
structure Compares (rt : Runtime) (checkout : Checkout) (planPath : String) (entry : ManifestPlan)
    (summary : PlanSummary) : Prop where
  present : checkout.files.isFile (checkout.root.join planPath) = .ok true
  plan : (checkout.files.readText rt (checkout.root.join planPath)).bind (parsePlan rt) =
    .ok summary
  manifest : ∃ manifestFile manifest,
    findManifest checkout.files checkout.root planPath = .ok (some manifestFile) ∧
      (checkout.files.readText rt manifestFile).bind (parseManifest rt) = .ok manifest ∧
      governingEntry manifest planPath = some entry

section

variable {files : FileView} {root planFile : PurePath} {summary : PlanSummary}
  {found : List Finding} {checkout : Checkout} {entry : ManifestPlan} {manifest : Manifest}
  {sha : String} {reading : Reading}

theorem readPlan_some (ran : readPlan rt files planFile planPath = .ok (found, some summary)) :
    (files.readText rt planFile).bind (parsePlan rt) = .ok summary := by
  rw [readPlan] at ran
  split at ran
  · rename_i parsed
    cases ran
    exact parsed
  · cases ran
  · cases ran

theorem readManifest_some
    (ran : readManifest rt files root planPath = .ok (found, some manifest)) :
    ∃ manifestFile, findManifest files root planPath = .ok (some manifestFile) ∧
      (files.readText rt manifestFile).bind (parseManifest rt) = .ok manifest := by
  rw [readManifest] at ran
  split at ran
  · cases ran
  · cases ran
  · rename_i manifestFile found
    split at ran
    · rename_i parsed
      cases ran
      exact ⟨manifestFile, found, parsed⟩
    · cases ran
    · cases ran

theorem Compares.readCheckout (compares : Compares rt checkout planPath entry summary)
    (sha : String) :
    ∃ reading manifest, readCheckout rt checkout sha planPath = .ok reading ∧
      reading.manifest = some manifest ∧ reading.summary = some summary ∧
      governingEntry manifest planPath = some entry := by
  obtain ⟨present, plan, manifestFile, manifest, found, parsed, governs⟩ := compares
  have first : readPlan rt checkout.files (checkout.root.join planPath) planPath =
      .ok (unresolvedTargets summary planPath, some summary) := by
    rw [readPlan, plan]
  have second : readManifest rt checkout.files checkout.root planPath =
      .ok ([], some manifest) := by
    rw [readManifest, found]
    dsimp only
    rw [parsed]
  unfold Verify.readCheckout
  rw [present, first, second]
  exact ⟨_, manifest, rfl, rfl, rfl, governs⟩

theorem compares_of_readCheckout (ran : readCheckout rt checkout sha planPath = .ok reading)
    (hasManifest : reading.manifest = some manifest) (hasSummary : reading.summary = some summary)
    (governs : governingEntry manifest planPath = some entry) :
    Compares rt checkout planPath entry summary := by
  unfold readCheckout at ran
  cases asked : checkout.files.isFile (checkout.root.join planPath) with
  | error exc => rw [asked] at ran; cases ran
  | ok present =>
      rw [asked] at ran
      cases present with
      | false => cases ran; cases hasSummary
      | true =>
          cases first : readPlan rt checkout.files (checkout.root.join planPath) planPath with
          | error exc => rw [first] at ran; cases ran
          | ok plan =>
              cases second : readManifest rt checkout.files checkout.root planPath with
              | error exc => rw [first, second] at ran; cases ran
              | ok found =>
                  rw [first, second] at ran
                  cases ran
                  obtain ⟨planFindings, planSummary⟩ := plan
                  obtain ⟨manifestFindings, planManifest⟩ := found
                  obtain rfl : planSummary = some summary := hasSummary
                  obtain rfl : planManifest = some manifest := hasManifest
                  obtain ⟨manifestFile, isThere, parsed⟩ := readManifest_some second
                  exact ⟨asked, readPlan_some first, manifestFile, manifest, isThere, parsed, governs⟩

end

end Plimsoll.Verify
