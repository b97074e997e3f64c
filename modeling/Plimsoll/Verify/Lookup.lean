import Plimsoll.Verify.Confinement

/-!
Where `_find_manifest` looks. For a plan below the root of a checkout it climbs
from the plan's directory to the root and stops at the first manifest, so it
finds the one that is deepest, and it asks for nothing outside the root. From any
other directory it stops too.
-/

namespace Plimsoll.Verify

open Python Posix

/-! ## Termination -/

/-- The loop of `_find_manifest`, cut off after some rounds. -/
def findManifestWithin (files : FileView) (root : PurePath) :
    Nat → PurePath → Option (Except Raised (Option PurePath))
  | 0, _ => none
  | rounds + 1, directory =>
      match files.isFile (directory.join manifestName) with
      | .error exc => some (.error exc)
      | .ok true => some (.ok (some (directory.join manifestName)))
      | .ok false =>
          if directory = root ∨ root ∉ directory.parents then some (.ok none)
          else findManifestWithin files root rounds directory.parent

/-- The loop makes at most one round more than its first directory has parts. -/
theorem findManifestWithin_eq (files : FileView) (root : PurePath) {rounds : Nat} :
    ∀ {directory : PurePath}, directory.parts.length < rounds →
      findManifestWithin files root rounds directory =
        some (findManifestFrom files root directory) := by
  induction rounds with
  | zero => exact fun impossible => absurd impossible (Nat.not_lt_zero _)
  | succ rounds ih =>
      intro directory enough
      rw [findManifestWithin, findManifestFrom]
      cases files.isFile (directory.join manifestName) with
      | error exc => rfl
      | ok present =>
          cases present with
          | true => rfl
          | false =>
              dsimp only
              by_cases stop : directory = root ∨ root ∉ directory.parents
              · rw [if_pos stop, if_pos stop]
              · rw [if_neg stop, if_neg stop]
                have shorter := parts_parent_lt (not_not.mp (not_or.mp stop).2)
                exact ih (by omega)

/-! ## The directories from the root down -/

/-- A directory on the way from the root down to another. -/
structure OnChain (root directory step : PurePath) : Prop where
  sameRoot : step.root = root.root
  belowRoot : root.parts <+: step.parts
  above : step.parts <+: directory.parts

section

variable {root directory step : PurePath}

theorem OnChain.refl (below : root.Descendant directory) : OnChain root directory directory := by
  obtain ⟨sameRoot, rest, parts, -⟩ := below
  exact ⟨sameRoot, ⟨rest, parts.symm⟩, List.prefix_refl _⟩

/-- What lies on the chain lies below the root. -/
theorem OnChain.descendant (chain : OnChain root directory step)
    (below : root.Descendant directory) : root.Descendant step := by
  obtain ⟨-, rest, parts, down⟩ := below
  obtain ⟨sameRoot, ⟨inside, shape⟩, ⟨more, whole⟩⟩ := chain
  refine ⟨sameRoot, inside, shape.symm, fun member => down ?_⟩
  rw [← shape, parts, List.append_assoc, List.append_cancel_left_eq] at whole
  rw [← whole]
  exact List.mem_append_left _ member

theorem onChain_root : OnChain root root step ↔ step = root := by
  constructor
  · intro ⟨sameRoot, belowRoot, above⟩
    exact PurePath.ext sameRoot (above.eq_of_length_le belowRoot.length_le)
  · intro same
    rw [same]
    exact ⟨rfl, List.prefix_refl _, List.prefix_refl _⟩

/-- The chain of a directory is the directory and the chain of its parent. -/
theorem onChain_iff (below : root.Descendant directory) (ne : directory ≠ root) :
    OnChain root directory step ↔ step = directory ∨ OnChain root directory.parent step := by
  have ⟨sameRoot, rest, parts, _⟩ := below
  have nonempty : directory.parts ≠ [] := by
    intro empty
    rw [empty] at parts
    have := List.append_eq_nil_iff.mp parts.symm
    exact ne (PurePath.ext sameRoot (by rw [empty, this.1]))
  have whole := List.dropLast_concat_getLast nonempty
  constructor
  · intro ⟨stepRoot, belowRoot, above⟩
    rw [← whole, List.prefix_concat_iff, whole] at above
    rcases above with same | above
    · exact Or.inl (PurePath.ext (stepRoot.trans sameRoot.symm) same)
    · exact Or.inr ⟨stepRoot, belowRoot, above⟩
  · rintro (rfl | ⟨stepRoot, belowRoot, above⟩)
    · exact OnChain.refl below
    · exact ⟨stepRoot, belowRoot, above.trans (List.dropLast_prefix _)⟩

theorem mem_parents_of_descendant (below : root.Descendant directory) (ne : directory ≠ root) :
    root ∈ directory.parents := by
  obtain ⟨sameRoot, rest, parts, -⟩ := below
  have nonempty : 0 < rest.length := by
    rw [List.length_pos_iff]
    intro empty
    rw [empty, List.append_nil] at parts
    exact ne (PurePath.ext sameRoot parts)
  have length : directory.parts.length = root.parts.length + rest.length := by
    rw [parts, List.length_append]
  refine List.mem_map.mpr ⟨rest.length - 1, List.mem_range.mpr (by omega), PurePath.ext sameRoot ?_⟩
  have count : directory.parts.length - 1 - (rest.length - 1) = root.parts.length := by omega
  change directory.parts.take _ = _
  rw [count, parts, List.take_left]

end

/-! ## The nearest manifest -/

/-- The deepest directory on the chain that has a manifest. -/
structure Nearest (files : FileView) (root directory step : PurePath) : Prop where
  chain : OnChain root directory step
  present : files.isFile (step.join manifestName) = .ok true
  deepest : ∀ other, OnChain root directory other →
    files.isFile (other.join manifestName) = .ok true → other.parts.length ≤ step.parts.length

/-- What the search of a chain finds. -/
def FindsNearest (files : FileView) (root directory : PurePath)
    (found : Except Raised (Option PurePath)) : Prop :=
  (∃ step, Nearest files root directory step ∧ found = .ok (some (step.join manifestName))) ∨
    (∀ step, OnChain root directory step → files.isFile (step.join manifestName) = .ok false) ∧
      found = .ok none

/-- Where every directory of the chain is answered for, the search finds the nearest
manifest. -/
theorem findManifestFrom_nearest {files : FileView} {root directory : PurePath}
    (below : root.Descendant directory)
    (answered : ∀ step, OnChain root directory step →
      ∃ present, files.isFile (step.join manifestName) = .ok present) :
    FindsNearest files root directory (findManifestFrom files root directory) := by
  induction directory using findManifestFrom.induct files root with
  | case1 directory exc asked =>
      obtain ⟨present, answer⟩ := answered directory (OnChain.refl below)
      rw [asked] at answer
      cases answer
  | case2 directory asked =>
      rw [findManifestFrom_found asked]
      exact Or.inl ⟨directory,
        ⟨OnChain.refl below, asked, fun other chain _ => chain.above.length_le⟩, rfl⟩
  | case3 directory asked stop =>
      rw [findManifestFrom_stop asked stop]
      have top : directory = root := by
        refine Classical.byContradiction fun ne => ?_
        exact stop.elim ne fun outside => outside (mem_parents_of_descendant below ne)
      subst top
      refine Or.inr ⟨fun step chain => ?_, rfl⟩
      rw [onChain_root.mp chain]
      exact asked
  | case4 directory asked goesOn ih =>
      have ne := (not_or.mp goesOn).1
      have chains := fun step => @onChain_iff root directory step below ne
      rw [findManifestFrom_up asked goesOn]
      have parent := ih (below.parent ne) fun step chain => answered step ((chains step).mpr (Or.inr chain))
      rcases parent with ⟨step, ⟨chain, present, deepest⟩, found⟩ | ⟨nothing, found⟩
      · refine Or.inl ⟨step, ⟨(chains step).mpr (Or.inr chain), present, fun other onChain there => ?_⟩, found⟩
        rcases (chains other).mp onChain with rfl | onChain
        · rw [asked] at there
          cases there
        · exact deepest other onChain there
      · refine Or.inr ⟨fun step onChain => ?_, found⟩
        rcases (chains step).mp onChain with rfl | onChain
        · exact asked
        · exact nothing step onChain

theorem findManifestFrom_error {files : FileView} {root directory : PurePath} {exc : Raised}
    (asked : files.isFile (directory.join manifestName) = .error exc) :
    findManifestFrom files root directory = .error exc := by
  rw [findManifestFrom, asked]

/-- Views that agree on the chain lead to the same result. -/
theorem findManifestFrom_congr {here there : FileView} {root directory : PurePath}
    (below : root.Descendant directory)
    (agree : ∀ step, OnChain root directory step →
      here.isFile (step.join manifestName) = there.isFile (step.join manifestName)) :
    findManifestFrom here root directory = findManifestFrom there root directory := by
  induction directory using findManifestFrom.induct here root with
  | case1 directory exc asked =>
      have same := agree directory (OnChain.refl below)
      rw [findManifestFrom_error asked, findManifestFrom_error (same.symm.trans asked)]
  | case2 directory asked =>
      have same := agree directory (OnChain.refl below)
      rw [findManifestFrom_found asked, findManifestFrom_found (same.symm.trans asked)]
  | case3 directory asked stop =>
      have same := agree directory (OnChain.refl below)
      rw [findManifestFrom_stop asked stop, findManifestFrom_stop (same.symm.trans asked) stop]
  | case4 directory asked goesOn ih =>
      have ne := (not_or.mp goesOn).1
      have same := agree directory (OnChain.refl below)
      rw [findManifestFrom_up asked goesOn, findManifestFrom_up (same.symm.trans asked) goesOn]
      exact ih (below.parent ne) fun step chain => agree step ((onChain_iff below ne).mpr (Or.inr chain))

/-! ## Checkouts -/

variable {rt : Runtime} {worktree : Worktree} {planPath : String}

/-- A checkout answers for every manifest below its root. -/
theorem manifest_answered (around : Surroundings) {directory : PurePath}
    (below : worktree.root.Descendant directory) :
    ∃ present, (worktree.checkoutOn rt around).files.isFile (directory.join manifestName) =
      .ok present :=
  ⟨_, isFile_eq rt (around worktree) (Worktree.settles_of_descendant (manifest_descendant below))⟩

/-- The lookup of a manifest stops from every directory. From that of a plan that is
there, below the root, it finds the nearest manifest, and it depends on nothing but
directories from the root down. -/
theorem findManifest_nearest (around : Surroundings) (relative : startsWith planPath "/" = false)
    (noParent : ".." ∉ split planPath '/')
    (there : (worktree.checkoutOn rt around).files.isFile (worktree.root.join planPath) = .ok true) :
    (∀ (files : FileView) (root : PurePath) (anyPath : String),
      findManifestWithin files root ((planDirectory root anyPath).parts.length + 1)
        (planDirectory root anyPath) = some (findManifest files root anyPath)) ∧
    FindsNearest (worktree.checkoutOn rt around).files worktree.root
      (planDirectory worktree.root planPath)
      (findManifest (worktree.checkoutOn rt around).files worktree.root planPath) ∧
    (∀ step, OnChain worktree.root (planDirectory worktree.root planPath) step →
      worktree.root.Descendant step) ∧
    ∀ files : FileView,
      (∀ step, OnChain worktree.root (planDirectory worktree.root planPath) step →
        files.isFile (step.join manifestName) =
          (worktree.checkoutOn rt around).files.isFile (step.join manifestName)) →
      findManifest files worktree.root planPath =
        findManifest (worktree.checkoutOn rt around).files worktree.root planPath := by
  have settled : worktree.Settles (worktree.root.join planPath) :=
    Worktree.settles_of_descendant (PurePath.descendant_join relative noParent)
  have below : worktree.root.Descendant (planDirectory worktree.root planPath) :=
    planDirectory_descendant relative noParent ((isFile_eq rt (around worktree) settled).symm.trans there)
  refine ⟨fun files root anyPath => ?_, ?_, fun step chain => chain.descendant below, fun files agree => ?_⟩
  · exact findManifestWithin_eq files root (Nat.lt_succ_self _)
  · exact findManifestFrom_nearest below fun step chain =>
      manifest_answered around (chain.descendant below)
  · exact findManifestFrom_congr below agree

/-- A commit with a manifest at its top and one above the plan's directory. -/
def nestedWorktree : Worktree where
  root := PurePath.ofString "/tmp/plimsoll-git-0/checkout"
  listing :=
    [("plimsoll.yaml", .file []),
      ("perf", .directory
        [("plimsoll.yaml", .file []), ("api", .directory [("plan.jmx", .file [])])])]
  absolute := passwdWorktree.absolute
  canonical := passwdWorktree.canonical

theorem findManifest_nearest_nested :
    let files := (nestedWorktree.checkoutOn plain (around bare)).files
    let directory := planDirectory nestedWorktree.root "perf/api/plan.jmx"
    (∀ (files : FileView) (root : PurePath) (anyPath : String),
      findManifestWithin files root ((planDirectory root anyPath).parts.length + 1)
        (planDirectory root anyPath) = some (findManifest files root anyPath)) ∧
    FindsNearest files nestedWorktree.root directory
      (findManifest files nestedWorktree.root "perf/api/plan.jmx") ∧
    (∀ step, OnChain nestedWorktree.root directory step → nestedWorktree.root.Descendant step) ∧
    ∀ other : FileView,
      (∀ step, OnChain nestedWorktree.root directory step →
        other.isFile (step.join manifestName) = files.isFile (step.join manifestName)) →
      findManifest other nestedWorktree.root "perf/api/plan.jmx" =
        findManifest files nestedWorktree.root "perf/api/plan.jmx" :=
  findManifest_nearest (around bare) (by decide) (by decide) (by decide)

end Plimsoll.Verify
