import Plimsoll.Verify.Lookup

/-!
Which entry of a manifest a plan is checked against. It is the first that ends in
the plan's file name, in whatever directory, so it is the plan's own only where no
entry of a namesake stands before that.
-/

namespace Plimsoll.Verify

open Python Posix Jmx Manifests Contracts

/-! ## The plan's own entry -/

/-- Two paths end in the same name. -/
def SameName (entry : ManifestPlan) (planPath : String) : Prop :=
  (PurePath.ofString entry.path).name = (PurePath.ofString planPath).name

instance (entry : ManifestPlan) (planPath : String) : Decidable (SameName entry planPath) :=
  inferInstanceAs (Decidable (_ = _))

/-- The finding for a plan without entry. -/
def planNotDeclared (planPath : String) : Finding :=
  errorFinding "PLAN_NOT_DECLARED"
    (planPath ++ " is not listed under \x60plans\x60 in the manifest.") manifestName

/-- Where a path leads when no link lies on its way. -/
def placeOf (path : PurePath) : List String := path.parts.foldl step []

section

variable {Place : Type} (locate : PurePath → Place)

/-- An entry of the manifest in a directory is for the plan's file. -/
def Denotes (directory root : PurePath) (planPath : String) (entry : ManifestPlan) : Prop :=
  locate (directory.join entry.path) = locate (root.join planPath)

/-- The plan is checked against an entry for its own file, and where there is none it
is reported as not declared. -/
structure AgainstOwnEntry (rt : Runtime) (files : FileView) (directory root : PurePath)
    (manifest : Manifest) (planPath : String) (summary : PlanSummary) : Prop where
  used : ∀ entry, governingEntry manifest planPath = some entry →
    Denotes locate directory root planPath entry
  undeclared : (∀ entry ∈ manifest.plans, ¬ Denotes locate directory root planPath entry) →
    manifestFindings rt files manifest planPath summary root = .ok [planNotDeclared planPath]

/-- Before each entry of a namesake in another place stands one of the plan's own. -/
def OwnEntryFirst (directory root : PurePath) (manifest : Manifest) (planPath : String) : Prop :=
  ∀ front entry back, manifest.plans = front ++ entry :: back → SameName entry planPath →
    Denotes locate directory root planPath entry ∨
      ∃ earlier ∈ front, SameName earlier planPath ∧ Denotes locate directory root planPath earlier

end

/-- What the first match of a search has. -/
theorem find?_first_iff {α : Type} {p : α → Bool} {q : α → Prop} {xs : List α} :
    (∀ x, xs.find? p = some x → q x) ↔
      ∀ front x back, xs = front ++ x :: back → p x = true →
        q x ∨ ∃ earlier ∈ front, p earlier = true ∧ q earlier := by
  constructor
  · intro first front x back shape matches'
    rw [shape, List.find?_append] at first
    cases found : front.find? p with
    | none =>
        refine Or.inl (first x ?_)
        rw [found, Option.none_or, List.find?_cons_of_pos matches']
    | some earlier =>
        refine Or.inr ⟨earlier, List.mem_of_find?_eq_some found, List.find?_some found, first earlier ?_⟩
        rw [found, Option.some_or]
  · intro ordered x found
    obtain ⟨matches', front, back, shape, before⟩ := List.find?_eq_some_iff_append.mp found
    rcases ordered front x back shape matches' with own | ⟨earlier, member, first, -⟩
    · exact own
    · have other := before earlier member
      rw [first] at other
      cases other

section

variable {Place : Type} {locate : PurePath → Place} {rt : Runtime} {files : FileView}
  {directory root : PurePath} {manifest : Manifest} {planPath : String} {summary : PlanSummary}

theorem governingEntry_iff_first :
    (∀ entry, governingEntry manifest planPath = some entry →
      Denotes locate directory root planPath entry) ↔
      OwnEntryFirst locate directory root manifest planPath := by
  unfold governingEntry OwnEntryFirst SameName
  rw [find?_first_iff]
  simp only [decide_eq_true_eq]

end

/-! ## The entry of a namesake -/

/-- A plan with a manifest beside it, and a plan of the same name further down. -/
def namesakeWorktree : Worktree where
  root := PurePath.ofString "/tmp/plimsoll-git-0/checkout"
  listing :=
    [("login", .directory
      [("plimsoll.yaml", .file []), ("plan.jmx", .file []),
        ("checkout", .directory [("plan.jmx", .file [])])])]
  absolute := passwdWorktree.absolute
  canonical := passwdWorktree.canonical

def namesakeManifest : Manifest where
  version := 1
  plans :=
    [{ path := "checkout/plan.jmx", data := [{ path := "cards.csv", path_length := by decide }]
       path_length := by decide },
      { path := "plan.jmx", path_length := length_planJmx }]

end Plimsoll.Verify
