import Plimsoll.ErrorContract
import Plimsoll.Jmx.Canonical
import Plimsoll.Preflight.Consistency
import Plimsoll.ScriptVersions
import Plimsoll.Verify.Clean
import Plimsoll.Verify.PlanFile

/-!
What verification, pin and preflight each make of the plan that a commit has.

Processes visit sets in orders of their own, so two of them may list the targets of one
plan differently; nothing else differs.
-/

namespace Plimsoll

open Python Jmx Contracts Verify

/-! ## Two processes -/

/-- Two summaries differ at most in the order of their targets. -/
structure Alike (a b : PlanSummaryResponse) : Prop where
  threadGroups : a.threadGroups = b.threadGroups
  transactionControllers : a.transactionControllers = b.transactionControllers
  timers : a.timers = b.timers
  variableNames : a.variableNames = b.variableNames
  dataFiles : a.dataFiles = b.dataFiles
  targets : a.targets.Perm b.targets

section

variable {rt : Runtime}

/-- What two processes make of a text is alike. -/
theorem alike_of_parsePlan {text : String} {sets sets' : SetOrder} {summary other : PlanSummary}
    (parsed : parsePlan (rt.visiting sets) text = .ok summary)
    (parsedOther : parsePlan (rt.visiting sets') text = .ok other) :
    Alike (summaryResponse summary) (summaryResponse other) := by
  rcases parsePlan_visiting rt text with ⟨exc, raises⟩ | ⟨scan, returns⟩
  · rw [raises] at parsed
    cases parsed
  · rw [returns] at parsed parsedOther
    cases parsed
    cases parsedOther
    refine ⟨?_, ?_, ?_, ?_, ?_, ?_⟩
    · exact (sortedSet_eq _ _).trans (sortedSet_eq _ _).symm
    · exact (sortedSet_eq _ _).trans (sortedSet_eq _ _).symm
    · exact (sortedSet_eq _ _).trans (sortedSet_eq _ _).symm
    · exact (sortedSet_eq _ _).trans (sortedSet_eq _ _).symm
    · exact (sortedSet_eq _ _).trans (sortedSet_eq _ _).symm
    · refine List.Perm.map _ ?_
      have one : ∀ sets : SetOrder,
          (sortedBy targetLe (sets.enumerate scan.targets)).Perm scan.targets.dedup :=
        fun sets => (List.perm_insertionSort _ _).trans (sets.perm _)
      exact (one sets).trans (one sets').symm

/-- A text that some process accepts is accepted by all. -/
theorem parsePlan_ok_of_ok {text : String} {sets : SetOrder} {summary : PlanSummary}
    (parsed : parsePlan (rt.visiting sets) text = .ok summary) (sets' : SetOrder) :
    ∃ other, parsePlan (rt.visiting sets') text = .ok other := by
  rcases parsePlan_visiting rt text with ⟨exc, raises⟩ | ⟨scan, returns⟩
  · rw [raises] at parsed
    cases parsed
  · exact ⟨_, returns sets'⟩

theorem parsePlan_error_of_error {text : String} {sets : SetOrder} {exc : Raised}
    (raised : parsePlan (rt.visiting sets) text = .error exc) (sets' : SetOrder) :
    parsePlan (rt.visiting sets') text = .error exc := by
  rcases parsePlan_visiting rt text with ⟨exc', raises⟩ | ⟨scan, returns⟩
  · rw [raises] at raised ⊢
    exact raised
  · rw [returns] at raised
    cases raised

end

namespace ScriptVersions

open Preflight (PlanInput PreflightInput PreflightReport)

/-! ## One checkout -/

/-- What `parse_plan` makes of the plan that a commit has, if it accepts one. -/
def summaryAt (rt : Runtime) (listing : List (String × Posix.Tree)) (planPath : String) :
    Option PlanSummary :=
  (planBytes listing planPath).bind fun content => (parsePlan rt (rt.decode content)).toOption

/-- The plan is accepted, and in every process or in none. -/
theorem summaryAt_isSome (rt : Runtime) (listing : List (String × Posix.Tree)) (planPath : String)
    (sets sets' : SetOrder) : (summaryAt (rt.visiting sets) listing planPath).isSome =
      (summaryAt (rt.visiting sets') listing planPath).isSome := by
  unfold summaryAt
  cases planBytes listing planPath with
  | none => rfl
  | some content =>
      dsimp only [Option.bind_some]
      change (parsePlan _ (rt.decode content)).toOption.isSome =
        (parsePlan _ (rt.decode content)).toOption.isSome
      rcases parsePlan_visiting rt (rt.decode content) with ⟨exc, raises⟩ | ⟨scan, returns⟩
      · rw [raises, raises]
      · rw [returns, returns]
        rfl

theorem alike_of_summaryAt {rt : Runtime} {listing : List (String × Posix.Tree)} {planPath : String}
    {sets sets' : SetOrder} {summary other : PlanSummary}
    (found : summaryAt (rt.visiting sets) listing planPath = some summary)
    (foundOther : summaryAt (rt.visiting sets') listing planPath = some other) :
    Alike (summaryResponse summary) (summaryResponse other) := by
  obtain ⟨content, there, parsed⟩ := Option.bind_eq_some_iff.mp found
  obtain ⟨content', there', parsed'⟩ := Option.bind_eq_some_iff.mp foundOther
  obtain rfl := Option.some.inj (there.symm.trans there')
  exact alike_of_parsePlan (toOption_eq_some_iff.mp parsed) (toOption_eq_some_iff.mp parsed')

section

variable {rt : Runtime} {worktree : Worktree} {planPath : String} {around : Surroundings}

theorem view_errors (rt : Runtime) (fs : Posix.FileSystem) :
    ErrorContract.FileErrors (view rt fs) := by
  intro path exc raised
  unfold view viewOf at raised
  dsimp only at raised
  rcases raised with asked | read
  · split at asked
    · cases asked
    · split at asked
      · cases asked
      · cases asked
        exact Or.inl ⟨_, rfl⟩
      · cases asked
      · cases asked
  · split at read
    · cases read
      exact Or.inr rfl
    · split at read
      · cases read
      · cases read
        exact Or.inl ⟨_, rfl⟩
      · cases read
        exact Or.inl ⟨_, rfl⟩
      · cases read
        exact Or.inl ⟨_, rfl⟩

/-- What a call does with the plan, where it is and where it is not. -/
structure Seen (rt : Runtime) (checkout : Checkout) (planPath : String)
    (content : Option (List UInt8)) : Prop where
  there : ∀ bytes, content = some bytes →
    checkout.files.isFile (checkout.root.join planPath) = .ok true ∧
      checkout.files.readBytes (checkout.root.join planPath) = .ok bytes ∧
      checkout.files.readText rt (checkout.root.join planPath) = .ok (rt.decode bytes)
  absent : content = none →
    checkout.files.isFile (checkout.root.join planPath) = .ok false ∧
      ∃ exc, checkout.files.readText rt (checkout.root.join planPath) = .error exc ∧
        ((∃ message, exc = .osError message) ∨ exc = .valueError)

variable (rt around) in
theorem seen (plainRoot : hasNull worktree.root = false) (relative : startsWith planPath "/" = false)
    (noParent : ".." ∉ split planPath '/') :
    Seen rt (worktree.checkoutOn rt around) planPath (planBytes worktree.listing planPath) where
  there bytes found := by
    obtain ⟨asked, read⟩ := view_of_planBytes (around worktree) plainRoot relative noParent
      found
    refine ⟨asked, read, ?_⟩
    change ((view rt _).readBytes (worktree.root.join planPath)).map rt.decode = _
    rw [read]
    rfl
  absent missing := by
    obtain ⟨asked, exc, read, kind⟩ := view_of_no_planBytes (around worktree) plainRoot
      relative noParent missing
    refine ⟨asked, exc, ?_, kind⟩
    change ((view rt _).readBytes (worktree.root.join planPath)).map rt.decode = _
    rw [read]
    rfl

variable {checkout : Checkout} {listing : List (String × Posix.Tree)} {sha ref : String}

/-- A report names the commit, and the plan that the commit has. -/
theorem inspect_plan (seen : Seen rt checkout planPath (planBytes listing planPath))
    {resolution : RefResolution} {verified : VerifyReport}
    (ran : inspect rt checkout resolution planPath ref = .ok verified) :
    verified.commitSha = some resolution.sha ∧
      verified.plan = (summaryAt rt listing planPath).map summaryResponse := by
  unfold inspect at ran
  obtain ⟨reading, read, ran⟩ := of_bind_eq_ok ran
  obtain ⟨compared, -, ran⟩ := of_bind_eq_ok ran
  cases ran
  refine ⟨rfl, ?_⟩
  change reading.summary.map summaryResponse = _
  refine congrArg (Option.map summaryResponse) ?_
  unfold readCheckout at read
  obtain ⟨present, asked, read⟩ := of_bind_eq_ok read
  unfold summaryAt
  cases content : planBytes listing planPath with
  | none =>
      rw [(seen.absent content).1] at asked
      cases asked
      cases read
      rfl
  | some bytes =>
      obtain ⟨isFile, -, text⟩ := seen.there bytes content
      rw [isFile] at asked
      cases asked
      obtain ⟨plan, first, read⟩ := of_bind_eq_ok read
      obtain ⟨manifest, second, read⟩ := of_bind_eq_ok read
      cases read
      rw [readPlan, text] at first
      dsimp only [Except.bind] at first
      change plan.2 = (parsePlan rt (rt.decode bytes)).toOption
      split at first
      · rename_i summary parsed
        cases first
        rw [parsed]
        rfl
      · rename_i message parsed
        cases first
        rw [parsed]
        rfl
      · cases first

variable (sha) in
/-- A pin is made of the plan that the commit has. -/
theorem candidate_of_summaryAt (seen : Seen rt checkout planPath (planBytes listing planPath))
    {summary : PlanSummary} (found : summaryAt rt listing planPath = some summary) :
    ∃ checksum, candidate rt checkout sha planPath = .ok { sha, checksum, summary } := by
  obtain ⟨bytes, there, parsed⟩ := Option.bind_eq_some_iff.mp found
  obtain ⟨isFile, read, text⟩ := seen.there bytes there
  refine ⟨rt.sha256 bytes, ?_⟩
  have bound : (Except.ok (rt.decode bytes)).bind (parsePlan rt) = parsePlan rt (rt.decode bytes) :=
    rfl
  unfold candidate
  dsimp only
  rw [isFile, read, text, bound, toOption_eq_some_iff.mp parsed]
  rfl

variable (sha) in
/-- Without a plan that parses a pin is refused. -/
theorem candidate_of_no_summaryAt (seen : Seen rt checkout planPath (planBytes listing planPath))
    (contract : ∀ bytes, planBytes listing planPath = some bytes →
      ErrorContract.PlanContract (parsePlan rt (rt.decode bytes)))
    (missing : summaryAt rt listing planPath = none) :
    ∃ error, candidate rt checkout sha planPath = .error (.plimsollError error) ∧
      error.code = .validationFailed := by
  unfold candidate
  dsimp only
  cases content : planBytes listing planPath with
  | none =>
      rw [(seen.absent content).1]
      exact ⟨_, rfl, rfl⟩
  | some bytes =>
      obtain ⟨isFile, read, text⟩ := seen.there bytes content
      have bound : (Except.ok (rt.decode bytes)).bind (parsePlan rt) = parsePlan rt (rt.decode bytes) :=
        rfl
      rw [isFile, read, text, bound]
      rcases contract bytes content with ⟨summary, parsed⟩ | ⟨message, parsed⟩
      · rw [summaryAt, content, Option.bind_some, parsed] at missing
        cases missing
      · rw [parsed]
        exact ⟨_, rfl, rfl⟩

end
/-! ## Preflight of one plan -/

section

variable {rt : Runtime} {W : Type} {git : Git W} {inputs : PreflightInput} {plan : PlanInput}
  {sha : String} {w w₁ : W}

theorem resolveRefs_single (resolved : git.resolveRef plan.access plan.ref w = (.ok { sha }, w₁)) :
    Preflight.resolveRefs git [plan] w = (.ok [.ok sha], w₁) := by
  simp [Preflight.resolveRefs, Action.forEach, Action.bind_apply, Preflight.resolvePlan, resolved]

theorem get?_resolvedByName_single :
    (Preflight.resolvedByName [(plan, .ok sha)]).get? plan.repoName = some sha :=
  Dict.get?_set_self _ _ _

/-- A preflight of one plan passes `PLAN_PARSES` when the plan is read. -/
theorem run_single_ok (single : inputs.plans = [plan])
    (resolved : git.resolveRef plan.access plan.ref w = (.ok { sha }, w₁)) {summary : PlanSummary}
    {w₂ : W} (read : Preflight.readPlan rt git plan sha w₁ = (.ok summary, w₂)) :
    ∃ report w', Preflight.run rt git inputs w = (.ok report, w') ∧
      report.status "PLAN_PARSES" = some .pass := by
  have readings : Preflight.readPlans rt git (Preflight.resolvedByName ([plan].zip [.ok sha])) [plan] w₁ =
      (.ok [some ⟨sha, .ok summary⟩], w₂) := by
    simp [Preflight.readPlans, Action.forEach, Action.bind_apply, Preflight.readResolved,
      get?_resolvedByName_single, read]
  refine ⟨Preflight.report rt inputs [.ok sha] [some ⟨sha, .ok summary⟩], w₂, ?_, ?_⟩
  · rw [Preflight.run, single, resolveRefs_single resolved]
    dsimp only
    rw [readings]
  · rw [Preflight.status_planParses, Option.some.injEq, Preflight.planParsesCheck_pass_iff,
      Preflight.refsUnresolved, Preflight.plansUnread, single]
    exact ⟨rfl, rfl⟩

/-- It does not when the plan is not read. -/
theorem run_single_error (single : inputs.plans = [plan])
    (resolved : git.resolveRef plan.access plan.ref w = (.ok { sha }, w₁)) {exc : Raised} {w₂ : W}
    (raised : Preflight.readPlan rt git plan sha w₁ = (.error exc, w₂)) {report : PreflightReport}
    {w' : W} (ran : Preflight.run rt git inputs w = (.ok report, w')) :
    report.status "PLAN_PARSES" ≠ some .pass := by
  rw [Preflight.run, single, resolveRefs_single resolved] at ran
  dsimp only at ran
  cases text : Preflight.caught exc with
  | none =>
      have readings : Preflight.readPlans rt git (Preflight.resolvedByName ([plan].zip [.ok sha])) [plan] w₁ =
          (.error exc, w₂) := by
        simp [Preflight.readPlans, Action.forEach, Action.bind_apply, Preflight.readResolved,
          get?_resolvedByName_single, raised, text]
      rw [readings] at ran
      cases ran
  | some message =>
      have readings : Preflight.readPlans rt git (Preflight.resolvedByName ([plan].zip [.ok sha])) [plan] w₁ =
          (.ok [some ⟨sha, .error message⟩], w₂) := by
        simp [Preflight.readPlans, Action.forEach, Action.bind_apply, Preflight.readResolved,
          get?_resolvedByName_single, raised, text]
      rw [readings] at ran
      cases ran
      rw [Preflight.status_planParses, ne_eq, Option.some.injEq, Preflight.planParsesCheck_pass_iff,
        Preflight.plansUnread, single]
      rintro ⟨-, empty⟩
      cases empty

end

end ScriptVersions

end Plimsoll
