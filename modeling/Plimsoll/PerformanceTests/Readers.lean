import Plimsoll.PerformanceTests.NoLostUpdate

/-!
A reader beside updates of the same test.

`require` reads the row, the plans and the rules in three statements, each of which
sees what is committed when it runs. An update that is committed between two of them
can have its plans or its rules read with the row of an earlier version.
-/

namespace Plimsoll.PerformanceTests

open Python Contracts Transaction
open Database (Setting Statement)

variable {org testId : Uuid}

/-! ## The claim and the condition -/

/-- A request to read. -/
def Job.reads : Job org → Bool
  | .read _ => true
  | _ => false

/-- What every reader has been answered with is the document of one committed state. -/
def OneVersion (d₀ : Database) (e : Environment) (s : TestServer org testId) : Prop :=
  ∀ r ∈ s.returned, Job.reads r.1 = true →
    ∃ (s₁ : TestServer org testId) (row : PerformanceTest),
      Sql.Server.Run (Proper org testId d₀) { committed := d₀, environment := e } s₁ ∧
      Sql.Server.Run (Proper org testId d₀) s₁ s ∧
      s₁.committed.tests.get? testId = some row ∧ r.2 = some (documentIn org s₁.committed row)

/-- A reader has read the row, and not yet the plans. -/
def awaitsPlans (session : Sql.Session (requests org testId)) : Bool :=
  Job.reads session.job &&
    match session.program with
    | .execute (Statement.plansFor _) _ => true
    | _ => false

/-- A reader has read the row and the plans, and not yet the rules. -/
def awaitsRules (session : Sql.Session (requests org testId)) : Bool :=
  Job.reads session.job &&
    match session.program with
    | .execute (Statement.rulesFor _) _ => true
    | _ => false

/-- No update is committed that replaces plans or rules between a reader's look at the
row and its look at them. -/
def Undisturbed (s : TestServer org testId) : Sql.Event (requests org testId) → Prop
  | .commit i => ∀ writer ∈ s.sessions i, ∀ body ∈ Job.body? writer.job,
      ∀ j, ∀ reader ∈ s.sessions j,
        (awaitsPlans reader = true → value? body.plans = none ∧ value? body.slaRules = none) ∧
        (awaitsRules reader = true → value? body.slaRules = none)
  | _ => True

/-! ## Where a reader stands -/

/-- The rest of a read behind its plans. -/
def afterPlans (row : PerformanceTest) (plans : List TestPlanSpec) :
    Transaction (Option TestDocument) :=
  .execute (Statement.rulesFor row.id) fun slaRules => pure (some ⟨row, plans, slaRules⟩)

/-- The rest of a read behind its row. -/
def afterRow (row : PerformanceTest) : Transaction (Option TestDocument) :=
  .execute (Statement.plansFor row.id) fun plans => afterPlans row plans

/-- The rest of a read behind its first statement. -/
def afterGet : Option PerformanceTest → Transaction (Option TestDocument)
  | none => ScriptRepos.refuse .notFound "No such performance test."
  | some row => afterRow row

theorem read_body (member : Member org) :
    Job.body testId (.read member) = .execute (Statement.getTest testId) afterGet := by
  refine congrArg (Sql.Program.execute (I := postgres) (Statement.getTest testId))
    (funext fun found => ?_)
  cases found with
  | none => rfl
  | some row => rfl

/-- A state that the run has gone through, and the row of the test in it. -/
structure Seen (d₀ : Database) (e : Environment) (s s₁ : TestServer org testId)
    (row : PerformanceTest) : Prop where
  before : Sql.Server.Run (Proper org testId d₀) { committed := d₀, environment := e } s₁
  after : Sql.Server.Run (Proper org testId d₀) s₁ s
  found : s₁.committed.tests.get? testId = some row
  named : row.id = testId

/-- Where a reader stands, by what it has yet to do: what it has read belongs to a state
`s₁`, and so does what it is about to read. -/
inductive Stage (d₀ : Database) (e : Environment) (s : TestServer org testId) :
    Transaction (Option TestDocument) → Prop
  | starting : Stage d₀ e s (.execute (Statement.getTest testId) afterGet)
  | hasRow {s₁ : TestServer org testId} {row : PerformanceTest} (seen : Seen d₀ e s s₁ row)
      (plans : planSpecs org testId s.committed.plans = planSpecs org testId s₁.committed.plans)
      (rules : ruleSpecs org testId s.committed.rules = ruleSpecs org testId s₁.committed.rules) :
      Stage d₀ e s (afterRow row)
  | hasPlans {s₁ : TestServer org testId} {row : PerformanceTest} (seen : Seen d₀ e s s₁ row)
      (rules : ruleSpecs org testId s.committed.rules = ruleSpecs org testId s₁.committed.rules) :
      Stage d₀ e s (afterPlans row (documentIn org s₁.committed row).plans)
  | done {s₁ : TestServer org testId} {row : PerformanceTest} (seen : Seen d₀ e s s₁ row) :
      Stage d₀ e s (.finished (.ok (some (documentIn org s₁.committed row))))
  | failed {exc : Raised} : Stage d₀ e s (.finished (.error exc))

/-- A session that reads has written nothing, and what it has read is of one state. -/
structure ReaderStands (d₀ : Database) (e : Environment) (s : TestServer org testId)
    (session : Sql.Session (requests org testId)) : Prop where
  silent : session.pending = []
  bound : session.setting.org = some org
  stage : Stage d₀ e s session.program

/-- All readers stand so, and those that returned have read one version. -/
structure ReadersStand (d₀ : Database) (e : Environment) (s : TestServer org testId) : Prop where
  reached : Sql.Server.Run (Proper org testId d₀) { committed := d₀, environment := e } s
  readers : ∀ i session, s.sessions i = some session → Job.reads session.job = true →
    ReaderStands d₀ e s session
  returned : OneVersion d₀ e s

variable {d₀ : Database} {e : Environment} {s s' s₁ : TestServer org testId}

/-! ## Steps -/

theorem Seen.step {row : PerformanceTest} (seen : Seen d₀ e s s₁ row)
    {event : Sql.Event (requests org testId)} (met : Proper org testId d₀ s event)
    (stepped : s.step event = some s') : Seen d₀ e s' s₁ row :=
  { seen with after := seen.after.step met stepped }

/-- A reader stands where it stood when a step leaves the plans and rules alone that it
has yet to read. -/
theorem ReaderStands.frame {session : Sql.Session (requests org testId)}
    (stands : ReaderStands d₀ e s session) {event : Sql.Event (requests org testId)}
    (met : Proper org testId d₀ s event) (stepped : s.step event = some s')
    (plans : (∃ row, session.program = afterRow row) →
      planSpecs org testId s'.committed.plans = planSpecs org testId s.committed.plans)
    (rules : ((∃ row, session.program = afterRow row) ∨
      ∃ row specs, session.program = afterPlans row specs) →
      ruleSpecs org testId s'.committed.rules = ruleSpecs org testId s.committed.rules) :
    ReaderStands d₀ e s' session := by
  refine { stands with stage := ?_ }
  have stage := stands.stage
  generalize session.program = program at stage plans rules
  cases stage with
  | starting => exact .starting
  | hasRow seen samePlans sameRules =>
      exact .hasRow (seen.step met stepped) ((plans ⟨_, rfl⟩).trans samePlans)
        ((rules (Or.inl ⟨_, rfl⟩)).trans sameRules)
  | hasPlans seen sameRules =>
      exact .hasPlans (seen.step met stepped) ((rules (Or.inr ⟨_, _, rfl⟩)).trans sameRules)
  | done seen => exact .done (seen.step met stepped)
  | failed => exact .failed

theorem OneVersion.step (one : OneVersion d₀ e s) {event : Sql.Event (requests org testId)}
    (met : Proper org testId d₀ s event) (stepped : s.step event = some s')
    {r : Job org × Option TestDocument} (member : r ∈ s.returned) (reads : r.1.reads = true) :
    ∃ (s₁ : TestServer org testId) (row : PerformanceTest),
      Sql.Server.Run (Proper org testId d₀) { committed := d₀, environment := e } s₁ ∧
      Sql.Server.Run (Proper org testId d₀) s₁ s' ∧
      s₁.committed.tests.get? testId = some row ∧ r.2 = some (documentIn org s₁.committed row) := by
  obtain ⟨s₁, row, before, after, found, same⟩ := one r member reads
  exact ⟨s₁, row, before, after.step met stepped, found, same⟩

/-- The next request of a reader. -/
theorem ReaderStands.advance {session : Sql.Session (requests org testId)} {st : Statement}
    {next : st.Answer → Transaction (Option TestDocument)} (stands : ReaderStands d₀ e s session)
    (sound : Sound org testId s.committed) (reached : Sql.Server.Run (Proper org testId d₀)
      { committed := d₀, environment := e } s)
    (shape : session.program = .execute st next) :
    (Database.execute st session.setting s.committed).2 = [] ∧
      Database.rebind st session.setting = session.setting ∧
      Stage d₀ e s (next (Database.execute st session.setting s.committed).1) := by
  have stage := stands.stage
  rw [shape] at stage
  cases stage with
  | starting =>
      refine ⟨rfl, rfl, ?_⟩
      obtain ⟨row, -, found, named, owner, -⟩ := sound.row
      have answered : (Database.execute (.getTest testId) session.setting s.committed).1 = some row :=
        Database.byKey_eq stands.bound found owner
      rw [answered]
      exact .hasRow ⟨reached, .refl, found, named⟩ rfl rfl
  | @hasRow s₁ row seen plans rules =>
      refine ⟨rfl, rfl, ?_⟩
      have answered : (Database.execute (.plansFor row.id) session.setting s.committed).1 =
          (documentIn org s₁.committed row).plans := by
        rw [plansFor_eq stands.bound, documentIn, seen.named, plans]
      rw [answered]
      exact .hasPlans seen rules
  | @hasPlans s₁ row seen rules =>
      refine ⟨rfl, rfl, ?_⟩
      have answered : (Database.execute (.rulesFor row.id) session.setting s.committed).1 =
          (documentIn org s₁.committed row).slaRules := by
        rw [rulesFor_eq stands.bound, documentIn, seen.named, rules]
      rw [answered]
      exact .done seen

section

variable {job : Job org} {answer : Option TestDocument} {d d' : Database}

theorem Effect.plans_same (effect : Effect org testId job answer d d')
    (kept : ∀ body ∈ job.body?, value? body.plans = none) : d'.plans = d.plans := by
  cases effect with
  | archived _ => rfl
  | archive _ _ _ => rfl
  | read => rfl
  | @update _ _ body _ _ _ _ _ _ _ _ plansAfter _ _ =>
      rw [PlansAfter, kept body rfl] at plansAfter
      exact plansAfter

theorem Effect.rules_same (effect : Effect org testId job answer d d')
    (kept : ∀ body ∈ job.body?, value? body.slaRules = none) : d'.rules = d.rules := by
  cases effect with
  | archived _ => rfl
  | archive _ _ _ => rfl
  | read => rfl
  | @update _ _ body _ _ _ _ _ _ _ _ _ rulesAfter _ =>
      rw [RulesAfter, kept body rfl] at rulesAfter
      exact rulesAfter

end

/-- A step that commits nothing and changes one session. -/
theorem ReadersStand.put (stand : ReadersStand d₀ e s) {event : Sql.Event (requests org testId)}
    (met : Proper org testId d₀ s event) (stepped : s.step event = some s') (i : Nat)
    (committed : s'.committed = s.committed) (returned : s'.returned = s.returned)
    (others : ∀ j, j ≠ i → s'.sessions j = s.sessions j)
    (own : ∀ session, s'.sessions i = some session → Job.reads session.job = true →
      ReaderStands d₀ e s session) : ReadersStand d₀ e s' where
  reached := stand.reached.step met stepped
  returned := by
    intro r member reads
    rw [returned] at member
    exact stand.returned.step met stepped member reads
  readers := by
    intro j session found reads
    have before : ReaderStands d₀ e s session := by
      by_cases same : j = i
      · subst same
        exact own session found reads
      · rw [others j same] at found
        exact stand.readers j session found reads
    refine before.frame met stepped ?_ ?_
    · intro _
      rw [committed]
    · intro _
      rw [committed]

theorem ReadersStand.commit {sound : Sound org testId d₀} (inv : (discipline sound).Invariant s)
    (stand : ReadersStand d₀ e s) {i : Nat} {writer : Sql.Session (requests org testId)}
    {answer : Option TestDocument} (found : s.sessions i = some writer)
    (shape : writer.program = .finished (.ok answer))
    (undisturbed : Undisturbed s (.commit i))
    (stepped : s.step (.commit i) = some (s.committing i writer answer)) :
    ReadersStand d₀ e (s.committing i writer answer) where
  reached := stand.reached.step (show Proper org testId d₀ s (.commit i) from trivial) stepped
  returned := by
    intro r member reads
    rcases List.mem_append.mp member with before | here
    · exact stand.returned.step (show Proper org testId d₀ s (.commit i) from trivial) stepped before
        reads
    · obtain rfl := List.mem_singleton.mp here
      have stage := (stand.readers i writer found reads).stage
      rw [shape] at stage
      cases stage with
      | done seen =>
          have later := seen.step (show Proper org testId d₀ s (.commit i) from trivial) stepped
          exact ⟨_, _, later.before, later.after, later.found, rfl⟩
  readers := by
    intro j reader at_ reads
    have differs : j ≠ i := by
      intro same
      subst same
      simp [Sql.Server.committing, Sql.Server.close] at at_
    have there : s.sessions j = some reader := by
      simpa [Sql.Server.committing, Sql.Server.close, differs] using at_
    have stands := stand.readers j reader there reads
    have made : Effect org testId writer.job answer s.committed (s.view writer) :=
      inv.made found shape
    refine stands.frame (show Proper org testId d₀ s (.commit i) from trivial) stepped ?_ ?_
    · rintro ⟨row, program⟩
      have waits : awaitsPlans reader = true := by
        rw [awaitsPlans, reads, program]
        rfl
      change planSpecs org testId (s.view writer).plans = _
      rw [made.plans_same fun body has => ((undisturbed writer found body has j reader there).1 waits).1]
    · intro program
      change ruleSpecs org testId (s.view writer).rules = _
      rw [made.rules_same fun body has => ?_]
      obtain ⟨first, second⟩ := undisturbed writer found body has j reader there
      rcases program with ⟨row, program⟩ | ⟨row, specs, program⟩
      · refine (first ?_).2
        rw [awaitsPlans, reads, program]
        rfl
      · refine second ?_
        rw [awaitsRules, reads, program]
        rfl

theorem ReadersStand.step {sound : Sound org testId d₀} (inv : (discipline sound).Invariant s)
    (stand : ReadersStand d₀ e s) {event : Sql.Event (requests org testId)}
    (met : Proper org testId d₀ s event ∧ Undisturbed s event) (stepped : s.step event = some s') :
    ReadersStand d₀ e s' := by
  obtain ⟨proper, undisturbed⟩ := met
  have same := stepped
  cases event with
  | start i job =>
      obtain ⟨-, rfl⟩ := Sql.Server.step_start stepped
      refine stand.put proper stepped i rfl rfl ?_ ?_
      · intro j differs
        exact Function.update_of_ne differs _ _
      · intro session at_ reads
        obtain rfl : _ = session := by simpa [Sql.Server.begun, Sql.Server.put] using at_
        cases job with
        | update member body => cases reads
        | archive member => cases reads
        | read member =>
            refine ⟨rfl, congrArg some member.ofOrganization, ?_⟩
            change Stage d₀ e s (Job.body testId (.read member))
            rw [read_body]
            exact .starting
  | advance i =>
      obtain ⟨session, found, ⟨q, next, shape, rfl⟩ | ⟨st, next, shape, -, rfl⟩⟩ :=
        Sql.Server.step_advance stepped
      · refine stand.put proper stepped i rfl rfl ?_ ?_
        · intro j differs
          exact Function.update_of_ne differs _ _
        · intro session' at_ reads
          obtain rfl : _ = session' := by simpa [Sql.Server.asked, Sql.Server.put] using at_
          have stage := (stand.readers i session found reads).stage
          rw [shape] at stage
          cases stage
      · refine stand.put proper stepped i rfl rfl ?_ ?_
        · intro j differs
          exact Function.update_of_ne differs _ _
        · intro session' at_ reads
          obtain rfl : _ = session' := by simpa [Sql.Server.executed, Sql.Server.put] using at_
          have stands := stand.readers i session found reads
          have sound' := (Sql.Discipline.evolves_of_history inv.history).sound sound
          obtain ⟨silent, same, stage⟩ := stands.advance sound' stand.reached shape
          have view : s.view session = s.committed := by
            rw [Sql.Server.view, stands.silent, Sql.Interface.applyAll_nil]
          refine ⟨?_, ?_, ?_⟩
          · simp only [view, stands.silent, List.nil_append]
            exact silent
          · change (Database.rebind st session.setting).org = some org
            rw [same]
            exact stands.bound
          · simp only [view]
            exact stage
  | commit i =>
      obtain ⟨writer, answer, found, shape, rfl⟩ := Sql.Server.step_commit stepped
      exact stand.commit inv found shape undisturbed stepped
  | rollback i =>
      obtain rfl := Sql.Server.step_rollback stepped
      refine stand.put proper stepped i rfl rfl ?_ ?_
      · intro j differs
        exact Function.update_of_ne differs _ _
      · intro session at_
        simp [Sql.Server.close] at at_

/-- Readers between whose statements no update replaces what they have yet to read are
answered with the document of one committed version. -/
theorem oneVersion_of_undisturbed (sound : Sound org testId d₀)
    (run : Sql.Server.Run (fun s event => Proper org testId d₀ s event ∧ Undisturbed s event)
      { committed := d₀, environment := e } s) :
    OneVersion d₀ e s := by
  have both : (discipline sound).Invariant s ∧ ReadersStand d₀ e s := by
    refine run.invariant (P := fun s => (discipline sound).Invariant s ∧ ReadersStand d₀ e s)
      ⟨⟨?_, .nil⟩, ⟨.refl, ?_, ?_⟩⟩ ?_
    · intro i session at_
      cases at_
    · intro i session at_
      cases at_
    · intro r member
      cases member
    · intro s₁ s₂ event both met stepped
      obtain ⟨inv, stand⟩ := both
      exact ⟨inv.step (condition_of_proper sound s₁ event met.1) stepped, stand.step inv met stepped⟩
  exact both.2.returned

/-! ## One update beside a reader -/

/-- Updates that are committed replace neither plans nor rules. -/
def Gentle (s : TestServer 1 5) : Sql.Event (requests 1 5) → Prop
  | .commit i => ∀ writer ∈ s.sessions i, ∀ body ∈ Job.body? writer.job,
      value? body.plans = none ∧ value? body.slaRules = none
  | _ => True

instance (s : TestServer 1 5) (e : Sql.Event (requests 1 5)) : Decidable (Gentle s e) :=
  match e with
  | .commit _ => inferInstanceAs (Decidable (∀ writer ∈ _, ∀ body ∈ _, _ ∧ _))
  | .start _ _ => inferInstanceAs (Decidable True)
  | .advance _ => inferInstanceAs (Decidable True)
  | .rollback _ => inferInstanceAs (Decidable True)

theorem undisturbed_of_gentle (s : TestServer 1 5) (e : Sql.Event (requests 1 5))
    (gentle : Gentle s e) : Undisturbed s e := by
  cases e with
  | start i job => trivial
  | advance i => trivial
  | rollback i => trivial
  | commit i =>
      intro writer found body has j reader at_
      obtain ⟨plans, rules⟩ := gentle writer found body has
      exact ⟨fun _ => ⟨plans, rules⟩, fun _ => rules⟩

/-- An update goes by when a reader has read the row. -/
def between (update : Job 1) (steps : Nat) : List (Sql.Event (requests 1 5)) :=
  [.start 0 (.read sampleMember), .advance 0, .start 1 update] ++
    List.replicate steps (.advance 1) ++ [.commit 1, .advance 0, .advance 0, .commit 0]

theorem oneVersion_renamed : ∃ s : TestServer 1 5,
    OneVersion sampleDatabase sampleServer.environment s ∧ s.returned.length = 2 := by
  cases ended : sampleServer.events (fun s e => Sample s e ∧ Gentle s e)
      (between sampleUpdates.2 8) with
  | none =>
      have some_ : (sampleServer.events (fun s e => Sample s e ∧ Gentle s e)
        (between sampleUpdates.2 8)).isSome = true := by decide +kernel
      rw [ended] at some_
      cases some_
  | some s =>
      refine ⟨s, oneVersion_of_undisturbed sampleDatabase_sound
        ((Sql.Server.run_of_events .refl ended).mono ?_), ?_⟩
      · exact fun s e met => ⟨proper_of_sample s e met.1, undisturbed_of_gentle s e met.2⟩
      · have answers : (sampleServer.events (fun s e => Sample s e ∧ Gentle s e)
          (between sampleUpdates.2 8)).map (fun s => s.returned.length) = some 2 := by
          decide +kernel
        rw [ended] at answers
        exact Option.some.inj answers

/-- The number of plans that a reader of version 1 was answered with. -/
def plansOfFirst (s : TestServer 1 5) : List Nat :=
  s.returned.filterMap fun r =>
    if Job.reads r.1 then
      r.2.bind fun document =>
        if document.row.version = 1 then some document.plans.length else none
    else none

/-- In every run the document of version 1 has the one plan that it was created with. -/
theorem one_plan {s : TestServer 1 5} {e : Environment} {row : PerformanceTest}
    (run : Sql.Server.Run (Proper 1 5 sampleDatabase)
      { committed := sampleDatabase, environment := e } s)
    (found : s.committed.tests.get? 5 = some row) (first : row.version = 1) :
    (documentIn 1 s.committed row).plans.length = 1 := by
  obtain ⟨row₀, row', trail, found₀, law⟩ := law_of_run sampleDatabase_sound run
  rw [law.found] at found
  obtain rfl := Option.some.inj found
  obtain rfl : sampleTest = row₀ := Option.some.inj found₀
  have none_ : updates s.returned = [] := by
    have version := law.version
    rw [first] at version
    change (1 : Int) = 1 + _ at version
    exact List.length_eq_zero_iff.mp (by omega)
  have plans := congrArg (fun document => Multiset.card document.plans) law.document
  rw [none_] at plans
  rw [documentIn, sortedBy, List.length_insertionSort]
  exact plans

theorem update_between_mixes : ∃ s : TestServer 1 5,
    Sql.Server.Run (Proper 1 5 sampleDatabase)
      { committed := sampleDatabase, environment := sampleServer.environment } s ∧
    ¬ OneVersion sampleDatabase sampleServer.environment s := by
  cases ended : sampleServer.events Sample (between sampleUpdates.1 16) with
  | none =>
      have some_ : (sampleServer.events Sample (between sampleUpdates.1 16)).isSome = true := by
        decide +kernel
      rw [ended] at some_
      cases some_
  | some s =>
      refine ⟨s, (Sql.Server.run_of_events .refl ended).mono proper_of_sample, ?_⟩
      intro one
      have two : (sampleServer.events Sample (between sampleUpdates.1 16)).map plansOfFirst =
          some [2] := by decide +kernel
      rw [ended] at two
      have two' : 2 ∈ plansOfFirst s := by
        rw [show plansOfFirst s = [2] from Option.some.inj two]
        exact List.mem_singleton_self _
      obtain ⟨r, member, answered⟩ := List.mem_filterMap.mp two'
      split at answered
      · rename_i reads
        obtain ⟨s₁, row, before, -, found, same⟩ := one r member reads
        rw [same, Option.bind_some] at answered
        split at answered
        · rename_i first
          have length := one_plan before found first
          rw [length] at answered
          cases answered
        · cases answered
      · cases answered

end Plimsoll.PerformanceTests
