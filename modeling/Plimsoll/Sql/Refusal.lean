import Plimsoll.Sql.ReadCommitted

/-!
Answers that a program cannot go on with, and the steps of a run.

A session whose program has raised an exception can only be rolled back, so nothing
of it is ever committed.
-/

namespace Sql

variable {I : Interface} {ε α β : Type}

/-! ## Programs -/

/-- Where the answer to a statement stops the program, it raises what is said of the
statement. -/
def Program.Refuses (stops : (s : I.Statement) → I.Answer s → Prop) (raised : I.Statement → ε → Prop) :
    Program I ε α → Prop
  | .finished _ => True
  | .execute s next =>
      (∀ answer, stops s answer → ∃ exc, next answer = .finished (.error exc) ∧ raised s exc) ∧
        ∀ answer, (next answer).Refuses stops raised
  | .ask _ next => ∀ r, (next r).Refuses stops raised

namespace Program

variable {stops : (s : I.Statement) → I.Answer s → Prop} {raised : I.Statement → ε → Prop}

theorem Refuses.bind {p : Program I ε α} {f : α → Program I ε β} (first : p.Refuses stops raised)
    (rest : ∀ a, (f a).Refuses stops raised) : (p >>= f).Refuses stops raised := by
  induction p with
  | finished outcome =>
      cases outcome with
      | ok a => exact rest a
      | error exc => trivial
  | execute s next ih =>
      refine ⟨fun answer stopped => ?_, fun answer => ih answer (first.2 answer)⟩
      obtain ⟨exc, finished, said⟩ := first.1 answer stopped
      refine ⟨exc, ?_, said⟩
      change (next answer).bind f = _
      rw [finished]
      rfl
  | ask q next ih => exact fun r => ih r (first r)

/-- Where no answer stops a program, it need not raise anything. -/
theorem refuses_of_never (never : ∀ s answer, ¬ stops s answer) (p : Program I ε α) :
    p.Refuses stops raised := by
  induction p with
  | finished outcome => trivial
  | execute s next ih => exact ⟨fun answer stopped => absurd stopped (never s answer), ih⟩
  | ask q next ih => exact ih

end Program

/-! ## Steps -/

/-- A step of a run. -/
structure Step {I : Interface} {ε α : Type} (sys : System I ε α) where
  before : Server sys
  event : Event sys
  after : Server sys

namespace Server

variable {sys : System I ε α} {s s' : Server sys} {i : Nat} {exc : ε}

/-- A run with its steps, in order. -/
inductive Trace (s : Server sys) : List (Step sys) → Server sys → Prop
  | refl : Trace s [] s
  | step {steps : List (Step sys)} {s₁ s₂ : Server sys} {e : Event sys} : Trace s steps s₁ →
      s₁.step e = some s₂ → Trace s (steps ++ [⟨s₁, e, s₂⟩]) s₂

/-- What every step keeps holds before each step of a run. -/
theorem Trace.invariant {P : Server sys → Prop} {steps : List (Step sys)}
    (trace : Trace s steps s') (first : P s)
    (keeps : ∀ s₁ s₂ e, P s₁ → s₁.step e = some s₂ → P s₂) :
    P s' ∧ ∀ t ∈ steps, P t.before ∧ t.before.step t.event = some t.after := by
  induction trace with
  | refl => exact ⟨first, fun _ impossible => (nomatch impossible)⟩
  | step _ stepped ih =>
      refine ⟨keeps _ _ _ ih.1 stepped, fun t member => ?_⟩
      rcases List.mem_append.mp member with earlier | here
      · exact ih.2 t earlier
      · obtain rfl := List.mem_singleton.mp here
        exact ⟨ih.1, stepped⟩

/-- Events that can happen are the steps of a run, each as its condition says. -/
theorem trace_of_events {condition : Server sys → Event sys → Prop}
    [∀ s e, Decidable (condition s e)] {s₀ : Server sys} :
    ∀ {es : List (Event sys)} {steps : List (Step sys)} {s s' : Server sys}, Trace s₀ steps s →
      (∀ t ∈ steps, condition t.before t.event) → s.events condition es = some s' →
        ∃ steps, Trace s₀ steps s' ∧ ∀ t ∈ steps, condition t.before t.event := by
  intro es
  induction es with
  | nil =>
      intro steps s s' trace met ended
      obtain rfl := Option.some.inj ended
      exact ⟨steps, trace, met⟩
  | cons e rest ih =>
      intro steps s s' trace met ended
      rw [events] at ended
      split at ended
      · rename_i here
        cases stepped : s.step e with
        | none => simp [stepped] at ended
        | some s₁ =>
            simp only [stepped] at ended
            refine ih (trace.step stepped) (fun t member => ?_) ended
            rcases List.mem_append.mp member with earlier | last
            · exact met t earlier
            · obtain rfl := List.mem_singleton.mp last
              exact here
      · cases ended

/-! ### Exceptions -/

/-- The program of a session has raised an exception. -/
def HasRaised (s : Server sys) (i : Nat) (exc : ε) : Prop :=
  ∃ session, s.sessions i = some session ∧ session.program = .finished (.error exc)

/-- Such a session does not commit. -/
theorem HasRaised.commit (raised : s.HasRaised i exc) : s.step (.commit i) = none := by
  obtain ⟨session, found, shape⟩ := raised
  rw [step]
  simp only [found, shape]

/-- It stays as it is until it is rolled back. -/
theorem HasRaised.step (raised : s.HasRaised i exc) {e : Event sys} (other : e ≠ .rollback i)
    (stepped : s.step e = some s') : s'.HasRaised i exc := by
  obtain ⟨session, found, shape⟩ := raised
  have kept : s'.sessions i = s.sessions i := by
    cases e with
    | start j job =>
        obtain ⟨free, rfl⟩ := step_start stepped
        have differs : i ≠ j := by
          rintro rfl
          rw [free] at found
          cases found
        simp [begun, put, differs]
    | advance j =>
        obtain ⟨session', found', went⟩ := step_advance stepped
        have differs : i ≠ j := by
          rintro rfl
          obtain rfl := Option.some.inj (found.symm.trans found')
          rcases went with ⟨q, next, shape', -⟩ | ⟨st, next, shape', -, -⟩
          · rw [shape] at shape'
            cases shape'
          · rw [shape] at shape'
            cases shape'
        rcases went with ⟨q, next, -, rfl⟩ | ⟨st, next, -, -, rfl⟩
        · simp [asked, put, differs]
        · simp [executed, put, differs]
    | commit j =>
        obtain ⟨session', a, found', shape', rfl⟩ := step_commit stepped
        have differs : i ≠ j := by
          rintro rfl
          obtain rfl := Option.some.inj (found.symm.trans found')
          rw [shape] at shape'
          cases shape'
        simp [committing, close, differs]
    | rollback j =>
        obtain rfl := step_rollback stepped
        have differs : i ≠ j := by
          rintro rfl
          exact other rfl
        simp [close, differs]
  exact ⟨session, kept.trans found, shape⟩

/-- Until then it leaves nothing, and then neither. -/
theorem HasRaised.leaves_nothing (raised : s.HasRaised i exc)
    (later : Run (fun _ e => e ≠ .rollback i) s s') :
    s'.step (.commit i) = none ∧
      ∀ ended, s'.step (.rollback i) = some ended → ended.committed = s'.committed := by
  have still : s'.HasRaised i exc :=
    later.invariant (P := fun s => s.HasRaised i exc) raised fun _ _ _ raised other stepped =>
      raised.step other stepped
  refine ⟨still.commit, fun ended rolled => ?_⟩
  rw [step_rollback rolled]
  rfl

/-! ### Refusals -/

variable {stops : sys.Job → (s : I.Statement) → I.Answer s → Prop}
  {raised : sys.Job → I.Statement → ε → Prop}

/-- The sessions refuse what stops them. -/
def Refusing (stops : sys.Job → (s : I.Statement) → I.Answer s → Prop)
    (raised : sys.Job → I.Statement → ε → Prop) (s : Server sys) : Prop :=
  ∀ i session, s.sessions i = some session →
    session.program.Refuses (stops session.job) (raised session.job)

/-- They do after every step. -/
theorem Refusing.step (refusing : s.Refusing stops raised)
    (bodies : ∀ job, (sys.body job).Refuses (stops job) (raised job)) {e : Event sys}
    (stepped : s.step e = some s') : s'.Refusing stops raised := by
  have kept : ∀ {s' : Server sys} {j : Nat} {session : Session sys},
      s'.sessions = Function.update s.sessions j (some session) →
        session.program.Refuses (stops session.job) (raised session.job) →
          s'.Refusing stops raised := by
    intro s' j session sessions refuses i found at_
    rw [sessions] at at_
    by_cases same : i = j
    · subst same
      rw [Function.update_self] at at_
      obtain rfl := Option.some.inj at_
      exact refuses
    · rw [Function.update_of_ne same] at at_
      exact refusing i found at_
  have closed : ∀ {s' : Server sys} {j : Nat}, s'.sessions = Function.update s.sessions j none →
      s'.Refusing stops raised := by
    intro s' j sessions i found at_
    rw [sessions] at at_
    by_cases same : i = j
    · subst same
      rw [Function.update_self] at at_
      cases at_
    · rw [Function.update_of_ne same] at at_
      exact refusing i found at_
  cases e with
  | start j job =>
      obtain ⟨-, rfl⟩ := step_start stepped
      exact kept rfl (bodies job)
  | advance j =>
      obtain ⟨session, found, ⟨q, next, shape, rfl⟩ | ⟨st, next, shape, -, rfl⟩⟩ :=
        step_advance stepped
      · have refuses := refusing j session found
        rw [shape] at refuses
        exact kept rfl (refuses _)
      · have refuses := refusing j session found
        rw [shape] at refuses
        exact kept rfl (refuses.2 _)
  | commit j =>
      obtain ⟨session, a, -, -, rfl⟩ := step_commit stepped
      exact closed rfl
  | rollback j =>
      obtain rfl := step_rollback stepped
      exact closed rfl

/-- A session that is stopped has raised what is said. -/
theorem Refusing.stopped (refusing : s.Refusing stops raised) {session : Session sys}
    {st : I.Statement} {next : I.Answer st → Program I ε α} (found : s.sessions i = some session)
    (shape : session.program = .execute st next)
    (stopped : stops session.job st (I.execute st session.setting (s.view session)).1)
    (stepped : s.step (.advance i) = some s') :
    ∃ exc, raised session.job st exc ∧ s'.HasRaised i exc ∧ s'.committed = s.committed := by
  have refuses := refusing i session found
  rw [shape] at refuses
  obtain ⟨exc, finished, said⟩ := refuses.1 _ stopped
  obtain ⟨session', found', went⟩ := step_advance stepped
  obtain rfl := Option.some.inj (found.symm.trans found')
  rcases went with ⟨q, next', shape', -⟩ | ⟨st', next', shape', -, rfl⟩
  · rw [shape] at shape'
    cases shape'
  · rw [shape] at shape'
    cases shape'
    exact ⟨exc, said, ⟨_, Function.update_self .., finished⟩, rfl⟩

end Server

end Sql
