import Plimsoll.Sql.Program

/-!
Transactions that run side by side under READ COMMITTED.

A statement sees what is committed when it runs, with the writes of its own
transaction on top. A write locks its row until the transaction ends, and the row
it refers to in common with others, so that nobody deletes that one. A statement
whose row another transaction has locked waits: there is no step for it while the
lock is held, and it is evaluated anew when it runs.
-/

namespace Sql

/-- The transactions that may be started. -/
structure System (I : Interface) (ε α : Type) where
  Job : Type
  setting : Job → I.Environment → I.Setting
  body : Job → Program I ε α

/-- A transaction that has not ended. -/
structure Session {I : Interface} {ε α : Type} (sys : System I ε α) where
  job : sys.Job
  setting : I.Setting
  pending : List I.Write
  program : Program I ε α

/-- A database with the transactions that run on it. -/
structure Server {I : Interface} {ε α : Type} (sys : System I ε α) where
  committed : I.Database
  environment : I.Environment
  sessions : Nat → Option (Session sys) := fun _ => none
  /-- The session that holds a lock. -/
  held : I.Lock → Option Nat := fun _ => none
  /-- The sessions that hold a lock in common. -/
  shared : I.Lock → List Nat := fun _ => []
  /-- Every job that was ever started. -/
  started : List sys.Job := []
  /-- What committed transactions returned, in the order of their commits. -/
  returned : List (sys.Job × α) := []

inductive Event {I : Interface} {ε α : Type} (sys : System I ε α) where
  | start (id : Nat) (job : sys.Job)
  /-- The next request of a session. -/
  | advance (id : Nat)
  | commit (id : Nat)
  /-- An exception has left the program, or the connection is lost. -/
  | rollback (id : Nat)

namespace Server

variable {I : Interface} {ε α : Type} {sys : System I ε α}

/-- The database as a session sees it. -/
def view (s : Server sys) (session : Session sys) : I.Database :=
  I.applyAll session.pending s.committed

/-- No other session holds this lock. -/
def Available (s : Server sys) (id : Nat) (lock : I.Lock) : Prop :=
  s.held lock = none ∨ s.held lock = some id

instance (s : Server sys) (id : Nat) (lock : I.Lock) : Decidable (s.Available id lock) :=
  inferInstanceAs (Decidable (_ ∨ _))

/-- A session may write these rows. -/
def Free (s : Server sys) (id : Nat) (writes : List I.Write) : Prop :=
  ∀ write ∈ writes, s.Available id (I.lock write) ∧
    (∀ other ∈ s.shared (I.lock write), other = id) ∧
      ∀ lock ∈ I.share write, s.Available id lock

instance (s : Server sys) (id : Nat) (writes : List I.Write) : Decidable (s.Free id writes) :=
  inferInstanceAs (Decidable (∀ write ∈ writes, _))

/-- The locks after a session has written. -/
def acquire (held : I.Lock → Option Nat) (id : Nat) (writes : List I.Write) :
    I.Lock → Option Nat :=
  fun lock => if lock ∈ writes.map I.lock then some id else held lock

/-- The locks after a session has ended. -/
def release (held : I.Lock → Option Nat) (id : Nat) : I.Lock → Option Nat :=
  fun lock => if held lock = some id then none else held lock

/-- The common locks after a session has written. -/
def join (shared : I.Lock → List Nat) (id : Nat) (writes : List I.Write) : I.Lock → List Nat :=
  fun lock => if lock ∈ writes.filterMap I.share then id :: shared lock else shared lock

/-- The common locks after a session has ended. -/
def leave (shared : I.Lock → List Nat) (id : Nat) : I.Lock → List Nat :=
  fun lock => (shared lock).filter fun other => other ≠ id

/-- The session `id` goes on as `session`. -/
def put (s : Server sys) (id : Nat) (session : Session sys) : Server sys :=
  { s with sessions := Function.update s.sessions id (some session) }

/-- The session `id` is gone, with its locks. -/
def close (s : Server sys) (id : Nat) : Server sys :=
  { s with
    sessions := Function.update s.sessions id none
    held := release s.held id
    shared := leave s.shared id }

/-- What a statement makes of the server and of its session. -/
def executed (s : Server sys) (id : Nat) (session : Session sys) (st : I.Statement)
    (next : I.Answer st → Program I ε α) : Server sys :=
  let result := I.execute st session.setting (s.view session)
  { s with
    held := acquire s.held id result.2
    shared := join s.shared id result.2 }.put id
    { session with
      setting := I.setting st session.setting
      pending := session.pending ++ result.2
      program := next result.1 }

/-- What a question makes of the server and of its session. -/
def asked (s : Server sys) (id : Nat) (session : Session sys) (q : I.Question)
    (next : I.Reply q → Program I ε α) : Server sys :=
  { s with environment := (I.reply q s.environment).2 }.put id
    { session with program := next (I.reply q s.environment).1 }

/-- The session has committed. -/
def committing (s : Server sys) (id : Nat) (session : Session sys) (a : α) : Server sys :=
  { s.close id with
    committed := s.view session
    returned := s.returned ++ [(session.job, a)] }

/-- The session has begun. -/
def begun (s : Server sys) (id : Nat) (job : sys.Job) : Server sys :=
  { s with started := s.started ++ [job] }.put id
    { job, setting := sys.setting job s.environment, pending := [], program := sys.body job }

/-- One event; `none` where it cannot happen. -/
def step (s : Server sys) : Event sys → Option (Server sys)
  | .start id job =>
      match s.sessions id with
      | some _ => none
      | none => some (s.begun id job)
  | .advance id =>
      match s.sessions id with
      | none => none
      | some session =>
          match session.program with
          | .finished _ => none
          | .ask q next => some (s.asked id session q next)
          | .execute st next =>
              if s.Free id (I.execute st session.setting (s.view session)).2 then
                some (s.executed id session st next)
              else none
  | .commit id =>
      match s.sessions id with
      | none => none
      | some session =>
          match session.program with
          | .finished (.ok a) => some (s.committing id session a)
          | _ => none
  | .rollback id =>
      match s.sessions id with
      | none => none
      | some _ => some (s.close id)

/-- Several events, each of which satisfies a condition on it and the state
before it. -/
def events (condition : Server sys → Event sys → Prop) [∀ s e, Decidable (condition s e)]
    (s : Server sys) : List (Event sys) → Option (Server sys)
  | [] => some s
  | e :: rest =>
      if condition s e then
        match s.step e with
        | none => none
        | some s => s.events condition rest
      else none

/-! ## What a step can do -/

theorem step_start {s s' : Server sys} {id : Nat} {job : sys.Job}
    (stepped : s.step (.start id job) = some s') :
    s.sessions id = none ∧ s' = s.begun id job := by
  rw [step] at stepped
  cases free : s.sessions id with
  | some session => simp [free] at stepped
  | none =>
      simp only [free, Option.some.injEq] at stepped
      exact ⟨rfl, stepped.symm⟩

theorem step_advance {s s' : Server sys} {id : Nat} (stepped : s.step (.advance id) = some s') :
    ∃ session, s.sessions id = some session ∧
      ((∃ q next, session.program = .ask q next ∧ s' = s.asked id session q next) ∨
        ∃ st next, session.program = .execute st next ∧
          s.Free id (I.execute st session.setting (s.view session)).2 ∧
          s' = s.executed id session st next) := by
  rw [step] at stepped
  cases found : s.sessions id with
  | none => simp [found] at stepped
  | some session =>
      simp only [found] at stepped
      refine ⟨session, rfl, ?_⟩
      cases shape : session.program with
      | finished outcome => simp [shape] at stepped
      | ask q next =>
          simp only [shape, Option.some.injEq] at stepped
          exact Or.inl ⟨q, next, rfl, stepped.symm⟩
      | execute st next =>
          simp only [shape] at stepped
          split at stepped
          · rename_i free
            exact Or.inr ⟨st, next, rfl, free, (Option.some.inj stepped).symm⟩
          · cases stepped

theorem step_commit {s s' : Server sys} {id : Nat} (stepped : s.step (.commit id) = some s') :
    ∃ session a, s.sessions id = some session ∧ session.program = .finished (.ok a) ∧
      s' = s.committing id session a := by
  rw [step] at stepped
  cases found : s.sessions id with
  | none => simp [found] at stepped
  | some session =>
      simp only [found] at stepped
      cases shape : session.program with
      | ask q next => simp [shape] at stepped
      | execute st next => simp [shape] at stepped
      | finished outcome =>
          cases outcome with
          | error exc => simp [shape] at stepped
          | ok a =>
              simp only [shape, Option.some.injEq] at stepped
              exact ⟨session, a, rfl, shape, stepped.symm⟩

theorem step_rollback {s s' : Server sys} {id : Nat} (stepped : s.step (.rollback id) = some s') :
    s' = s.close id := by
  rw [step] at stepped
  cases found : s.sessions id with
  | none => simp [found] at stepped
  | some session =>
      simp only [found, Option.some.injEq] at stepped
      exact stepped.symm

/-! ## Runs -/

/-- A run from `s` to `s'` in which every event satisfies a condition on it and
the state before it. -/
inductive Run (condition : Server sys → Event sys → Prop) (s : Server sys) : Server sys → Prop
  | refl : Run condition s s
  | step {s₁ s₂ : Server sys} {e : Event sys} : Run condition s s₁ → condition s₁ e →
      s₁.step e = some s₂ → Run condition s s₂

/-- What holds at first and is kept by each step holds in every state of a run. -/
theorem Run.invariant {condition : Server sys → Event sys → Prop} {P : Server sys → Prop}
    {s s' : Server sys} (run : Run condition s s') (first : P s)
    (keeps : ∀ s₁ s₂ e, P s₁ → condition s₁ e → s₁.step e = some s₂ → P s₂) : P s' := by
  induction run with
  | refl => exact first
  | step _ met stepped ih => exact keeps _ _ _ ih met stepped

theorem Run.mono {condition condition' : Server sys → Event sys → Prop} {s s' : Server sys}
    (run : Run condition s s') (weaker : ∀ s e, condition s e → condition' s e) :
    Run condition' s s' := by
  induction run with
  | refl => exact .refl
  | step _ met stepped ih => exact ih.step (weaker _ _ met) stepped

theorem run_of_events {condition : Server sys → Event sys → Prop}
    [∀ s e, Decidable (condition s e)] {s₀ : Server sys} :
    ∀ {es : List (Event sys)} {s s' : Server sys}, Run condition s₀ s →
      s.events condition es = some s' → Run condition s₀ s' := by
  intro es
  induction es with
  | nil =>
      intro s s' run ended
      obtain rfl := Option.some.inj ended
      exact run
  | cons e rest ih =>
      intro s s' run ended
      rw [events] at ended
      split at ended
      · rename_i met
        cases stepped : s.step e with
        | none => simp [stepped] at ended
        | some s₁ =>
            simp only [stepped] at ended
            exact ih (run.step met stepped) ended
      · cases ended

/-! ## Locks -/

/-- A row that a session has written is locked by it. -/
def Locked (s : Server sys) : Prop :=
  ∀ id session, s.sessions id = some session →
    ∀ write ∈ session.pending, s.held (I.lock write) = some id

theorem locked_put {s : Server sys} {id : Nat} {session : Session sys} (locked : s.Locked)
    (own : ∀ write ∈ session.pending, s.held (I.lock write) = some id) :
    (s.put id session).Locked := by
  intro other found at_ write member
  by_cases same : other = id
  · subst same
    obtain rfl : session = found := by simpa [put] using at_
    exact own write member
  · exact locked other found (by simpa [put, same] using at_) write member

theorem locked_close {s : Server sys} {id : Nat} (locked : s.Locked) : (s.close id).Locked := by
  intro other session at_ write member
  by_cases same : other = id
  · subst same
    simp [close] at at_
  · have held := locked other session (by simpa [close, same] using at_) write member
    simp [close, release, held, same]

/-- Locks are kept through every step. -/
theorem locked_step {s s' : Server sys} {e : Event sys} (locked : s.Locked)
    (stepped : s.step e = some s') : s'.Locked := by
  cases e with
  | start id job =>
      obtain ⟨-, rfl⟩ := step_start stepped
      exact locked_put locked (by intro write member; cases member)
  | advance id =>
      obtain ⟨session, found, ⟨q, next, -, rfl⟩ | ⟨st, next, -, free, rfl⟩⟩ := step_advance stepped
      · exact locked_put locked (locked id session found)
      · refine locked_put ?_ ?_
        · intro other session' at_ write member
          have held := locked other session' at_ write member
          simp only [acquire]
          split
          · rename_i taken
            obtain ⟨write', written, same⟩ := List.mem_map.mp taken
            rcases (free write' written).1 with unlocked | own
            · rw [same, held] at unlocked
              cases unlocked
            · rw [same, held] at own
              exact own.symm
          · exact held
        · intro write member
          simp only [acquire]
          rcases List.mem_append.mp member with before | here
          · split
            · rfl
            · exact locked id session found write before
          · rw [if_pos (List.mem_map_of_mem here)]
  | commit id =>
      obtain ⟨session, a, -, -, rfl⟩ := step_commit stepped
      exact locked_close locked
  | rollback id =>
      obtain rfl := step_rollback stepped
      exact locked_close locked

/-- Two sessions never have written one row. -/
theorem Locked.disjoint {s : Server sys} (locked : s.Locked) {i j : Nat} {a b : Session sys}
    (atI : s.sessions i = some a) (atJ : s.sessions j = some b) {x y : I.Write}
    (inA : x ∈ a.pending) (inB : y ∈ b.pending) (same : I.lock x = I.lock y) : i = j := by
  have first := locked i a atI x inA
  have second := locked j b atJ y inB
  rw [same, second] at first
  exact (Option.some.inj first).symm

end Server

/-! ## What a run commits -/

/-- A commit: whose, what it returned, and its writes on what was committed before. -/
structure Commit {I : Interface} {ε α : Type} (sys : System I ε α) where
  job : sys.Job
  answer : α
  before : I.Database
  writes : List I.Write

/-- What is committed behind it. -/
def Commit.after {I : Interface} {ε α : Type} {sys : System I ε α} (c : Commit sys) : I.Database :=
  I.applyAll c.writes c.before

namespace Server

variable {I : Interface} {ε α : Type} {sys : System I ε α}

/-- What an event commits. -/
def commits (s : Server sys) : Event sys → List (Commit sys)
  | .commit id =>
      match s.sessions id with
      | none => []
      | some session =>
          match session.program with
          | .finished (.ok a) => [⟨session.job, a, s.committed, session.pending⟩]
          | _ => []
  | _ => []

/-- A run with its commits, in order. -/
inductive Chronicle (condition : Server sys → Event sys → Prop) (s : Server sys) :
    List (Commit sys) → Server sys → Prop
  | refl : Chronicle condition s [] s
  | step {done : List (Commit sys)} {s₁ s₂ : Server sys} {e : Event sys} :
      Chronicle condition s done s₁ → condition s₁ e → s₁.step e = some s₂ →
        Chronicle condition s (done ++ s₁.commits e) s₂

variable {condition : Server sys → Event sys → Prop} {s s' : Server sys}

theorem Chronicle.run {done : List (Commit sys)} (chronicle : Chronicle condition s done s') :
    Run condition s s' := by
  induction chronicle with
  | refl => exact .refl
  | step _ met stepped ih => exact ih.step met stepped

theorem Run.chronicle (run : Run condition s s') : ∃ done, Chronicle condition s done s' := by
  induction run with
  | refl => exact ⟨[], .refl⟩
  | step _ met stepped ih =>
      obtain ⟨done, chronicle⟩ := ih
      exact ⟨_, chronicle.step met stepped⟩

/-- A run that goes on has the commits it had, and more. -/
theorem Chronicle.extend {done : List (Commit sys)} {s₁ : Server sys}
    (chronicle : Chronicle condition s done s₁) (run : Run condition s₁ s') :
    ∃ more, Chronicle condition s (done ++ more) s' := by
  induction run with
  | refl => exact ⟨[], (List.append_nil done).symm ▸ chronicle⟩
  | step _ met stepped ih =>
      obtain ⟨more, chronicle⟩ := ih
      have later := chronicle.step met stepped
      rw [List.append_assoc] at later
      exact ⟨_, later⟩

theorem commits_of_commit {id : Nat} {session : Session sys} {a : α}
    (found : s.sessions id = some session) (shape : session.program = .finished (.ok a)) :
    s.commits (.commit id) = [⟨session.job, a, s.committed, session.pending⟩] := by
  rw [commits]
  simp only [found, shape]

/-- A step that commits nothing leaves what is committed as it is. -/
theorem step_cases {e : Event sys} (stepped : s.step e = some s') :
    (s.commits e = [] ∧ s'.committed = s.committed ∧ s'.returned = s.returned) ∨
      ∃ id session a, e = .commit id ∧ s.sessions id = some session ∧
        session.program = .finished (.ok a) ∧ s' = s.committing id session a := by
  cases e with
  | start id job =>
      obtain ⟨-, rfl⟩ := step_start stepped
      exact Or.inl ⟨rfl, rfl, rfl⟩
  | advance id =>
      obtain ⟨session, -, ⟨q, next, -, rfl⟩ | ⟨st, next, -, -, rfl⟩⟩ := step_advance stepped
      · exact Or.inl ⟨rfl, rfl, rfl⟩
      · exact Or.inl ⟨rfl, rfl, rfl⟩
  | commit id =>
      obtain ⟨session, a, found, shape, rfl⟩ := step_commit stepped
      exact Or.inr ⟨id, session, a, rfl, found, shape, rfl⟩
  | rollback id =>
      obtain rfl := step_rollback stepped
      exact Or.inl ⟨rfl, rfl, rfl⟩

/-- What was returned is what the commits answered. -/
theorem Chronicle.returned {done : List (Commit sys)} (chronicle : Chronicle condition s done s') :
    s'.returned = s.returned ++ done.map fun c => (c.job, c.answer) := by
  induction chronicle with
  | refl => rw [List.map_nil, List.append_nil]
  | @step done s₁ s₂ e _ _ stepped ih =>
      rcases step_cases stepped with ⟨nothing, -, same⟩ | ⟨id, session, a, rfl, found, shape, rfl⟩
      · rw [nothing, List.append_nil, same, ih]
      · rw [commits_of_commit found shape, List.map_append, ← List.append_assoc, ← ih]
        rfl

end Server

end Sql
