import Plimsoll.Sql.ReadCommitted

/-!
Transactions that write under one lock.

Such a transaction reads what is committed until its first write, which takes the
lock. From there on no other commits a write until it ends, and it goes on as if
alone. So these transactions change the database one after the other, in the order
of their commits.
-/

namespace Sql

variable {I : Interface} {ε α β : Type}

/-! ## Programs -/

/-- Where a transaction stands: before its first write, or with the lock, on what
was committed when it took it. -/
inductive Phase (I : Interface) where
  | reading (committed : I.Database)
  | owning (committed view : I.Database)

/-- What a transaction relies on: how the others change the database, and what its
own requests are met with. -/
structure Rely (I : Interface) where
  lock : I.Lock
  evolves : I.Database → I.Database → Prop
  evolves_refl : ∀ d, evolves d d
  evolves_trans : ∀ d₁ d₂ d₃, evolves d₁ d₂ → evolves d₂ d₃ → evolves d₁ d₃
  allowed : I.Statement → I.Setting → I.Database → Prop := fun _ _ _ => True
  replies : I.Database → (q : I.Question) → I.Reply q → Prop := fun _ _ _ => True

/-- The program takes the lock with its first write, raises only what `raises`
admits, and returns in a phase that `post` admits. -/
def Program.Keeps (rely : Rely I) (raises : ε → Prop) (post : α → I.Setting → Phase I → Prop) :
    Program I ε α → I.Setting → Phase I → Prop
  | .finished (.ok a), c, .reading d => ∀ d', rely.evolves d d' → post a c (.reading d')
  | .finished (.ok a), c, .owning base d => post a c (.owning base d)
  | .finished (.error exc), _, _ => raises exc
  | .execute s next, c, .reading d => ∀ d', rely.evolves d d' → rely.allowed s c d' →
      ((I.execute s c d').2 = [] →
        (next (I.execute s c d').1).Keeps rely raises post (I.setting s c) (.reading d')) ∧
      ((I.execute s c d').2 ≠ [] → rely.lock ∈ (I.execute s c d').2.map I.lock ∧
        (next (I.execute s c d').1).Keeps rely raises post (I.setting s c)
          (.owning d' (I.applyAll (I.execute s c d').2 d')))
  | .execute s next, c, .owning base d => rely.allowed s c d →
      (next (I.execute s c d).1).Keeps rely raises post (I.setting s c)
        (.owning base (I.applyAll (I.execute s c d).2 d))
  | .ask q next, c, .reading d => ∀ d' r, rely.evolves d d' → rely.replies d' q r →
      (next r).Keeps rely raises post c (.reading d')
  | .ask q next, c, .owning base d => ∀ r, rely.replies d q r →
      (next r).Keeps rely raises post c (.owning base d)

namespace Program

variable {rely : Rely I} {raises : ε → Prop} {c : I.Setting} {d d' base : I.Database}

section

variable {post : α → I.Setting → Phase I → Prop}

/-- What others commit does not matter to a program that has written nothing. -/
theorem Keeps.evolve {p : Program I ε α} (keeps : p.Keeps rely raises post c (.reading d))
    (evolves : rely.evolves d d') : p.Keeps rely raises post c (.reading d') := by
  have further : ∀ {d''}, rely.evolves d' d'' → rely.evolves d d'' := fun later =>
    rely.evolves_trans _ _ _ evolves later
  cases p with
  | finished outcome =>
      cases outcome with
      | error exc => exact keeps
      | ok a => exact fun d'' later => keeps d'' (further later)
  | execute s next => exact fun d'' later => keeps d'' (further later)
  | ask q next => exact fun d'' r later => keeps d'' r (further later)

theorem Keeps.weaken {post' : α → I.Setting → Phase I → Prop} {p : Program I ε α}
    {phase : Phase I} (keeps : p.Keeps rely raises post c phase)
    (weaker : ∀ a c phase, post a c phase → post' a c phase) :
    p.Keeps rely raises post' c phase := by
  induction p generalizing c phase with
  | finished outcome =>
      cases outcome with
      | error exc => exact keeps
      | ok a =>
          cases phase with
          | reading d => exact fun d' evolves => weaker _ _ _ (keeps d' evolves)
          | owning base d => exact weaker _ _ _ keeps
  | execute s next ih =>
      cases phase with
      | reading d =>
          intro d' evolves allowed
          obtain ⟨silent, writes⟩ := keeps d' evolves allowed
          exact ⟨fun none_ => ih _ (silent none_), fun some_ =>
            ⟨(writes some_).1, ih _ (writes some_).2⟩⟩
      | owning base d => exact fun allowed => ih _ (keeps allowed)
  | ask q next ih =>
      cases phase with
      | reading d => exact fun d' r evolves replies => ih r (keeps d' r evolves replies)
      | owning base d => exact fun r replies => ih r (keeps r replies)

end

/-- A sequence, from what its first part ensures. -/
theorem Keeps.bind {p : Program I ε α} {f : α → Program I ε β}
    {post : β → I.Setting → Phase I → Prop} {phase : Phase I}
    (first : p.Keeps rely raises (fun a c phase => (f a).Keeps rely raises post c phase) c phase) :
    (p >>= f).Keeps rely raises post c phase := by
  induction p generalizing c phase with
  | finished outcome =>
      cases outcome with
      | error exc => exact first
      | ok a =>
          cases phase with
          | reading d => exact first d (rely.evolves_refl d)
          | owning base d => exact first
  | execute s next ih =>
      cases phase with
      | reading d =>
          intro d' evolves allowed
          obtain ⟨silent, writes⟩ := first d' evolves allowed
          exact ⟨fun none_ => ih _ (silent none_), fun some_ =>
            ⟨(writes some_).1, ih _ (writes some_).2⟩⟩
      | owning base d => exact fun allowed => ih _ (first allowed)
  | ask q next ih =>
      cases phase with
      | reading d => exact fun d' r evolves replies => ih r (first d' r evolves replies)
      | owning base d => exact fun r replies => ih r (first r replies)

variable {post : α → I.Setting → Phase I → Prop}

/-- A statement that writes nothing, before the lock is taken. -/
theorem Keeps.read {s : I.Statement} {next : I.Answer s → Program I ε α}
    (silent : ∀ d', rely.evolves d d' → (I.execute s c d').2 = [])
    (keeps : ∀ d', rely.evolves d d' →
      (next (I.execute s c d').1).Keeps rely raises post (I.setting s c) (.reading d')) :
    (Program.execute s next).Keeps rely raises post c (.reading d) := by
  intro d' evolves _
  exact ⟨fun _ => keeps d' evolves, fun some_ => absurd (silent d' evolves) some_⟩

/-- A statement once the lock is taken. -/
theorem Keeps.go {s : I.Statement} {next : I.Answer s → Program I ε α}
    {answer : I.Answer s} {writes : List I.Write} (executed : I.execute s c d = (answer, writes))
    (keeps : (next answer).Keeps rely raises post (I.setting s c)
      (.owning base (I.applyAll writes d))) :
    (Program.execute s next).Keeps rely raises post c (.owning base d) := by
  intro _
  rw [executed]
  exact keeps

end Program

/-! ## Systems -/

/-- Committed transactions that changed the database one after the other. -/
inductive History {J : Type} (effect : J → α → I.Database → I.Database → Prop)
    (d₀ : I.Database) : List (J × α) → I.Database → Prop
  | nil : History effect d₀ [] d₀
  | snoc {returned : List (J × α)} {d d' : I.Database} {job : J} {a : α} :
      History effect d₀ returned d → effect job a d d' →
      History effect d₀ (returned ++ [(job, a)]) d'

/-- What a transaction that returns has made of the database. -/
def Phase.Made (effect : α → I.Database → I.Database → Prop) : α → I.Setting → Phase I → Prop
  | a, _, .reading d => effect a d d
  | a, _, .owning base d => effect a base d

/-- The transactions of a system write under one lock: what each makes of the
database, what it raises, and the database they begin on. -/
structure Discipline (sys : System I ε α) extends Rely I where
  initial : I.Database
  admissible : sys.Job → Prop := fun _ => True
  effect : sys.Job → α → I.Database → I.Database → Prop
  raises : sys.Job → ε → Prop
  evolves_of_effect : ∀ {job a d d'}, evolves initial d → effect job a d d' → evolves d d'
  keeps : ∀ job e d, admissible job → evolves initial d →
    (sys.body job).Keeps toRely (raises job) (Phase.Made (effect job)) (sys.setting job e)
      (.reading d)

namespace Discipline

open Server

variable {sys : System I ε α} (disc : Discipline sys)

/-- What the requests of sessions are met with. -/
def Condition (s : Server sys) : Event sys → Prop
  | .start _ job => disc.admissible job
  | .advance id => ∀ session, s.sessions id = some session →
      (∀ st next, session.program = .execute st next →
        disc.allowed st session.setting (s.view session)) ∧
      ∀ q next, session.program = .ask q next →
        disc.replies (s.view session) q (I.reply q s.environment).1
  | _ => True

/-- A session that keeps to the discipline. -/
def Stands (s : Server sys) (id : Nat) (session : Session sys) : Prop :=
  (session.pending = [] ∧ session.program.Keeps disc.toRely (disc.raises session.job)
    (Phase.Made (disc.effect session.job)) session.setting (.reading s.committed)) ∨
  (s.held disc.lock = some id ∧ session.program.Keeps disc.toRely (disc.raises session.job)
    (Phase.Made (disc.effect session.job)) session.setting (.owning s.committed (s.view session)))

/-- Every session keeps to the discipline, and what is committed has come about by
the transactions that returned. -/
structure Invariant (s : Server sys) : Prop where
  stands : ∀ id session, s.sessions id = some session → disc.Stands s id session
  history : History disc.effect disc.initial s.returned s.committed

variable {disc} {s s' : Server sys}

theorem evolves_of_history {returned : List (sys.Job × α)} {d : I.Database}
    (history : History disc.effect disc.initial returned d) : disc.evolves disc.initial d := by
  induction history with
  | nil => exact disc.evolves_refl _
  | snoc _ made ih => exact disc.evolves_trans _ _ _ ih (disc.evolves_of_effect ih made)

/-- Where a session stands does not depend on the other sessions, as long as
nothing is committed and its lock is not taken away. -/
theorem Stands.frame {id : Nat} {session : Session sys} (stands : disc.Stands s id session)
    (committed : s'.committed = s.committed)
    (held : s.held disc.lock = some id → s'.held disc.lock = some id) :
    disc.Stands s' id session := by
  unfold Stands view at stands ⊢
  rw [committed]
  rcases stands with reading | ⟨own, owning⟩
  · exact Or.inl reading
  · exact Or.inr ⟨held own, owning⟩

theorem Invariant.put (inv : disc.Invariant s) {id : Nat} {session : Session sys}
    (stands : disc.Stands s id session) : disc.Invariant (s.put id session) where
  history := inv.history
  stands := by
    intro other found at_
    refine Stands.frame ?_ rfl fun held => held
    by_cases same : other = id
    · subst same
      obtain rfl : session = found := by simpa [Server.put] using at_
      exact stands
    · exact inv.stands other found (by simpa [Server.put, same] using at_)

theorem Invariant.start (inv : disc.Invariant s) {id : Nat} {job : sys.Job}
    (admissible : disc.admissible job) : disc.Invariant (s.begun id job) := by
  have idle : disc.Invariant { s with started := s.started ++ [job] } :=
    ⟨fun other found at_ => (inv.stands other found at_).frame rfl fun held => held, inv.history⟩
  exact idle.put (Or.inl ⟨rfl, disc.keeps job _ _ admissible (evolves_of_history inv.history)⟩)

theorem Invariant.ask (inv : disc.Invariant s) {id : Nat} {session : Session sys} {q : I.Question}
    {next : I.Reply q → Program I ε α} (found : s.sessions id = some session)
    (shape : session.program = .ask q next)
    (replies : disc.replies (s.view session) q (I.reply q s.environment).1) :
    disc.Invariant (s.asked id session q next) := by
  have idle : disc.Invariant { s with environment := (I.reply q s.environment).2 } :=
    ⟨fun other found at_ => (inv.stands other found at_).frame rfl fun held => held, inv.history⟩
  refine idle.put ?_
  rcases inv.stands id session found with ⟨nothing, reading⟩ | ⟨own, owning⟩
  · rw [shape] at reading
    rw [view, nothing] at replies
    exact Or.inl ⟨nothing, reading _ _ (disc.evolves_refl _) replies⟩
  · rw [shape] at owning
    exact Or.inr ⟨own, owning _ replies⟩

theorem Invariant.execute (inv : disc.Invariant s) {id : Nat} {session : Session sys}
    {st : I.Statement} {next : I.Answer st → Program I ε α} (found : s.sessions id = some session)
    (shape : session.program = .execute st next)
    (free : s.Free id (I.execute st session.setting (s.view session)).2)
    (allowed : disc.allowed st session.setting (s.view session)) :
    disc.Invariant (s.executed id session st next) := by
  -- Whoever holds the lock keeps it: nobody else may write under it.
  have kept : ∀ other, s.held disc.lock = some other →
      acquire s.held id (I.execute st session.setting (s.view session)).2 disc.lock =
        some other := by
    intro other held
    rw [acquire]
    split
    · rename_i taken
      obtain ⟨write, written, same⟩ := List.mem_map.mp taken
      rcases (free write written).1 with unlocked | own
      · rw [same, held] at unlocked
        cases unlocked
      · rw [same, held] at own
        exact own.symm
    · exact held
  have moved : disc.Invariant { s with
      held := acquire s.held id (I.execute st session.setting (s.view session)).2
      shared := join s.shared id (I.execute st session.setting (s.view session)).2 } :=
    ⟨fun other found at_ => (inv.stands other found at_).frame rfl (kept other), inv.history⟩
  refine moved.put ?_
  rcases inv.stands id session found with ⟨nothing, reading⟩ | ⟨own, owning⟩
  · have same : s.view session = s.committed := by rw [view, nothing, Interface.applyAll_nil]
    rw [shape] at reading
    rw [same] at allowed
    obtain ⟨silent, writes⟩ := reading _ (disc.evolves_refl _) allowed
    by_cases none_ : (I.execute st session.setting s.committed).2 = []
    · refine Or.inl ⟨?_, ?_⟩
      · simp only [nothing, same, none_, List.nil_append]
      · simp only [same]
        exact silent none_
    · obtain ⟨taken, owning⟩ := writes none_
      refine Or.inr ⟨?_, ?_⟩
      · simp only [same, acquire]
        rw [if_pos taken]
      · simp only [view, nothing, List.nil_append]
        exact owning
  · rw [shape] at owning
    refine Or.inr ⟨kept id own, ?_⟩
    simp only [view, Interface.applyAll_append]
    exact owning allowed

/-- Nobody loses the lock when another session ends. -/
theorem held_release {held : I.Lock → Option Nat} {lock : I.Lock} {id other : Nat}
    (own : held lock = some other) (differs : other ≠ id) : release held id lock = some other := by
  rw [release, own, if_neg (by simpa using differs)]

theorem Invariant.rollback (inv : disc.Invariant s) (id : Nat) : disc.Invariant (s.close id) where
  history := inv.history
  stands := by
    intro other found at_
    by_cases same : other = id
    · subst same
      simp [close] at at_
    · exact (inv.stands other found (by simpa [close, same] using at_)).frame rfl fun own =>
        held_release own same

/-- What a transaction is about to make of what is committed. -/
theorem Invariant.made (inv : disc.Invariant s) {id : Nat} {session : Session sys} {a : α}
    (found : s.sessions id = some session) (shape : session.program = .finished (.ok a)) :
    disc.effect session.job a s.committed (s.view session) := by
  rcases inv.stands id session found with ⟨nothing, reading⟩ | ⟨-, owning⟩
  · rw [shape] at reading
    rw [view, nothing]
    exact reading _ (disc.evolves_refl _)
  · rw [shape] at owning
    exact owning

theorem Invariant.commit (inv : disc.Invariant s) {id : Nat} {session : Session sys} {a : α}
    (found : s.sessions id = some session) (shape : session.program = .finished (.ok a)) :
    disc.Invariant (s.committing id session a) := by
  have made := inv.made found shape
  refine ⟨?_, inv.history.snoc made⟩
  intro other found' at_
  have differs : other ≠ id := by
    intro same
    subst same
    simp [committing, close] at at_
  have before := inv.stands other found' (by simpa [committing, close, differs] using at_)
  rcases before with ⟨nothing', reading'⟩ | ⟨own', owning'⟩
  · exact Or.inl ⟨nothing', reading'.evolve
      (disc.evolves_of_effect (evolves_of_history inv.history) made)⟩
  · -- The other session holds the lock, so this one has written nothing.
    rcases inv.stands id session found with ⟨nothing, -⟩ | ⟨own, -⟩
    · have same : s.view session = s.committed := by rw [view, nothing, Interface.applyAll_nil]
      refine Or.inr ⟨held_release own' differs, ?_⟩
      simp only [committing, view] at same ⊢
      rw [same]
      exact owning'
    · rw [own'] at own
      exact absurd (Option.some.inj own) differs

/-- Every step keeps to the discipline. -/
theorem Invariant.step (inv : disc.Invariant s) {e : Event sys} (met : disc.Condition s e)
    (stepped : s.step e = some s') : disc.Invariant s' := by
  cases e with
  | start id job =>
      obtain ⟨-, rfl⟩ := step_start stepped
      exact inv.start met
  | advance id =>
      obtain ⟨session, found, ⟨q, next, shape, rfl⟩ | ⟨st, next, shape, free, rfl⟩⟩ :=
        step_advance stepped
      · exact inv.ask found shape ((met session found).2 q next shape)
      · exact inv.execute found shape free ((met session found).1 st next shape)
  | commit id =>
      obtain ⟨session, a, found, shape, rfl⟩ := step_commit stepped
      exact inv.commit found shape
  | rollback id =>
      obtain rfl := step_rollback stepped
      exact inv.rollback id

/-- So does every run that begins without sessions. -/
theorem invariant_of_run {condition : Server sys → Event sys → Prop} {e : I.Environment}
    (met : ∀ s e, condition s e → disc.Condition s e)
    (run : Run condition { committed := disc.initial, environment := e } s) :
    disc.Invariant s := by
  refine run.invariant ⟨?_, History.nil⟩ ?_
  · intro id session at_
    cases at_
  · exact fun s₁ s₂ e inv holds stepped => inv.step (met s₁ e holds) stepped

/-- A session that has raised an exception has raised one of its own. -/
theorem Invariant.raised (inv : disc.Invariant s) {id : Nat} {session : Session sys} {exc : ε}
    (found : s.sessions id = some session) (shape : session.program = .finished (.error exc)) :
    disc.raises session.job exc := by
  rcases inv.stands id session found with ⟨-, reading⟩ | ⟨-, owning⟩
  · rw [shape] at reading
    exact reading
  · rw [shape] at owning
    exact owning

end Discipline

end Sql
