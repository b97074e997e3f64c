import Plimsoll.Sql.Evolution

/-!
What a program owes before it executes a statement.

A program is judged on what it sees, while the rows there may become, at any moment,
what others make of them. Where every program meets its duties, each transaction changes
rows of its own only, and what a row links to stays linked.
-/

namespace Sql

variable {I : Interface} {ε α β : Type}

/-! ## Programs -/

/-- What is owed before a statement is executed. -/
structure Duties (ev : Evolution I) where
  owed : I.Statement → I.Setting → I.Database → Prop

/-- Whatever becomes of the rows meanwhile, the program executes each statement where it
is owed nothing more, and returns what `post` admits. -/
def Program.Owes {ev : Evolution I} (duties : Duties ev)
    (post : α → I.Setting → I.Database → Prop) :
    Program I ε α → I.Setting → I.Database → Prop
  | .finished (.ok a), c, d => ∀ d', ev.Sound d' → ev.Onward d d' → post a c d'
  | .finished (.error _), _, _ => True
  | .execute s next, c, d => ∀ d', ev.Sound d' → ev.Onward d d' → duties.owed s c d' ∧
      (next (I.execute s c d').1).Owes duties post (I.setting s c)
        (I.applyAll (I.execute s c d').2 d')
  | .ask _ next, c, d => ∀ r, (next r).Owes duties post c d

namespace Program

variable {ev : Evolution I} {duties : Duties ev} {c : I.Setting} {d d' : I.Database}

/-- What becomes of the rows does not matter. -/
theorem Owes.evolve {post : α → I.Setting → I.Database → Prop} {p : Program I ε α}
    (owes : p.Owes duties post c d) (onward : ev.Onward d d') : p.Owes duties post c d' := by
  induction p generalizing c with
  | finished outcome =>
      cases outcome with
      | error exc => trivial
      | ok a => exact fun d'' sound later => owes d'' sound (onward.trans later)
  | execute s next _ => exact fun d'' sound later => owes d'' sound (onward.trans later)
  | ask q next ih => exact fun r => ih r (owes r)

theorem Owes.weaken {post post' : α → I.Setting → I.Database → Prop} {p : Program I ε α}
    (owes : p.Owes duties post c d) (weaker : ∀ a c d, ev.Sound d → post a c d → post' a c d) :
    p.Owes duties post' c d := by
  induction p generalizing c d with
  | finished outcome =>
      cases outcome with
      | error exc => trivial
      | ok a => exact fun d' sound onward => weaker a _ _ sound (owes d' sound onward)
  | execute s next ih =>
      intro d' sound onward
      obtain ⟨owed, later⟩ := owes d' sound onward
      exact ⟨owed, ih _ later⟩
  | ask q next ih => exact fun r => ih r (owes r)

/-- A sequence, from what its first part owes. -/
theorem Owes.bind {p : Program I ε α} {f : α → Program I ε β}
    {post : β → I.Setting → I.Database → Prop} (sound : ev.Sound d)
    (first : p.Owes duties (fun a c d => (f a).Owes duties post c d) c d) :
    (p >>= f).Owes duties post c d := by
  induction p generalizing c d with
  | finished outcome =>
      cases outcome with
      | error exc => trivial
      | ok a => exact first d sound .refl
  | execute s next ih =>
      intro d' sound' onward
      obtain ⟨owed, later⟩ := first d' sound' onward
      exact ⟨owed, ih _ (sound'.execute s c).1 later⟩
  | ask q next ih => exact fun r => ih r sound (first r)

/-- What a program leaves has become of what it began on. -/
theorem Owes.onward {post : α → I.Setting → I.Database → Prop} {p : Program I ε α}
    (owes : p.Owes duties post c d) :
    p.Owes duties (fun a c d' => post a c d' ∧ ev.Onward d d') c d := by
  suffices all : ∀ d₀, ev.Onward d₀ d →
      p.Owes duties (fun a c d' => post a c d' ∧ ev.Onward d₀ d') c d from all d .refl
  induction p generalizing c d with
  | finished outcome =>
      intro d₀ before
      cases outcome with
      | error exc => trivial
      | ok a => exact fun d' sound onward => ⟨owes d' sound onward, before.trans onward⟩
  | execute s next ih =>
      intro d₀ before d' sound onward
      obtain ⟨owed, later⟩ := owes d' sound onward
      exact ⟨owed, ih _ later d₀ ((before.trans onward).trans (sound.execute s c).2)⟩
  | ask q next ih => exact fun d₀ before r => ih r (owes r) d₀ before

/-- A sequence, part by part. -/
theorem Owes.andThen {mid : α → I.Setting → I.Database → Prop}
    {post : β → I.Setting → I.Database → Prop} {p : Program I ε α} {f : α → Program I ε β}
    (first : p.Owes duties mid c d) (sound : ev.Sound d)
    (later : ∀ a c' d', ev.Sound d' → ev.Onward d d' → mid a c' d' →
      (f a).Owes duties post c' d') : (p >>= f).Owes duties post c d :=
  .bind sound (first.onward.weaken fun a c' d' sound' made =>
    later a c' d' sound' made.2 made.1)

/-- Every statement that the program may come to is one of these. -/
def Only (P : I.Statement → Prop) : Program I ε α → Prop
  | .finished _ => True
  | .execute s next => P s ∧ ∀ answer, (next answer).Only P
  | .ask _ next => ∀ r, (next r).Only P

theorem Only.mono {P Q : I.Statement → Prop} {p : Program I ε α} (only : p.Only P)
    (weaker : ∀ s, P s → Q s) : p.Only Q := by
  induction p with
  | finished outcome => trivial
  | execute s next ih => exact ⟨weaker s only.1, fun answer => ih answer (only.2 answer)⟩
  | ask q next ih => exact fun r => ih r (only r)

theorem Only.bind {P : I.Statement → Prop} {p : Program I ε α} {f : α → Program I ε β}
    (first : p.Only P) (later : ∀ a, (f a).Only P) : (p >>= f).Only P := by
  induction p with
  | finished outcome =>
      cases outcome with
      | error exc => trivial
      | ok a => exact later a
  | execute s next ih => exact ⟨first.1, fun answer => ih answer (first.2 answer)⟩
  | ask q next ih => exact fun r => ih r (first r)

theorem Only.mapError {P : I.Statement → Prop} {p : Program I ε α} (only : p.Only P) (f : ε → ε) :
    (p.mapError f).Only P := by
  induction p with
  | finished outcome =>
      cases outcome with
      | error exc => trivial
      | ok a => trivial
  | execute s next ih => exact ⟨only.1, fun answer => ih answer (only.2 answer)⟩
  | ask q next ih => exact fun r => ih r (only r)

/-- A program of statements that are owed nothing, in a setting that they keep. -/
theorem Only.owes {P : I.Statement → Prop} {p : Program I ε α} (only : p.Only P)
    (free : ∀ s d, P s → duties.owed s c d ∧ I.setting s c = c) :
    p.Owes duties (fun _ c' _ => c' = c) c d := by
  induction p generalizing d with
  | finished outcome =>
      cases outcome with
      | error exc => trivial
      | ok a => exact fun _ _ _ => rfl
  | execute s next ih =>
      intro d' sound onward
      obtain ⟨owed, same⟩ := free s d' only.1
      refine ⟨owed, ?_⟩
      rw [same]
      exact ih _ (only.2 _)
  | ask q next ih => exact fun r => ih r (only r)

end Program

/-! ## Systems -/

namespace Duties

open Server

variable {ev : Evolution I} {duties : Duties ev} {sys : System I ε α} {s s' : Server sys}
  {d : I.Database}

/-- Every transaction of the system meets its duties, where it begins on what its job may
begin on. -/
def Met (duties : Duties ev) (sys : System I ε α) (begins : sys.Job → I.Database → Prop) : Prop :=
  ∀ job e d, ev.Sound d → begins job d →
    (sys.body job).Owes duties (fun _ _ _ => True) (sys.setting job e) d

/-- A transaction begins on what its job may begin on. -/
def Begins (begins : sys.Job → I.Database → Prop) (s : Server sys) : Event sys → Prop
  | .start _ job => begins job s.committed
  | _ => True

/-- What every job is begun with holds of the jobs that commit. -/
theorem jobs_of_chronicle {P : sys.Job → Prop} {e : I.Environment} {done : List (Commit sys)}
    (chronicle : Chronicle (Begins fun job _ => P job)
      { committed := d, environment := e } done s) :
    (∀ id session, s.sessions id = some session → P session.job) ∧ ∀ c ∈ done, P c.job := by
  induction chronicle with
  | refl =>
      refine ⟨fun id session at_ => ?_, fun c member => ?_⟩
      · cases at_
      · cases member
  | @step done s₁ s₂ event _ begins stepped ih =>
      obtain ⟨open_, committed⟩ := ih
      refine ⟨?_, fun c member => ?_⟩
      · refine sessions_step (P := fun _ session => P session.job) stepped open_ ?_ ?_ ?_ ?_
        · rintro id job rfl
          exact begins
        · exact fun id session _ _ _ found _ => open_ id session found
        · exact fun id session _ _ found _ => open_ id session found
        · exact fun _ other _ session' _ found' _ => open_ other session' found'
      · rcases List.mem_append.mp member with before | now
        · exact committed c before
        · rcases step_cases stepped with ⟨nothing, -⟩ | ⟨id, session, a, rfl, found, shape, rfl⟩
          · rw [nothing] at now
            cases now
          · rw [commits_of_commit found shape] at now
            rw [List.mem_singleton.mp now]
            exact open_ id session found

/-- Every session meets its duties on what it sees. -/
structure Kept (duties : Duties ev) (s : Server sys) : Prop extends ev.Invariant s where
  owes : ∀ id session, s.sessions id = some session →
    session.program.Owes duties (fun _ _ _ => True) session.setting (s.view session)

/-- What one session sees, when another commits, has become of what it saw before. -/
theorem onward_view (inv : ev.Invariant s) {id other : Nat} {session session' : Session sys}
    (found : s.sessions id = some session) (found' : s.sessions other = some session')
    (differs : other ≠ id) :
    ev.Onward (s.view session') (I.applyAll session'.pending (s.view session)) := by
  obtain ⟨-, onward⟩ := inv.sees id session found
  intro lock
  rcases ev.row_committing inv.locked found found' differs lock with ⟨same, -⟩ | ⟨same, unseen⟩
  · rw [same]
    exact ev.refl lock _
  · rw [same, unseen]
    exact onward lock

theorem Kept.step {begins : sys.Job → I.Database → Prop} (met : duties.Met sys begins)
    (inv : duties.Kept s) {e : Event sys} (holds : Begins begins s e)
    (stepped : s.step e = some s') : duties.Kept s' := by
  refine ⟨(inv.toInvariant.step stepped).1, ?_⟩
  refine sessions_step (P := fun d session => session.program.Owes duties (fun _ _ _ => True)
    session.setting (I.applyAll session.pending d)) stepped inv.owes ?_ ?_ ?_ ?_
  · rintro id job rfl
    exact met job _ _ inv.sound holds
  · intro id session q next r found shape
    have owes := inv.owes id session found
    rw [shape] at owes
    exact owes r
  · intro id session st next found shape
    have owes := inv.owes id session found
    rw [shape] at owes
    rw [I.applyAll_append]
    exact (owes (s.view session) (inv.sees id session found).1 .refl).2
  · intro id other session session' found found' differs
    exact (inv.owes other session' found').evolve
      (onward_view inv.toInvariant found found' differs)

theorem kept_of_start {e : I.Environment} (sound : ev.Sound d) :
    duties.Kept ({ committed := d, environment := e } : Server sys) := by
  refine ⟨Evolution.invariant_of_start sound, ?_⟩
  intro id session at_
  cases at_

/-- What a session executes a statement on. -/
theorem Kept.owed (inv : duties.Kept s) {id : Nat} {session : Session sys}
    {st : I.Statement} {next : I.Answer st → Program I ε α} (found : s.sessions id = some session)
    (shape : session.program = .execute st next) :
    duties.owed st session.setting (s.view session) := by
  have owes := inv.owes id session found
  rw [shape] at owes
  exact (owes (s.view session) (inv.sees id session found).1 .refl).1

end Duties

/-! ## Rows of one's own -/

/-- Rows that a transaction may change, of those of its job. -/
structure Confinement {ev : Evolution I} (duties : Duties ev) (J : Type) where
  mine : J → (lock : I.Lock) → ev.Row lock → Prop
  bound : J → I.Setting → Prop
  setting : ∀ j s c d, duties.owed s c d → bound j c → bound j (I.setting s c)
  /-- What a statement writes to is the job's, and so is what it writes. -/
  execute : ∀ j s c d, ev.Sound d → duties.owed s c d → bound j c →
    ∀ write ∈ (I.execute s c d).2,
      mine j (I.lock write) (ev.row (I.lock write) d) ∧ mine j (I.lock write) (ev.written write)

namespace Confinement

open Server

variable {ev : Evolution I} {duties : Duties ev} {sys : System I ε α}
  (within : Confinement duties sys.Job)

/-- Every row stays as it was, or it is the job's before and after. -/
def Changes (job : sys.Job) (d d' : I.Database) : Prop :=
  ∀ lock, ev.row lock d' = ev.row lock d ∨
    within.mine job lock (ev.row lock d) ∧ within.mine job lock (ev.row lock d')

/-- What the sessions have written changes rows of their jobs. -/
structure Invariant (s : Server sys) : Prop extends duties.Kept s where
  sessions : ∀ id session, s.sessions id = some session →
    within.bound session.job session.setting ∧
      within.Changes session.job s.committed (s.view session)

variable {within} {s s' : Server sys} {job : sys.Job} {d d' d'' : I.Database}

theorem Changes.refl : within.Changes job d d := fun _ => Or.inl rfl

theorem Changes.trans (first : within.Changes job d d') (second : within.Changes job d' d'') :
    within.Changes job d d'' := by
  intro lock
  rcases second lock with same | ⟨mine, mine'⟩
  · rw [same]
    exact first lock
  · rcases first lock with same | ⟨before, -⟩
    · rw [same] at mine
      exact Or.inr ⟨mine, mine'⟩
    · exact Or.inr ⟨before, mine'⟩

theorem changes_execute {st : I.Statement} {c : I.Setting} (sound : ev.Sound d)
    (owed : duties.owed st c d) (bound : within.bound job c) :
    within.Changes job d (I.applyAll (I.execute st c d).2 d) := by
  intro lock
  refine ev.row_applyAll (P := fun lock r => r = ev.row lock d ∨
    within.mine job lock (ev.row lock d) ∧ within.mine job lock r) (Or.inl rfl) ?_
  exact fun write member => Or.inr (within.execute job st c d sound owed bound write member)

/-- Behind the commit of another, a session has changed what it had changed. -/
theorem Invariant.changes_committed (inv : within.Invariant s) {id other : Nat}
    {session session' : Session sys} (found : s.sessions id = some session)
    (found' : s.sessions other = some session') (differs : other ≠ id) :
    within.Changes session'.job (s.view session)
      (I.applyAll session'.pending (s.view session)) := by
  intro lock
  rcases ev.row_committing inv.locked found found' differs lock with
    ⟨same, untouched, -⟩ | ⟨same, -⟩
  · have changes := (inv.sessions other session' found').2 lock
    rw [← untouched, ← same] at changes
    exact changes
  · exact Or.inl same

theorem Invariant.step {begins : sys.Job → I.Database → Prop} (met : duties.Met sys begins)
    (bound : ∀ job e, within.bound job (sys.setting job e)) (inv : within.Invariant s)
    {e : Event sys} (holds : Duties.Begins begins s e) (stepped : s.step e = some s') :
    within.Invariant s' := by
  refine ⟨inv.toKept.step met holds stepped, ?_⟩
  refine sessions_step (P := fun d session => within.bound session.job session.setting ∧
    within.Changes session.job d (I.applyAll session.pending d)) stepped inv.sessions ?_ ?_ ?_ ?_
  · exact fun _ job _ => ⟨bound job _, .refl⟩
  · exact fun id session q next r found _ => inv.sessions id session found
  · intro id session st next found shape
    have owed := inv.owed found shape
    obtain ⟨bound, before⟩ := inv.sessions id session found
    have changes := changes_execute (inv.sees id session found).1 owed bound
    refine ⟨within.setting _ _ _ _ owed bound, ?_⟩
    rw [I.applyAll_append]
    exact before.trans changes
  · exact fun id other session session' found found' differs =>
      ⟨(inv.sessions other session' found').1, inv.changes_committed found found' differs⟩

/-- Whatever is committed in a run changes rows of its job only. -/
theorem of_chronicle {condition : Server sys → Event sys → Prop} {e : I.Environment}
    {done : List (Commit sys)} {begins : sys.Job → I.Database → Prop}
    (met : duties.Met sys begins) (bound : ∀ job e, within.bound job (sys.setting job e))
    (holds : ∀ s e, condition s e → Duties.Begins begins s e) (sound : ev.Sound d)
    (chronicle : Chronicle condition { committed := d, environment := e } done s) :
    within.Invariant s ∧ ∀ c ∈ done, within.Changes c.job c.before c.after := by
  induction chronicle with
  | refl =>
      refine ⟨⟨Duties.kept_of_start sound, fun id session at_ => ?_⟩, fun c member => ?_⟩
      · cases at_
      · cases member
  | @step done s₁ s₂ e _ here stepped ih =>
      obtain ⟨inv, changes⟩ := ih
      refine ⟨inv.step met bound (holds _ _ here) stepped, fun c member => ?_⟩
      rcases List.mem_append.mp member with before | now
      · exact changes c before
      · rcases step_cases stepped with ⟨nothing, -⟩ | ⟨id, session, a, rfl, found, shape, rfl⟩
        · rw [nothing] at now
          cases now
        · rw [commits_of_commit found shape] at now
          rw [List.mem_singleton.mp now]
          exact (inv.sessions id session found).2

/-- Rows that no job of a run calls its own are at its end as they were at first. -/
theorem untouched {condition : Server sys → Event sys → Prop} {e : I.Environment}
    {done : List (Commit sys)} {F : (lock : I.Lock) → ev.Row lock → Prop}
    (chronicle : Chronicle condition { committed := d, environment := e } done s)
    (changes : ∀ c ∈ done, within.Changes c.job c.before c.after)
    (foreign : ∀ c ∈ done, ∀ lock r, F lock r → ¬ within.mine c.job lock r) (lock : I.Lock)
    (here : F lock (ev.row lock d) ∨ F lock (ev.row lock s.committed)) :
    ev.row lock s.committed = ev.row lock d := by
  induction chronicle with
  | refl => rfl
  | @step done s₁ s₂ e chronicle _ stepped ih =>
      have before := ih (fun c member => changes c (List.mem_append_left _ member))
        fun c member => foreign c (List.mem_append_left _ member)
      rcases step_cases stepped with ⟨-, same, -⟩ | ⟨id, session, a, rfl, found, shape, rfl⟩
      · rw [same] at here ⊢
        exact before here
      · have own : ⟨session.job, a, s₁.committed, session.pending⟩ ∈
            done ++ s₁.commits (.commit id) := by
          rw [commits_of_commit found shape]
          exact List.mem_append_right _ (List.mem_singleton_self _)
        rcases changes _ own lock with same | ⟨mine, mine'⟩
        · rw [show ev.row lock (s₁.committing id session a).committed = _ from same] at here ⊢
          exact before here
        · rcases here with first | last
          · have kept := before (Or.inl first)
            exact absurd mine (foreign _ own lock _ (kept ▸ first))
          · exact absurd mine' (foreign _ own lock _ last)

end Confinement

/-! ## Links -/

/-- What a row demands of another, whatever becomes of that one. -/
structure Links {ev : Evolution I} (duties : Duties ev) where
  linked : (lock : I.Lock) → ev.Row lock → (target : I.Lock) → ev.Row target → Prop
  stays : ∀ lock r target r₁ r₂, ev.follows target r₁ r₂ → linked lock r target r₁ →
    linked lock r target r₂
  /-- What a statement writes is linked to what it leaves. -/
  execute : ∀ s c d, ev.Sound d →
    (∀ lock target, linked lock (ev.row lock d) target (ev.row target d)) → duties.owed s c d →
      ∀ write ∈ (I.execute s c d).2, ∀ target, linked (I.lock write) (ev.written write) target
        (ev.row target (I.applyAll (I.execute s c d).2 d))

namespace Links

open Server

variable {ev : Evolution I} {duties : Duties ev} (links : Links duties) {sys : System I ε α}

/-- Every row is linked to every other, as it demands. -/
def Linked (d : I.Database) : Prop :=
  ∀ lock target, links.linked lock (ev.row lock d) target (ev.row target d)

structure Invariant (s : Server sys) : Prop extends duties.Kept s where
  committed : links.Linked s.committed
  views : ∀ id session, s.sessions id = some session → links.Linked (s.view session)

variable {links} {s s' : Server sys} {d d' : I.Database}

theorem Linked.execute {st : I.Statement} {c : I.Setting} (linked : links.Linked d)
    (sound : ev.Sound d) (owed : duties.owed st c d) :
    links.Linked (I.applyAll (I.execute st c d).2 d) := by
  intro lock target
  refine ev.row_applyAll (P := fun lock r => links.linked lock r target
    (ev.row target (I.applyAll (I.execute st c d).2 d))) ?_ ?_
  · exact links.stays lock _ target _ _ ((sound.execute st c).2 target) (linked lock target)
  · exact fun write member => links.execute st c d sound linked owed write member target

/-- What a session sees behind the commit of another is linked: each row comes from what
one of the two saw, and what it is linked to has become of what that one saw. -/
theorem Invariant.linked_committed (inv : links.Invariant s) {id other : Nat}
    {session session' : Session sys} (found : s.sessions id = some session)
    (found' : s.sessions other = some session') (differs : other ≠ id) :
    links.Linked (I.applyAll session'.pending (s.view session)) := by
  intro lock target
  have onward := (inv.sees_committed found found' differs).2
  have onward' := Duties.onward_view inv.toInvariant found found' differs
  rcases ev.row_committing inv.locked found found' differs lock with ⟨same, -⟩ | ⟨same, -⟩
  · rw [same]
    exact links.stays lock _ target _ _ (onward' target)
      (inv.views other session' found' lock target)
  · rw [same]
    exact links.stays lock _ target _ _ (onward target) (inv.views id session found lock target)

theorem Invariant.step {begins : sys.Job → I.Database → Prop} (met : duties.Met sys begins)
    (inv : links.Invariant s) {e : Event sys} (holds : Duties.Begins begins s e)
    (stepped : s.step e = some s') : links.Invariant s' := by
  refine ⟨inv.toKept.step met holds stepped, ?_, ?_⟩
  · rcases committed_step stepped with same | ⟨id, session, found, same⟩
    · exact same ▸ inv.committed
    · exact same ▸ inv.views id session found
  · refine sessions_step (P := fun d session => links.Linked (I.applyAll session.pending d))
      stepped inv.views ?_ ?_ ?_ ?_
    · exact fun _ job _ => inv.committed
    · exact fun id session q next r found _ => inv.views id session found
    · intro id session st next found shape
      rw [I.applyAll_append]
      exact (inv.views id session found).execute (inv.sees id session found).1
        (inv.owed found shape)
    · exact fun id other session session' found found' differs =>
        inv.linked_committed found found' differs

/-- In every run, all rows are linked as they demand, in what is committed and in what
each session sees. -/
theorem of_run {condition : Server sys → Event sys → Prop} {e : I.Environment}
    {begins : sys.Job → I.Database → Prop} (met : duties.Met sys begins)
    (holds : ∀ s e, condition s e → Duties.Begins begins s e) (sound : ev.Sound d)
    (linked : links.Linked d)
    (run : Run condition { committed := d, environment := e } s) : links.Invariant s := by
  refine run.invariant ⟨Duties.kept_of_start sound, linked, ?_⟩ ?_
  · intro id session at_
    cases at_
  · exact fun _ _ _ inv here stepped => inv.step met (holds _ _ here) stepped

end Links

end Sql
