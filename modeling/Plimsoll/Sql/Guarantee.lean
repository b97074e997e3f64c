import Plimsoll.Sql.ReadCommitted

/-!
Transactions that write under locks of their own.

What a transaction has written is locked until it ends, so what is committed
there stays as it was; elsewhere the others may change the database as long as
they keep to what is relied on. A program is judged under that assumption, one
request at a time, and every transaction that commits has then made of the
database what its job promises.
-/

namespace Sql

variable {I : Interface} {ε α β : Type}

/-- What a transaction relies on while it runs beside others. -/
structure Reliance (I : Interface) where
  /-- Two databases are the same under a lock. -/
  same : I.Lock → I.Database → I.Database → Prop
  same_refl : ∀ lock d, same lock d d
  same_trans : ∀ lock d₁ d₂ d₃, same lock d₁ d₂ → same lock d₂ d₃ → same lock d₁ d₃
  /-- How the others change the database. -/
  evolves : I.Database → I.Database → Prop
  evolves_refl : ∀ d, evolves d d
  evolves_trans : ∀ d₁ d₂ d₃, evolves d₁ d₂ → evolves d₂ d₃ → evolves d₁ d₃
  /-- What a statement is executed on. -/
  allowed : I.Statement → I.Setting → I.Database → Prop := fun _ _ _ => True

namespace Reliance

variable (rely : Reliance I) {writes : List I.Write} {d d₁ d₂ d₃ : I.Database}

/-- What others may commit while these writes are pending. -/
structure Stable (writes : List I.Write) (d d' : I.Database) : Prop where
  evolves : rely.evolves d d'
  same : ∀ write ∈ writes, rely.same (I.lock write) d d'

variable {rely}

theorem Stable.refl : rely.Stable writes d d :=
  ⟨rely.evolves_refl d, fun _ _ => rely.same_refl _ d⟩

theorem Stable.trans (first : rely.Stable writes d₁ d₂) (second : rely.Stable writes d₂ d₃) :
    rely.Stable writes d₁ d₃ :=
  ⟨rely.evolves_trans _ _ _ first.evolves second.evolves,
    fun write member => rely.same_trans _ _ _ _ (first.same write member) (second.same write member)⟩

end Reliance

/-! ## Programs -/

/-- Whatever the others commit meanwhile, the program returns with writes that
`post` admits on what is committed then. -/
def Program.Ensures (rely : Reliance I)
    (post : α → I.Setting → I.Database → List I.Write → Prop) :
    Program I ε α → I.Setting → I.Database → List I.Write → Prop
  | .finished (.ok a), c, d, writes => ∀ d', rely.Stable writes d d' → post a c d' writes
  | .finished (.error _), _, _, _ => True
  | .execute s next, c, d, writes => ∀ d', rely.Stable writes d d' →
      rely.allowed s c (I.applyAll writes d') →
        (next (I.execute s c (I.applyAll writes d')).1).Ensures rely post (I.setting s c) d'
          (writes ++ (I.execute s c (I.applyAll writes d')).2)
  | .ask _ next, c, d, writes => ∀ r, (next r).Ensures rely post c d writes

namespace Program

variable {rely : Reliance I} {c : I.Setting} {d d' : I.Database} {writes : List I.Write}

/-- What others commit does not matter. -/
theorem Ensures.evolve {post : α → I.Setting → I.Database → List I.Write → Prop}
    {p : Program I ε α} (ensures : p.Ensures rely post c d writes)
    (stable : rely.Stable writes d d') : p.Ensures rely post c d' writes := by
  induction p generalizing c with
  | finished outcome =>
      cases outcome with
      | error exc => trivial
      | ok a => exact fun d'' later => ensures d'' (stable.trans later)
  | execute s next _ => exact fun d'' later => ensures d'' (stable.trans later)
  | ask q next ih => exact fun r => ih r (ensures r)

theorem Ensures.weaken {post post' : α → I.Setting → I.Database → List I.Write → Prop}
    {p : Program I ε α} (ensures : p.Ensures rely post c d writes)
    (weaker : ∀ a c d writes, post a c d writes → post' a c d writes) :
    p.Ensures rely post' c d writes := by
  induction p generalizing c d writes with
  | finished outcome =>
      cases outcome with
      | error exc => trivial
      | ok a => exact fun d' stable => weaker _ _ _ _ (ensures d' stable)
  | execute s next ih => exact fun d' stable allowed => ih _ (ensures d' stable allowed)
  | ask q next ih => exact fun r => ih r (ensures r)

/-- A sequence, from what its first part ensures. -/
theorem Ensures.bind {p : Program I ε α} {f : α → Program I ε β}
    {post : β → I.Setting → I.Database → List I.Write → Prop}
    (first : p.Ensures rely (fun a c d writes => (f a).Ensures rely post c d writes) c d writes) :
    (p >>= f).Ensures rely post c d writes := by
  induction p generalizing c d writes with
  | finished outcome =>
      cases outcome with
      | error exc => trivial
      | ok a => exact first d .refl
  | execute s next ih => exact fun d' stable allowed => ih _ (first d' stable allowed)
  | ask q next ih => exact fun r => ih r (first r)

/-- Other exceptions ensure the same. -/
theorem Ensures.mapError {p : Program I ε α} {f : ε → ε}
    {post : α → I.Setting → I.Database → List I.Write → Prop}
    (ensures : p.Ensures rely post c d writes) :
    (p.mapError f).Ensures rely post c d writes := by
  induction p generalizing c d writes with
  | finished outcome =>
      cases outcome with
      | error exc => trivial
      | ok a => exact ensures
  | execute s next ih => exact fun d' stable allowed => ih _ (ensures d' stable allowed)
  | ask q next ih => exact fun r => ih r (ensures r)

end Program

/-! ## Systems -/

/-- What the transactions of a system promise each other: what each makes of the
database, and the database they begin on. -/
structure Assurance (sys : System I ε α) extends Reliance I where
  initial : I.Database
  made : sys.Job → α → I.Database → List I.Write → Prop
  evolves_of_made : ∀ {job a d writes}, evolves initial d → made job a d writes →
    evolves d (I.applyAll writes d)
  same_of_made : ∀ {job a d writes lock}, evolves initial d → made job a d writes →
    lock ∉ writes.map I.lock → same lock d (I.applyAll writes d)
  ensures : ∀ job e d, evolves initial d →
    (sys.body job).Ensures toReliance (fun a _ => made job a) (sys.setting job e) d []

namespace Assurance

open Server

variable {sys : System I ε α} (sure : Assurance sys)

/-- What a session executes its next statement on. -/
def Condition (s : Server sys) : Event sys → Prop
  | .advance id => ∀ session, s.sessions id = some session →
      ∀ st next, session.program = .execute st next →
        sure.allowed st session.setting (s.view session)
  | _ => True

/-- A session keeps its promise. -/
def Stands (d : I.Database) (session : Session sys) : Prop :=
  session.program.Ensures sure.toReliance (fun a _ => sure.made session.job a) session.setting d
    session.pending

/-- Every session keeps its promise, and so did those that have committed. -/
structure Invariant (s : Server sys) : Prop where
  stands : ∀ id session, s.sessions id = some session → sure.Stands s.committed session
  evolved : sure.evolves sure.initial s.committed
  locked : s.Locked

variable {sure} {s s' : Server sys}

/-- What a session that may commit has made of the database. -/
theorem Invariant.made (inv : sure.Invariant s) {id : Nat} {session : Session sys} {a : α}
    (found : s.sessions id = some session) (shape : session.program = .finished (.ok a)) :
    sure.made session.job a s.committed session.pending := by
  have stands := inv.stands id session found
  rw [Stands, shape] at stands
  exact stands s.committed .refl

/-- The other sessions keep their promises when one commits. -/
theorem Invariant.stable (inv : sure.Invariant s) {id other : Nat} {session session' : Session sys}
    {a : α} (found : s.sessions id = some session)
    (shape : session.program = .finished (.ok a)) (found' : s.sessions other = some session')
    (differs : other ≠ id) :
    sure.Stable session'.pending s.committed (s.view session) := by
  have made := inv.made found shape
  refine ⟨sure.evolves_of_made inv.evolved made, ?_⟩
  intro write member
  refine sure.same_of_made inv.evolved made ?_
  intro shared
  obtain ⟨own, inOwn, lock⟩ := List.mem_map.mp shared
  exact differs (inv.locked.disjoint found' found member inOwn lock.symm)

/-- One session goes on, and nothing is committed. -/
theorem Invariant.put (inv : sure.Invariant s) {id : Nat} {session : Session sys}
    (sessions : s'.sessions = Function.update s.sessions id (some session))
    (committed : s'.committed = s.committed) (locked : s'.Locked)
    (stands : sure.Stands s.committed session) : sure.Invariant s' := by
  refine ⟨?_, by rw [committed]; exact inv.evolved, locked⟩
  intro other found at_
  rw [committed]
  rw [sessions] at at_
  by_cases same : other = id
  · subst same
    rw [Function.update_self] at at_
    obtain rfl := Option.some.inj at_
    exact stands
  · rw [Function.update_of_ne same] at at_
    exact inv.stands other found at_

/-- Every step that meets the condition keeps the promises. -/
theorem Invariant.step (inv : sure.Invariant s) {e : Event sys} (met : sure.Condition s e)
    (stepped : s.step e = some s') : sure.Invariant s' := by
  have locked := locked_step inv.locked stepped
  cases e with
  | start id job =>
      obtain ⟨-, rfl⟩ := step_start stepped
      exact inv.put rfl rfl locked (sure.ensures job _ _ inv.evolved)
  | advance id =>
      obtain ⟨session, found, ⟨q, next, shape, rfl⟩ | ⟨st, next, shape, -, rfl⟩⟩ :=
        step_advance stepped
      · have stands := inv.stands id session found
        rw [Stands, shape] at stands
        exact inv.put rfl rfl locked (stands _)
      · have stands := inv.stands id session found
        rw [Stands, shape] at stands
        exact inv.put rfl rfl locked (stands _ .refl (met session found st next shape))
  | commit id =>
      obtain ⟨session, a, found, shape, rfl⟩ := step_commit stepped
      refine ⟨?_, ?_, locked⟩
      · intro other session' at_
        have differs : other ≠ id := by
          intro same
          subst same
          simp [committing, close] at at_
        have found' : s.sessions other = some session' := by
          simpa [committing, close, differs] using at_
        exact (inv.stands other session' found').evolve (inv.stable found shape found' differs)
      · exact sure.evolves_trans _ _ _ inv.evolved
          (sure.evolves_of_made inv.evolved (inv.made found shape))
  | rollback id =>
      obtain rfl := step_rollback stepped
      refine ⟨?_, inv.evolved, locked⟩
      intro other session' at_
      by_cases same : other = id
      · subst same
        simp [close] at at_
      · exact inv.stands other session' (by simpa [close, same] using at_)

/-- So does every run that begins without sessions. -/
theorem invariant_of_run {condition : Server sys → Event sys → Prop} {e : I.Environment}
    (met : ∀ s e, condition s e → sure.Condition s e)
    (run : Run condition { committed := sure.initial, environment := e } s) :
    sure.Invariant s := by
  refine run.invariant ⟨?_, sure.evolves_refl _, ?_⟩ ?_
  · intro id session at_
    cases at_
  · intro id session at_
    cases at_
  · exact fun s₁ s₂ e inv holds stepped => inv.step (met s₁ e holds) stepped

/-- What holds at first, and of every transaction's writes behind what held before,
holds of the commits of a run and of what they leave. -/
theorem of_chronicle {condition : Server sys → Event sys → Prop} {e : I.Environment}
    {P : List (Commit sys) → I.Database → Prop} {done : List (Commit sys)}
    (met : ∀ s e, condition s e → sure.Condition s e)
    (chronicle : Chronicle condition { committed := sure.initial, environment := e } done s)
    (first : P [] sure.initial)
    (commit : ∀ done (c : Commit sys), sure.evolves sure.initial c.before →
      sure.made c.job c.answer c.before c.writes → P done c.before → P (done ++ [c]) c.after) :
    P done s.committed := by
  induction chronicle with
  | refl => exact first
  | @step done s₁ s₂ e chronicle _ stepped ih =>
      rcases step_cases stepped with ⟨nothing, same, -⟩ | ⟨id, session, a, rfl, found, shape, rfl⟩
      · rw [nothing, List.append_nil, same]
        exact ih
      · have inv := invariant_of_run met chronicle.run
        rw [commits_of_commit found shape]
        exact commit done ⟨session.job, a, s₁.committed, session.pending⟩ inv.evolved
          (inv.made found shape) ih

end Assurance

end Sql
