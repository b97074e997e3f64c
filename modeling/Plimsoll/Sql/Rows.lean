import Plimsoll.Sql.ReadCommitted

/-!
Databases read row by row, each under the lock of its writes.

What a transaction has written is locked until it ends. So where another commits
meanwhile, it finds its own rows as it left them, and the others as they are committed.
-/

namespace Sql

/-! ## Sessions -/

namespace Server

variable {I : Interface} {ε α : Type} {sys : System I ε α} {s s' : Server sys} {e : Event sys}

/-- What holds of every session, of what is committed beside it, holds behind every step,
where it holds of a session that begins, is kept by what a session does, and by the
commits of the others. -/
theorem sessions_step {P : I.Database → Session sys → Prop} (stepped : s.step e = some s')
    (all : ∀ id session, s.sessions id = some session → P s.committed session)
    (begun : ∀ id job, e = .start id job → P s.committed
      { job, setting := sys.setting job s.environment, pending := [], program := sys.body job })
    (asked : ∀ id session q next r, s.sessions id = some session →
      session.program = .ask q next → P s.committed { session with program := next r })
    (executed : ∀ id session st next, s.sessions id = some session →
      session.program = .execute st next → P s.committed { session with
        setting := I.setting st session.setting
        pending := session.pending ++ (I.execute st session.setting (s.view session)).2
        program := next (I.execute st session.setting (s.view session)).1 })
    (commits : ∀ id other session session', s.sessions id = some session →
      s.sessions other = some session' → other ≠ id → P (s.view session) session') :
    ∀ id session, s'.sessions id = some session → P s'.committed session := by
  -- one session goes on, and the others stay as they are
  have goes {id : Nat} {session : Session sys} (own : P s.committed session) (other : Nat)
      (session' : Session sys)
      (at_ : Function.update s.sessions id (some session) other = some session') :
      P s.committed session' := by
    by_cases same : other = id
    · subst same
      rw [Function.update_self, Option.some.injEq] at at_
      exact at_ ▸ own
    · rw [Function.update_of_ne same] at at_
      exact all other session' at_
  cases e with
  | start id job =>
      obtain ⟨-, rfl⟩ := step_start stepped
      exact goes (begun id job rfl)
  | advance id =>
      obtain ⟨session, found, ⟨q, next, shape, rfl⟩ | ⟨st, next, shape, -, rfl⟩⟩ :=
        step_advance stepped
      · exact goes (asked id session q next _ found shape)
      · exact goes (executed id session st next found shape)
  | commit id =>
      obtain ⟨session, a, found, -, rfl⟩ := step_commit stepped
      intro other session' at_
      by_cases same : other = id
      · subst same
        simp [committing, close] at at_
      · have found' : s.sessions other = some session' := by
          simpa [committing, close, same] using at_
        exact commits id other session session' found found' same
  | rollback id =>
      obtain rfl := step_rollback stepped
      intro other session' at_
      by_cases same : other = id
      · subst same
        simp [close] at at_
      · exact all other session' (by simpa [close, same] using at_)

/-- What is committed stays, or it is what a session sees. -/
theorem committed_step (stepped : s.step e = some s') :
    s'.committed = s.committed ∨
      ∃ id session, s.sessions id = some session ∧ s'.committed = s.view session := by
  rcases step_cases stepped with ⟨-, same, -⟩ | ⟨id, session, a, rfl, found, -, rfl⟩
  · exact Or.inl same
  · exact Or.inr ⟨id, session, found, rfl⟩

end Server

/-! ## Rows -/

/-- A database as its rows, each under its lock. -/
structure Rows (I : Interface) where
  Row : I.Lock → Type
  row : (lock : I.Lock) → I.Database → Row lock
  written : (write : I.Write) → Row (I.lock write)
  row_apply : ∀ write d, row (I.lock write) (I.apply write d) = written write
  row_apply_other : ∀ write lock d, lock ≠ I.lock write → row lock (I.apply write d) = row lock d

variable {I : Interface} {ε α : Type}

namespace Rows

variable (rows : Rows I)

/-- What holds of a row and of what is written to it holds of the row behind the writes. -/
theorem row_applyAll {P : (lock : I.Lock) → rows.Row lock → Prop} {lock : I.Lock} {d : I.Database}
    {writes : List I.Write} (before : P lock (rows.row lock d))
    (each : ∀ write ∈ writes, P (I.lock write) (rows.written write)) :
    P lock (rows.row lock (I.applyAll writes d)) := by
  induction writes generalizing d with
  | nil => exact before
  | cons write rest ih =>
      refine ih ?_ fun write' member => each write' (List.mem_cons_of_mem _ member)
      by_cases same : lock = I.lock write
      · subst same
        rw [rows.row_apply]
        exact each write List.mem_cons_self
      · rw [rows.row_apply_other write lock d same]
        exact before

/-- A row that nobody writes stays as it is. -/
theorem row_applyAll_other {lock : I.Lock} {d : I.Database} {writes : List I.Write}
    (other : ∀ write ∈ writes, lock ≠ I.lock write) :
    rows.row lock (I.applyAll writes d) = rows.row lock d := by
  induction writes generalizing d with
  | nil => rfl
  | cons write rest ih =>
      change rows.row lock (I.applyAll rest (I.apply write d)) = _
      rw [ih fun write' member => other write' (List.mem_cons_of_mem _ member),
        rows.row_apply_other write lock d (other write List.mem_cons_self)]

/-- A row that is written is the same behind the writes, whatever it was before. -/
theorem row_applyAll_written {lock : I.Lock} {d d' : I.Database} {writes : List I.Write}
    (same : (∀ write ∈ writes, lock ≠ I.lock write) → rows.row lock d = rows.row lock d') :
    rows.row lock (I.applyAll writes d) = rows.row lock (I.applyAll writes d') := by
  induction writes generalizing d d' with
  | nil =>
      refine same fun write member => ?_
      cases member
  | cons write rest ih =>
      refine ih fun others => ?_
      by_cases here : lock = I.lock write
      · subst here
        rw [rows.row_apply, rows.row_apply]
      · rw [rows.row_apply_other write lock d here, rows.row_apply_other write lock d' here]
        refine same fun write' member => ?_
        rcases List.mem_cons.mp member with first | later
        · exact first ▸ here
        · exact others write' later

/-- What a session sees behind the commit of another: where it has written, what it saw,
and the other has not written there; elsewhere what the other saw, and it saw what was
committed. -/
theorem row_committing {sys : System I ε α} {s : Server sys} (locked : s.Locked) {id other : Nat}
    {session session' : Session sys} (found : s.sessions id = some session)
    (found' : s.sessions other = some session') (differs : other ≠ id) (lock : I.Lock) :
    (rows.row lock (I.applyAll session'.pending (s.view session)) =
          rows.row lock (s.view session') ∧
        rows.row lock (s.view session) = rows.row lock s.committed ∧
          ∃ write ∈ session'.pending, lock = I.lock write) ∨
      rows.row lock (I.applyAll session'.pending (s.view session)) =
          rows.row lock (s.view session) ∧
        rows.row lock (s.view session') = rows.row lock s.committed := by
  by_cases own : ∀ write ∈ session'.pending, lock ≠ I.lock write
  · exact Or.inr ⟨rows.row_applyAll_other own, rows.row_applyAll_other own⟩
  · obtain ⟨write, member, here⟩ : ∃ write ∈ session'.pending, lock = I.lock write := by
      simpa only [not_forall, not_not, exists_prop] using own
    have untouched : rows.row lock (s.view session) = rows.row lock s.committed := by
      refine rows.row_applyAll_other fun write' member' same => differs ?_
      exact locked.disjoint found' found member member' (here.symm.trans same)
    exact Or.inl ⟨rows.row_applyAll_written fun _ => untouched, untouched, write, member, here⟩

/-- A row that a session sees is committed, or it is one that it has written. -/
theorem row_view_cases {sys : System I ε α} {s : Server sys} (session : Session sys)
    (lock : I.Lock) :
    rows.row lock (s.view session) = rows.row lock s.committed ∨
      ∃ write ∈ session.pending, lock = I.lock write := by
  by_cases own : ∀ write ∈ session.pending, lock ≠ I.lock write
  · exact Or.inl (rows.row_applyAll_other own)
  · exact Or.inr (by simpa only [not_forall, not_not, exists_prop] using own)

end Rows

end Sql
